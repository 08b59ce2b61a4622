import TokenAtlas.Proofs.Atom.Tiling
import TokenAtlas.Proofs.Cursor.Plan

/-! The kinds of atoms. A bracket comes out of a cast, as a pair that encloses blanks and a
type, and out of an attribute's opening, which stays the opening of a square group. The
atoms of all other tokens are blanks or of the token's own kind. -/

namespace TokenAtlas

namespace Atom

theorem place_append (p : Position) (ps qs : List Piece) :
    ∃ q, place p (ps ++ qs) = place p ps ++ place q qs := by
  induction ps generalizing p with
  | nil => exact ⟨p, rfl⟩
  | cons piece rest ih =>
    obtain ⟨kind, cs⟩ := piece
    rw [List.cons_append, place_cons, place_cons]
    split
    · exact ih p
    · obtain ⟨q, hq⟩ := ih (p.advance (String.ofList cs))
      exact ⟨q, by rw [hq]; rfl⟩

/-- A kind of atom that a token of kind `k` may come apart into without brackets. -/
def IsPlainPart (k part : Kind) : Prop := part = .whitespace ∨ part = .lineBreak ∨ part = k

/-- Kinds of atoms that may stand for tokens of another kind. -/
def partKinds : List Kind :=
  [.whitespace, .lineBreak, .castType, .openParen, .closeParen, .attributeMarker, .openSquare]

/-- What holds of blanks and of a kind holds of its plain parts. -/
theorem IsPlainPart.holds {P : Kind → Prop} {k part : Kind} (h : IsPlainPart k part)
    (hwhitespace : P .whitespace) (hbreak : P .lineBreak) (hk : P k) : P part := by
  rcases h with rfl | rfl | rfl
  · exact hwhitespace
  · exact hbreak
  · exact hk

theorem kind_of_mem_blankRuns {cs : List Char} {piece : Piece} (h : piece ∈ blankRuns cs)
    (k : Kind) : IsPlainPart k piece.1 := by
  obtain ⟨run, -, rfl⟩ := List.mem_map.1 h
  by_cases hb : run.any Text.isBreak = true
  · exact .inr (.inl (if_pos hb))
  · exact .inl (if_neg hb)

theorem kind_of_mem_linePieces {apart : Bool} {k : Kind} {line : Text.Line} {piece : Piece}
    (h : piece ∈ linePieces apart k line) : IsPlainPart k piece.1 := by
  unfold linePieces at h
  split at h <;> simp only [List.mem_cons, List.not_mem_nil, or_false] at h
  · rcases h with rfl | rfl | rfl | rfl
    · exact .inl rfl
    · exact .inr (.inr rfl)
    · exact .inl rfl
    · exact .inr (.inl rfl)
  · rcases h with rfl | rfl
    · exact .inr (.inr rfl)
    · exact .inr (.inl rfl)

theorem kind_of_mem_openTagPieces {k : Kind} {cs : List Char} {ps : List Piece}
    (h : openTagPieces k cs = .ok ps) {piece : Piece} (hp : piece ∈ ps) :
    IsPlainPart k piece.1 := by
  obtain ⟨n, -, rfl⟩ := openTagPieces_eq_ok h
  rcases List.mem_cons.1 hp with rfl | hp
  · exact .inr (.inr rfl)
  · exact kind_of_mem_blankRuns hp k

theorem kind_of_mem_closeTagPieces {cs : List Char} {ps : List Piece}
    (h : closeTagPieces cs = .ok ps) {piece : Piece} (hp : piece ∈ ps) :
    IsPlainPart .closeTag piece.1 := by
  obtain ⟨rest, -, rfl⟩ := closeTagPieces_eq_ok h
  simp only [List.mem_cons, List.not_mem_nil, or_false] at hp
  rcases hp with rfl | rfl
  · exact .inr (.inr rfl)
  · exact .inr (.inl rfl)

theorem kind_of_mem_heredocStartPieces {cs : List Char} {ps : List Piece}
    (h : heredocStartPieces cs = .ok ps) {piece : Piece} (hp : piece ∈ ps) :
    IsPlainPart .heredocStart piece.1 := by
  obtain ⟨opener, ending, -, -, -, rfl⟩ := heredocStartPieces_eq_ok h
  simp only [List.mem_cons, List.not_mem_nil, or_false] at hp
  rcases hp with rfl | rfl
  · exact .inr (.inr rfl)
  · exact .inr (.inl rfl)

theorem kind_of_mem_heredocEndPieces {cs : List Char} {ps : List Piece}
    (h : heredocEndPieces cs = .ok ps) {piece : Piece} (hp : piece ∈ ps) :
    IsPlainPart .heredocEnd piece.1 := by
  obtain ⟨-, rfl⟩ := heredocEndPieces_eq_ok h
  simp only [List.mem_cons, List.not_mem_nil, or_false] at hp
  rcases hp with rfl | rfl
  · exact .inl rfl
  · exact .inr (.inr rfl)

/-- Splitters other than those of casts and attributes make no brackets. -/
theorem kind_of_mem_pieces {apart : Bool} {k : Kind} {s : Splitter} {cs : List Char}
    {ps : List Piece} (hs : Splitter.ofKind apart k = some s) (hcast : k.isCast = false)
    (hattribute : k ≠ .attributeOpen) (h : s.pieces k cs = .ok ps) {piece : Piece}
    (hp : piece ∈ ps) : IsPlainPart k piece.1 := by
  have hkind := Splitter.kind_of_ofKind hs
  cases s with
  | whitespace =>
    obtain ⟨-, rfl⟩ := pieces_whitespace_eq_ok h
    exact kind_of_mem_blankRuns hp k
  | cast => exact absurd hkind (by simp [hcast])
  | attributeOpen => exact absurd hkind hattribute
  | openTag => exact kind_of_mem_openTagPieces h hp
  | closeTag =>
    obtain rfl : k = .closeTag := hkind
    exact kind_of_mem_closeTagPieces h hp
  | heredocStart =>
    obtain rfl : k = .heredocStart := hkind
    exact kind_of_mem_heredocStartPieces h hp
  | heredocEnd =>
    obtain rfl : k = .heredocEnd := hkind
    exact kind_of_mem_heredocEndPieces h hp
  | lines apart =>
    rw [← Except.ok.inj h] at hp
    obtain ⟨line, -, hline⟩ := List.mem_flatMap.1 hp
    exact kind_of_mem_linePieces hline

/-- A cast is a pair of brackets around its type. -/
theorem place_castPieces {cs : List Char} {ps : List Piece} (h : castPieces cs = .ok ps)
    (p : Position) :
    ∃ o inner c, place p ps = o :: (inner ++ [c]) ∧ o.kind = .openParen ∧
      c.kind = .closeParen ∧ ∀ a ∈ inner, a.kind = .whitespace ∨ a.kind = .castType := by
  obtain ⟨text, -, rfl⟩ := castPieces_eq_ok h
  generalize Text.margins text = m
  obtain ⟨q, hq⟩ := place_append (p.advance (String.ofList ['(']))
    [(.whitespace, m.front), (.castType, m.body), (.whitespace, m.back)] [(.closeParen, [')'])]
  refine ⟨⟨.openParen, String.ofList ['('], p.line, p.offset⟩,
    place (p.advance (String.ofList ['(']))
      [(.whitespace, m.front), (.castType, m.body), (.whitespace, m.back)],
    ⟨.closeParen, String.ofList [')'], q.line, q.offset⟩, ?_, rfl, rfl, fun a ha => ?_⟩
  · rw [place_cons]
    exact congrArg (List.cons _) hq
  · obtain ⟨piece, hp, -, hk, -⟩ := mem_place ha
    simp only [List.mem_cons, List.not_mem_nil, or_false] at hp
    rw [hk]
    rcases hp with rfl | rfl | rfl
    · exact .inl rfl
    · exact .inr rfl
    · exact .inl rfl

/-- An attribute's opening is a mark and a square bracket. -/
theorem place_attributePieces {cs : List Char} {ps : List Piece} (h : attributePieces cs = .ok ps)
    (p : Position) :
    ∃ mark o, place p ps = [mark, o] ∧ mark.kind = .attributeMarker ∧ o.kind = .openSquare := by
  obtain ⟨-, rfl⟩ := attributePieces_eq_ok h
  exact ⟨_, _, rfl, rfl, rfl⟩

end Atom

/-- Kinds of tokens that are not split. -/
def Kind.IsAtomic (k : Kind) : Prop := ∀ apart, Atom.Splitter.ofKind apart k = none

namespace Cursor

theorem standing_cases (splitting : Option Bool) (t : Token) :
    standing splitting t = [t] ∨
      ∃ apart s ps, Atom.Splitter.ofKind apart t.kind = some s ∧
        s.pieces t.kind t.text.toList = .ok ps ∧
        standing splitting t = Atom.place t.position ps := by
  rcases splitting with _ | apart
  · exact .inl rfl
  · rcases h : Atom.refine apart t with e | atoms
    · exact .inl (by simp [standing, h])
    · rcases Atom.refine_eq_ok h with ⟨-, rfl⟩ | ⟨s, ps, hs, hps, rfl⟩
      · exact .inl (by simp [standing, h])
      · exact .inr ⟨apart, s, ps, hs, hps, by simp [standing, h]⟩

theorem standing_of_isAtomic (splitting : Option Bool) {t : Token} (h : t.kind.IsAtomic) :
    standing splitting t = [t] := by
  rcases standing_cases splitting t with hself | ⟨apart, s, ps, hs, -⟩
  · exact hself
  · simp [h apart] at hs

theorem standing_of_isCast (splitting : Option Bool) {t : Token} (h : t.kind.isCast = true) :
    standing splitting t = [t] ∨
      ∃ o inner c, standing splitting t = o :: (inner ++ [c]) ∧ o.kind = .openParen ∧
        c.kind = .closeParen ∧ ∀ a ∈ inner, a.kind = .whitespace ∨ a.kind = .castType := by
  rcases standing_cases splitting t with hself | ⟨apart, s, ps, hs, hps, hplace⟩
  · exact .inl hself
  · obtain rfl : s = .cast := by
      generalize t.kind = k at h hs
      cases k <;> cases h <;> exact (Option.some.inj hs).symm
    rw [hplace]
    exact .inr (Atom.place_castPieces hps _)

theorem standing_of_attributeOpen (splitting : Option Bool) {t : Token}
    (h : t.kind = .attributeOpen) :
    standing splitting t = [t] ∨
      ∃ mark o, standing splitting t = [mark, o] ∧ mark.kind = .attributeMarker ∧
        o.kind = .openSquare := by
  rcases standing_cases splitting t with hself | ⟨apart, s, ps, hs, hps, hplace⟩
  · exact .inl hself
  · obtain rfl : s = .attributeOpen := by simpa [h, Atom.Splitter.ofKind, eq_comm] using hs
    rw [hplace]
    exact .inr (Atom.place_attributePieces hps _)

theorem kind_of_mem_standing {splitting : Option Bool} {t : Token} (hcast : t.kind.isCast = false)
    (hattribute : t.kind ≠ .attributeOpen) {a : Token} (ha : a ∈ standing splitting t) :
    Atom.IsPlainPart t.kind a.kind := by
  rcases standing_cases splitting t with hself | ⟨apart, s, ps, hs, hps, hplace⟩
  · rw [hself] at ha
    rw [List.mem_singleton.1 ha]
    exact .inr (.inr rfl)
  · rw [hplace] at ha
    obtain ⟨piece, hp, -, hk, -⟩ := Atom.mem_place ha
    rw [hk]
    exact Atom.kind_of_mem_pieces hs hcast hattribute hps hp

/-- What stands for a token is of its kind, or a part that refining makes. -/
theorem kind_of_mem_standing_cases {splitting : Option Bool} {t a : Token}
    (ha : a ∈ standing splitting t) : a.kind = t.kind ∨ a.kind ∈ Atom.partKinds := by
  by_cases hcast : t.kind.isCast = true
  · rcases standing_of_isCast splitting hcast with hself | ⟨o, inner, c, hs, ho, hc, hinner⟩
    · rw [hself, List.mem_singleton] at ha
      exact .inl (congrArg Token.kind ha)
    · rw [hs, List.mem_cons, List.mem_append, List.mem_singleton] at ha
      rcases ha with rfl | ha | rfl
      · exact .inr (by rw [ho]; decide)
      · rcases hinner a ha with hk | hk <;> exact .inr (by rw [hk]; decide)
      · exact .inr (by rw [hc]; decide)
  · by_cases hattribute : t.kind = .attributeOpen
    · rcases standing_of_attributeOpen splitting hattribute with hself | ⟨mark, o, hs, hmark, ho⟩
      · rw [hself, List.mem_singleton] at ha
        exact .inl (congrArg Token.kind ha)
      · rw [hs, List.mem_pair] at ha
        rcases ha with rfl | rfl
        · exact .inr (by rw [hmark]; decide)
        · exact .inr (by rw [ho]; decide)
    · rcases kind_of_mem_standing (by simpa using hcast) hattribute ha with hk | hk | hk
      · exact .inr (by rw [hk]; decide)
      · exact .inr (by rw [hk]; decide)
      · exact .inl hk

theorem ne_of_mem_standing {splitting : Option Bool} {t a : Token} {k : Kind} (hk : t.kind ≠ k)
    (hpart : k ∉ Atom.partKinds) (ha : a ∈ standing splitting t) : a.kind ≠ k := by
  rintro rfl
  rcases kind_of_mem_standing_cases ha with hsame | hmem
  · exact hk hsame.symm
  · exact hpart hmem

end Cursor

end TokenAtlas
