import TokenAtlas.Proofs.Atom.Shape

/-! The core of a token. Splitting may cut blanks off a token, but unless the token is trivia
or a blank string something of its own kind is left. And whether a token is refused does not
depend on how blanks around lines are kept. -/

namespace TokenAtlas

/-- Strings as they are written, and parts of strings that hold variables. -/
def Kind.isString : Kind → Bool
  | .constantString | .stringSegment => true
  | _ => false

/-- Whether the text of the token is blank. -/
def Token.isBlank (t : Token) : Bool := t.text.toList.all Text.isBlank

namespace Atom

/-- Of a line with a character that is not blank some of its kind is left. -/
theorem exists_linePiece (apart : Bool) (k : Kind) {l : Text.Line} {c : Char} (hc : c ∈ l.content)
    (hblank : Text.isBlank c = false) :
    ∃ piece ∈ linePieces apart k l, piece.1 = k ∧ piece.2 ≠ [] := by
  cases apart with
  | false => exact ⟨(k, l.content), List.mem_cons_self, rfl, List.ne_nil_of_mem hc⟩
  | true =>
    exact ⟨(k, (Text.margins l.content).body), by simp [linePieces], rfl,
      List.ne_nil_of_mem (Text.mem_body_of_not_isBlank hc hblank)⟩

theorem exists_openTagPiece {k : Kind} {cs : List Char} {ps : List Piece}
    (h : openTagPieces k cs = .ok ps) : ∃ piece ∈ ps, piece.1 = k ∧ piece.2 ≠ [] := by
  obtain ⟨n, hn, rfl⟩ := openTagPieces_eq_ok h
  exact ⟨_, List.mem_cons_self, rfl, (take_openTagLength? hn).1⟩

theorem exists_closeTagPiece {cs : List Char} {ps : List Piece} (h : closeTagPieces cs = .ok ps) :
    ∃ piece ∈ ps, piece.1 = .closeTag ∧ piece.2 ≠ [] := by
  obtain ⟨rest, -, rfl⟩ := closeTagPieces_eq_ok h
  exact ⟨_, List.mem_cons_self, rfl, by simp⟩

theorem exists_heredocStartPiece {cs : List Char} {ps : List Piece}
    (h : heredocStartPieces cs = .ok ps) :
    ∃ piece ∈ ps, piece.1 = .heredocStart ∧ piece.2 ≠ [] := by
  obtain ⟨opener, ending, -, hopener, -, rfl⟩ := heredocStartPieces_eq_ok h
  exact ⟨_, List.mem_cons_self, rfl, hopener⟩

theorem exists_heredocEndPiece {cs : List Char} {ps : List Piece}
    (h : heredocEndPieces cs = .ok ps) :
    ∃ piece ∈ ps, piece.1 = .heredocEnd ∧ piece.2 ≠ [] := by
  obtain ⟨hterminator, rfl⟩ := heredocEndPieces_eq_ok h
  exact ⟨(.heredocEnd, cs.dropWhile isIndent), by simp, rfl, hterminator⟩

/-- Of a token that is more than trivia, and no blank string, some of its kind is left. -/
theorem exists_piece {apart : Bool} {k : Kind} {s : Splitter} {cs : List Char}
    {ps : List Piece} (hs : Splitter.ofKind apart k = some s) (hcast : k.isCast = false)
    (hattribute : k ≠ .attributeOpen) (htrivia : k.isTrivia = false)
    (hstring : k.isString = true → ∃ c ∈ cs, Text.isBlank c = false)
    (h : s.pieces k cs = .ok ps) : ∃ piece ∈ ps, piece.1 = k ∧ piece.2 ≠ [] := by
  have hkind := Splitter.kind_of_ofKind hs
  cases s with
  | whitespace =>
    obtain rfl : k = .whitespace := hkind
    exact absurd htrivia nofun
  | cast => exact absurd hkind (by simp [hcast])
  | attributeOpen => exact absurd hkind hattribute
  | openTag => exact exists_openTagPiece h
  | closeTag =>
    obtain rfl : k = .closeTag := hkind
    exact exists_closeTagPiece h
  | heredocStart =>
    obtain rfl : k = .heredocStart := hkind
    exact exists_heredocStartPiece h
  | heredocEnd =>
    obtain rfl : k = .heredocEnd := hkind
    exact exists_heredocEndPiece h
  | lines apart =>
    have hk : k.isString = true := by
      rcases hkind with rfl | rfl | rfl | rfl
      · exact absurd htrivia nofun
      · exact absurd htrivia nofun
      · rfl
      · rfl
    obtain ⟨c, hc, hblank⟩ := hstring hk
    obtain ⟨l, hl, hc⟩ := Text.exists_mem_content_of_not_isBlank hc hblank
    obtain ⟨piece, hp, hpiece⟩ := exists_linePiece apart k hc hblank
    rw [← Except.ok.inj h]
    exact ⟨piece, List.mem_flatMap.2 ⟨l, hl, hp⟩, hpiece⟩

/-! ### Acceptance -/

/-- Blanks around lines make a difference to the lines of comments and strings only. -/
theorem Splitter.ofKind_cases (k : Kind) (a b : Bool) :
    ofKind a k = ofKind b k ∨ ofKind a k = some (.lines a) ∧ ofKind b k = some (.lines b) := by
  cases k <;> first | exact .inl rfl | exact .inr ⟨rfl, rfl⟩

theorem accepts_of_refine {a : Bool} {t : Token} {atoms : List Token}
    (h : refine a t = .ok atoms) (b : Bool) : ∃ atoms, refine b t = .ok atoms := by
  rcases Splitter.ofKind_cases t.kind a b with hsame | ⟨-, hlines⟩
  · refine ⟨atoms, ?_⟩
    rw [← h, refine, refine, atomize, atomize, hsame]
  · exact ⟨_, refine_of_pieces (length_le_of_refine h) hlines rfl⟩

/-- Whether all tokens are accepted does not depend on how blanks around lines are kept. -/
theorem accepts_of_accepts {a : Bool} {source atoms : List Token}
    (h : atomizeAll a source = .ok atoms) (b : Bool) :
    ∃ atoms, atomizeAll b source = .ok atoms := by
  refine accepted_iff.2 fun t ht => ?_
  obtain ⟨part, hpart⟩ := accepted_iff.1 ⟨atoms, h⟩ t ht
  exact accepts_of_refine hpart b

end Atom

namespace Cursor

/-- What stands for a token that is more than trivia, and no blank string, holds a token of
its kind. -/
theorem exists_mem_standing (splitting : Option Bool) {t : Token} (hcast : t.kind.isCast = false)
    (hattribute : t.kind ≠ .attributeOpen) (htrivia : t.isTrivia = false)
    (hstring : t.kind.isString = true → t.isBlank = false) :
    ∃ a ∈ standing splitting t, a.kind = t.kind := by
  rcases standing_cases splitting t with hself | ⟨apart, s, ps, hs, hps, hplace⟩
  · exact ⟨t, by simp [hself], rfl⟩
  · obtain ⟨piece, hp, hk, hne⟩ := Atom.exists_piece hs hcast hattribute htrivia
      (fun hk => by simpa [Token.isBlank] using hstring hk) hps
    obtain ⟨a, ha, hkind⟩ := Atom.exists_mem_place t.position hp hne
    exact ⟨a, hplace ▸ ha, hkind.trans hk⟩

end Cursor

end TokenAtlas
