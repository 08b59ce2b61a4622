import Mathlib.Data.List.TakeWhile
import TokenAtlas.Atom.Refine

/-! What each splitter accepts, and the pieces it makes of a text. What is proved of atoms
starts from these lemmas and opens no splitter again. -/

namespace TokenAtlas.Atom

open Text

variable {k : Kind} {cs : List Char} {ps : List Piece}

theorem castPieces_eq_ok (h : castPieces cs = .ok ps) :
    ∃ inner, cs = '(' :: (inner ++ [')']) ∧
      ps = [(.openParen, ['(']), (.whitespace, (margins inner).front),
        (.castType, (margins inner).body), (.whitespace, (margins inner).back),
        (.closeParen, [')'])] := by
  unfold castPieces at h
  split at h
  · next rest =>
    simp only at h
    split at h
    · next hclose =>
      split at h
      · simp at h
      · simp only [Bool.and_eq_true, decide_eq_true_eq] at hclose
        obtain ⟨inner, rfl⟩ := List.getLast?_eq_some_iff.1 hclose.1
        rw [List.dropLast_concat] at h
        exact ⟨inner, rfl, (Except.ok.inj h).symm⟩
    · simp at h
  · simp at h

theorem attributePieces_eq_ok (h : attributePieces cs = .ok ps) :
    cs = ['#', '['] ∧ ps = [(.attributeMarker, ['#']), (.openSquare, ['['])] := by
  unfold attributePieces at h
  split at h
  · next hcs => exact ⟨hcs, (Except.ok.inj h).symm⟩
  · simp at h

/-- The tag in front of a text, by its length. -/
theorem openTagLength?_eq_some {n : Nat} (h : openTagLength? cs = some n) :
    n = 5 ∧ (cs.take 5).map Char.toLower = ['<', '?', 'p', 'h', 'p'] ∨
      n = 3 ∧ cs.take 3 = ['<', '?', '='] ∨ n = 2 ∧ cs.take 2 = ['<', '?'] := by
  unfold openTagLength? at h
  split at h
  · next h5 => exact .inl ⟨(Option.some.inj h).symm, h5⟩
  · split at h
    · next h3 => exact .inr (.inl ⟨(Option.some.inj h).symm, h3⟩)
    · split at h
      · next h2 => exact .inr (.inr ⟨(Option.some.inj h).symm, h2⟩)
      · simp at h

/-- A tag ends neither in a carriage return nor behind the text. -/
theorem take_openTagLength? {n : Nat} (h : openTagLength? cs = some n) :
    cs.take n ≠ [] ∧ (cs.take n).getLast? ≠ some '\r' := by
  rcases openTagLength?_eq_some h with ⟨rfl, h5⟩ | ⟨rfl, h3⟩ | ⟨rfl, h2⟩
  · refine ⟨fun hnil => by simp [hnil] at h5, fun hlast => ?_⟩
    have := congrArg List.getLast? h5
    rw [List.getLast?_map, hlast] at this
    exact absurd this (by decide)
  · rw [h3]
    decide
  · rw [h2]
    decide

theorem openTagPieces_eq_ok (h : openTagPieces k cs = .ok ps) :
    ∃ n, openTagLength? cs = some n ∧ ps = (k, cs.take n) :: blankRuns (cs.drop n) := by
  unfold openTagPieces at h
  split at h
  · simp at h
  · next n hn =>
    simp only at h
    split at h
    · exact ⟨n, hn, (Except.ok.inj h).symm⟩
    · simp at h

theorem closeTagPieces_eq_ok (h : closeTagPieces cs = .ok ps) :
    ∃ rest, cs = '?' :: '>' :: rest ∧ ps = [(.closeTag, ['?', '>']), (.lineBreak, rest)] := by
  unfold closeTagPieces at h
  split at h
  · next rest =>
    split at h
    · exact ⟨rest, rfl, (Except.ok.inj h).symm⟩
    · simp at h
  · simp at h

theorem cutLastBreak?_append {opener ending : List Char}
    (h : cutLastBreak? cs = some (opener, ending)) : opener ++ ending = cs := by
  unfold cutLastBreak? at h
  split at h <;> simp only [Option.some.injEq, Prod.mk.injEq, reduceCtorEq] at h
  all_goals
    next hr =>
    obtain ⟨rfl, rfl⟩ := h
    rw [← List.reverse_reverse cs, hr]
    simp

theorem heredocStartPieces_eq_ok (h : heredocStartPieces cs = .ok ps) :
    ∃ opener ending, opener ++ ending = cs ∧ opener ≠ [] ∧ (∀ c ∈ opener, isBreak c = false) ∧
      ps = [(.heredocStart, opener), (.lineBreak, ending)] := by
  unfold heredocStartPieces at h
  split at h
  · simp at h
  · next opener ending hcut =>
    split at h
    · simp at h
    · next hopener =>
      simp only [Bool.or_eq_true, not_or, Bool.not_eq_true, List.isEmpty_eq_false_iff,
        List.any_eq_false] at hopener
      exact ⟨opener, ending, cutLastBreak?_append hcut, hopener.1, hopener.2,
        (Except.ok.inj h).symm⟩

theorem heredocEndPieces_eq_ok (h : heredocEndPieces cs = .ok ps) :
    cs.dropWhile isIndent ≠ [] ∧
      ps = [(.whitespace, cs.takeWhile isIndent), (.heredocEnd, cs.dropWhile isIndent)] := by
  unfold heredocEndPieces at h
  simp only at h
  split at h
  · simp at h
  · next hterminator => exact ⟨by simpa using hterminator, (Except.ok.inj h).symm⟩

/-- Blanks of any number are accepted, but for none. -/
theorem pieces_whitespace_eq_ok (h : Splitter.whitespace.pieces k cs = .ok ps) :
    cs ≠ [] ∧ ps = blankRuns cs := by
  simp only [Splitter.pieces] at h
  split at h
  · simp at h
  · next hcs => exact ⟨by simpa using hcs, (Except.ok.inj h).symm⟩

/-! ### The kinds of tokens -/

/-- The kinds a splitter is for. -/
theorem Splitter.kind_of_ofKind {apart : Bool} {s : Splitter} (h : ofKind apart k = some s) :
    match s with
    | .whitespace => k = .whitespace
    | .cast => k.isCast = true
    | .attributeOpen => k = .attributeOpen
    | .openTag => k = .openTag ∨ k = .openTagWithEcho
    | .closeTag => k = .closeTag
    | .heredocStart => k = .heredocStart
    | .heredocEnd => k = .heredocEnd
    | .lines _ => k = .comment ∨ k = .docComment ∨ k = .constantString ∨ k = .stringSegment := by
  cases k <;> cases h <;> simp [Kind.isCast]

theorem Splitter.accepts_of_ofKind {apart : Bool} {s : Splitter} (h : ofKind apart k = some s) :
    s.accepts k = true := by
  cases k <;> cases h <;> simp [accepts, ofKind]

/-! ### The tokens that are refined -/

variable {apart : Bool} {t : Token} {s : Splitter} {atoms : List Token}

theorem Splitter.split_eq_ok (h : s.split t = .ok atoms) :
    ∃ ps, s.pieces t.kind t.text.toList = .ok ps ∧ atoms = place t.position ps := by
  unfold Splitter.split at h
  split at h
  · split at h
    · next ps hps => exact ⟨ps, hps, (Except.ok.inj h).symm⟩
    · simp at h
  · simp at h

/-- A token without a splitter is its own atom, any other is cut into pieces. -/
theorem refine_eq_ok (h : refine apart t = .ok atoms) :
    (Splitter.ofKind apart t.kind = none ∧ atoms = [t]) ∨
      ∃ s ps, Splitter.ofKind apart t.kind = some s ∧
        s.pieces t.kind t.text.toList = .ok ps ∧ atoms = place t.position ps := by
  unfold refine atomize at h
  split at h
  · simp [Except.map] at h
  · split at h
    · next hs => exact .inl ⟨hs, by simpa [Except.map] using h.symm⟩
    · next s hs =>
      split at h
      · simp [Except.map] at h
      · next found hfound =>
        obtain ⟨ps, hps, rfl⟩ := Splitter.split_eq_ok hfound
        refine .inr ⟨s, ps, hs, hps, ?_⟩
        simp only [Except.map, Except.ok.injEq] at h
        split at h
        · next hone => rw [hone, ← h]; rfl
        · exact h.symm

theorem length_le_of_refine (h : refine apart t = .ok atoms) :
    t.text.utf8ByteSize ≤ Limits.tokenLength := by
  by_contra hlong
  simp [refine, atomize, Nat.not_le.1 hlong, Except.map] at h

theorem refine_of_ofKind_none (hlength : t.text.utf8ByteSize ≤ Limits.tokenLength)
    (hs : Splitter.ofKind apart t.kind = none) : refine apart t = .ok [t] := by
  rw [refine, atomize, if_neg (Nat.not_lt.2 hlength), hs]
  rfl

theorem refine_of_pieces (hlength : t.text.utf8ByteSize ≤ Limits.tokenLength)
    (hs : Splitter.ofKind apart t.kind = some s) (hps : s.pieces t.kind t.text.toList = .ok ps) :
    refine apart t = .ok (place t.position ps) := by
  have hsplit : s.split t = .ok (place t.position ps) := by
    rw [Splitter.split, if_pos (Splitter.accepts_of_ofKind hs), hps]
  rw [refine, atomize, if_neg (Nat.not_lt.2 hlength), hs]
  simp only [hsplit]
  split
  · next hone => rw [hone]; rfl
  · rfl

theorem refine_of_atomize (h : atomize apart t = .ok (some atoms)) : refine apart t = .ok atoms := by
  simp [refine, h, Except.map]

/-- A token that does not pass through is cut into pieces. -/
theorem atomize_eq_some (h : atomize apart t = .ok (some atoms)) :
    ∃ s ps, Splitter.ofKind apart t.kind = some s ∧
      s.pieces t.kind t.text.toList = .ok ps ∧ atoms = place t.position ps := by
  rcases refine_eq_ok (refine_of_atomize h) with ⟨hs, -⟩ | hpieces
  · unfold atomize at h
    rw [hs] at h
    split at h <;> simp at h
  · exact hpieces

/-! ### Placing the pieces -/

theorem mem_place {p : Position} {a : Token} (h : a ∈ place p ps) :
    ∃ piece ∈ ps, piece.2 ≠ [] ∧ a.kind = piece.1 ∧ a.text.toList = piece.2 := by
  induction ps generalizing p with
  | nil => simp at h
  | cons piece rest ih =>
    obtain ⟨kind, cs⟩ := piece
    rw [place_cons] at h
    split at h
    · obtain ⟨piece, hp, hpiece⟩ := ih h
      exact ⟨piece, List.mem_cons_of_mem _ hp, hpiece⟩
    · next hne =>
      rcases List.mem_cons.1 h with rfl | h
      · exact ⟨_, List.mem_cons_self, by simpa using hne, rfl, String.toList_ofList⟩
      · obtain ⟨piece, hp, hpiece⟩ := ih h
        exact ⟨piece, List.mem_cons_of_mem _ hp, hpiece⟩

theorem exists_mem_place (p : Position) {piece : Piece} (h : piece ∈ ps) (hne : piece.2 ≠ []) :
    ∃ a ∈ place p ps, a.kind = piece.1 := by
  induction ps generalizing p with
  | nil => simp at h
  | cons first rest ih =>
    obtain ⟨kind, cs⟩ := first
    rw [place_cons]
    rcases List.mem_cons.1 h with rfl | h
    · rw [if_neg (by simpa using hne)]
      exact ⟨_, List.mem_cons_self, rfl⟩
    · split
      · exact ih p h
      · obtain ⟨a, ha, hk⟩ := ih (p.advance (String.ofList cs)) h
        exact ⟨a, List.mem_cons_of_mem _ ha, hk⟩

/-- Empty pieces make no difference. -/
theorem place_filter (p : Position) (ps : List Piece) :
    place p (ps.filter (!·.2.isEmpty)) = place p ps := by
  induction ps generalizing p with
  | nil => rfl
  | cons piece rest ih =>
    obtain ⟨kind, cs⟩ := piece
    rcases hcs : cs.isEmpty with _ | _
    · rw [List.filter_cons_of_pos (by simpa using hcs), place_cons, place_cons, ih, ih]
    · rw [List.filter_cons_of_neg (by simpa using hcs), place_cons, if_pos hcs, ih]

end TokenAtlas.Atom
