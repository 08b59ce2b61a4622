import Mathlib.Data.List.Forall2
import TokenAtlas.Proofs.Atom.Tiling

/-! What the tokens of a source contribute to the refined stream. A splitter that finds nothing
to cut refuses the text, except where a text is cut into lines: the empty text has none. Main
statement: an accepted token leaves nothing behind exactly when it is an empty comment or an
empty string. -/

namespace TokenAtlas

/-- Kinds of tokens that are split into lines: comments and strings. -/
def Kind.isLined : Kind → Bool
  | .comment | .docComment | .constantString | .stringSegment => true
  | _ => false

namespace Atom

/-- A refined stream is made up of what the tokens of the source contribute one by one. -/
theorem atomizeAll_eq_ok_iff {apart : Bool} {ts atoms : List Token} :
    atomizeAll apart ts = .ok atoms ↔
      ∃ parts : List (List Token),
        List.Forall₂ (fun t part => refine apart t = .ok part) ts parts ∧ parts.flatten = atoms := by
  induction ts generalizing atoms with
  | nil => simp [eq_comm]
  | cons t rest ih =>
    rw [atomizeAll_cons]
    constructor
    · intro h
      rcases ht : refine apart t with e | part
      · simp [ht] at h
      · rcases hrest : atomizeAll apart rest with e | more
        · simp [ht, hrest, Except.map] at h
        · obtain rfl : part ++ more = atoms := by simpa [ht, hrest, Except.map] using h
          obtain ⟨parts, hparts, rfl⟩ := ih.1 hrest
          exact ⟨part :: parts, .cons ht hparts, rfl⟩
    · rintro ⟨parts, hparts, rfl⟩
      obtain ⟨part, more, ht, hmore, rfl⟩ := List.forall₂_cons_left_iff.1 hparts
      rw [ht, ih.2 ⟨more, hmore, rfl⟩]
      rfl

/-- A source is accepted when each of its tokens is. -/
theorem accepted_iff {apart : Bool} {ts : List Token} :
    (∃ atoms, atomizeAll apart ts = .ok atoms) ↔ ∀ t ∈ ts, ∃ part, refine apart t = .ok part := by
  induction ts with
  | nil => simp
  | cons t rest ih =>
    rw [List.forall_mem_cons, ← ih]
    simp only [atomizeAll_cons]
    rcases refine apart t with e | part
    · simp
    · rcases atomizeAll apart rest with e | more <;> simp [Except.map]

/-- An atom of a refined stream is an atom of some token of the source. -/
theorem exists_of_mem_atomizeAll {apart : Bool} {ts atoms : List Token}
    (h : atomizeAll apart ts = .ok atoms) {a : Token} (ha : a ∈ atoms) :
    ∃ t ∈ ts, ∃ part, refine apart t = .ok part ∧ a ∈ part := by
  obtain ⟨parts, hparts, rfl⟩ := atomizeAll_eq_ok_iff.1 h
  clear h
  induction hparts with
  | nil => simp at ha
  | cons ht _ ih =>
    rw [List.flatten_cons] at ha
    rcases List.mem_append.1 ha with ha | ha
    · exact ⟨_, List.mem_cons_self, _, ht, ha⟩
    · obtain ⟨t, hmem, part⟩ := ih ha
      exact ⟨t, List.mem_cons_of_mem _ hmem, part⟩

theorem Splitter.ofKind_of_isLined (apart : Bool) {k : Kind} (h : k.isLined = true) :
    ofKind apart k = some (.lines apart) := by
  cases k <;> first | rfl | exact absurd h (by decide)

theorem Splitter.isLined_of_ofKind {apart apart' : Bool} {k : Kind}
    (h : ofKind apart k = some (.lines apart')) : k.isLined = true := by
  rcases kind_of_ofKind h with rfl | rfl | rfl | rfl <;> rfl

/-- Of the empty text only the lines are accepted. -/
theorem Splitter.pieces_nil {s : Splitter} {k : Kind} {ps : List Piece}
    (h : s.pieces k [] = .ok ps) : ∃ apart, s = .lines apart := by
  cases s with
  | lines apart => exact ⟨apart, rfl⟩
  | openTag => simp [pieces, openTagPieces, openTagLength?] at h
  | heredocStart => simp [pieces, heredocStartPieces, cutLastBreak?] at h
  | _ => simp [pieces, castPieces, attributePieces, closeTagPieces, heredocEndPieces] at h

/-- What a token leaves behind makes up its text. -/
theorem Covers.text_eq_empty {t : Token} (h : Covers t []) : t.text = "" := h.joined.symm

theorem atomize_eq_nil_iff {apart : Bool} {t : Token} :
    atomize apart t = .ok (some []) ↔ t.text = "" ∧ t.kind.isLined = true := by
  constructor
  · intro h
    have htext := (covers_of_refine (refine_of_atomize h)).text_eq_empty
    obtain ⟨s, ps, hs, hps, -⟩ := atomize_eq_some h
    rw [htext] at hps
    obtain ⟨apart', rfl⟩ := Splitter.pieces_nil hps
    exact ⟨htext, Splitter.isLined_of_ofKind hs⟩
  · rintro ⟨htext, hlined⟩
    have hs := Splitter.ofKind_of_isLined apart hlined
    simp [atomize, hs, Splitter.split, Splitter.accepts_of_ofKind hs, Splitter.pieces, htext]

theorem refine_eq_nil_iff {apart : Bool} {t : Token} :
    refine apart t = .ok [] ↔ t.text = "" ∧ t.kind.isLined = true := by
  rw [← @atomize_eq_nil_iff apart t, refine]
  rcases atomize apart t with e | _ | atoms <;> simp [Except.map]

/-- A token is replaced by nothing exactly when its text is empty and it is a comment or a
string. In a refined stream exactly those tokens of the source have no part. -/
theorem disappears_iff_empty_lined (apart : Bool) :
    (∀ t, atomize apart t = .ok (some []) ↔ t.text = "" ∧ t.kind.isLined = true) ∧
    ∀ ts atoms, atomizeAll apart ts = .ok atoms →
      ∃ parts : List (List Token), parts.flatten = atoms ∧
        List.Forall₂ (fun t part => refine apart t = .ok part ∧
          (part = [] ↔ t.text = "" ∧ t.kind.isLined = true)) ts parts := by
  refine ⟨fun t => atomize_eq_nil_iff, fun ts atoms h => ?_⟩
  obtain ⟨parts, hparts, hflatten⟩ := atomizeAll_eq_ok_iff.1 h
  refine ⟨parts, hflatten, hparts.imp fun t part hpart => ⟨hpart, ?_⟩⟩
  rw [← @refine_eq_nil_iff apart t, hpart, Except.ok.injEq]

/-- A comment without text. -/
def emptyComment : Token := ⟨.comment, "", 1, 0⟩

/-- It is accepted, does not pass through, and no atom is left of it. -/
theorem emptyComment_disappears :
    atomize true emptyComment = .ok (some []) ∧ atomize false emptyComment = .ok (some []) ∧
      atomizeAll true [emptyComment] = .ok [] := by
  decide

/-- Of the two tokens the first one alone has a part. -/
theorem disappears_iff_empty_lined_segment :
    atomizeAll false [⟨.stringSegment, "a", 1, 0⟩, emptyComment] =
        .ok [⟨.stringSegment, "a", 1, 0⟩] ∧
      ∃ parts : List (List Token), parts.flatten = [⟨.stringSegment, "a", 1, 0⟩] ∧
        List.Forall₂ (fun t part => refine false t = .ok part ∧
          (part = [] ↔ t.text = "" ∧ t.kind.isLined = true))
          [⟨.stringSegment, "a", 1, 0⟩, emptyComment] parts := by
  have h : atomizeAll false [⟨.stringSegment, "a", 1, 0⟩, emptyComment] =
      .ok [⟨.stringSegment, "a", 1, 0⟩] := by
    decide +kernel
  exact ⟨h, (disappears_iff_empty_lined false).2 _ _ h⟩

end Atom

end TokenAtlas
