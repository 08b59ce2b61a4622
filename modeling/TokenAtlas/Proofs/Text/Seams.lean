import Mathlib.Tactic.Tauto
import TokenAtlas.Span

/-! Counting line breaks piece by piece. The breaks of two texts add up, less one where
the cut between them separates a carriage return from its line feed. A list of texts is
seamless if none of its cuts does; passing over its texts one by one then leads to the
position behind the whole. -/

namespace TokenAtlas.Text

/-- Whether the cut between two texts falls inside a line break. -/
def splitsBreak (a b : List Char) : Bool := a.getLast? = some '\r' && b.head? = some '\n'

@[simp] theorem splitsBreak_nil_left (b : List Char) : splitsBreak [] b = false := rfl

@[simp] theorem splitsBreak_nil_right (a : List Char) : splitsBreak a [] = false := by
  simp [splitsBreak]

theorem splitsBreak_append_left (a : List Char) {b : List Char} (hb : b ≠ []) (c : List Char) :
    splitsBreak (a ++ b) c = splitsBreak b c := by
  simp [splitsBreak, hb]

theorem splitsBreak_append_right (a : List Char) {b : List Char} (hb : b ≠ []) (c : List Char) :
    splitsBreak a (b ++ c) = splitsBreak a b := by
  simp [splitsBreak, hb]

theorem splitsBreak_of_getLast? {a : List Char} (h : a.getLast? ≠ some '\r') (b : List Char) :
    splitsBreak a b = false := by
  simp [splitsBreak, h]

theorem splitsBreak_of_head? (a : List Char) {b : List Char} (h : b.head? ≠ some '\n') :
    splitsBreak a b = false := by
  simp [splitsBreak, h]

/-- A character ends a line in front of a text just as it does alone, unless the cut behind it
falls inside a line break. -/
theorem endsLine_singleton (c : Char) (b : List Char) :
    (if endsLine c b then 1 else 0) + (if splitsBreak [c] b then 1 else 0) =
      if endsLine c [] then 1 else 0 := by
  by_cases hfeed : c = '\n'
  · simp [endsLine, splitsBreak, hfeed]
  by_cases hreturn : c = '\r'
  · by_cases hcut : b.head? = some '\n'
    · simp [endsLine, splitsBreak, hreturn, hcut]
    · simp [endsLine, splitsBreak, hreturn, hcut]
  · simp [endsLine, splitsBreak, hfeed, hreturn]

/-- Breaks add up, less one where a pair is cut in two. -/
theorem lineBreaks_append (a b : List Char) :
    lineBreaks (a ++ b) + (if splitsBreak a b then 1 else 0) = lineBreaks a + lineBreaks b := by
  induction a with
  | nil => simp
  | cons c a ih =>
    rw [List.cons_append, lineBreaks_cons, lineBreaks_cons]
    cases a with
    | nil =>
      -- the cut stands directly behind `c`
      have hc := endsLine_singleton c b
      rw [List.nil_append, lineBreaks_nil]
      omega
    | cons d a =>
      have he : endsLine c (d :: a ++ b) = endsLine c (d :: a) := by simp [endsLine]
      have hs : splitsBreak (c :: d :: a) b = splitsBreak (d :: a) b := by simp [splitsBreak]
      rw [he, hs]
      omega

/-- No cut between these texts falls inside a line break. -/
def Seamless : List (List Char) → Prop
  | [] => True
  | x :: rest => splitsBreak x rest.flatten = false ∧ Seamless rest

@[simp] theorem seamless_nil : Seamless [] := trivial

theorem seamless_cons (x : List Char) (rest : List (List Char)) :
    Seamless (x :: rest) ↔ splitsBreak x rest.flatten = false ∧ Seamless rest := Iff.rfl

theorem Seamless.of_cuts {xs : List (List Char)}
    (h : ∀ front back, xs = front ++ back → splitsBreak front.flatten back.flatten = false) :
    Seamless xs := by
  induction xs with
  | nil => trivial
  | cons x rest ih =>
    refine ⟨by simpa using h [x] rest rfl, ih fun front back he => ?_⟩
    by_cases hf : front.flatten = []
    · simp [hf]
    · have := h (x :: front) back (by simp [he])
      rwa [List.flatten_cons, splitsBreak_append_left _ hf] at this

theorem seamless_append {xs ys : List (List Char)} :
    Seamless (xs ++ ys) ↔
      Seamless xs ∧ Seamless ys ∧ splitsBreak xs.flatten ys.flatten = false := by
  induction xs with
  | nil => simp
  | cons x rest ih =>
    rw [List.cons_append, seamless_cons, seamless_cons, ih, List.flatten_append, List.flatten_cons]
    by_cases hr : rest.flatten = []
    · simp only [hr, List.nil_append, List.append_nil, splitsBreak_nil_left, splitsBreak_nil_right]
      tauto
    · rw [splitsBreak_append_right _ hr, splitsBreak_append_left _ hr]
      tauto

/-- Cutting each text further, never inside a line break, keeps a list seamless. -/
theorem Seamless.refine {ι : Type} {text : ι → List Char} {parts : ι → List (List Char)}
    {xs : List ι} (h : Seamless (xs.map text))
    (hp : ∀ x ∈ xs, (parts x).flatten = text x ∧ Seamless (parts x)) :
    Seamless (xs.flatMap parts) ∧ (xs.flatMap parts).flatten = (xs.map text).flatten := by
  induction xs with
  | nil => simp
  | cons x rest ih =>
    obtain ⟨hs, hf⟩ := ih h.2 fun y hy => hp y (List.mem_cons_of_mem _ hy)
    obtain ⟨hx, hsx⟩ := hp x List.mem_cons_self
    refine ⟨?_, by simp [hf, hx]⟩
    rw [List.flatMap_cons, seamless_append, hf, hx]
    exact ⟨hsx, hs, h.1⟩

theorem Seamless.filter_ne_nil {xs : List (List Char)} (h : Seamless xs) :
    Seamless (xs.filter (!·.isEmpty)) := by
  induction xs with
  | nil => trivial
  | cons x rest ih =>
    have hf : (rest.filter (!·.isEmpty)).flatten = rest.flatten := List.flatten_filter_not_isEmpty
    cases x with
    | nil => exact ih h.2
    | cons c x => exact ⟨by rw [hf]; exact h.1, ih h.2⟩

end TokenAtlas.Text

namespace TokenAtlas.Position

@[simp] theorem advance_empty (p : Position) : p.advance "" = p := by
  simp [advance]

theorem advance_append (p : Position) {a b : String}
    (h : Text.splitsBreak a.toList b.toList = false) :
    p.advance (a ++ b) = (p.advance a).advance b := by
  have := Text.lineBreaks_append a.toList b.toList
  simp only [h, Bool.false_eq_true, if_false] at this
  simp only [advance, String.utf8ByteSize_append, String.toList_append, Position.mk.injEq]
  omega

/-- Over seamless texts one may pass one by one. -/
theorem foldl_advance (p : Position) {texts : List String}
    (h : Text.Seamless (texts.map String.toList)) :
    texts.foldl advance p = p.advance (String.join texts) := by
  induction texts generalizing p with
  | nil => simp
  | cons a rest ih =>
    rw [List.foldl_cons, ih _ h.2, String.join_cons, advance_append]
    rw [String.toList_join, List.flatMap_def]
    exact h.1

end TokenAtlas.Position
