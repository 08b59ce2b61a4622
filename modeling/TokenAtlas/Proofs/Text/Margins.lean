import Mathlib.Data.List.TakeWhile
import TokenAtlas.Proofs.Text.Seams
import TokenAtlas.Text.Blank

/-! The margins of a text. The body between the blank margins neither begins nor ends with
a blank, so that cutting the margins off never falls inside a line break. -/

namespace TokenAtlas.Text

theorem head?_dropWhile {p : Char → Bool} {cs : List Char} {c : Char}
    (h : (cs.dropWhile p).head? = some c) : p c = false := by
  have := List.head?_dropWhile_not p cs
  simpa [h] using this

theorem head?_trimStart {cs : List Char} {c : Char} (h : (trimStart cs).head? = some c) :
    isBlank c = false := head?_dropWhile h

theorem getLast?_trimEnd {cs : List Char} {c : Char} (h : (trimEnd cs).getLast? = some c) :
    isBlank c = false := by
  rw [trimEnd, List.getLast?_reverse] at h
  exact head?_dropWhile h

/-- Nothing is cut off where the first character is to be kept. -/
theorem cut_of_head? {α : Type} {p : α → Bool} {cs : List α} (h : ∀ c ∈ cs.head?, p c = false) :
    cs.takeWhile p = [] ∧ cs.dropWhile p = cs := by
  rcases cs with _ | ⟨c, cs⟩
  · exact ⟨rfl, rfl⟩
  · have hc : p c = false := h c rfl
    simp [hc]

theorem trimEnd_prefix (cs : List Char) : trimEnd cs <+: cs := by
  rw [trimEnd, ← List.reverse_suffix, List.reverse_reverse]
  exact List.dropWhile_suffix _

theorem head?_margins_body {cs : List Char} {c : Char} (h : (margins cs).body.head? = some c) :
    isBlank c = false := by
  obtain ⟨rest, hr⟩ := trimEnd_prefix (trimStart cs)
  apply @head?_trimStart cs
  rw [← hr, List.head?_append]
  exact congrArg (·.or rest.head?) h

theorem getLast?_margins_body {cs : List Char} {c : Char}
    (h : (margins cs).body.getLast? = some c) : isBlank c = false := getLast?_trimEnd h

/-- Of a blank text everything stands in front. -/
theorem margins_back_of_body_nil {cs : List Char} (h : (margins cs).body = []) :
    (margins cs).back = [] := by
  have hd : (trimStart cs).reverse.dropWhile isBlank = [] := List.reverse_eq_nil_iff.1 h
  have hall := List.dropWhile_eq_nil_iff.1 hd
  have ht : trimStart cs = [] := by
    rcases hc : trimStart cs with _ | ⟨c, rest⟩
    · rfl
    · have hb : isBlank c = false := @head?_trimStart cs c (by rw [hc]; rfl)
      simp [hall c (by simp [hc])] at hb
  simp [margins, ht]

/-- The body of a text has no margins. -/
theorem margins_body (cs : List Char) :
    margins (margins cs).body = ⟨[], (margins cs).body, []⟩ := by
  have hfront : ∀ c ∈ (margins cs).body.head?, isBlank c = false := fun _ => head?_margins_body
  have hback : ∀ c ∈ (margins cs).body.reverse.head?, isBlank c = false := fun c hc =>
    getLast?_margins_body (List.head?_reverse ▸ hc)
  obtain ⟨hnone, hall⟩ := cut_of_head? hfront
  obtain ⟨hnone', hall'⟩ := cut_of_head? hback
  generalize (margins cs).body = body at *
  simp only [margins, trimStart, trimEnd, hnone, hall, hnone', hall', List.reverse_reverse,
    List.reverse_nil]

/-- All that is not blank stands in the body. -/
theorem mem_body_of_not_isBlank {cs : List Char} {c : Char} (hc : c ∈ cs)
    (hblank : isBlank c = false) : c ∈ (margins cs).body := by
  rw [← margins_append cs] at hc
  rcases List.mem_append.1 hc with hfront | hrest
  · exact absurd (List.mem_takeWhile_imp hfront) (by simp [hblank])
  · rcases List.mem_append.1 hrest with hbody | hback
    · exact hbody
    · exact absurd (List.mem_takeWhile_imp (List.mem_reverse.1 hback)) (by simp [hblank])

theorem seamless_margins (cs : List Char) :
    Seamless [(margins cs).front, (margins cs).body, (margins cs).back] := by
  by_cases hb : (margins cs).body = []
  · simp [seamless_cons, hb, margins_back_of_body_nil hb]
  · refine ⟨?_, ?_, by simp, trivial⟩
    · rw [List.flatten_cons, splitsBreak_append_right _ hb]
      exact splitsBreak_of_head? _ fun h => absurd (head?_margins_body h) (by decide)
    · exact splitsBreak_of_getLast? (fun h => absurd (getLast?_margins_body h) (by decide)) _

end TokenAtlas.Text
