import TokenAtlas.Proofs.Text.Margins

/-! The lines of a text. No content holds a break, and no two lines share one. -/

namespace TokenAtlas.Text

@[simp] theorem lines_nil : lines [] = [] := rfl

theorem lines_cons (c : Char) (cs : List Char) : lines (c :: cs) = Line.consChar c (lines cs) := rfl

theorem Line.mem_consChar {P : Line → Prop} {c : Char} {ls : List Line} (h : ∀ l ∈ ls, P l)
    (hfeed : P ⟨[], ['\n']⟩) (hreturn : P ⟨[], ['\r']⟩) (hpair : P ⟨[], ['\r', '\n']⟩)
    (hnew : isBreak c = false → P ⟨[c], []⟩)
    (hmore : ∀ l, isBreak c = false → P l → P { l with content := c :: l.content }) :
    ∀ l ∈ Line.consChar c ls, P l := by
  unfold Line.consChar
  split
  · exact List.forall_mem_cons.2 ⟨hfeed, h⟩
  · split
    · split
      · exact List.forall_mem_cons.2 ⟨hpair, (List.forall_mem_cons.1 h).2⟩
      · exact List.forall_mem_cons.2 ⟨hreturn, h⟩
    · next hn hr =>
      have hc : isBreak c = false := by simp [isBreak, hn, hr]
      split
      · simpa using hnew hc
      · obtain ⟨hl, hrest⟩ := List.forall_mem_cons.1 h
        exact List.forall_mem_cons.2 ⟨hmore _ hc hl, hrest⟩

/-- The content of a line holds no break. -/
theorem isBreak_of_mem_content {cs : List Char} :
    ∀ l ∈ lines cs, ∀ c ∈ l.content, isBreak c = false := by
  induction cs with
  | nil => simp
  | cons c cs ih =>
    rw [lines_cons]
    refine Line.mem_consChar ih (by simp) (by simp) (by simp) (by simp) ?_
    intro l hc hl
    exact List.forall_mem_cons.2 ⟨hc, hl⟩

/-- A text without a break is one unfinished line. -/
theorem lines_of_unbroken {cs : List Char} (hne : cs ≠ []) (h : ∀ c ∈ cs, isBreak c = false) :
    lines cs = [⟨cs, []⟩] := by
  induction cs with
  | nil => exact absurd rfl hne
  | cons c cs ih =>
    obtain ⟨hc, hcs⟩ := List.forall_mem_cons.1 h
    have hn : c ≠ '\n' := fun hn => absurd hc (by simp [isBreak, hn])
    have hr : c ≠ '\r' := fun hr => absurd hc (by simp [isBreak, hr])
    rcases cs with _ | ⟨d, cs⟩
    · simp [lines_cons, Line.consChar, hn, hr]
    · rw [lines_cons, ih (List.cons_ne_nil d cs) hcs]
      simp [Line.consChar, hn, hr]

/-- The ending of a line is blank. -/
theorem isBlank_of_mem_ending {cs : List Char} :
    ∀ l ∈ lines cs, ∀ c ∈ l.ending, isBlank c = true := by
  have hfeed : isBlank '\n' = true := by decide
  have hreturn : isBlank '\r' = true := by decide
  induction cs with
  | nil => simp
  | cons c cs ih =>
    rw [lines_cons]
    exact Line.mem_consChar ih (by simp [hfeed]) (by simp [hreturn]) (by simp [hfeed, hreturn])
      (by simp) fun l _ hl => hl

/-- A character that is not blank stands in the content of some line. -/
theorem exists_mem_content_of_not_isBlank {cs : List Char} {c : Char} (hc : c ∈ cs)
    (hblank : isBlank c = false) : ∃ l ∈ lines cs, c ∈ l.content := by
  rw [← flatMap_lines cs] at hc
  obtain ⟨l, hl, hc⟩ := List.mem_flatMap.1 hc
  rcases List.mem_append.1 hc with hcontent | hending
  · exact ⟨l, hl, hcontent⟩
  · exact absurd (isBlank_of_mem_ending l hl c hending) (by simp [hblank])

/-- A line break is never shared by two lines. -/
theorem seamless_lines (cs : List Char) : Seamless ((lines cs).map Line.toList) := by
  induction cs with
  | nil => trivial
  | cons c cs ih =>
    have htext : ((lines cs).map Line.toList).flatten = cs := by
      rw [← List.flatMap_def, flatMap_lines]
    rw [lines_cons]
    unfold Line.consChar
    split
    · exact ⟨splitsBreak_of_getLast? (by simp [Line.toList]) _, ih⟩
    · split
      · split
        · next rest heq =>
          rw [heq] at ih
          exact ⟨splitsBreak_of_getLast? (by simp [Line.toList]) _, ih.2⟩
        · next hpair =>
          refine ⟨splitsBreak_of_head? _ ?_, ih⟩
          rw [htext]
          rintro hn
          obtain ⟨cs', rfl⟩ : ∃ cs', cs = '\n' :: cs' := by
            cases cs <;> simp_all
          exact hpair (lines cs') (by simp [lines_cons, Line.consChar])
      · next hn hr =>
        split
        · exact ⟨by simp [splitsBreak, Line.toList], trivial⟩
        · next line rest heq =>
          rw [heq] at ih
          refine ⟨?_, ih.2⟩
          by_cases hl : line.toList = []
          · refine splitsBreak_of_getLast? ?_ _
            simpa [Line.toList, show line.content ++ line.ending = [] from hl] using hr
          · have hcons : Line.toList { line with content := c :: line.content } =
                [c] ++ line.toList := rfl
            rw [hcons, splitsBreak_append_left _ hl]
            exact ih.1

end TokenAtlas.Text
