import TokenAtlas.Proofs.Text.Lines

/-! The breaks of a text. A text is cut into lines where it has a line feed, a carriage return
or a pair of both, and a break of the text is any of these that is not half of a pair. Main
statement: the first line of a text is what stands in front of its first break. -/

namespace TokenAtlas.Text

theorem utf8ByteSize_pos {cs : List Char} (h : cs ≠ []) : 0 < (String.ofList cs).utf8ByteSize := by
  rw [Nat.pos_iff_ne_zero, Ne, String.utf8ByteSize_eq_zero_iff, ← String.toList_inj,
    String.toList_ofList]
  exact h

/-- No character of the text takes part in a line break. -/
def Unbroken (cs : List Char) : Prop := ∀ c ∈ cs, isBreak c = false

/-- The three ways to write a line break. -/
def IsEnding (cs : List Char) : Prop := cs = ['\n'] ∨ cs = ['\r'] ∨ cs = ['\r', '\n']

/-- A line break between two texts. No half of a pair is left in either of them. -/
structure BreakBetween (front ending back : List Char) : Prop where
  isEnding : IsEnding ending
  front : splitsBreak front ending = false
  back : splitsBreak ending back = false

namespace IsEnding

variable {ending : List Char}

theorem exists_cons (h : IsEnding ending) :
    ∃ c rest, ending = c :: rest ∧ isBreak c = true := by
  rcases h with rfl | rfl | rfl <;> exact ⟨_, _, rfl, by decide⟩

theorem ne_nil (h : IsEnding ending) : ending ≠ [] := by
  obtain ⟨c, rest, rfl, -⟩ := h.exists_cons
  exact List.cons_ne_nil c rest

theorem lineBreaks_eq (h : IsEnding ending) : lineBreaks ending = 1 := by
  rcases h with rfl | rfl | rfl <;> decide

end IsEnding

namespace Unbroken

variable {body : List Char}

theorem nil : Unbroken [] := fun _ h => absurd h List.not_mem_nil

theorem splitsBreak_eq (h : Unbroken body) (back : List Char) : splitsBreak body back = false :=
  splitsBreak_of_getLast? (fun hlast => absurd (h _ (List.mem_of_getLast? hlast)) (by decide)) back

theorem lineBreaks_eq (h : Unbroken body) : lineBreaks body = 0 := by
  induction body with
  | nil => rfl
  | cons c body ih =>
    obtain ⟨hc, hbody⟩ := List.forall_mem_cons.1 h
    have hends : endsLine c body = false := by
      simp only [isBreak, Bool.or_eq_false_iff, decide_eq_false_iff_not] at hc
      simp [endsLine, hc.1, hc.2]
    rw [lineBreaks_cons, hends, ih hbody]
    rfl

end Unbroken

/-- Every text is either without a break, or the first of its breaks stands between an unbroken
text and a shorter one. -/
theorem induction_on_breaks {P : List Char → Prop} (cs : List Char)
    (unbroken : ∀ body, Unbroken body → P body)
    (broken : ∀ body ending back, Unbroken body → IsEnding ending →
      splitsBreak ending back = false → P back → P (body ++ (ending ++ back))) : P cs := by
  induction hlength : cs.length using Nat.strong_induction_on generalizing cs with
  | _ n ih =>
    subst hlength
    have hbody : Unbroken (cs.takeWhile (!isBreak ·)) := fun c hc => by
      simpa using List.mem_takeWhile_imp hc
    have hcut : cs.takeWhile (!isBreak ·) ++ cs.dropWhile (!isBreak ·) = cs :=
      List.takeWhile_append_dropWhile
    have hless := (List.dropWhile_suffix (l := cs) (!isBreak ·)).length_le
    rcases hrest : cs.dropWhile (!isBreak ·) with _ | ⟨c, back⟩
    · rw [hrest, List.append_nil] at hcut
      exact unbroken cs (hcut ▸ hbody)
    · have hc : isBreak c = true := by
        have := List.head?_dropWhile_not (!isBreak ·) cs
        simpa [hrest] using this
      rw [hrest, List.length_cons] at hless
      rw [← hcut, hrest]
      rw [isBreak, Bool.or_eq_true, decide_eq_true_eq, decide_eq_true_eq] at hc
      rcases hc with rfl | rfl
      · exact broken _ ['\n'] back hbody (.inl rfl) (by simp [splitsBreak])
          (ih back.length (by omega) back rfl)
      · -- a carriage return takes the line feed behind it along
        by_cases hpair : back.head? = some '\n'
        · obtain ⟨back, rfl⟩ := List.head?_eq_some_iff.1 hpair
          rw [List.length_cons] at hless
          exact broken _ ['\r', '\n'] back hbody (.inr (.inr rfl)) (by simp [splitsBreak])
            (ih back.length (by omega) back rfl)
        · exact broken _ ['\r'] back hbody (.inr (.inl rfl)) (by simp [splitsBreak, hpair])
            (ih back.length (by omega) back rfl)

/-- The first line is what stands in front of the first break, with this break. -/
theorem lines_append {body ending back : List Char} (hbody : Unbroken body)
    (hending : IsEnding ending) (hback : splitsBreak ending back = false) :
    lines (body ++ (ending ++ back)) = ⟨body, ending⟩ :: lines back := by
  induction body with
  | nil =>
    rcases hending with rfl | rfl | rfl
    · rfl
    · have hfeed : ∀ rest, lines back ≠ ⟨[], ['\n']⟩ :: rest := by
        intro rest hlines
        have htext := flatMap_lines back
        rw [hlines, List.flatMap_cons] at htext
        simp [← htext, Line.toList, splitsBreak] at hback
      simp [lines_cons, Line.consChar]
    · simp [lines_cons, Line.consChar]
  | cons c body ih =>
    obtain ⟨hc, hbody⟩ := List.forall_mem_cons.1 hbody
    simp only [isBreak, Bool.or_eq_false_iff, decide_eq_false_iff_not] at hc
    rw [List.cons_append, lines_cons, ih hbody]
    simp only [Line.consChar, hc.1, hc.2, if_false]

/-- The first break adds one to those behind it. -/
theorem lineBreaks_append_ending {body ending back : List Char} (hbody : Unbroken body)
    (hending : IsEnding ending) (hback : splitsBreak ending back = false) :
    lineBreaks (body ++ (ending ++ back)) = lineBreaks back + 1 := by
  have hfront := lineBreaks_append body (ending ++ back)
  have hrest := lineBreaks_append ending back
  simp only [hbody.splitsBreak_eq, hback, hbody.lineBreaks_eq, hending.lineBreaks_eq,
    Bool.false_eq_true, if_false] at hfront hrest
  omega

/-- Cutting a break in two separates a carriage return from its line feed. -/
theorem IsEnding.splitsBreak_eq {a b : List Char} (h : IsEnding (a ++ b)) (ha : a ≠ [])
    (hb : b ≠ []) : splitsBreak a b = true := by
  obtain ⟨c, a, rfl⟩ := List.exists_cons_of_ne_nil ha
  obtain ⟨d, b, rfl⟩ := List.exists_cons_of_ne_nil hb
  rcases h with h | h | h
  · simp at h
  · simp at h
  · rcases a with _ | ⟨e, a⟩
    · simp_all [splitsBreak]
    · simp at h

/-- At the beginning of a text there is at most one break. -/
theorem ending_unique {ending ending' back back' : List Char}
    (hending : IsEnding ending) (hback : splitsBreak ending back = false)
    (hending' : IsEnding ending') (hback' : splitsBreak ending' back' = false)
    (h : ending ++ back = ending' ++ back') : ending = ending' ∧ back = back' := by
  rcases List.append_eq_append_iff.1 h with ⟨more, rfl, rfl⟩ | ⟨more, rfl, rfl⟩
  · by_cases hmore : more = []
    · simp [hmore]
    · have := hending'.splitsBreak_eq hending.ne_nil hmore
      rw [splitsBreak_append_right _ hmore, this] at hback
      exact absurd hback (by decide)
  · by_cases hmore : more = []
    · simp [hmore]
    · have := hending.splitsBreak_eq hending'.ne_nil hmore
      rw [splitsBreak_append_right _ hmore, this] at hback'
      exact absurd hback' (by decide)

/-- Where nothing breaks, no two texts have a break between them. -/
theorem Unbroken.not_breakBetween {front ending back : List Char}
    (h : Unbroken (front ++ (ending ++ back))) : ¬ BreakBetween front ending back := by
  intro hbreak
  obtain ⟨c, rest, rfl, hc⟩ := hbreak.isEnding.exists_cons
  exact absurd (h c (by simp)) (by simp [hc])

/-- No break begins within another one. -/
theorem BreakBetween.not_within {body front half back ending' back' : List Char}
    (h : BreakBetween (body ++ front) ending' back') (hending : IsEnding (front ++ half))
    (hbehind : half ++ back = ending' ++ back') : front = [] ∨ half = [] := by
  by_contra hboth
  obtain ⟨hfront, hhalf⟩ := not_or.1 hboth
  have hwithin : splitsBreak front half = false := calc
    splitsBreak front half = splitsBreak front (half ++ back) :=
      (splitsBreak_append_right _ hhalf _).symm
    _ = splitsBreak front (ending' ++ back') := by rw [hbehind]
    _ = splitsBreak front ending' := splitsBreak_append_right _ h.isEnding.ne_nil _
    _ = splitsBreak (body ++ front) ending' := (splitsBreak_append_left _ hfront _).symm
    _ = false := h.front
  exact absurd ((hending.splitsBreak_eq hfront hhalf).symm.trans hwithin) (by decide)

/-- The breaks of a text are its first one and those of what stands behind it. -/
theorem breakBetween_iff {body ending back front' ending' back' : List Char}
    (hbody : Unbroken body) (hending : IsEnding ending) (hback : splitsBreak ending back = false)
    (htext : body ++ (ending ++ back) = front' ++ (ending' ++ back')) :
    BreakBetween front' ending' back' ↔
      (front' = body ∧ ending' = ending ∧ back' = back) ∨
        ∃ front, front' = body ++ (ending ++ front) ∧ back = front ++ (ending' ++ back') ∧
          BreakBetween front ending' back' := by
  constructor
  · intro h
    obtain ⟨c, rest, hc, hbreak⟩ := h.isEnding.exists_cons
    rcases List.append_eq_append_iff.1 htext with ⟨front, rfl, hrest⟩ | ⟨more, rfl, hrest⟩
    · rcases List.append_eq_append_iff.1 hrest with ⟨front, rfl, hbehind⟩ | ⟨half, hhalf, hbehind⟩
      · refine .inr ⟨front, rfl, hbehind, h.isEnding, ?_, h.back⟩
        by_cases hfront : front = []
        · simp [hfront]
        · rw [← h.front, ← List.append_assoc, splitsBreak_append_left _ hfront]
      · rcases h.not_within (hhalf ▸ hending) hbehind.symm with rfl | rfl
        · obtain ⟨rfl, rfl⟩ := ending_unique hending hback h.isEnding h.back hrest
          exact .inl ⟨List.append_nil _, rfl, rfl⟩
        · exact .inr ⟨[], by simpa using hhalf.symm, by simpa using hbehind.symm, h.isEnding, rfl,
            h.back⟩
    · rcases more with _ | ⟨d, more⟩
      · obtain ⟨rfl, rfl⟩ :=
          ending_unique hending hback h.isEnding h.back (by simpa using hrest.symm)
        exact .inl ⟨by simp, rfl, rfl⟩
      · rw [hc, List.cons_append, List.cons_append] at hrest
        obtain ⟨rfl, -⟩ := List.cons.inj hrest
        exact absurd (hbody c (by simp)) (by simp [hbreak])
  · rintro (⟨rfl, rfl, rfl⟩ | ⟨front, rfl, rfl, h⟩)
    · exact ⟨hending, hbody.splitsBreak_eq _, hback⟩
    · refine ⟨h.isEnding, ?_, h.back⟩
      by_cases hfront : front = []
      · subst hfront
        rw [List.append_nil, splitsBreak_append_left _ hending.ne_nil,
          ← splitsBreak_append_right _ h.isEnding.ne_nil]
        exact hback
      · rw [← List.append_assoc, splitsBreak_append_left _ hfront, h.front]

end TokenAtlas.Text
