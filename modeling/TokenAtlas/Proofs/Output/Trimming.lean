import Mathlib.Data.List.Infix
import Mathlib.Data.List.TakeWhile
import Mathlib.Tactic.ByContra
import TokenAtlas.Output.Listing

/-! Trimming the ends of lines. Blank tokens may stand in a row, as an opening tag and the
blanks behind it come from two tokens of the source. Main statement: of a row of blank tokens
at the end of a line trimming drops the last one only. So it drops all blanks at the ends of
lines, and trimming again changes nothing, just where no such row is longer than one token. -/

namespace TokenAtlas

def ScannedToken.isBlank (t : ScannedToken) : Bool := t.token.kind = .whitespace

/-- Whether a line ends, or the list, in front of these tokens. -/
def endsBefore (ts : List ScannedToken) : Bool := ts.head?.all (·.token.kind = .lineBreak)

/-- The tokens that do not belong to a row of blank tokens at the end of a line or of the
list. -/
def withoutTrailing : List ScannedToken → List ScannedToken
  | [] => []
  | t :: rest =>
    if t.isBlank && endsBefore (rest.dropWhile ScannedToken.isBlank) then withoutTrailing rest
    else t :: withoutTrailing rest

/-- Between `front` and `back` stands a whole row of blank tokens, at the end of a line or of
the list. -/
structure TrailingRow (ts front row back : List ScannedToken) : Prop where
  tokens : ts = front ++ (row ++ back)
  blank : ∀ t ∈ row, t.isBlank = true
  nonempty : row ≠ []
  whole : ∀ t ∈ front.getLast?, t.isBlank = false
  ends : endsBefore back = true

variable {t : ScannedToken} {ts front row back rest : List ScannedToken}

theorem trimTrailing_cons_eq (t : ScannedToken) (rest : List ScannedToken) :
    trimTrailing (t :: rest) =
      if t.isBlank && endsBefore rest then trimTrailing rest else t :: trimTrailing rest :=
  trimTrailing_cons t rest

theorem endsBefore_append_of_ne_nil (h : front ≠ []) (rest : List ScannedToken) :
    endsBefore (front ++ rest) = endsBefore front := by
  obtain ⟨t, front, rfl⟩ := List.exists_cons_of_ne_nil h
  rfl

theorem endsBefore_cons_of_isBlank (h : t.isBlank = true) (rest : List ScannedToken) :
    endsBefore (t :: rest) = false := by
  have hk : t.token.kind = .whitespace := of_decide_eq_true h
  simp [endsBefore, hk]

/-- Where a line ends no blank token comes first. -/
theorem dropWhile_of_endsBefore (h : endsBefore ts = true) :
    ts.dropWhile ScannedToken.isBlank = ts := by
  rcases ts with _ | ⟨t, rest⟩
  · rfl
  · refine List.dropWhile_cons_of_neg fun ht => ?_
    rw [endsBefore_cons_of_isBlank ht] at h
    exact absurd h Bool.false_ne_true

/-! ### Rows -/

/-- What follows a token that is not blank makes no difference to what stands up to it. -/
theorem trimTrailing_append (h : ∀ t ∈ front.getLast?, t.isBlank = false)
    (rest : List ScannedToken) :
    trimTrailing (front ++ rest) = trimTrailing front ++ trimTrailing rest := by
  induction front with
  | nil => rfl
  | cons t front ih =>
    rw [List.cons_append, trimTrailing_cons_eq, trimTrailing_cons_eq]
    by_cases hfront : front = []
    · subst hfront
      simp [h t (by simp)]
    · rw [endsBefore_append_of_ne_nil hfront,
        ih (by rwa [List.getLast?_cons_of_ne_nil hfront] at h)]
      split <;> rfl

/-- Of a row at the end of a line the last token is dropped. -/
theorem trimTrailing_row (hblank : ∀ t ∈ row, t.isBlank = true) (hne : row ≠ [])
    (hends : endsBefore back = true) :
    trimTrailing (row ++ back) = row.dropLast ++ trimTrailing back := by
  induction row with
  | nil => exact absurd rfl hne
  | cons t row ih =>
    rw [List.cons_append, trimTrailing_cons_eq, hblank t List.mem_cons_self, Bool.true_and]
    rcases row with _ | ⟨u, row⟩
    · rw [List.nil_append, if_pos hends]
      rfl
    · have hu : u.isBlank = true := hblank u (by simp)
      rw [List.cons_append, endsBefore_cons_of_isBlank hu, if_neg (by simp), ← List.cons_append,
        ih (fun v hv => hblank v (List.mem_cons_of_mem _ hv)) (List.cons_ne_nil u row)]
      rfl

theorem withoutTrailing_append (h : ∀ t ∈ front.getLast?, t.isBlank = false)
    (rest : List ScannedToken) :
    withoutTrailing (front ++ rest) = withoutTrailing front ++ withoutTrailing rest := by
  induction front with
  | nil => rfl
  | cons t front ih =>
    rw [List.cons_append, withoutTrailing, withoutTrailing]
    by_cases hfront : front = []
    · subst hfront
      simp [h t (by simp), withoutTrailing]
    · rw [List.getLast?_cons_of_ne_nil hfront] at h
      -- the last of these tokens is not blank, so that the row ends among them
      have hdrop : front.dropWhile ScannedToken.isBlank ≠ [] := by
        rw [Ne, List.dropWhile_eq_nil_iff]
        intro hall
        have hlast := hall _ (List.getLast_mem hfront)
        rw [h _ (List.getLast?_eq_some_getLast hfront)] at hlast
        exact absurd hlast Bool.false_ne_true
      have hmore : (front ++ rest).dropWhile ScannedToken.isBlank =
          front.dropWhile ScannedToken.isBlank ++ rest := by
        rw [List.dropWhile_append, List.isEmpty_eq_false_iff.2 hdrop]
        rfl
      rw [hmore, endsBefore_append_of_ne_nil hdrop, ih h]
      split <;> rfl

theorem withoutTrailing_row (hblank : ∀ t ∈ row, t.isBlank = true)
    (hends : endsBefore back = true) : withoutTrailing (row ++ back) = withoutTrailing back := by
  induction row with
  | nil => rfl
  | cons t row ih =>
    have hrow : ∀ u ∈ row, u.isBlank = true := fun u hu => hblank u (List.mem_cons_of_mem _ hu)
    have hdrop : (row ++ back).dropWhile ScannedToken.isBlank = back := by
      rw [List.dropWhile_append_of_pos hrow, dropWhile_of_endsBefore hends]
    rw [List.cons_append, withoutTrailing, hblank t List.mem_cons_self, hdrop, hends, ih hrow]
    rfl

namespace TrailingRow

theorem trimTrailing_eq (h : TrailingRow ts front row back) :
    trimTrailing ts = trimTrailing front ++ (row.dropLast ++ trimTrailing back) := by
  rw [h.tokens, trimTrailing_append h.whole, trimTrailing_row h.blank h.nonempty h.ends]

theorem withoutTrailing_eq (h : TrailingRow ts front row back) :
    withoutTrailing ts = withoutTrailing front ++ withoutTrailing back := by
  rw [h.tokens, withoutTrailing_append h.whole, withoutTrailing_row h.blank h.ends]

/-- A row is one behind another token too, with that token if it is blank and right before
the row. -/
theorem exists_cons (h : TrailingRow ts front row back) (t : ScannedToken) :
    ∃ front' row', TrailingRow (t :: ts) front' row' back ∧ row.length ≤ row'.length := by
  have htokens := h.tokens
  rcases front with _ | ⟨u, front⟩
  · rcases ht : t.isBlank with _ | _
    · exact ⟨[t], row, ⟨by rw [htokens]; rfl, h.blank, h.nonempty, by simpa using ht, h.ends⟩,
        Nat.le_refl _⟩
    · exact ⟨[], t :: row, ⟨by rw [htokens]; rfl, List.forall_mem_cons.2 ⟨ht, h.blank⟩,
        List.cons_ne_nil t row, by simp, h.ends⟩, Nat.le_succ _⟩
  · exact ⟨t :: u :: front, row, ⟨by rw [htokens]; rfl, h.blank, h.nonempty,
      by rw [List.getLast?_cons_cons]; exact h.whole, h.ends⟩, Nat.le_refl _⟩

end TrailingRow

/-- Blank tokens with the end of a line behind them are a row. -/
theorem trailingRow_takeWhile (ht : t.isBlank = true)
    (h : endsBefore (rest.dropWhile ScannedToken.isBlank) = true) :
    TrailingRow (t :: rest) [] (t :: rest.takeWhile ScannedToken.isBlank)
      (rest.dropWhile ScannedToken.isBlank) where
  tokens := by simp [List.takeWhile_append_dropWhile]
  blank := List.forall_mem_cons.2 ⟨ht, fun u hu => by
    simpa using List.all_eq_true.1 List.all_takeWhile u hu⟩
  nonempty := List.cons_ne_nil _ _
  whole := by simp
  ends := h

theorem length_trimTrailing_le (ts : List ScannedToken) :
    (trimTrailing ts).length ≤ ts.length := by
  induction ts with
  | nil => exact Nat.le_refl _
  | cons t rest ih =>
    rw [trimTrailing_cons_eq]
    split
    · exact Nat.le_succ_of_le ih
    · simpa using ih

/-- No line ends in a blank token, nor does the list. -/
def CleanEnds (ts : List ScannedToken) : Prop := ∀ front row back, ¬ TrailingRow ts front row back

theorem CleanEnds.of_cons (h : CleanEnds (t :: rest)) : CleanEnds rest := by
  intro front row back hrow
  obtain ⟨front', row', hrow', -⟩ := hrow.exists_cons t
  exact h front' row' back hrow'

theorem trimTrailing_eq_self_iff : trimTrailing ts = ts ↔ CleanEnds ts := by
  refine ⟨fun h front row back hrow => ?_, fun h => ?_⟩
  · have htrimmed := congrArg List.length (h.symm.trans hrow.trimTrailing_eq)
    have htokens := congrArg List.length hrow.tokens
    have hpos := List.length_pos_iff.2 hrow.nonempty
    have hfront := length_trimTrailing_le front
    have hback := length_trimTrailing_le back
    simp only [List.length_append, List.length_dropLast] at htrimmed htokens
    omega
  · induction ts with
    | nil => rfl
    | cons t rest ih =>
      rw [trimTrailing_cons_eq, ih h.of_cons, if_neg]
      intro hends
      obtain ⟨ht, hends⟩ := Bool.and_eq_true_iff.1 hends
      exact h [] [t] rest ⟨rfl, by simpa using ht, List.cons_ne_nil t [], by simp, hends⟩

/-! ### Rows of one token -/

/-- No row at the end of a line is longer than one token. -/
def SingleRows (ts : List ScannedToken) : Prop :=
  ∀ front row back, TrailingRow ts front row back → row.length = 1

theorem SingleRows.of_cons (h : SingleRows (t :: rest)) : SingleRows rest := by
  intro front row back hrow
  obtain ⟨front', row', hrow', hle⟩ := hrow.exists_cons t
  have hpos := List.length_pos_iff.2 hrow.nonempty
  have hone := h front' row' back hrow'
  omega

theorem trimTrailing_of_singleRows (h : SingleRows ts) :
    trimTrailing ts = withoutTrailing ts := by
  induction ts with
  | nil => rfl
  | cons t rest ih =>
    rw [trimTrailing_cons_eq, withoutTrailing, ih h.of_cons]
    rcases ht : t.isBlank with _ | _
    · rfl
    · rcases hends : endsBefore rest with _ | _
      · -- if a row began here, the next token would belong to it too
        suffices hdrop : endsBefore (rest.dropWhile ScannedToken.isBlank) = false by rw [hdrop]
        by_contra hdrop
        have hdrop : endsBefore (rest.dropWhile ScannedToken.isBlank) = true := by simpa using hdrop
        have hlength := h _ _ _ (trailingRow_takeWhile ht hdrop)
        have htake : rest.takeWhile ScannedToken.isBlank = [] := by simpa using hlength
        have hrest := List.takeWhile_append_dropWhile (p := ScannedToken.isBlank) (l := rest)
        rw [htake, List.nil_append] at hrest
        rw [hrest, hends] at hdrop
        exact absurd hdrop Bool.false_ne_true
      · rw [dropWhile_of_endsBefore hends, hends]

theorem length_withoutTrailing_le (ts : List ScannedToken) :
    (withoutTrailing ts).length ≤ (trimTrailing ts).length := by
  induction ts with
  | nil => exact Nat.le_refl _
  | cons t rest ih =>
    rw [trimTrailing_cons_eq, withoutTrailing]
    rcases hends : endsBefore rest with _ | _
    · rw [Bool.and_false, if_neg Bool.false_ne_true]
      split
      · exact Nat.le_succ_of_le ih
      · simpa using ih
    · rw [dropWhile_of_endsBefore hends, hends]
      split
      · exact ih
      · simpa using ih

/-- With a longer row more is dropped than one token of it. -/
theorem singleRows_of_trimTrailing_eq (h : trimTrailing ts = withoutTrailing ts) :
    SingleRows ts := by
  intro front row back hrow
  rw [hrow.trimTrailing_eq, hrow.withoutTrailing_eq] at h
  have hlength := congrArg List.length h
  have hfront := length_withoutTrailing_le front
  have hback := length_withoutTrailing_le back
  have hpos := List.length_pos_iff.2 hrow.nonempty
  simp only [List.length_append, List.length_dropLast] at hlength
  omega

/-! ### Trimming twice -/

/-- A token that is not blank stays the last one. -/
theorem exists_trimTrailing_concat (ht : t.isBlank = false) (front : List ScannedToken) :
    ∃ kept, trimTrailing (front ++ [t]) = kept ++ [t] := by
  induction front with
  | nil => exact ⟨[], by rw [List.nil_append, trimTrailing_cons_eq, ht]; rfl⟩
  | cons u front ih =>
    obtain ⟨kept, hkept⟩ := ih
    rw [List.cons_append, trimTrailing_cons_eq, hkept]
    split
    · exact ⟨kept, rfl⟩
    · exact ⟨u :: kept, rfl⟩

/-- Without the rows at the ends of lines nothing is left to trim. -/
theorem trimTrailing_withoutTrailing (ts : List ScannedToken) :
    trimTrailing (withoutTrailing ts) = withoutTrailing ts := by
  induction ts with
  | nil => rfl
  | cons t rest ih =>
    rw [withoutTrailing]
    split
    · exact ih
    · next hkept =>
      rw [trimTrailing_cons_eq, ih, if_neg]
      -- what follows is kept at its head, so that no line ends there either
      rcases rest with _ | ⟨u, rest⟩
      · exact hkept
      · rcases hu : u.isBlank with _ | _
        · rw [List.dropWhile_cons_of_neg (by simp [hu])] at hkept
          rw [withoutTrailing, hu]
          exact hkept
        · rw [List.dropWhile_cons_of_pos hu] at hkept
          intro hends
          obtain ⟨ht, hends⟩ := Bool.and_eq_true_iff.1 hends
          rw [ht, Bool.true_and] at hkept
          rw [withoutTrailing, hu, Bool.true_and, if_neg hkept,
            endsBefore_cons_of_isBlank hu] at hends
          exact absurd hends Bool.false_ne_true

/-- What is left of a longer row is a row again. -/
theorem TrailingRow.trimmed (h : TrailingRow ts front row back) (hlong : row.length ≠ 1) :
    TrailingRow (trimTrailing ts) (trimTrailing front) row.dropLast (trimTrailing back) where
  tokens := h.trimTrailing_eq
  blank := fun t ht => h.blank t (List.mem_of_mem_dropLast ht)
  nonempty := fun hnil => by
    have hlength := congrArg List.length hnil
    have hpos := List.length_pos_iff.2 h.nonempty
    rw [List.length_dropLast, List.length_nil] at hlength
    omega
  whole := by
    rcases List.eq_nil_or_concat front with rfl | ⟨init, t, rfl⟩
    · simp [trimTrailing_nil]
    · have ht : t.isBlank = false := h.whole t (by simp)
      obtain ⟨kept, hkept⟩ := exists_trimTrailing_concat ht init
      rw [List.concat_eq_append, hkept, List.getLast?_concat]
      intro u hu
      rwa [← Option.some.inj hu]
  ends := by
    rcases back with _ | ⟨t, back⟩
    · rfl
    · have ht : t.isBlank = false := by
        by_contra hblank
        have hends := h.ends
        rw [endsBefore_cons_of_isBlank (by simpa using hblank)] at hends
        exact absurd hends Bool.false_ne_true
      rw [trimTrailing_cons_eq, ht]
      exact h.ends

/-- No blank token is left at the end of a line where no row was longer than one. -/
theorem cleanEnds_trimTrailing_iff : CleanEnds (trimTrailing ts) ↔ SingleRows ts := by
  refine ⟨fun h front row back hrow => ?_, fun h => ?_⟩
  · by_contra hlong
    exact h _ _ _ (hrow.trimmed hlong)
  · rw [trimTrailing_of_singleRows h]
    exact trimTrailing_eq_self_iff.1 (trimTrailing_withoutTrailing ts)

/-- Of each row of blank tokens at the end of a line trimming drops the last one, and nothing
else. All of them are dropped, none is left at the end of a line and trimming again changes
nothing, each just when no such row is longer than one token. -/
theorem trimTrailing_drops_last_of_row (ts : List ScannedToken) :
    (∀ front row back, TrailingRow ts front row back →
      trimTrailing ts = trimTrailing front ++ (row.dropLast ++ trimTrailing back)) ∧
    (CleanEnds ts → trimTrailing ts = ts) ∧
    (trimTrailing ts = withoutTrailing ts ↔ SingleRows ts) ∧
    (CleanEnds (trimTrailing ts) ↔ SingleRows ts) ∧
    (trimTrailing (trimTrailing ts) = trimTrailing ts ↔ SingleRows ts) :=
  ⟨fun _ _ _ => TrailingRow.trimTrailing_eq, trimTrailing_eq_self_iff.2,
    ⟨singleRows_of_trimTrailing_eq, trimTrailing_of_singleRows⟩, cleanEnds_trimTrailing_iff,
    trimTrailing_eq_self_iff.trans cleanEnds_trimTrailing_iff⟩

/-- An opening tag with its blank, and more blanks behind it up to the end of the line. -/
def blanksBehindTag : List ScannedToken :=
  (Scanner.ofTokens ⟨true, false⟩
    [⟨.openTag, "<?php ", 1, 0⟩, ⟨.whitespace, " \n", 1, 6⟩]).scanAll.value.1

/-- The blank of the tag is left at the end of the line, until it is trimmed again. -/
theorem trimTrailing_blanksBehindTag :
    blanksBehindTag.map (·.token.text) = ["<?php", " ", " ", "\n"] ∧
      (withoutTrailing blanksBehindTag).map (·.token.text) = ["<?php", "\n"] ∧
      (trimTrailing blanksBehindTag).map (·.token.text) = ["<?php", " ", "\n"] ∧
      trimTrailing (trimTrailing blanksBehindTag) = withoutTrailing blanksBehindTag := by
  decide +kernel

end TokenAtlas
