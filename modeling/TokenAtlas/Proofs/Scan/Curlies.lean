import TokenAtlas.Proofs.Feature.Effect
import TokenAtlas.Proofs.Scan.Brackets

/-! The categories of closing curly brackets. No feature has a hint for them, and the classifier
keeps the kinds of the opening ones that wait to be closed. Main statement: a closing curly
bracket is categorized by the opening one of its pair, whatever features are open. -/

namespace TokenAtlas

open Classification Classifier

theorem Kind.eq_closeCurly {k : Kind} (h : k.bracket = some (.curly, .closing)) :
    k = .closeCurly := by
  cases k <;> simp_all [bracket]

theorem Classification.decide_closeCurly {t : Token} (h : t.kind = .closeCurly)
    (opener : Option Kind) {s : Surroundings} (hint : s.hint = none) (c : Cursor) :
    decide t opener s c = ((ofCloser opener, none), c) := by
  have hlabel : isCaseLabel t c = false := by simp [isCaseLabel, h, Kind.isKeyword]
  simp only [decide, hint, hlabel, h, if_true, Bool.false_eq_true, if_false]

/-- Every closing bracket is listed, with the opening one that it closes or with none. -/
theorem Family.exists_mem_closings {f : Family} {y : ScannedToken}
    (hy : y.token.kind.bracket = some (f, .closing)) {xs : List ScannedToken} (hmem : y ∈ xs)
    (waiting : List ScannedToken) : ∃ opener, (opener, y) ∈ f.closings waiting xs := by
  induction xs generalizing waiting with
  | nil => exact absurd hmem List.not_mem_nil
  | cons x xs ih =>
    rw [closings]
    rcases List.mem_cons.1 hmem with rfl | hmem
    · rw [if_neg (by simp [hy]), if_pos hy]
      exact ⟨_, List.mem_cons_self⟩
    · split_ifs
      · exact ih hmem _
      · obtain ⟨opener, h⟩ := ih hmem waiting.tail
        exact ⟨opener, List.mem_cons_of_mem _ h⟩
      · exact ih hmem _

namespace Scanner

theorem MovedTo.wellFormed {s d : Scanner} {t : Token} (h : MovedTo s t d)
    (hs : s.stack.WellFormed) : d.stack.WellFormed := h.stack ▸ (hs.step _ _ _).1

/-- A closing curly bracket is categorized by the latest opening one that waits. -/
theorem Classifies.category_closeCurly {s d : Scanner} {x : ScannedToken}
    {role : Option SymbolKind} {c : Cursor} (h : Classifies s x role c d)
    (hs : s.stack.WellFormed) (hx : x.token.kind = .closeCurly) :
    x.category = ofCloser s.classifier.curlies.head? := by
  have hhint : (s.surroundings x.token).hint = none :=
    hs.hint_step (by rw [hx]; rfl) (by rw [hx]; rfl) _ _
  have hcategory := h.category
  rw [decide_closeCurly hx _ hhint, hx] at hcategory
  exact (congrArg (·.1.1) hcategory).symm

/-- Every closing curly bracket of a run has the category of its pair, when the brackets that
wait are those that the classifier keeps. -/
theorem Unclassified.closings_run {s : Scanner} (hs : s.Unclassified)
    (hstack : s.stack.WellFormed) (limit : Nat) {waiting : List ScannedToken}
    (hwaiting : s.classifier.curlies = waiting.map (·.token.kind)) :
    ∀ p ∈ Family.curly.closings waiting (s.run limit).value.1,
      p.2.category = ofCloser (p.1.map (·.token.kind)) := by
  induction limit generalizing s waiting with
  | zero => exact fun p hp => absurd hp List.not_mem_nil
  | succ limit ih =>
    rw [run_succ]
    rcases hv : s.next.value with e | _ | x
    · exact fun p hp => absurd hp List.not_mem_nil
    · exact fun p hp => absurd hp List.not_mem_nil
    · obtain ⟨role, c, hc⟩ := hs.classifies hv
      have hcurlies := congrArg Classifier.curlies hc.classifier
      have hrest := @ih s.next.scanner hs.next ((movedTo_of_yield hv).wellFormed hstack)
      intro p hp
      rw [Family.closings] at hp
      split_ifs at hp with hopening hclosing
      · refine @hrest (x :: waiting) ?_ p hp
        simpa [trackCurly, hopening, hwaiting] using hcurlies
      · have hkind := Kind.eq_closeCurly hclosing
        rcases List.mem_cons.1 hp with rfl | hp
        · rw [hc.category_closeCurly hstack hkind, hwaiting, List.head?_map]
        · refine @hrest waiting.tail ?_ p hp
          simpa [trackCurly, hclosing, hwaiting] using hcurlies
      · refine @hrest waiting ?_ p hp
        rw [hcurlies, ← hwaiting]
        unfold trackCurly
        split
        · next h => exact absurd h hopening
        · next h => exact absurd h hclosing
        · rfl

/-- A closing curly bracket closes the name of a variable behind `$\x7b` and an interpolation
behind `\x7b$`. Behind a plain opening one, and where it closes nothing, it is punctuation. -/
theorem closing_curly_categorized (o : ScanOptions) (source : List Token) (limit : Nat) :
    (∀ y ∈ ((ofTokens o source).run limit).value.1, y.token.kind = .closeCurly →
      ∃ opener,
        (opener, y) ∈ Family.curly.closings [] ((ofTokens o source).run limit).value.1) ∧
    ∀ opener y,
      (opener, y) ∈ Family.curly.closings [] ((ofTokens o source).run limit).value.1 →
      (∀ x, opener = some x → x.token.kind = .dollarCurly → y.category = .variableNameClose) ∧
      (∀ x, opener = some x → x.token.kind = .curlyDollar → y.category = .interpolation) ∧
      ((∀ x, opener = some x → x.token.kind = .openCurly) → y.category = .punctuation) := by
  refine ⟨fun y hy hk => Family.exists_mem_closings (by rw [hk]; rfl) hy [],
    fun opener y hpair => ?_⟩
  have hnone : (ofTokens o source).classifier.curlies =
      ([] : List ScannedToken).map (·.token.kind) := rfl
  have hcategory : y.category = ofCloser (opener.map (·.token.kind)) :=
    (unclassified_ofTokens o source).closings_run Stack.wellFormed_empty limit hnone _ hpair
  refine ⟨?_, ?_, fun hplain => ?_⟩
  · rintro x rfl hx
    simpa [ofCloser, hx] using hcategory
  · rintro x rfl hx
    simpa [ofCloser, hx] using hcategory
  · rcases opener with _ | x
    · exact hcategory
    · simpa [ofCloser, hplain x rfl] using hcategory

/-- A body with a string into which two variables are put. -/
def interpolated : List Token :=
  [⟨.openCurly, "\x7b", 1, 0⟩, ⟨.doubleQuote, "\"", 1, 1⟩, ⟨.curlyDollar, "\x7b", 1, 2⟩,
    ⟨.variableName, "$a", 1, 3⟩, ⟨.closeCurly, "\x7d", 1, 5⟩, ⟨.dollarCurly, "$\x7b", 1, 6⟩,
    ⟨.stringVariable, "b", 1, 8⟩, ⟨.closeCurly, "\x7d", 1, 9⟩, ⟨.doubleQuote, "\"", 1, 10⟩,
    ⟨.closeCurly, "\x7d", 1, 11⟩]

/-- The second variable closes its name inside the string inside the body. -/
theorem closing_curly_categorized_interpolated :
    ∃ x y : ScannedToken,
      (some x, y) ∈
        Family.curly.closings [] ((ofTokens ⟨true, false⟩ interpolated).run 10).value.1 ∧
      x.token.kind = .dollarCurly ∧ y.index = 7 ∧ y.category = .variableNameClose := by
  have hpair :
      (some ⟨5, ⟨.dollarCurly, "$\x7b", 1, 6⟩, .interpolation, [.bracket .opening .curly 2]⟩,
        ⟨7, ⟨.closeCurly, "\x7d", 1, 9⟩, .variableNameClose, [.bracket .closing .curly 2]⟩) ∈
      Family.curly.closings [] ((ofTokens ⟨true, false⟩ interpolated).run 10).value.1 := by
    decide +kernel
  exact ⟨_, _, hpair, rfl, rfl,
    ((closing_curly_categorized ⟨true, false⟩ interpolated 10).2 _ _ hpair).1 _ rfl rfl⟩

end Scanner

end TokenAtlas
