import TokenAtlas.Proofs.Scan.Run

/-! Classifying while scanning. Main statements: a scan never asks for a classification again,
and a token is yielded with the category that is decided for it where it stands and with the
tags of that category. -/

namespace TokenAtlas

open Classification Classifier

theorem Cursor.yielded_le_advance (c : Cursor) : c.yielded ≤ c.advance.2.yielded := by
  rcases c.advance_cases with ⟨t, rest, d, -, hd, -, -, hy⟩ | ⟨e, rest, d, -, hd, -, -, hy⟩ |
    ⟨d, -, hd, hsame, -⟩
  · rw [hd]
    exact hy ▸ Nat.le_succ _
  · rw [hd]
    exact Nat.le_of_eq hy.symm
  · rw [hd]
    exact Nat.le_of_eq hsame.yielded.symm

namespace Scanner

/-- No classification was asked for again, and none is kept for a token that is to come. -/
structure Unclassified (s : Scanner) : Prop where
  hits : s.classifier.hits = 0
  kept : ∀ i, s.cursor.yielded ≤ i → s.classifier.kept[i]? = none

theorem unclassified_ofTokens (o : ScanOptions) (source : List Token) :
    (ofTokens o source).Unclassified :=
  ⟨rfl, fun _ _ => Std.TreeMap.getElem?_emptyc⟩

/-- The scan `s` yields `x` with this role of a qualified name, when the cursor has moved on
to `c`, and is then at `d`. -/
structure Classifies (s : Scanner) (x : ScannedToken) (role : Option SymbolKind) (c : Cursor)
    (d : Scanner) : Prop where
  advance : s.cursor.advance = (.ok (some x.token), c)
  category : decide x.token (trackCurly s.classifier.curlies x.token.kind).1
    (s.surroundings x.token) c = ((x.category, role), d.cursor)
  tags : x.tags = tagsOf x.token x.category role (s.surroundings x.token)
  classifier : d.classifier =
    { s.classifier with
      kept := s.classifier.kept.insert s.cursor.yielded ⟨x.category, x.tags⟩
      curlies := (trackCurly s.classifier.curlies x.token.kind).2 }

/-- A token that is yielded has not been classified before. -/
theorem Unclassified.classifies {s : Scanner} (hs : s.Unclassified) {x : ScannedToken}
    (h : s.next.value = .ok (some x)) : ∃ role c, Classifies s x role c s.next.scanner := by
  obtain ⟨c, hc, hclassify, -⟩ := next_classifies h
  rw [classify, hs.kept _ (Nat.le_refl _)] at hclassify
  rcases hd : decide x.token (trackCurly s.classifier.curlies x.token.kind).1
    (s.surroundings x.token) c with ⟨⟨category, role⟩, d⟩
  simp only [hd, Prod.mk.injEq, Classification.mk.injEq] at hclassify
  obtain ⟨⟨rfl, htags⟩, hclassifier, rfl⟩ := hclassify
  exact ⟨role, c, hc, hd, htags.symm, by rw [← hclassifier, htags]⟩

theorem Unclassified.next {s : Scanner} (hs : s.Unclassified) : s.next.scanner.Unclassified := by
  by_cases h : ∃ x, s.next.value = .ok (some x)
  · obtain ⟨x, hx⟩ := h
    obtain ⟨role, c, hc⟩ := hs.classifies hx
    refine ⟨by rw [hc.classifier]; exact hs.hits, fun i hi => ?_⟩
    rw [(movedTo_of_yield hx).yielded] at hi
    rw [hc.classifier, Std.TreeMap.getElem?_insert, if_neg (by rw [Nat.compare_eq_eq]; omega)]
    exact hs.kept i (by omega)
  · have hstops := stops_of_no_yield (not_exists.1 h)
    refine ⟨by rw [hstops.classifier]; exact hs.hits, fun i hi => ?_⟩
    rw [hstops.classifier]
    rcases hstops.cursor with ⟨-, hsame⟩ | hadvance
    · exact hs.kept i (hsame ▸ hi)
    · exact hs.kept i (Nat.le_trans s.cursor.yielded_le_advance (hadvance ▸ hi))

theorem Unclassified.after {s : Scanner} (hs : s.Unclassified) (n : Nat) :
    (s.after n).Unclassified := by
  induction n with
  | zero => exact hs
  | succ n ih => exact ih.next

end Scanner

end TokenAtlas
