import TokenAtlas.Proofs.Cursor.Plan
import TokenAtlas.Proofs.Cursor.Sight
import TokenAtlas.Proofs.Scan.Run

/-! How far a scan looks ahead. Two scans with the same tokens before them go the same way
until one of them can see where they differ. Main statement: what a scan gives for a token, and
what it has found by then, does not depend on what comes further behind it than
`Limits.lookahead`, refusals included. -/

namespace TokenAtlas

open Atom (Refusal)

namespace Cursor

/-- Tokens that are not refused contribute what stands for them. -/
theorem contributions_of_accepted {splitting : Option Bool} {source : List Token}
    (h : ∀ apart, splitting = some apart → ∀ t ∈ source, ∃ r, Atom.atomize apart t = .ok r) :
    source.flatMap (contribution splitting) = (source.flatMap (standing splitting)).map .ok := by
  rw [List.map_flatMap]
  refine List.flatMap_congr fun t ht => ?_
  rcases splitting with _ | apart
  · rfl
  · obtain ⟨r, hr⟩ := h apart rfl t ht
    have hrefine : Atom.refine apart t = .ok (r.getD [t]) := by simp [Atom.refine, hr, Except.map]
    simp [contribution, standing, hrefine]

end Cursor

attribute [ext] ScannedToken

namespace Scanner

variable {t : Token} {ts : List Token} {s d : Scanner}

/-- Two scans at the same place, with the tokens `ts` to come in both. -/
structure Abreast (ts : List Token) (s d : Scanner) : Prop where
  plan : ∃ rest, s.cursor.plan = ts.map .ok ++ rest
  plan' : ∃ rest, d.cursor.plan = ts.map .ok ++ rest
  past : d.cursor.past = s.cursor.past
  yielded : d.cursor.yielded = s.cursor.yielded
  classifier : d.classifier = s.classifier

/-- Two scans that have found the same, with the tokens `ts` to come in both while they run. -/
structure Alike (ts : List Token) (s d : Scanner) : Prop where
  ending : d.ending = s.ending
  course : d.course = s.course
  imports : d.imports = s.imports
  products : d.products = s.products
  abreast : s.ending = .running → Abreast ts s d

/-- A token that two scans yield is classified alike by both, if they know the same of it. -/
theorem classified_alike {x y : ScannedToken} (hx : s.next.value = .ok (some x))
    (hy : d.next.value = .ok (some y)) (ht : y.token = x.token)
    (hyielded : d.cursor.yielded = s.cursor.yielded) (hclassifier : d.classifier = s.classifier)
    (hsurroundings : d.surroundings x.token = s.surroundings x.token)
    (hsees : Cursor.SeesAlike s.next.scanner.cursor d.next.scanner.cursor) :
    (⟨y.category, y.tags⟩ : Classification) = ⟨x.category, x.tags⟩ ∧
      d.next.scanner.classifier = s.next.scanner.classifier := by
  obtain ⟨c, -, hc, hlooked⟩ := next_classifies hx
  obtain ⟨c', -, hc', hlooked'⟩ := next_classifies hy
  rw [ht, hyielded, hclassifier, hsurroundings] at hc'
  -- classifying has left the cursors where they were
  have hbefore := hsees.samePlace hlooked.samePlace.symm hlooked'.samePlace.symm
  have hfound := Classifier.classify_alike hbefore s.classifier s.cursor.yielded x.token
    (s.surroundings x.token)
  rwa [hc, hc'] at hfound

/-- Two scans that both move on to `t` yield the same for it, as the tokens behind it that are
to come in both hide where they differ. -/
theorem Alike.next_token (h : Alike (t :: ts) s d) (hts : Limits.lookahead ≤ ts.length)
    (hr : s.ending = .running) (hn : s.cursor.yielded < Limits.tokenCount) :
    d.next.value = s.next.value ∧ Alike ts s.next.scanner d.next.scanner := by
  obtain ⟨⟨rest, hplan⟩, ⟨rest', hplan'⟩, hpast, hyielded, hclassifier⟩ := h.abreast hr
  obtain ⟨x, hx, hi, rfl, hm, hrest⟩ := Scanner.next_token hr hplan hn
  obtain ⟨y, hy, hi', ht, hm', hrest'⟩ :=
    Scanner.next_token (h.ending.trans hr) hplan' (hyielded ▸ hn)
  have hnextPast : d.next.scanner.cursor.past = s.next.scanner.cursor.past := by
    rw [hm'.past, hm.past, hpast]
  have hsurroundings : d.surroundings x.token = s.surroundings x.token := by
    simp only [surroundings, h.course, h.imports, hpast]
  obtain ⟨hfound, hkept⟩ := classified_alike hx hy ht hyielded hclassifier hsurroundings
    (.of_plan hnextPast hrest hrest' hts)
  have hxy : y = x :=
    ScannedToken.ext (by rw [hi', hyielded, hi]) ht (congrArg (·.category) hfound)
      (congrArg (·.tags) hfound)
  refine ⟨by rw [hy, hx, hxy], by rw [hm'.running, hm.running], ?_, ?_, ?_,
    fun _ => ⟨⟨rest, hrest⟩, ⟨rest', hrest'⟩, hnextPast, ?_, hkept⟩⟩
  · rw [hm'.course, hm.course, h.course, hpast]
  · rw [hm'.imports, hm.imports, h.course, h.imports, hpast]
  · rw [hm'.products, hm.products, h.course, h.products, hpast]
  · rw [hm'.yielded, hm.yielded, hyielded]

/-- What the next move gives is the same for both scans, and they stay alike. -/
theorem Alike.next (h : Alike (t :: ts) s d) (hts : Limits.lookahead ≤ ts.length) :
    d.next.value = s.next.value ∧ Alike ts s.next.scanner d.next.scanner := by
  by_cases hr : s.ending = .running
  · have hr' : d.ending = .running := h.ending.trans hr
    obtain ⟨⟨rest, hplan⟩, ⟨rest', hplan'⟩, -, hyielded, -⟩ := h.abreast hr
    by_cases hn : s.cursor.yielded < Limits.tokenCount
    · exact h.next_token hts hr hn
    · obtain ⟨hv, hend, hcourse, himports, hproducts⟩ := next_tooMany hr hplan (Nat.not_lt.1 hn)
      obtain ⟨hv', hend', hcourse', himports', hproducts'⟩ :=
        next_tooMany hr' hplan' (hyielded ▸ Nat.not_lt.1 hn)
      exact ⟨hv'.trans hv.symm, hend'.trans hend.symm, hcourse'.trans (h.course.trans hcourse.symm),
        himports'.trans (h.imports.trans himports.symm),
        hproducts'.trans (h.products.trans hproducts.symm), fun hrun => by simp [hend] at hrun⟩
  · have hr' : d.ending ≠ .running := h.ending ▸ hr
    obtain ⟨hv, hs⟩ := next_of_ended hr
    obtain ⟨hv', hd⟩ := next_of_ended hr'
    rw [hv, hv', hs, hd]
    exact ⟨rfl, h.ending, h.course, h.imports, h.products, fun hrun => absurd hrun hr⟩

/-- As long as enough tokens are to come in both, two scans stay alike. -/
theorem Alike.after (h : Alike ts s d) (n : Nat) (hn : n + Limits.lookahead ≤ ts.length) :
    Alike (ts.drop n) (s.after n) (d.after n) := by
  induction n with
  | zero => exact h
  | succ n ih =>
    have hlt : n < ts.length := by omega
    have hn' := ih (by omega)
    rw [List.drop_eq_getElem_cons hlt] at hn'
    exact (hn'.next (by rw [List.length_drop]; omega)).2

/-- Before they move, scans of the same tokens with more behind them are alike. -/
theorem alike_ofTokens (o : ScanOptions) {a : List Token}
    (ha : o.refine = true → ∀ t ∈ a, ∃ r, Atom.atomize o.apart t = .ok r) (b c : List Token) :
    Alike (a.flatMap (Cursor.standing o.splitting)) (ofTokens o (a ++ b))
      (ofTokens o (a ++ c)) := by
  have haccepted : ∀ apart, o.splitting = some apart →
      ∀ t ∈ a, ∃ r, Atom.atomize apart t = .ok r := by
    intro apart happart
    rw [ScanOptions.splitting] at happart
    split_ifs at happart with hrefine
    obtain rfl := Option.some.inj happart
    exact ha hrefine
  have hplan : ∀ more : List Token, ∃ rest, (ofTokens o (a ++ more)).cursor.plan =
      (a.flatMap (Cursor.standing o.splitting)).map .ok ++ rest := by
    intro more
    rw [← Cursor.contributions_of_accepted haccepted, plan_ofTokens, List.flatMap_append]
    exact ⟨_, rfl⟩
  exact ⟨rfl, rfl, rfl, rfl, fun _ => ⟨hplan b, hplan c, rfl, rfl, rfl⟩⟩

/-- Where more than `Limits.lookahead` accepted tokens are still to come, what a scan gives and
what it has found by then does not depend on anything behind them. -/
theorem lookahead_bounded (o : ScanOptions) {a : List Token}
    (ha : o.refine = true → ∀ t ∈ a, ∃ r, Atom.atomize o.apart t = .ok r) (b c : List Token)
    {i : ℕ} (hi : i + Limits.lookahead < (a.flatMap (Cursor.standing o.splitting)).length) :
    ((ofTokens o (a ++ c)).after i).next.value = ((ofTokens o (a ++ b)).after i).next.value ∧
      (i < Limits.tokenCount → ∃ x : ScannedToken,
        ((ofTokens o (a ++ b)).after i).next.value = .ok (some x) ∧ x.index = i ∧
        (a.flatMap (Cursor.standing o.splitting))[i]? = some x.token) ∧
      ((ofTokens o (a ++ c)).after (i + 1)).products =
        ((ofTokens o (a ++ b)).after (i + 1)).products ∧
      ((ofTokens o (a ++ c)).after (i + 1)).imports =
        ((ofTokens o (a ++ b)).after (i + 1)).imports ∧
      ((ofTokens o (a ++ c)).after (i + 1)).levels =
        ((ofTokens o (a ++ b)).after (i + 1)).levels := by
  have halike := alike_ofTokens o ha b c
  generalize a.flatMap (Cursor.standing o.splitting) = ts at hi halike ⊢
  have hlt : i < ts.length := by omega
  have hi' := halike.after i (by omega)
  rw [List.drop_eq_getElem_cons hlt] at hi'
  obtain ⟨hvalue, hnext⟩ := hi'.next (by rw [List.length_drop]; omega)
  refine ⟨hvalue, fun hcount => ?_, hnext.products, hnext.imports,
    congrArg (·.tracker.levels) hnext.course⟩
  obtain ⟨rest, hplan⟩ := (halike.abreast rfl).plan
  obtain ⟨x, hx, hindex, htoken⟩ := yield_of_index rfl hplan hlt
    (by rwa [yielded_ofTokens, Nat.zero_add])
  exact ⟨x, hx, hindex.trans (Nat.zero_add i), by rw [List.getElem?_eq_getElem hlt, htoken]⟩

/-- A name with `n` blanks behind it. -/
def distantName (n : ℕ) : List Token :=
  ⟨.identifier, "f", 1, 0⟩ :: List.replicate n ⟨.whitespace, " ", 1, 1⟩

/-- Behind `Limits.lookahead` blanks neither an opening bracket nor a refusal makes a difference
to a name. -/
theorem lookahead_bounded_distantName :
    0 + Limits.lookahead < ((distantName 64).flatMap (Cursor.standing (some false))).length ∧
      ((ofTokens ⟨true, false⟩
          (distantName 64 ++ [⟨.intCast, "int", 1, 65⟩])).after 0).next.value =
        ((ofTokens ⟨true, false⟩
          (distantName 64 ++ [⟨.openParen, "(", 1, 65⟩])).after 0).next.value := by
  have haccepted : ∀ t ∈ distantName 64, Atom.atomize false t = .ok none := by decide +kernel
  have hfar : 0 + Limits.lookahead <
      ((distantName 64).flatMap (Cursor.standing (some false))).length := by decide +kernel
  exact ⟨hfar, (lookahead_bounded ⟨true, false⟩ (fun _ t ht => ⟨none, haccepted t ht⟩) _ _ hfar).1⟩

/-- One blank less and the bracket is seen. -/
example :
    (ofTokens ⟨true, false⟩ (distantName 63 ++ [⟨.openParen, "(", 1, 64⟩])).next.value ≠
      (ofTokens ⟨true, false⟩ (distantName 63 ++ [⟨.semicolon, ";", 1, 64⟩])).next.value := by
  decide +kernel

end Scanner

end TokenAtlas
