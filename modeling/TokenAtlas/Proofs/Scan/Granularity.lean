import TokenAtlas.Proofs.Feature.Cuts
import TokenAtlas.Proofs.Source.Permission

/-! Scanning a stream as it is against scanning it refined. Main statement: both scans
recognize the same features in the same order and come to the same names in force, the same
levels and the same counts. Casts are left out, whose brackets the levels count only if the
stream is refined, and so are opening words that are only names and blank strings, which are
trivia only if the stream is refined. -/

namespace TokenAtlas

open Cursor (standing)

/-! ### What stands for a token -/

theorem Kind.isAtomic_of_not_isInert {k : Kind} (hcast : k.isCast = false)
    (hattribute : k ≠ .attributeOpen) (hinert : k.isInert = false) : k.IsAtomic := by
  intro apart
  cases k <;> simp_all [Kind.isCast, Kind.isInert, Kind.isTrivia, Atom.Splitter.ofKind]

/-- What stands for a token is solid if the token is. -/
theorem Cursor.isSolid_standing (splitting : Option Bool) {t : Token}
    (hstring : t.kind.isString = true → t.isBlank = false) :
    Token.isSolid (standing splitting t) = !t.isTrivia := by
  by_cases htrivia : t.isTrivia = true
  · have hall : ∀ a ∈ standing splitting t, a.isTrivia = true := fun a ha =>
      isTrivia_of_mem_standing htrivia ha
    simpa [Token.isSolid, htrivia] using hall
  · obtain ⟨a, ha, hsolid⟩ :=
      exists_solid_standing splitting (by simpa using htrivia) fun _ => hstring
    have hany : Token.isSolid (standing splitting t) = true :=
      List.any_eq_true.2 ⟨a, ha, by simp [hsolid]⟩
    rw [hany]
    simpa using htrivia

/-- Refining cuts a token, casts apart. -/
theorem Cursor.cut_standing (splitting : Option Bool) {t : Token} (hcast : t.kind.isCast = false)
    (hmark : t.kind ≠ .attributeMarker)
    (hstring : t.kind.isString = true → t.isBlank = false) : Cut t (standing splitting t) := by
  have htext := (covers_standing splitting t).joined
  by_cases hattribute : t.kind = .attributeOpen
  · rcases standing_of_attributeOpen splitting hattribute with hself | ⟨mark, o, hboth, hk, hk'⟩
    · rw [hself]
      exact .whole hmark
    · rw [hboth] at htext ⊢
      exact .opening hattribute hk hk' (by simpa [Token.joined] using htext)
  · by_cases hinert : t.kind.isInert = true
    · have hparts : ∀ a ∈ standing splitting t, a.kind.isInert = true := fun a ha =>
        (kind_of_mem_standing hcast hattribute ha).holds (P := (·.isInert = true)) rfl rfl hinert
      exact .text hinert hparts htext (isSolid_standing splitting hstring)
    · rw [standing_of_isAtomic splitting
        (Kind.isAtomic_of_not_isInert hcast hattribute (by simpa using hinert))]
      exact .whole hmark

/-! ### Silent steps -/

theorem loud_cons (step : StackStep) (steps : List StackStep) :
    loud (step :: steps) = if step.isSilent then loud steps else step :: loud steps := by
  cases h : step.isSilent <;> simp [loud, h]

namespace StackStep

theorem isSilent_iff {step : StackStep} :
    step.isSilent = true ↔
      step.events = [] ∧ step.products = [] ∧ step.opened = none ∧ step.discarded = none := by
  simp [isSilent, and_assoc]

theorem tally_of_isSilent {step : StackStep} (h : step.isSilent = true) : step.tally = 0 := by
  obtain ⟨-, hproducts, hopened, hdiscarded⟩ := isSilent_iff.1 h
  simp [tally, hproducts, hopened, hdiscarded]

end StackStep

theorem Imports.follow_of_isSilent (i : Imports) {step : StackStep} (h : step.isSilent = true) :
    i.follow step = i := by
  obtain ⟨hevents, hproducts, -⟩ := StackStep.isSilent_iff.1 h
  simp [follow, hevents, hproducts]

theorem Imports.foldl_follow_loud (i : Imports) (steps : List StackStep) :
    (loud steps).foldl follow i = steps.foldl follow i := by
  induction steps generalizing i with
  | nil => rfl
  | cons step steps ih =>
    rw [loud_cons, List.foldl_cons]
    split
    · next h => rw [ih, follow_of_isSilent i h]
    · rw [List.foldl_cons, ih]

theorem products_loud (steps : List StackStep) :
    (loud steps).flatMap (·.products) = steps.flatMap (·.products) := by
  induction steps with
  | nil => rfl
  | cons step steps ih =>
    rw [loud_cons, List.flatMap_cons]
    split
    · next h => rw [ih, (StackStep.isSilent_iff.1 h).2.1, List.nil_append]
    · rw [List.flatMap_cons, ih]

theorem tally_loud (steps : List StackStep) :
    ((loud steps).map StackStep.tally).sum = (steps.map StackStep.tally).sum := by
  induction steps with
  | nil => rfl
  | cons step steps ih =>
    rw [loud_cons, List.map_cons, List.sum_cons]
    split
    · next h => rw [ih, StackStep.tally_of_isSilent h, zero_add]
    · rw [List.map_cons, List.sum_cons, ih]

/-! ### Whole scans -/

namespace Scanner

/-- Two scans that recognized the same and ended alike. -/
structure SameFindings (s d : Scanner) : Prop where
  ending : d.ending = s.ending
  products : d.products = s.products
  imports : d.imports = s.imports
  tracker : d.tracker = s.tracker
  opened : d.metrics.buildersOpened = s.metrics.buildersOpened
  finished : d.metrics.buildersFinished = s.metrics.buildersFinished
  discarded : d.metrics.candidatesDiscarded = s.metrics.candidatesDiscarded

/-- What a scan to the end has come to, if the tokens `ts` stand for its source. -/
structure Completes (s : Scanner) (ts : List Token) : Prop where
  ending : s.ending = .finished
  products : s.products = (Site.start.steps ts).flatMap (·.products)
  imports : s.imports = (Site.start.steps ts).foldl Imports.follow .empty
  tracker : s.tracker = ⟨(Site.start.after ts).levels, none⟩
  tally : s.counts.tally = ((Site.start.steps ts).map StackStep.tally).sum

/-- A scan to the end, in whose stream no opening word is only a name. -/
theorem completes_scanAll {o : ScanOptions} {source ts : List Token}
    (hplan : (ofTokens o source).cursor.plan = ts.map .ok)
    (hlimit : ts.length ≤ Limits.tokenCount)
    (hopens : ∀ t ∈ ts, t.kind ≠ .doubleColon ∧ t.kind ≠ .caseWord) :
    (ofTokens o source).scanAll.value.2 = none ∧
      Completes (ofTokens o source).scanAll.scanner ts := by
  have hcount : (ofTokens o source).cursor.yielded + ts.length ≤ Limits.tokenCount := by
    rwa [yielded_ofTokens, Nat.zero_add]
  obtain ⟨d, hpass, hend⟩ := scanner_scanAll_of_plan rfl hplan hcount
  obtain ⟨hsteps, hafter⟩ :=
    Course.start.steps_eq_site (@permitted_of_unblocked [] ts (.of_ne hopens))
  rw [map_fst_permitted, List.reverse_nil] at hsteps hafter
  have hcourse : d.course = Course.start.after (permitted [] ts) := hpass.course
  have himports : d.imports = (Course.start.steps (permitted [] ts)).foldl Imports.follow .empty :=
    hpass.imports
  have hproducts : d.products = (Course.start.steps (permitted [] ts)).flatMap (·.products) :=
    hpass.products
  have htally : d.counts.tally =
      0 + ((Course.start.steps (permitted [] ts)).map StackStep.tally).sum := hpass.tally
  rw [hsteps] at himports hproducts htally
  have htracker : d.tracker.settle = ⟨(Site.start.after ts).levels, none⟩ := by
    have hlevels : d.course.site.levels = (Site.start.after ts).levels := by
      rw [hcourse, hafter]
      rfl
    rw [← hlevels, ← d.tracker.settle_due]
    rfl
  exact ⟨(scanAll_of_plan rfl hplan hcount).1, hend.ending, hend.products.trans hproducts,
    hend.imports.trans himports, hend.tracker.trans htracker,
    by rw [hend.counts, htally, zero_add]; rfl⟩

/-- Scans come to the same if their streams do, silent steps apart. -/
theorem Completes.sameFindings {s d : Scanner} {as bs : List Token} (hs : s.Completes as)
    (hd : d.Completes bs) (h : Site.start.Agree as bs) : SameFindings s d := by
  have htally : d.counts.tally = s.counts.tally := by
    rw [hd.tally, hs.tally, ← tally_loud, ← tally_loud (Site.start.steps as), h.steps]
  obtain ⟨hopened, hfinished, hdiscarded⟩ : d.counts.buildersOpened = s.counts.buildersOpened ∧
      d.counts.buildersFinished = s.counts.buildersFinished ∧
      d.counts.candidatesDiscarded = s.counts.candidatesDiscarded := by
    simpa [ScanMetrics.tally] using htally
  refine ⟨hd.ending.trans hs.ending.symm, ?_, ?_, ?_, hopened, hfinished, hdiscarded⟩
  · rw [hd.products, hs.products, ← products_loud, ← products_loud (Site.start.steps as), h.steps]
  · rw [hd.imports, hs.imports, ← Imports.foldl_follow_loud,
      ← Imports.foldl_follow_loud _ (Site.start.steps as), h.steps]
  · rw [hd.tracker, hs.tracker]
    exact congrArg (LevelTracker.mk · none) (congrArg Site.levels h.after).symm

/-- Scanning a stream as it is and scanning it refined recognizes the same, however blanks
around lines are kept. A stream that is accepted with one way to keep them is accepted with
the other. -/
theorem refining_keeps_findings {source accepted : List Token} {setting : Bool}
    (haccepted : Atom.atomizeAll setting source = .ok accepted)
    (hkinds : ∀ t ∈ source, t.kind.isCast = false ∧ t.kind ≠ .attributeMarker ∧
      t.kind ≠ .doubleColon ∧ t.kind ≠ .caseWord)
    (hstrings : ∀ t ∈ source, t.kind.isString = true → t.isBlank = false)
    (hsource : source.length ≤ Limits.tokenCount) (kept apart : Bool) :
    ∃ atoms, Atom.atomizeAll apart source = .ok atoms ∧
      (atoms.length ≤ Limits.tokenCount →
        (ofTokens ⟨false, kept⟩ source).scanAll.value.2 = none ∧
        (ofTokens ⟨true, apart⟩ source).scanAll.value.2 = none ∧
        SameFindings (ofTokens ⟨false, kept⟩ source).scanAll.scanner
          (ofTokens ⟨true, apart⟩ source).scanAll.scanner) := by
  obtain ⟨atoms, hatoms⟩ : ∃ atoms, Atom.atomizeAll apart source = .ok atoms :=
    Atom.accepts_of_accepts haccepted apart
  refine ⟨atoms, hatoms, fun hlimit => ?_⟩
  have hplan := Cursor.contributions_of_atomizeAll hatoms
  have hstands : atoms = source.flatMap (standing (some apart)) := Cursor.eq_of_contributions hplan
  have hcuts : ∀ t ∈ source, Cut t (standing (some apart) t) := fun t ht =>
    Cursor.cut_standing _ (hkinds t ht).1 (hkinds t ht).2.1 (hstrings t ht)
  have hagree := Site.agree_of_cuts hcuts (s := .start) Stack.ready_empty
  rw [← hstands] at hagree
  obtain ⟨hplain, hcompletes⟩ := @completes_scanAll ⟨false, kept⟩ source source
    List.map_eq_flatMap.symm hsource fun t ht => (hkinds t ht).2.2
  obtain ⟨hrefined, hcompletes'⟩ := @completes_scanAll ⟨true, apart⟩ source atoms
    hplan hlimit fun a ha => by
      rw [hstands] at ha
      obtain ⟨t, ht, ha⟩ := List.mem_flatMap.1 ha
      obtain ⟨-, -, hcolon, hcase⟩ := hkinds t ht
      exact ⟨Cursor.ne_of_mem_standing hcolon (by decide) ha,
        Cursor.ne_of_mem_standing hcase (by decide) ha⟩
  exact ⟨hplain, hrefined, hcompletes.sameFindings hcompletes' hagree⟩

/-- `<?php`, and on the next line `namespace A; function f(#[B]$x=…);`, where the default is a
string of two lines. -/
def attributed : List Token :=
  [⟨.openTag, "<?php\n", 1, 0⟩, ⟨.namespaceWord, "namespace", 2, 6⟩, ⟨.whitespace, " ", 2, 15⟩,
    ⟨.identifier, "A", 2, 16⟩, ⟨.semicolon, ";", 2, 17⟩, ⟨.whitespace, " ", 2, 18⟩,
    ⟨.functionWord, "function", 2, 19⟩, ⟨.whitespace, " ", 2, 27⟩, ⟨.identifier, "f", 2, 28⟩,
    ⟨.openParen, "(", 2, 29⟩, ⟨.attributeOpen, "#[", 2, 30⟩, ⟨.identifier, "B", 2, 32⟩,
    ⟨.closeSquare, "]", 2, 33⟩, ⟨.variableName, "$x", 2, 34⟩, ⟨.equals, "=", 2, 36⟩,
    ⟨.constantString, "'1\n  2'", 2, 37⟩, ⟨.closeParen, ")", 3, 44⟩, ⟨.semicolon, ";", 3, 45⟩]

/-- The tag, the opening of the attribute and the string come apart, and the namespace and the
function are recognized all the same. -/
theorem refining_keeps_findings_attributed :
    Atom.atomizeAll true attributed = .ok (attributed.flatMap (standing (some true))) ∧
      (attributed.flatMap (standing (some true))).length = 23 ∧
      (ofTokens ⟨false, true⟩ attributed).scanAll.scanner.products.length = 2 ∧
      SameFindings (ofTokens ⟨false, true⟩ attributed).scanAll.scanner
        (ofTokens ⟨true, true⟩ attributed).scanAll.scanner := by
  have haccepted :
      Atom.atomizeAll true attributed = .ok (attributed.flatMap (standing (some true))) := by
    decide +kernel
  have hlength : (attributed.flatMap (standing (some true))).length = 23 := by decide +kernel
  obtain ⟨atoms, hatoms, hsame⟩ := refining_keeps_findings haccepted (by decide +kernel)
    (by decide +kernel) (by decide) true true
  obtain rfl : _ = atoms := Except.ok.inj (haccepted.symm.trans hatoms)
  exact ⟨haccepted, hlength, by decide +kernel, (hsame (by rw [hlength]; decide)).2.2⟩

end Scanner

end TokenAtlas
