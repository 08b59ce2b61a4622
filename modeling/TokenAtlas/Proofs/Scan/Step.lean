import Mathlib.Algebra.Group.Prod
import Mathlib.Algebra.GroupWithZero.Nat
import Mathlib.Tactic.ByContra
import TokenAtlas.Proofs.Cursor.Stream
import TokenAtlas.Proofs.Feature.Course
import TokenAtlas.Scan

/-! What one move of a scan does. The levels and the open features take the next token of
the plan as a course does, the imports and the counts follow what the token did to the
features, and the classification changes none of them. A scan that has ended stays as it is. -/

namespace TokenAtlas

namespace Imports

/-- The names in force after news from a builder. -/
def heed (_ : Imports) : BuildEvent → Imports
  | .namespaceNameKnown name => .enter name

/-- The names in force after a finished feature. -/
def adopt (i : Imports) : Product → Imports
  | .namespaceImport d => (i.apply d).imports
  | .namespaceDeclaration _ | .functionSignature _ => i

/-- The names in force after all that a token did to the open features. -/
def follow (i : Imports) (step : StackStep) : Imports :=
  step.products.foldl adopt (step.events.foldl heed i)

end Imports

/-- How a scan splits the tokens of its source. -/
def ScanOptions.splitting (o : ScanOptions) : Option Bool := if o.refine then some o.apart else none

theorem ScanOptions.isSome_splitting (o : ScanOptions) : o.splitting.isSome = o.refine := by
  cases h : o.refine <;> simp [splitting, h]

/-- How many features were opened, how many finished, and how many candidates discarded. -/
def ScanMetrics.tally (c : ScanMetrics) : Nat × Nat × Nat :=
  (c.buildersOpened, c.buildersFinished, c.candidatesDiscarded)

/-- What a token adds to the tally. -/
def StackStep.tally (step : StackStep) : Nat × Nat × Nat :=
  (if step.opened.isSome then 1 else 0, step.products.length,
    if step.discarded.isSome then 1 else 0)

/-- The counts after all that a token did to the open features, which brought so many imports
into force. -/
def ScanMetrics.recording (c : ScanMetrics) (step : StackStep) (registered : Nat) : ScanMetrics :=
  { c with
    buildersOpened := c.buildersOpened + if step.opened.isSome then 1 else 0
    buildersFinished := c.buildersFinished + step.products.length
    candidatesDiscarded := c.candidatesDiscarded + if step.discarded.isSome then 1 else 0
    namespacesEntered := c.namespacesEntered + step.events.length
    importsRegistered := c.importsRegistered + registered }

namespace Scanner

/-- The nesting and the open features of a scan. -/
def course (s : Scanner) : Course := ⟨s.tracker, s.stack⟩

/-- The scanner after `n` moves. -/
def after (s : Scanner) : Nat → Scanner
  | 0 => s
  | n + 1 => (s.after n).next.scanner

/-- Whether an opening word behind these tokens, the latest first, can begin a feature. -/
def opensBehind (before : List Token) : Bool :=
  !((Cursor.nearest Token.isTrivia before).map (·.1)).any
    fun t => t.kind = .doubleColon || t.kind = .caseWord

theorem mayOpen_eq (c : Cursor) : mayOpen c = opensBehind c.before := rfl

/-! ### Taking over what a token did -/

theorem applyEvent_eq (s : Scanner) (told : List Notice) (e : BuildEvent) :
    (s.applyEvent told e).1 =
      { s with
        imports := s.imports.heed e
        counts := { s.counts with namespacesEntered := s.counts.namespacesEntered + 1 } } := by
  cases e
  rfl

theorem applyProduct_eq (s : Scanner) (told : List Notice) (p : Product) :
    ∃ registered, (s.applyProduct told p).1 =
      { s with
        imports := s.imports.adopt p
        finished := p :: s.finished
        counts :=
          { s.counts with
            buildersFinished := s.counts.buildersFinished + 1
            importsRegistered := s.counts.importsRegistered + registered } } := by
  cases p with
  | namespaceDeclaration d => exact ⟨0, rfl⟩
  | namespaceImport d => exact ⟨(s.imports.apply d).accepted, rfl⟩
  | functionSignature f => exact ⟨0, rfl⟩

theorem foldl_applyEvent_eq (s : Scanner) (told : List Notice) (es : List BuildEvent) :
    (es.foldl (fun acc e => applyEvent acc.1 acc.2 e) (s, told)).1 =
      { s with
        imports := es.foldl Imports.heed s.imports
        counts :=
          { s.counts with namespacesEntered := s.counts.namespacesEntered + es.length } } := by
  induction es generalizing s told with
  | nil => rfl
  | cons e es ih =>
    rw [List.foldl_cons, ih (s.applyEvent told e).1 (s.applyEvent told e).2, applyEvent_eq]
    simp [Nat.add_assoc, Nat.add_comm 1]

theorem foldl_applyProduct_eq (s : Scanner) (told : List Notice) (ps : List Product) :
    ∃ registered, (ps.foldl (fun acc p => applyProduct acc.1 acc.2 p) (s, told)).1 =
      { s with
        imports := ps.foldl Imports.adopt s.imports
        finished := ps.reverse ++ s.finished
        counts :=
          { s.counts with
            buildersFinished := s.counts.buildersFinished + ps.length
            importsRegistered := s.counts.importsRegistered + registered } } := by
  induction ps generalizing s told with
  | nil => exact ⟨0, rfl⟩
  | cons p ps ih =>
    obtain ⟨registered, hp⟩ := applyProduct_eq s told p
    obtain ⟨registered', hps⟩ := ih (s.applyProduct told p).1 (s.applyProduct told p).2
    refine ⟨registered + registered', ?_⟩
    rw [List.foldl_cons, hps, hp]
    simp [Nat.add_assoc, Nat.add_comm 1]

/-- Names in force and finished features change, and the counts, but nothing else. -/
theorem applyStep_eq (s : Scanner) (step : StackStep) :
    ∃ registered, (s.applyStep step).1 =
      { s with
        imports := s.imports.follow step
        finished := step.products.reverse ++ s.finished
        counts := s.counts.recording step registered } := by
  unfold applyStep
  simp only
  generalize hs : ({ s with counts := _ } : Scanner) = s'
  have he := foldl_applyEvent_eq s' step.notices step.events
  obtain ⟨registered, hp⟩ := foldl_applyProduct_eq
    (step.events.foldl (fun acc e => applyEvent acc.1 acc.2 e) (s', step.notices)).1
    (step.events.foldl (fun acc e => applyEvent acc.1 acc.2 e) (s', step.notices)).2 step.products
  refine ⟨registered, ?_⟩
  rw [hp, he, ← hs]
  rfl

/-! ### One move -/

/-- What a scan knows when it classifies the token `t` that comes next. -/
def surroundings (s : Scanner) (t : Token) : Surroundings :=
  let (step, c) := s.course.next t (opensBehind s.cursor.past)
  ⟨step.hint, c.tracker.levels, c.stack.active?.any Builder.readsTypes, s.imports.follow step⟩

/-- From `s` the scan moved on to `t` and is now at `d`. -/
structure MovedTo (s : Scanner) (t : Token) (d : Scanner) : Prop where
  running : d.ending = .running
  plan : s.cursor.plan = .ok t :: d.cursor.plan
  past : d.cursor.past = t :: s.cursor.past
  yielded : d.cursor.yielded = s.cursor.yielded + 1
  course : d.course = (s.course.next t (opensBehind s.cursor.past)).2
  imports : d.imports = s.imports.follow (s.course.next t (opensBehind s.cursor.past)).1
  products :
    d.products = s.products ++ (s.course.next t (opensBehind s.cursor.past)).1.products
  counts : ∃ registered, d.counts =
    { s.counts.recording (s.course.next t (opensBehind s.cursor.past)).1 registered with
      tokensYielded := s.counts.tokensYielded + 1 }

theorem MovedTo.stack {s d : Scanner} {t : Token} (h : MovedTo s t d) :
    d.stack = (s.stack.step t (s.tracker.advance t.kind).levels (opensBehind s.cursor.past)).2 :=
  congrArg Course.stack h.course

theorem MovedTo.tally {s d : Scanner} {t : Token} (h : MovedTo s t d) :
    d.counts.tally = s.counts.tally +
      (s.course.next t (opensBehind s.cursor.past)).1.tally := by
  obtain ⟨registered, hcounts⟩ := h.counts
  rw [hcounts]
  rfl

/-- Scanning the token `t` that the cursor `c` has just moved to. -/
theorem scanToken_spec {s : Scanner} {t : Token} {c : Cursor}
    (hpast : c.past = t :: s.cursor.past) (index : Nat) :
    ∃ found r d registered, ({ s with cursor := c } : Scanner).scanToken index t =
        ⟨⟨index, t, found.category, found.tags⟩,
          (({ s with cursor := c } : Scanner).scanToken index t).notices,
          { s with
            cursor := d
            classifier := r
            tracker := (s.course.next t (opensBehind s.cursor.past)).2.tracker
            stack := (s.course.next t (opensBehind s.cursor.past)).2.stack
            imports := s.imports.follow (s.course.next t (opensBehind s.cursor.past)).1
            finished :=
              (s.course.next t (opensBehind s.cursor.past)).1.products.reverse ++ s.finished
            counts :=
              { s.counts.recording (s.course.next t (opensBehind s.cursor.past)).1 registered with
                tokensYielded := s.counts.tokensYielded + 1 } }⟩ ∧
      s.classifier.classify index t (s.surroundings t) c = (found, r, d) ∧
      Cursor.Looked c d := by
  have hopen : mayOpen c = opensBehind s.cursor.past := by
    rw [mayOpen_eq, Cursor.before, hpast]
    rfl
  rcases hstep : s.stack.step t (s.tracker.advance t.kind).levels (opensBehind s.cursor.past)
    with ⟨step, stack⟩
  have hnext : s.course.next t (opensBehind s.cursor.past) =
      (step, ⟨s.tracker.advance t.kind, stack⟩) := by
    simp [Course.next, course, hstep]
  obtain ⟨registered, happly⟩ :=
    applyStep_eq { s with cursor := c, tracker := s.tracker.advance t.kind, stack } step
  simp only [surroundings, hnext, scanToken, levels, hopen, hstep, happly]
  exact ⟨_, _, _, registered, rfl, rfl, Classifier.looked_classify _ _ _ _ _⟩

theorem next_of_advance {s : Scanner} {t : Token} {c : Cursor} (hr : s.ending = .running)
    (hc : s.cursor.advance = (.ok (some t), c)) (hn : s.cursor.yielded < Limits.tokenCount) :
    s.next.value =
        .ok (some (({ s with cursor := c } : Scanner).scanToken s.cursor.yielded t).value) ∧
      s.next.scanner =
        (({ s with cursor := c } : Scanner).scanToken s.cursor.yielded t).scanner := by
  simp [next, hr, hc, Nat.not_le.2 hn]

/-- A token that is next in the plan is scanned, unless it is one too many. -/
theorem next_token {s : Scanner} {t : Token} {rest : List (Except Atom.Refusal Token)}
    (hr : s.ending = .running) (hp : s.cursor.plan = .ok t :: rest)
    (hn : s.cursor.yielded < Limits.tokenCount) :
    ∃ x, s.next.value = .ok (some x) ∧ x.index = s.cursor.yielded ∧ x.token = t ∧
      MovedTo s t s.next.scanner ∧ s.next.scanner.cursor.plan = rest := by
  rcases s.cursor.advance_cases with ⟨u, more, c, hu, hc, hplan, hpast, hy⟩ | ⟨e, more, c, he, -⟩ |
    ⟨c, hnil, -⟩
  · obtain ⟨rfl, rfl⟩ : t = u ∧ rest = more := by simpa [hp] using hu
    obtain ⟨hvalue, hscanner⟩ := next_of_advance hr hc hn
    obtain ⟨found, r, d, registered, hscan, -, hlooked⟩ := scanToken_spec hpast s.cursor.yielded
    have hsame := hlooked.samePlace
    rw [hscan] at hvalue hscanner
    refine ⟨_, hvalue, rfl, rfl, ?_, ?_⟩
    · rw [hscanner]
      exact ⟨hr, by rw [hsame.plan, hplan, hp], hsame.past.trans hpast, hsame.yielded.trans hy,
        rfl, rfl, by simp [products], registered, rfl⟩
    · rw [hscanner, hsame.plan, hplan]
  · simp [hp] at he
  · simp [hp] at hnil

/-- A token that is yielded is classified at its place in the stream, and after that the
cursor is still there. -/
theorem next_classifies {s : Scanner} {x : ScannedToken} (h : s.next.value = .ok (some x)) :
    ∃ c, s.cursor.advance = (.ok (some x.token), c) ∧
      s.classifier.classify s.cursor.yielded x.token (s.surroundings x.token) c =
        (⟨x.category, x.tags⟩, s.next.scanner.classifier, s.next.scanner.cursor) ∧
      Cursor.Looked c s.next.scanner.cursor := by
  have hr : s.ending = .running := by
    by_contra hr
    simp [next, hr] at h
  rcases s.cursor.advance_cases with ⟨t, more, c, -, hc, -, hpast, -⟩ | ⟨e, more, c, -, hc, -⟩ |
    ⟨c, -, hc, -⟩
  · by_cases hn : s.cursor.yielded < Limits.tokenCount
    · obtain ⟨hvalue, hscanner⟩ := next_of_advance hr hc hn
      obtain ⟨found, r, d, registered, hscan, hfound, hlooked⟩ :=
        scanToken_spec hpast s.cursor.yielded
      rw [hscan] at hvalue hscanner
      obtain rfl := Option.some.inj (Except.ok.inj (hvalue.symm.trans h))
      rw [hscanner]
      exact ⟨c, hc, hfound, hlooked⟩
    · simp [next, hr, hc, Nat.not_lt.1 hn, halt] at h
  · simp [next, hr, hc, halt] at h
  · simp [next, hr, hc, finish] at h

/-- A refusal that is next in the plan halts the scan where it stands. -/
theorem next_refusal {s : Scanner} {e : Atom.Refusal} {rest : List (Except Atom.Refusal Token)}
    (hr : s.ending = .running) (hp : s.cursor.plan = .error e :: rest) :
    s.next.value = .error (.refused s.cursor.yielded e) ∧ s.next.scanner.ending = .halted ∧
      s.next.scanner.course = s.course ∧ s.next.scanner.imports = s.imports ∧
      s.next.scanner.products = s.products := by
  rcases s.cursor.advance_cases with ⟨t, more, d, ht, -⟩ | ⟨e', more, d, he, hd, -⟩ | ⟨d, hnil, -⟩
  · simp [hp] at ht
  · obtain ⟨rfl, rfl⟩ : e = e' ∧ rest = more := by simpa [hp] using he
    simp [next, hr, hd, halt, course, products]
  · simp [hp] at hnil

/-- A token too many halts the scan where it stands. -/
theorem next_tooMany {s : Scanner} {t : Token} {rest : List (Except Atom.Refusal Token)}
    (hr : s.ending = .running) (hp : s.cursor.plan = .ok t :: rest)
    (hn : Limits.tokenCount ≤ s.cursor.yielded) :
    s.next.value = .error (.tooManyTokens Limits.tokenCount) ∧
      s.next.scanner.ending = .halted ∧ s.next.scanner.course = s.course ∧
      s.next.scanner.imports = s.imports ∧ s.next.scanner.products = s.products := by
  rcases s.cursor.advance_cases with ⟨u, more, d, hu, hd, -⟩ | ⟨e, more, d, he, -⟩ | ⟨d, hnil, -⟩
  · simp [next, hr, hd, hn, halt, course, products]
  · simp [hp] at he
  · simp [hp] at hnil

/-- `d` is the scan `s` come to the end of its stream. -/
structure EndsAs (s d : Scanner) : Prop where
  ending : d.ending = .finished
  tracker : d.tracker = s.tracker.settle
  imports : d.imports = s.imports
  products : d.products = s.products
  counts : d.counts = s.counts

/-- The end of the plan is the end of the scan. -/
theorem next_end {s : Scanner} (hr : s.ending = .running) (hp : s.cursor.plan = []) :
    s.next.value = .ok none ∧ EndsAs s s.next.scanner := by
  rcases s.cursor.advance_cases with ⟨t, more, d, ht, -⟩ | ⟨e, more, d, he, -⟩ | ⟨d, -, hd, -⟩
  · simp [hp] at ht
  · simp [hp] at he
  · have hnext : s.next = ({ s with cursor := d } : Scanner).finish := by
      simp [next, hr, hd]
    rw [hnext]
    exact ⟨rfl, rfl, rfl, rfl, rfl, rfl⟩

/-- A scan that has ended yields nothing more and stays as it is. -/
theorem next_of_ended {s : Scanner} (h : s.ending ≠ .running) :
    s.next.value = .ok none ∧ s.next.scanner = s := by
  simp [next, h]

/-- A move from `s` to `d` that yields nothing. It ends the scan or finds it ended, and takes
nothing but the next item from the stream. -/
structure Stops (s d : Scanner) : Prop where
  ended : d.ending ≠ .running
  stack : d.stack = s.stack
  finished : d.finished = s.finished
  counts : d.counts = s.counts
  classifier : d.classifier = s.classifier
  cursor : s.ending ≠ .running ∧ d = s ∨ d.cursor = s.cursor.advance.2
  exhausted : s.ending = .running → d.ending = .finished → d.cursor.source = []

theorem stops_of_no_yield {s : Scanner} (h : ∀ x, s.next.value ≠ .ok (some x)) :
    Stops s s.next.scanner := by
  by_cases hr : s.ending = .running
  · rcases s.cursor.advance_cases with ⟨t, more, c, -, hc, -⟩ | ⟨e, more, c, -, hc, -⟩ |
      ⟨c, -, hc, -, hsource⟩
    · by_cases hn : s.cursor.yielded < Limits.tokenCount
      · exact absurd (next_of_advance hr hc hn).1 (h _)
      · have hnext : s.next =
            ({ s with cursor := c } : Scanner).halt (.tooManyTokens Limits.tokenCount) := by
          simp [next, hr, hc, Nat.not_lt.1 hn]
        rw [hnext]
        exact ⟨nofun, rfl, rfl, rfl, rfl, .inr (by rw [hc]; rfl), fun _ => nofun⟩
    · have hnext : s.next =
          ({ s with cursor := c } : Scanner).halt (.refused s.cursor.yielded e) := by
        simp [next, hr, hc]
      rw [hnext]
      exact ⟨nofun, rfl, rfl, rfl, rfl, .inr (by rw [hc]; rfl), fun _ => nofun⟩
    · have hnext : s.next = ({ s with cursor := c } : Scanner).finish := by
        simp [next, hr, hc]
      rw [hnext]
      exact ⟨nofun, rfl, rfl, rfl, rfl, .inr (by rw [hc]; rfl), fun _ _ => hsource⟩
  · rw [(next_of_ended hr).2]
    exact ⟨hr, rfl, rfl, rfl, rfl, .inl ⟨hr, rfl⟩, fun h => absurd h hr⟩

/-- A running scan that gives neither a token nor an error has come to its end. -/
theorem finished_of_end {s : Scanner} (hr : s.ending = .running) (h : s.next.value = .ok none) :
    s.next.scanner.ending = .finished := by
  rcases s.cursor.advance_cases with ⟨t, more, c, -, hc, -⟩ | ⟨e, more, c, -, hc, -⟩ |
    ⟨c, -, hc, -⟩
  · by_cases hn : s.cursor.yielded < Limits.tokenCount
    · exact absurd ((next_of_advance hr hc hn).1.symm.trans h) nofun
    · simp [next, hr, hc, Nat.not_lt.1 hn, halt] at h
  · simp [next, hr, hc, halt] at h
  · simp [next, hr, hc, finish]

theorem after_add (s : Scanner) (m n : Nat) : s.after (m + n) = (s.after m).after n := by
  induction n with
  | zero => rfl
  | succ n ih => exact congrArg (·.next.scanner) ih

/-- The first move and the others. -/
theorem after_succ (s : Scanner) (n : Nat) : s.after (n + 1) = s.next.scanner.after n := by
  rw [Nat.add_comm, after_add]
  rfl

theorem after_of_ended {s : Scanner} (h : s.ending ≠ .running) (n : Nat) : s.after n = s := by
  induction n with
  | zero => rfl
  | succ n ih =>
    rw [after, ih]
    exact (next_of_ended h).2

end Scanner

end TokenAtlas
