import TokenAtlas.Proofs.Cursor.Account
import TokenAtlas.Proofs.Feature.Balance
import TokenAtlas.Proofs.Scan.Once

/-! The counts of a scan. Main statement: after every move, also behind an error, no feature is
lost or counted twice. What was opened has finished or is open, what was started was opened,
discarded or is pending, and tokens, names and products are counted as they came. -/

namespace TokenAtlas.Scanner

/-- What the next token does to the open features. -/
def step (s : Scanner) (t : Token) : StackStep := (s.course.next t (opensBehind s.cursor.past)).1

/-- Whether the next token starts a candidate. -/
def starts (s : Scanner) (t : Token) : Bool := s.stack.starts t.kind (opensBehind s.cursor.past)

/-- The tokens that `n` moves yield, each with the scan before it. -/
def yields (s : Scanner) : Nat → List (Scanner × ScannedToken)
  | 0 => []
  | n + 1 =>
    s.yields n ++
      match (s.after n).next.value with
      | .ok (some x) => [(s.after n, x)]
      | _ => []

/-- The counts of a scan that yielded these tokens and is now at `d`. -/
structure Counted (yielded : List (Scanner × ScannedToken)) (d : Scanner) : Prop where
  stack : d.stack.WellFormed
  opened : d.counts.buildersOpened = d.counts.buildersFinished + d.stack.depth
  finished : d.counts.buildersFinished = d.finished.length
  started : yielded.countP (fun y => y.1.starts y.2.token) =
    d.counts.buildersOpened + d.counts.candidatesDiscarded + d.stack.pending
  tokens : d.counts.tokensYielded = yielded.length
  entered : d.counts.namespacesEntered =
    (yielded.flatMap fun y => (y.1.step y.2.token).events).length

namespace Counted

variable {yielded : List (Scanner × ScannedToken)} {d e : Scanner}

theorem start (o : ScanOptions) (source : List Token) : Counted [] (ofTokens o source) :=
  ⟨Stack.wellFormed_empty, rfl, rfl, rfl, rfl, rfl⟩

/-- A token that is yielded is counted, and so is all that it does. -/
theorem snoc (h : Counted yielded d) {x : ScannedToken} (hm : MovedTo d x.token e) :
    Counted (yielded ++ [(d, x)]) e := by
  obtain ⟨registered, hcounts⟩ := hm.counts
  have hcounts : e.counts = { d.counts.recording (d.step x.token) registered with
      tokensYielded := d.counts.tokensYielded + 1 } := hcounts
  have hwellFormed : e.stack.WellFormed := hm.stack ▸ (h.stack.step _ _ _).1
  have hbalances : Stack.Balances d.stack (if d.starts x.token then 1 else 0)
      (d.step x.token) e.stack := hm.stack ▸ h.stack.balances _ _ _
  obtain ⟨hdepth, hcandidates⟩ := hbalances
  have hfinished : e.finished.length = d.finished.length + (d.step x.token).products.length := by
    have hproducts := congrArg List.length hm.products
    simpa [products, step] using hproducts
  have hopened := h.opened
  have hbefore := h.finished
  have hstarted := h.started
  refine ⟨hwellFormed, ?_, ?_, ?_, ?_, ?_⟩
  · rw [hcounts]
    simp only [ScanMetrics.recording]
    omega
  · rw [hcounts]
    simp only [ScanMetrics.recording]
    omega
  · rw [hcounts, List.countP_append, List.countP_singleton]
    simp only [ScanMetrics.recording]
    omega
  · rw [hcounts, List.length_append, h.tokens]
    rfl
  · rw [hcounts, List.flatMap_append, List.length_append, ← h.entered]
    simp [ScanMetrics.recording]

/-- A move that yields nothing changes no count. -/
theorem stays (h : Counted yielded d) (hs : Stops d e) : Counted yielded e := by
  obtain ⟨-, hstack, hfinished, hcounts, -⟩ := hs
  exact ⟨hstack ▸ h.stack, by rw [hcounts, hstack]; exact h.opened,
    by rw [hcounts, hfinished]; exact h.finished,
    by rw [hcounts, hstack]; exact h.started, by rw [hcounts]; exact h.tokens,
    by rw [hcounts]; exact h.entered⟩

end Counted

theorem counted_after (o : ScanOptions) (source : List Token) (n : Nat) :
    Counted ((ofTokens o source).yields n) ((ofTokens o source).after n) := by
  induction n with
  | zero => exact .start o source
  | succ n ih =>
    simp only [yields, after]
    generalize (ofTokens o source).after n = d at ih
    rcases hv : d.next.value with e | _ | x
    · simpa using ih.stays (stops_of_no_yield (by simp [hv]))
    · simpa using ih.stays (stops_of_no_yield (by simp [hv]))
    · exact ih.snoc (movedTo_of_yield hv)

/-! ### What was taken from the source -/

theorem takes_next (s : Scanner) : ∃ ts, Cursor.Takes s.cursor s.next.scanner.cursor ts := by
  obtain ⟨ts, hts⟩ := Cursor.Takes.advance s.cursor
  by_cases h : ∃ x, s.next.value = .ok (some x)
  · obtain ⟨x, hx⟩ := h
    obtain ⟨c, hc, -, hlooked⟩ := next_classifies hx
    rw [hc] at hts
    obtain ⟨us, hus⟩ := hlooked.takes
    exact ⟨ts ++ us, hts.trans hus⟩
  · rcases (stops_of_no_yield (not_exists.1 h)).cursor with ⟨-, hsame⟩ | hadvance
    · rw [hsame]
      exact ⟨[], .refl _⟩
    · rw [hadvance]
      exact ⟨ts, hts⟩

theorem takes_after (s : Scanner) (n : Nat) :
    ∃ ts, Cursor.Takes s.cursor (s.after n).cursor ts := by
  induction n with
  | zero => exact ⟨[], .refl _⟩
  | succ n ih =>
    obtain ⟨ts, hts⟩ := ih
    obtain ⟨us, hus⟩ := takes_next (s.after n)
    exact ⟨ts ++ us, hts.trans hus⟩

/-- A scan is finished only when its source is. -/
theorem source_after_of_finished {s : Scanner} (hs : s.ending = .running) {n : Nat}
    (h : (s.after n).ending = .finished) : (s.after n).cursor.source = [] := by
  induction n with
  | zero => exact absurd (hs.symm.trans h) nofun
  | succ n ih =>
    rw [after] at h ⊢
    by_cases hr : (s.after n).ending = .running
    · rcases next_cases hr with ⟨t, x, -, -, -, -, hm⟩ | ⟨-, hno⟩
      · exact absurd (hm.running.symm.trans h) nofun
      · exact (stops_of_no_yield hno).exhausted hr h
    · rw [(next_of_ended hr).2] at h ⊢
      exact ih h

/-! ### The end without an error -/

theorem ending_after_ne_halted {s : Scanner} (hs : s.ending = .running) {n : Nat}
    (h : ∀ i < n, ∀ e, (s.after i).next.value ≠ .error e) : (s.after n).ending ≠ .halted := by
  induction n with
  | zero => simp [after, hs]
  | succ n ih =>
    have hn := ih fun i hi => h i (Nat.lt_succ_of_lt hi)
    rw [after]
    by_cases hr : (s.after n).ending = .running
    · rcases next_cases hr with ⟨t, x, -, -, -, -, hm⟩ | ⟨-, hno⟩
      · simp [hm.running]
      · rcases hv : (s.after n).next.value with e | _ | x
        · exact absurd hv (h n (Nat.lt_succ_self n) e)
        · simp [finished_of_end hr hv]
        · exact absurd hv (hno x)
    · rwa [(next_of_ended hr).2]

/-- A scan that came to its end without an error is finished. -/
theorem finished_after {s : Scanner} (hs : s.ending = .running) {n : Nat}
    (hend : ∃ i < n, (s.after i).next.value = .ok none)
    (h : ∀ i < n, ∀ e, (s.after i).next.value ≠ .error e) : (s.after n).ending = .finished := by
  obtain ⟨i, hi, hv⟩ := hend
  have hended : (s.after (i + 1)).ending ≠ .running := by
    rw [after]
    by_cases hr : (s.after i).ending = .running
    · simp [finished_of_end hr hv]
    · rwa [(next_of_ended hr).2]
  obtain ⟨k, rfl⟩ : ∃ k, n = i + 1 + k := ⟨n - (i + 1), by omega⟩
  have hhalted := ending_after_ne_halted hs h
  rw [after_add, after_of_ended hended] at hhalted ⊢
  cases hending : (s.after (i + 1)).ending <;> simp_all

/-- No feature is lost or counted twice, after however many moves. -/
theorem metrics_balance (o : ScanOptions) (source : List Token) (n : Nat) :
    ((ofTokens o source).after n).metrics.buildersOpened =
        ((ofTokens o source).after n).metrics.buildersFinished +
          ((ofTokens o source).after n).stack.depth ∧
      ((ofTokens o source).after n).metrics.buildersFinished =
        ((ofTokens o source).after n).products.length ∧
      ((ofTokens o source).yields n).countP (fun y => y.1.starts y.2.token) =
        ((ofTokens o source).after n).metrics.buildersOpened +
          ((ofTokens o source).after n).metrics.candidatesDiscarded +
          ((ofTokens o source).after n).stack.pending ∧
      ((ofTokens o source).after n).metrics.tokensYielded =
        ((ofTokens o source).yields n).length ∧
      ((ofTokens o source).after n).metrics.namespacesEntered =
        (((ofTokens o source).yields n).flatMap fun y => (y.1.step y.2.token).events).length ∧
      ((ofTokens o source).after n).metrics.cacheHits = 0 ∧
      ((∃ i < n, ((ofTokens o source).after i).next.value = .ok none) →
        (∀ i < n, ∀ e, ((ofTokens o source).after i).next.value ≠ .error e) →
        ((ofTokens o source).after n).metrics.rawTokens = source.length ∧
        ((ofTokens o source).after n).metrics.atomsProduced = (source.map
          (Cursor.splitCount (if o.refine then some o.apart else none))).sum) := by
  have hcounted := counted_after o source n
  refine ⟨hcounted.opened, ?_, hcounted.started, hcounted.tokens, hcounted.entered,
    ((unclassified_ofTokens o source).after n).hits, fun hend h => ?_⟩
  · rw [products, List.length_reverse]
    exact hcounted.finished
  · obtain ⟨ts, hts⟩ := takes_after (ofTokens o source) n
    exact hts.all (source_after_of_finished rfl (finished_after rfl hend h))

/-- On the first line `use A;`, on the second one `function`. -/
def unfinished : List Token :=
  [⟨.useWord, "use", 1, 0⟩, ⟨.whitespace, " ", 1, 3⟩, ⟨.identifier, "A", 1, 4⟩,
    ⟨.semicolon, ";", 1, 5⟩, ⟨.whitespace, " \n", 1, 6⟩, ⟨.functionWord, "function", 2, 8⟩]

/-- The import has finished and the function is open at the end; only the blank in front of
the second line is split. -/
theorem metrics_balance_unfinished :
    (∃ i < 8, ((ofTokens ⟨true, true⟩ unfinished).after i).next.value = .ok none) ∧
      (∀ i < 8, ∀ e, ((ofTokens ⟨true, true⟩ unfinished).after i).next.value ≠ .error e) ∧
      ((ofTokens ⟨true, true⟩ unfinished).after 8).metrics.buildersOpened = 2 ∧
      ((ofTokens ⟨true, true⟩ unfinished).after 8).metrics.buildersFinished = 1 ∧
      ((ofTokens ⟨true, true⟩ unfinished).after 8).metrics.rawTokens = 6 ∧
      ((ofTokens ⟨true, true⟩ unfinished).after 8).metrics.atomsProduced = 2 := by
  have hend : ∃ i < 8, ((ofTokens ⟨true, true⟩ unfinished).after i).next.value = .ok none :=
    ⟨7, by decide, by decide +kernel⟩
  have hok : ∀ i < 8, ((ofTokens ⟨true, true⟩ unfinished).after i).next.value.isOk = true := by
    decide +kernel
  have herror : ∀ i < 8, ∀ e,
      ((ofTokens ⟨true, true⟩ unfinished).after i).next.value ≠ .error e := by
    intro i hi e he
    have hvalue := hok i hi
    rw [he] at hvalue
    exact absurd hvalue nofun
  obtain ⟨hopened, hfinished, -, -, -, -, hall⟩ := metrics_balance ⟨true, true⟩ unfinished 8
  obtain ⟨hraw, hatoms⟩ := hall hend herror
  have hone : ((ofTokens ⟨true, true⟩ unfinished).after 8).products.length = 1 := by
    decide +kernel
  have hdepth : ((ofTokens ⟨true, true⟩ unfinished).after 8).stack.depth = 1 := by
    decide +kernel
  exact ⟨hend, herror, by rw [hopened, hfinished, hone, hdepth], hfinished.trans hone, hraw,
    hatoms.trans (by decide +kernel)⟩

end TokenAtlas.Scanner
