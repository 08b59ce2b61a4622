import Mathlib.Algebra.BigOperators.Group.List.Basic
import Mathlib.Data.List.Induction
import Mathlib.Tactic.ByContra
import TokenAtlas.Proofs.Scan.Step

/-! Whole scans. While tokens are planned a scan moves from one to the next, and its
levels, features and imports are those that the tokens passed so far lead to. Main
statement: a scan to the end gives the planned tokens if the plan is nothing but tokens and
they are not too many, and an error otherwise. -/

namespace TokenAtlas.Scanner

open Atom (Refusal)

/-- Tokens with their permission to open a feature, when `before` stand before them, the
latest first. -/
def permitted (before : List Token) : List Token → List (Token × Bool)
  | [] => []
  | t :: rest => (t, opensBehind before) :: permitted (t :: before) rest

@[simp] theorem permitted_nil (before : List Token) : permitted before [] = [] := rfl

@[simp] theorem permitted_cons (before : List Token) (t : Token) (rest : List Token) :
    permitted before (t :: rest) = (t, opensBehind before) :: permitted (t :: before) rest := rfl

theorem permitted_append (before a b : List Token) :
    permitted before (a ++ b) = permitted before a ++ permitted (a.reverse ++ before) b := by
  induction a generalizing before with
  | nil => rfl
  | cons t a ih => simp [ih]

theorem map_fst_permitted (before ts : List Token) :
    (permitted before ts).map Prod.fst = ts := by
  induction ts generalizing before with
  | nil => rfl
  | cons t ts ih => simp [ih]

/-! ### Passing tokens -/

/-- From `s` the scan passed the tokens `ts` and is now at `d`. -/
structure Passed (s : Scanner) (ts : List Token) (d : Scanner) : Prop where
  running : d.ending = .running
  plan : s.cursor.plan = ts.map .ok ++ d.cursor.plan
  past : d.cursor.past = ts.reverse ++ s.cursor.past
  yielded : d.cursor.yielded = s.cursor.yielded + ts.length
  course : d.course = s.course.after (permitted s.cursor.past ts)
  imports : d.imports =
    (s.course.steps (permitted s.cursor.past ts)).foldl Imports.follow s.imports
  products : d.products =
    s.products ++ (s.course.steps (permitted s.cursor.past ts)).flatMap (·.products)
  tally : d.counts.tally = s.counts.tally +
    ((s.course.steps (permitted s.cursor.past ts)).map StackStep.tally).sum

theorem Passed.nil {s : Scanner} (h : s.ending = .running) : Passed s [] s :=
  ⟨h, rfl, rfl, rfl, rfl, rfl, (List.append_nil _).symm, rfl⟩

theorem Passed.snoc {s d e : Scanner} {ts : List Token} {t : Token} (h : Passed s ts d)
    (m : MovedTo d t e) : Passed s (ts ++ [t]) e where
  running := m.running
  plan := by rw [h.plan, m.plan]; simp
  past := by rw [m.past, h.past]; simp
  yielded := by rw [m.yielded, h.yielded]; simp [Nat.add_assoc]
  course := by rw [m.course, h.course, h.past, permitted_append, Course.after_append]; simp
  imports := by
    rw [m.imports, h.imports, h.course, h.past, permitted_append, Course.steps_append]
    simp
  products := by
    rw [m.products, h.products, h.course, h.past, permitted_append, Course.steps_append]
    simp
  tally := by
    rw [m.tally, h.tally, h.course, h.past, permitted_append, Course.steps_append]
    simp [add_assoc]

/-- What moving on leads to, by what comes next in the plan. -/
theorem next_cases {s : Scanner} (hr : s.ending = .running) :
    (∃ t x, s.cursor.yielded < Limits.tokenCount ∧ s.next.value = .ok (some x) ∧
      x.index = s.cursor.yielded ∧ x.token = t ∧ MovedTo s t s.next.scanner) ∨
    s.next.scanner.ending ≠ .running ∧ ∀ x, s.next.value ≠ .ok (some x) := by
  rcases hp : s.cursor.plan with _ | ⟨e | t, rest⟩
  · obtain ⟨hv, hend⟩ := next_end hr hp
    exact .inr ⟨by simp [hend.ending], by simp [hv]⟩
  · obtain ⟨hv, hend, -⟩ := next_refusal hr hp
    exact .inr ⟨by simp [hend], by simp [hv]⟩
  · by_cases hn : s.cursor.yielded < Limits.tokenCount
    · obtain ⟨x, hv, hi, ht, hm, -⟩ := next_token hr hp hn
      exact .inl ⟨t, x, hn, hv, hi, ht, hm⟩
    · obtain ⟨hv, hend, -⟩ := next_tooMany hr hp (Nat.not_lt.1 hn)
      exact .inr ⟨by simp [hend], by simp [hv]⟩

/-- A token that is yielded has been moved to. -/
theorem movedTo_of_yield {s : Scanner} {x : ScannedToken} (h : s.next.value = .ok (some x)) :
    MovedTo s x.token s.next.scanner := by
  have hr : s.ending = .running := by
    by_contra hne
    simp [(next_of_ended hne).1] at h
  rcases next_cases hr with ⟨t, y, -, hy, -, rfl, hm⟩ | ⟨-, hno⟩
  · obtain rfl : y = x := by simpa [hy] using h
    exact hm
  · exact absurd h (hno x)

/-- As long as a scan runs it has passed one token with every move. -/
theorem passed_after {s : Scanner} (n : Nat) (h : (s.after n).ending = .running) :
    ∃ ts, ts.length = n ∧ Passed s ts (s.after n) := by
  induction n with
  | zero => exact ⟨[], rfl, .nil h⟩
  | succ n ih =>
    have hr : (s.after n).ending = .running := by
      by_contra hne
      exact hne (by rw [← h, after, (next_of_ended hne).2])
    obtain ⟨ts, hlen, hts⟩ := ih hr
    rcases next_cases hr with ⟨t, x, -, -, -, -, hm⟩ | ⟨hne, -⟩
    · exact ⟨ts ++ [t], by simp [hlen], hts.snoc hm⟩
    · exact absurd h hne

/-- What a scan yields after `n` moves is the token behind those it has passed. -/
theorem passed_of_yield {s : Scanner} {n : Nat} {x : ScannedToken}
    (h : (s.after n).next.value = .ok (some x)) :
    ∃ ts, ts.length = n ∧ x.index = s.cursor.yielded + n ∧ Passed s ts (s.after n) ∧
      Passed s (ts ++ [x.token]) (s.after (n + 1)) := by
  have hr : (s.after n).ending = .running := by
    by_contra hne
    simp [(next_of_ended hne).1] at h
  obtain ⟨ts, hlen, hts⟩ := passed_after n hr
  rcases next_cases hr with ⟨t, y, -, hy, hi, rfl, hm⟩ | ⟨-, hne⟩
  · obtain rfl : y = x := by simpa [hy] using h
    exact ⟨ts, hlen, by rw [hi, hts.yielded, hlen], hts, hts.snoc hm⟩
  · exact absurd h (hne x)

/-- Planned tokens that are not too many are all passed. -/
theorem passed_of_plan {s : Scanner} {ts : List Token} {rest : List (Except Refusal Token)}
    (hr : s.ending = .running) (hp : s.cursor.plan = ts.map .ok ++ rest)
    (hn : s.cursor.yielded + ts.length ≤ Limits.tokenCount) :
    Passed s ts (s.after ts.length) ∧ (s.after ts.length).cursor.plan = rest := by
  induction ts using List.reverseRecOn generalizing rest with
  | nil => exact ⟨.nil hr, hp⟩
  | append_singleton ts t ih =>
    rw [List.length_append, List.length_singleton] at hn ⊢
    have hp' : s.cursor.plan = ts.map .ok ++ (.ok t :: rest) := by simpa using hp
    obtain ⟨hts, hrest⟩ := ih hp' (by omega)
    have hlt : (s.after ts.length).cursor.yielded < Limits.tokenCount := by
      rw [hts.yielded]
      omega
    obtain ⟨x, -, -, -, hm, hplan⟩ := next_token hts.running hrest hlt
    exact ⟨hts.snoc hm, hplan⟩

/-- A planned token is yielded in its turn, unless it is one too many. -/
theorem yield_of_index {s : Scanner} {ts : List Token} {rest : List (Except Refusal Token)}
    (hr : s.ending = .running) (hp : s.cursor.plan = ts.map .ok ++ rest) {i : ℕ}
    (hi : i < ts.length) (hn : s.cursor.yielded + i < Limits.tokenCount) :
    ∃ x, (s.after i).next.value = .ok (some x) ∧ x.index = s.cursor.yielded + i ∧
      x.token = ts[i] := by
  have hlen : (ts.take i).length = i := List.length_take_of_le (Nat.le_of_lt hi)
  have hp' : s.cursor.plan = (ts.take i).map .ok ++ ((ts.drop i).map .ok ++ rest) := by
    rw [← List.append_assoc, ← List.map_append, List.take_append_drop, hp]
  obtain ⟨hpass, hplan⟩ := passed_of_plan hr hp' (by omega)
  rw [hlen] at hpass hplan
  rw [List.drop_eq_getElem_cons hi] at hplan
  obtain ⟨x, hv, hx, ht, -⟩ := next_token hpass.running hplan
    (by rw [hpass.yielded, hlen]; omega)
  exact ⟨x, hv, by rw [hx, hpass.yielded, hlen], ht⟩

/-- Planned tokens that are not too many are yielded one by one. -/
theorem yield_of_plan {s : Scanner} {ts : List Token} {rest : List (Except Refusal Token)}
    (hr : s.ending = .running) (hp : s.cursor.plan = ts.map .ok ++ rest)
    (hn : s.cursor.yielded + ts.length ≤ Limits.tokenCount) (i : Nat) (hi : i < ts.length) :
    ∃ x, (s.after i).next.value = .ok (some x) ∧ x.index = s.cursor.yielded + i ∧
      x.token = ts[i] :=
  yield_of_index hr hp hi (by omega)

/-! ### Scanning to the end -/

private theorem run_go_eq (s : Scanner) (done : List ScannedToken) (told : List Notice)
    (n : Nat) :
    (run.go s done told n).value =
      (done.reverse ++ (run.go s [] [] n).value.1, (run.go s [] [] n).value.2) := by
  induction n generalizing s done told with
  | zero => simp [run.go]
  | succ n ih =>
    simp only [run.go]
    rcases s.next with ⟨e | _ | x, notices, d⟩
    · simp
    · simp
    · simp only
      rw [ih d (x :: done), ih d [x]]
      simp

theorem run_succ (s : Scanner) (n : Nat) :
    (s.run (n + 1)).value =
      match s.next.value with
      | .ok none => ([], none)
      | .error e => ([], some e)
      | .ok (some x) =>
        (x :: (s.next.scanner.run n).value.1, (s.next.scanner.run n).value.2) := by
  simp only [run, run.go]
  rcases s.next with ⟨e | _ | x, notices, d⟩
  · rfl
  · rfl
  · simp only
    rw [run_go_eq]
    rfl

/-- A run over planned tokens that are not too many gives them all and goes on behind them. -/
theorem run_of_plan {s : Scanner} {ts : List Token} {rest : List (Except Refusal Token)}
    (hr : s.ending = .running) (hp : s.cursor.plan = ts.map .ok ++ rest)
    (hn : s.cursor.yielded + ts.length ≤ Limits.tokenCount) (n : Nat) :
    ∃ xs : List ScannedToken, xs.map (·.token) = ts ∧
      xs.map (·.index) = List.range' s.cursor.yielded ts.length ∧
      (s.run (ts.length + n)).value =
        (xs ++ ((s.after ts.length).run n).value.1, ((s.after ts.length).run n).value.2) := by
  induction ts generalizing s with
  | nil => exact ⟨[], rfl, rfl, by simp [after]⟩
  | cons t ts ih =>
    rw [List.length_cons] at hn ⊢
    obtain ⟨x, hv, hi, ht, hm, hplan⟩ := next_token hr hp (by omega)
    obtain ⟨xs, htokens, hindexes, hrun⟩ := ih hm.running hplan (by rw [hm.yielded]; omega)
    refine ⟨x :: xs, by simp [ht, htokens], ?_, ?_⟩
    · rw [List.map_cons, hindexes, hi, hm.yielded]
      rfl
    · rw [Nat.add_right_comm, run_succ, hv, hrun, after_succ]
      rfl

/-- Every plan is nothing but tokens or has a first refusal. -/
theorem plan_cases (plan : List (Except Refusal Token)) :
    (∃ ts : List Token, plan = ts.map .ok) ∨
      ∃ (ts : List Token) (e : Refusal) (rest : List (Except Refusal Token)),
        plan = ts.map .ok ++ .error e :: rest := by
  induction plan with
  | nil => exact .inl ⟨[], rfl⟩
  | cons x plan ih =>
    rcases x with e | t
    · exact .inr ⟨[], e, plan, rfl⟩
    · rcases ih with ⟨ts, h⟩ | ⟨ts, e, rest, h⟩
      · exact .inl ⟨t :: ts, by simp [h]⟩
      · exact .inr ⟨t :: ts, e, rest, by simp [h]⟩

/-- A scan to the end that plans nothing but tokens gives them all with their indexes. -/
theorem scanAll_of_plan {s : Scanner} {ts : List Token} (hr : s.ending = .running)
    (hp : s.cursor.plan = ts.map .ok) (hn : s.cursor.yielded + ts.length ≤ Limits.tokenCount) :
    s.scanAll.value.2 = none ∧ s.scanAll.value.1.map (·.token) = ts ∧
      s.scanAll.value.1.map (·.index) = List.range' s.cursor.yielded ts.length := by
  rw [← List.append_nil (ts.map Except.ok)] at hp
  obtain ⟨n, hlen⟩ : ∃ n, Limits.tokenCount + 1 = ts.length + (n + 1) :=
    ⟨Limits.tokenCount - ts.length, by omega⟩
  obtain ⟨xs, htokens, hindexes, hrun⟩ := run_of_plan hr hp hn (n + 1)
  obtain ⟨hpass, hplan⟩ := passed_of_plan hr hp hn
  rw [run_succ, (next_end hpass.running hplan).1] at hrun
  rw [scanAll, hlen, hrun]
  exact ⟨rfl, by simpa using htokens, by simpa using hindexes⟩

/-- A scan that yields no token has ended. -/
theorem after_of_no_yield {s : Scanner} (h : ∀ x, s.next.value ≠ .ok (some x)) (n : Nat) :
    s.after (n + 1) = s.next.scanner := by
  rw [after_succ]
  by_cases hr : s.ending = .running
  · rcases next_cases hr with ⟨t, x, -, hv, -⟩ | ⟨hend, -⟩
    · exact absurd hv (h x)
    · exact after_of_ended (s := s.next.scanner) hend n
  · rw [(next_of_ended hr).2]
    exact after_of_ended hr n

private theorem run_go_scanner (s : Scanner) (done : List ScannedToken) (told : List Notice)
    (n : Nat) : (run.go s done told n).scanner = s.after n := by
  induction n generalizing s done told with
  | zero => rfl
  | succ n ih =>
    have hstays := @after_of_no_yield s
    simp only [run.go]
    rcases hnext : s.next with ⟨e | _ | x, notices, d⟩
    · exact ((hstays (by simp [hnext]) n).trans (by rw [hnext])).symm
    · exact ((hstays (by simp [hnext]) n).trans (by rw [hnext])).symm
    · rw [after_succ, hnext]
      exact ih d (x :: done) _

/-- Running is moving on, as a scan that has ended stays as it is. -/
theorem scanner_run (s : Scanner) (n : Nat) : (s.run n).scanner = s.after n :=
  run_go_scanner s [] [] n

/-- A scan to the end that plans nothing but tokens has passed them all. -/
theorem scanner_scanAll_of_plan {s : Scanner} {ts : List Token} (hr : s.ending = .running)
    (hp : s.cursor.plan = ts.map .ok) (hn : s.cursor.yielded + ts.length ≤ Limits.tokenCount) :
    ∃ d, Passed s ts d ∧ EndsAs d s.scanAll.scanner := by
  rw [← List.append_nil (ts.map Except.ok)] at hp
  obtain ⟨hpass, hplan⟩ := passed_of_plan hr hp hn
  obtain ⟨-, hend⟩ := next_end hpass.running hplan
  obtain ⟨n, hlen⟩ : ∃ n, Limits.tokenCount + 1 = ts.length + 1 + n :=
    ⟨Limits.tokenCount - ts.length, by omega⟩
  refine ⟨_, hpass, ?_⟩
  rw [scanAll, scanner_run, hlen, after_add]
  have hstays := after_of_ended (s := s.after (ts.length + 1)) (by simp [after, hend.ending]) n
  rw [hstays]
  exact hend

/-- A scan to the end that meets a refusal gives an error. -/
theorem scanAll_of_refusal {s : Scanner} {ts : List Token} {e : Refusal}
    {rest : List (Except Refusal Token)} (hr : s.ending = .running)
    (hp : s.cursor.plan = ts.map .ok ++ .error e :: rest)
    (hn : s.cursor.yielded + ts.length ≤ Limits.tokenCount) :
    s.scanAll.value.2 = some (.refused (s.cursor.yielded + ts.length) e) := by
  obtain ⟨n, hlen⟩ : ∃ n, Limits.tokenCount + 1 = ts.length + (n + 1) :=
    ⟨Limits.tokenCount - ts.length, by omega⟩
  obtain ⟨xs, -, -, hrun⟩ := run_of_plan hr hp hn (n + 1)
  obtain ⟨hpass, hplan⟩ := passed_of_plan hr hp hn
  rw [run_succ, (next_refusal hpass.running hplan).1, hpass.yielded] at hrun
  rw [scanAll, hlen, hrun]

/-- A scan to the end that plans too many tokens gives an error. -/
theorem scanAll_of_tooMany {s : Scanner} {ts : List Token} {rest : List (Except Refusal Token)}
    (hr : s.ending = .running) (hp : s.cursor.plan = ts.map .ok ++ rest)
    (hy : s.cursor.yielded ≤ Limits.tokenCount)
    (hn : Limits.tokenCount < s.cursor.yielded + ts.length) :
    s.scanAll.value.2 = some (.tooManyTokens Limits.tokenCount) := by
  -- the scan halts at the first token behind the largest number of them
  have hk : Limits.tokenCount - s.cursor.yielded < ts.length := by omega
  generalize hkd : Limits.tokenCount - s.cursor.yielded = k at hk
  have hlen : (ts.take k).length = k := List.length_take_of_le (Nat.le_of_lt hk)
  have hp' : s.cursor.plan = (ts.take k).map .ok ++ ((ts.drop k).map .ok ++ rest) := by
    rw [← List.append_assoc, ← List.map_append, List.take_append_drop, hp]
  obtain ⟨xs, -, -, hrun⟩ := run_of_plan hr hp' (by omega) (s.cursor.yielded + 1)
  obtain ⟨hpass, hplan⟩ := passed_of_plan hr hp' (by omega)
  rw [hlen] at hrun hpass hplan
  rw [List.drop_eq_getElem_cons hk] at hplan
  rw [run_succ, (next_tooMany hpass.running hplan (by rw [hpass.yielded]; omega)).1,
    show k + (s.cursor.yielded + 1) = Limits.tokenCount + 1 by omega] at hrun
  rw [scanAll, hrun]

/-- A scan to the end without an error has given the whole plan. -/
theorem plan_of_scanAll {s : Scanner} (hr : s.ending = .running)
    (hy : s.cursor.yielded ≤ Limits.tokenCount) (h : s.scanAll.value.2 = none) :
    s.cursor.plan = (s.scanAll.value.1.map (·.token)).map .ok := by
  rcases plan_cases s.cursor.plan with ⟨ts, hp⟩ | ⟨ts, e, rest, hp⟩
  · by_cases hn : s.cursor.yielded + ts.length ≤ Limits.tokenCount
    · rw [(scanAll_of_plan hr hp hn).2.1, hp]
    · have hp' : s.cursor.plan = ts.map .ok ++ [] := by rw [hp, List.append_nil]
      rw [scanAll_of_tooMany hr hp' hy (Nat.not_le.1 hn)] at h
      exact absurd h nofun
  · by_cases hn : s.cursor.yielded + ts.length ≤ Limits.tokenCount
    · rw [scanAll_of_refusal hr hp hn] at h
      exact absurd h nofun
    · rw [scanAll_of_tooMany hr hp hy (Nat.not_le.1 hn)] at h
      exact absurd h nofun

/-! ### Fresh scans -/

theorem plan_ofTokens (o : ScanOptions) (ts : List Token) :
    (ofTokens o ts).cursor.plan =
      ts.flatMap (Cursor.contribution (if o.refine then some o.apart else none)) := rfl

theorem yielded_ofTokens (o : ScanOptions) (ts : List Token) :
    (ofTokens o ts).cursor.yielded = 0 := rfl

end TokenAtlas.Scanner
