import TokenAtlas.Proofs.Cursor.Stream

/-! Questions put to a cursor in any order: to move on, to look at a token ahead or behind, and
to look for the nearest one that is not trivia. Main statement: every answer is read off the
plan of the source at the place that the moves so far have led to, so how far the cursor has
looked ahead, and when it came upon a refusal, makes no difference. -/

namespace TokenAtlas.Cursor

open Atom (Refusal)

/-- What a cursor can be asked. -/
inductive Question
  | advance
  | ahead (n : Nat)
  | behind (n : Nat)
  | nextSignificant
  | previousSignificant
deriving DecidableEq

/-- An answer: the token that the cursor moved to and its index, the refusal that it came to,
the end of the stream, or what it saw from where it stands. -/
inductive Reply
  | moved (t : Token) (index : Option Nat)
  | refused (e : Refusal)
  | ended
  | seen (t : Option Token)
deriving DecidableEq

/-- Put a question to the cursor. -/
def ask (c : Cursor) : Question → Reply × Cursor
  | .advance =>
    match c.advance with
    | (.ok (some t), d) => (.moved t d.index?, d)
    | (.ok none, d) => (.ended, d)
    | (.error e, d) => (.refused e, d)
  | .ahead n => (.seen (c.ahead n).1, (c.ahead n).2)
  | .behind n => (.seen (c.behind n), c)
  | .nextSignificant => (.seen c.nextSignificant.1, c.nextSignificant.2)
  | .previousSignificant => (.seen c.previousSignificant, c)

/-- The cursor after some questions. -/
def asked (c : Cursor) (qs : List Question) : Cursor := qs.foldl (fun c q => (c.ask q).2) c

/-! ### Reading a plan -/

/-- The tokens among the items of a plan. -/
def tokens (items : List (Except Refusal Token)) : List Token := items.filterMap Except.toOption

/-- The tokens in front of the first refusal. -/
def leading : List (Except Refusal Token) → List Token
  | .ok t :: rest => t :: leading rest
  | _ => []

/-- The answer that a plan gives to a question behind its first `k` items. -/
def reading (plan : List (Except Refusal Token)) (k : Nat) : Question → Reply
  | .advance =>
    match plan[k]? with
    | some (.ok t) => .moved t (some (tokens (plan.take k)).length)
    | some (.error e) => .refused e
    | none => .ended
  | .ahead n => .seen (leading ((plan.drop k).take (n + 1)))[n]?
  | .behind n => .seen (tokens (plan.take k)).reverse[n]?
  | .nextSignificant =>
    .seen ((leading ((plan.drop k).take Limits.lookahead)).find? (!·.isTrivia))
  | .previousSignificant =>
    .seen ((((tokens (plan.take k)).reverse.drop 1).take Limits.lookahead).find? (!·.isTrivia))

theorem leading_take (items : List (Except Refusal Token)) (n : Nat) :
    leading (items.take n) = (leading items).take n := by
  induction items generalizing n with
  | nil => simp [leading]
  | cons x items ih =>
    cases n with
    | zero => simp [leading]
    | succ n => cases x <;> simp [leading, ih]

theorem leading_append (ts : List Token) (items : List (Except Refusal Token)) :
    leading (ts.map .ok ++ items) = ts ++ leading items := by
  induction ts with
  | nil => rfl
  | cons t ts ih => exact congrArg (t :: ·) ih

/-! ### Looking -/

/-- What is queued is in front of the first refusal. -/
theorem leading_plan (c : Cursor) :
    leading c.plan = c.pending ++
      leading (c.fault.toList.map .error ++ c.source.flatMap (contribution c.splitting)) := by
  rw [plan, List.append_assoc, leading_append]

theorem ahead_eq (c : Cursor) (n : Nat) : (c.ahead n).1 = (leading c.plan)[n]? := by
  have hfilled := isFilled_fillFrom c (n + 1) c.source
  rw [show c.fillFrom (n + 1) c.source = c.fill (n + 1) from rfl] at hfilled
  rw [← plan_fill c (n + 1), leading_plan]
  change (c.fill (n + 1)).pending[n]? = _
  generalize c.fill (n + 1) = d at hfilled
  by_cases hn : n < d.pending.length
  · rw [List.getElem?_append_left hn]
  · -- too few are queued, so a refusal or the end comes next
    have hrest : leading (d.fault.toList.map .error ++
        d.source.flatMap (contribution d.splitting)) = [] := by
      rcases hf : d.fault with _ | e
      · have hsource : d.source = [] := by simpa [isFilled, hf, hn] using hfilled
        simp [hsource, leading]
      · rfl
    rw [hrest, List.append_nil]

theorem aheadFrom_eq (c : Cursor) (skip : Token → Bool) (n limit : Nat) :
    (c.aheadFrom skip n limit).1 =
      (((leading c.plan).drop n).take limit).find? (!skip ·) := by
  induction limit generalizing c n with
  | zero => simp [aheadFrom]
  | succ limit ih =>
    have hahead := ahead_eq c n
    have hplan := (samePlace_ahead c n).plan
    unfold aheadFrom
    rcases hc : c.ahead n with ⟨_ | t, d⟩
    · rw [hc] at hahead
      have hend : (leading c.plan).length ≤ n := List.getElem?_eq_none_iff.1 hahead.symm
      simp [List.drop_eq_nil_of_le hend]
    · rw [hc] at hahead hplan
      obtain ⟨hlt, ht⟩ := List.getElem?_eq_some_iff.1 hahead.symm
      rw [List.drop_eq_getElem_cons hlt, ht, List.take_succ_cons]
      cases hskip : skip t with
      | true =>
        rw [List.find?_cons_of_neg (by simp [hskip]), ← hplan]
        simpa [hskip] using ih d (n + 1)
      | false => simp [hskip]

theorem map_fst_firstKept (skip : Token → Bool) (limit : Nat) (ts : List Token) :
    (firstKept skip limit ts).map (·.1) = (ts.take limit).find? (!skip ·) := by
  induction ts generalizing limit with
  | nil => cases limit <;> rfl
  | cons t ts ih =>
    cases limit with
    | zero => rfl
    | succ limit => cases hskip : skip t <;> simp [firstKept, hskip, ih]

/-! ### Asking -/

/-- The cursor stands behind the first `k` of the items. -/
structure Behind (items : List (Except Refusal Token)) (k : Nat) (c : Cursor) : Prop where
  plan : c.plan = items.drop k
  past : c.past = (tokens (items.take k)).reverse
  yielded : c.yielded = (tokens (items.take k)).length

namespace Behind

variable {items : List (Except Refusal Token)} {k : Nat} {c : Cursor}

theorem samePlace {d : Cursor} (h : Behind items k c) (hd : SamePlace c d) : Behind items k d :=
  ⟨hd.plan.trans h.plan, hd.past.trans h.past, hd.yielded.trans h.yielded⟩

/-- The item that comes next, and the items passed and to come behind it. -/
theorem next {x : Except Refusal Token} {rest : List (Except Refusal Token)}
    (h : Behind items k c) (hx : c.plan = x :: rest) :
    items[k]? = some x ∧ items.drop (k + 1) = rest ∧
      tokens (items.take (k + 1)) = tokens (items.take k) ++ x.toOption.toList := by
  have hdrop : items.drop k = x :: rest := h.plan.symm.trans hx
  have hx : items[k]? = some x := by rw [← List.head?_drop, hdrop, List.head?_cons]
  refine ⟨hx, ?_, ?_⟩
  · rw [← List.tail_drop, hdrop, List.tail_cons]
  · rw [List.take_add_one, hx, tokens, List.filterMap_append]
    cases x <;> rfl

theorem advance (h : Behind items k c) :
    (c.ask .advance).1 = reading items k .advance ∧
      Behind items (k + 1) (c.ask .advance).2 := by
  rcases c.advance_cases with ⟨t, rest, d, hp, hd, hplan, hpast, hy⟩ |
    ⟨e, rest, d, hp, hd, hplan, hpast, hy⟩ | ⟨d, hp, hd, hsame, -⟩
  · obtain ⟨hx, hdrop, htokens⟩ := h.next hp
    have hask : c.ask .advance = (.moved t d.index?, d) := by simp [Cursor.ask, hd]
    rw [hask]
    refine ⟨by simp [reading, hx, index?, hy, h.yielded], hplan.trans hdrop.symm, ?_, ?_⟩
    · simp [hpast, h.past, htokens, Except.toOption]
    · simp [hy, h.yielded, htokens, Except.toOption]
  · obtain ⟨hx, hdrop, htokens⟩ := h.next hp
    have hask : c.ask .advance = (.refused e, d) := by simp [Cursor.ask, hd]
    rw [hask]
    refine ⟨by simp [reading, hx], hplan.trans hdrop.symm, ?_, ?_⟩
    · simp [hpast, h.past, htokens, Except.toOption]
    · simp [hy, h.yielded, htokens, Except.toOption]
  · have hend : items.length ≤ k := List.drop_eq_nil_iff.1 (h.plan.symm.trans hp)
    have hend' : items.length ≤ k + 1 := Nat.le_succ_of_le hend
    have hask : c.ask .advance = (.ended, d) := by simp [Cursor.ask, hd]
    have htake : items.take (k + 1) = items.take k := by
      rw [List.take_of_length_le hend, List.take_of_length_le hend']
    rw [hask]
    refine ⟨by simp [reading, List.getElem?_eq_none hend], ?_, ?_, ?_⟩
    · rw [(h.samePlace hsame).plan, List.drop_eq_nil_of_le hend, List.drop_eq_nil_of_le hend']
    · rw [(h.samePlace hsame).past, htake]
    · rw [(h.samePlace hsame).yielded, htake]

/-- A question is answered from the items, and only moving on changes the place. -/
theorem ask (h : Behind items k c) (q : Question) :
    (c.ask q).1 = reading items k q ∧
      Behind items (k + if q = .advance then 1 else 0) (c.ask q).2 := by
  cases q with
  | advance => exact h.advance
  | ahead n =>
    refine ⟨?_, h.samePlace (samePlace_ahead c n)⟩
    simp only [Cursor.ask, reading, ahead_eq, leading_take, h.plan,
      List.getElem?_take_of_lt (Nat.lt_succ_self n)]
  | behind n =>
    refine ⟨?_, h⟩
    simp only [Cursor.ask, reading, Cursor.behind, h.past]
  | nextSignificant =>
    refine ⟨?_, h.samePlace (looked_aheadSkipping c _).samePlace⟩
    simp only [Cursor.ask, reading, Cursor.nextSignificant, aheadSkipping, aheadFrom_eq,
      leading_take, h.plan, List.drop_zero]
  | previousSignificant =>
    refine ⟨?_, h⟩
    simp only [Cursor.ask, reading, Cursor.previousSignificant, behindSkipping, nearest,
      map_fst_firstKept, before, h.past]

theorem asked (h : Behind items k c) (qs : List Question) :
    Behind items (k + qs.count .advance) (c.asked qs) := by
  induction qs generalizing k c with
  | nil => exact h
  | cons q qs ih =>
    have hcount : k + (q :: qs).count .advance =
        k + (if q = .advance then 1 else 0) + qs.count .advance := by
      simp only [List.count_cons, beq_iff_eq]
      omega
    rw [hcount]
    exact ih (h.ask q).2

end Behind

/-- Whatever was asked before, a question is answered from the plan of the source at the
place that the moves so far have led to. -/
theorem ask_eq_reading (splitting : Option Bool) (source : List Token) (qs : List Question)
    (q : Question) :
    (((ofTokens splitting source).asked qs).ask q).1 =
      reading (source.flatMap (contribution splitting)) (qs.count .advance) q := by
  have hstart : Behind (source.flatMap (contribution splitting)) 0 (ofTokens splitting source) :=
    ⟨rfl, rfl, rfl⟩
  have hplace := hstart.asked qs
  rw [Nat.zero_add] at hplace
  exact (hplace.ask q).1

end TokenAtlas.Cursor
