import TokenAtlas.Proofs.Cursor.Lookahead

/-! How far a classification sees. It looks ahead at no more than `Limits.lookahead` of the
tokens to come, and behind at no more than twice as many: at as many again behind the one that
it stops at first. Main statement: a token is classified alike by two cursors that see the same,
whatever stands beyond. -/

namespace TokenAtlas

namespace Cursor

/-- Two cursors that see the same tokens behind and ahead of the current one. -/
structure SeesAlike (c d : Cursor) : Prop where
  before : d.before.take (2 * Limits.lookahead) = c.before.take (2 * Limits.lookahead)
  ahead : (leading d.plan).take Limits.lookahead = (leading c.plan).take Limits.lookahead

/-- What is found within `limit` tokens, and the `n` tokens behind it, is among the first
`limit + n`. -/
theorem firstKept_take (skip : Token → Bool) (limit n : Nat) (ts : List Token) :
    (firstKept skip limit (ts.take (limit + n))).map (fun found => (found.1, found.2.take n)) =
      (firstKept skip limit ts).map fun found => (found.1, found.2.take n) := by
  induction limit generalizing ts with
  | zero => rfl
  | succ limit ih =>
    cases ts with
    | nil => rw [List.take_nil]
    | cons t ts =>
      rw [Nat.succ_add, List.take_succ_cons]
      cases hskip : skip t with
      | true => simpa [firstKept, hskip] using ih ts
      | false => simp [firstKept, hskip, List.take_take]

theorem nearest_take (skip : Token → Bool) (n : Nat) (ts : List Token) :
    (nearest skip (ts.take (Limits.lookahead + n))).map
        (fun found => (found.1, found.2.take n)) =
      (nearest skip ts).map fun found => (found.1, found.2.take n) :=
  firstKept_take skip Limits.lookahead n ts

theorem any_nearest_take (skip p : Token → Bool) (n : Nat) (ts : List Token) :
    ((nearest skip (ts.take (Limits.lookahead + n))).any fun found => p found.1) =
      (nearest skip ts).any fun found => p found.1 := by
  have hfound := congrArg (·.any fun found => p found.1) (nearest_take skip n ts)
  simpa only [Option.any_map] using hfound

namespace SeesAlike

variable {c d : Cursor}

theorem samePlace {c' d' : Cursor} (h : SeesAlike c d) (hc : SamePlace c c')
    (hd : SamePlace d d') : SeesAlike c' d' where
  before := by rw [Cursor.before, Cursor.before, hd.past, hc.past, ← Cursor.before,
    ← Cursor.before, h.before]
  ahead := by rw [hd.plan, hc.plan, h.ahead]

/-- Tokens that come next for both cursors hide what stands behind them. -/
theorem of_plan {ts : List Token} {rest rest' : List (Except Atom.Refusal Token)}
    (hpast : d.past = c.past) (hc : c.plan = ts.map .ok ++ rest)
    (hd : d.plan = ts.map .ok ++ rest') (hts : Limits.lookahead ≤ ts.length) :
    SeesAlike c d := by
  refine ⟨by rw [Cursor.before, Cursor.before, hpast], ?_⟩
  rw [hc, hd, leading_append, leading_append, List.take_append_of_le_length hts,
    List.take_append_of_le_length hts]

theorem previousSignificant (h : SeesAlike c d) :
    d.previousSignificant = c.previousSignificant := by
  have htake := congrArg (List.take Limits.lookahead) h.before
  rw [List.take_take, List.take_take] at htake
  rw [Cursor.previousSignificant, Cursor.previousSignificant, behindSkipping, behindSkipping,
    nearest, nearest, map_fst_firstKept, map_fst_firstKept]
  exact congrArg _ htake

theorem aheadSkipping (h : SeesAlike c d) (skip : Token → Bool) :
    (d.aheadSkipping skip).1 = (c.aheadSkipping skip).1 := by
  rw [Cursor.aheadSkipping, Cursor.aheadSkipping, aheadFrom_eq, aheadFrom_eq, List.drop_zero,
    List.drop_zero, h.ahead]

theorem nextSignificant (h : SeesAlike c d) : d.nextSignificant.1 = c.nextSignificant.1 :=
  h.aheadSkipping Token.isTrivia

end SeesAlike

end Cursor

namespace Classification

open Cursor

variable {c d : Cursor}

/-- The word in front of a list of names, or of a bracket in front of types, is not looked for
any further back. -/
theorem namesClass_take (ts : List Token) :
    namesClass (ts.take (2 * Limits.lookahead)) = namesClass ts := by
  rw [Nat.two_mul, namesClass, namesClass,
    any_nearest_take isNameList (fun t => t.kind.introducesClass)]
  congr 1
  have htypes := nearest_take isTypeUnion Limits.lookahead ts
  generalize nearest isTypeUnion (ts.take (Limits.lookahead + Limits.lookahead)) = found at *
  generalize nearest isTypeUnion ts = found' at *
  rcases found with _ | ⟨t, rest⟩ <;> rcases found' with _ | ⟨t', rest'⟩
  · rfl
  · simp at htypes
  · simp at htypes
  · obtain ⟨rfl, hrest⟩ : t = t' ∧ rest.take Limits.lookahead = rest'.take Limits.lookahead := by
      simpa using htypes
    have hcatch := any_nearest_take Token.isTrivia (fun t => t.kind = .catchWord) 0
    rw [Nat.add_zero] at hcatch
    simp only [← hcatch rest, hrest, hcatch rest']

theorem namesClass_alike (h : SeesAlike c d) : namesClass d.before = namesClass c.before := by
  rw [← namesClass_take d.before, h.before, namesClass_take]

theorem opensCall_alike (h : SeesAlike c d) : (opensCall d).1 = (opensCall c).1 := by
  simp only [opensCall, h.aheadSkipping]

theorem ofOpenIdentifier_alike (h : SeesAlike c d) (readsTypes : Bool) :
    (ofOpenIdentifier d readsTypes).1 = (ofOpenIdentifier c readsTypes).1 := by
  have hcall := opensCall_alike h
  have hbehind := h.samePlace (looked_opensCall c).samePlace (looked_opensCall d).samePlace
  unfold ofOpenIdentifier
  simp only [hcall, hbehind.previousSignificant]
  split
  · rfl
  · split
    · rfl
    · split
      · rfl
      · simp only [hbehind.nextSignificant]

theorem ofIdentifier_alike (h : SeesAlike c d) (t : Token) (readsTypes : Bool) :
    (ofIdentifier t d readsTypes).1 = (ofIdentifier t c readsTypes).1 := by
  unfold ofIdentifier
  rw [namesClass_alike h]
  split
  · rfl
  · split
    · rfl
    · exact ofOpenIdentifier_alike h readsTypes

theorem segmentRole_alike (h : SeesAlike c d) : (segmentRole d).1 = (segmentRole c).1 := by
  unfold segmentRole
  rw [namesClass_alike h]
  split
  · rfl
  · simp only [opensCall_alike h]

theorem decide_alike (h : SeesAlike c d) (t : Token) (opener : Option Kind) (s : Surroundings) :
    (decide t opener s d).1 = (decide t opener s c).1 := by
  have hlabel : isCaseLabel t d = isCaseLabel t c := by
    rw [isCaseLabel, isCaseLabel, h.previousSignificant]
  unfold decide
  rw [hlabel]
  split
  · rfl
  · split
    · rfl
    · split
      · rfl
      · split
        · simp only [segmentRole_alike h]
        · split
          · rfl
          · simp only [ofIdentifier_alike h]

end Classification

/-- What is classified, and what is kept of it, depends on no more than is seen. -/
theorem Classifier.classify_alike {c d : Cursor} (h : Cursor.SeesAlike c d) (r : Classifier)
    (i : Nat) (t : Token) (s : Surroundings) :
    (r.classify i t s d).1 = (r.classify i t s c).1 ∧
      (r.classify i t s d).2.1 = (r.classify i t s c).2.1 := by
  unfold classify
  split
  · exact ⟨rfl, rfl⟩
  · simp only [Classification.decide_alike h]
    exact ⟨trivial, trivial⟩

end TokenAtlas
