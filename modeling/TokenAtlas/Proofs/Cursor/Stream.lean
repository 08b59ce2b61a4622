import TokenAtlas.Classification

/-! The stream behind a cursor. Looking ahead moves tokens from the source into the queue but
leaves the cursor at the same place of the same stream, and classifying does nothing else to
it. Main statement: moving on takes the next item of the plan, which is a token, a refusal, or
the end. -/

namespace TokenAtlas

namespace Cursor

/-- Two cursors at the same place of the same stream. They may have looked ahead
differently far. -/
structure SamePlace (c d : Cursor) : Prop where
  plan : d.plan = c.plan
  past : d.past = c.past
  yielded : d.yielded = c.yielded

namespace SamePlace

theorem refl (c : Cursor) : SamePlace c c := ⟨rfl, rfl, rfl⟩

theorem symm {c d : Cursor} (h : SamePlace c d) : SamePlace d c :=
  ⟨h.plan.symm, h.past.symm, h.yielded.symm⟩

theorem trans {c d e : Cursor} (h : SamePlace c d) (h' : SamePlace d e) : SamePlace c e :=
  ⟨h'.plan.trans h.plan, h'.past.trans h.past, h'.yielded.trans h.yielded⟩

end SamePlace

/-! ### Looking ahead -/

theorem past_absorb (c : Cursor) (t : Token) :
    (c.absorb t).past = c.past ∧ (c.absorb t).yielded = c.yielded := by
  unfold absorb
  split
  · exact ⟨rfl, rfl⟩
  · split <;> exact ⟨rfl, rfl⟩

theorem past_fillFrom (c : Cursor) (count : Nat) (ts : List Token) :
    (c.fillFrom count ts).past = c.past ∧ (c.fillFrom count ts).yielded = c.yielded := by
  induction ts generalizing c with
  | nil => exact ⟨rfl, rfl⟩
  | cons t rest ih =>
    unfold fillFrom
    split
    · exact ⟨rfl, rfl⟩
    · obtain ⟨hp, hy⟩ := ih (c.absorb t)
      exact ⟨hp.trans (past_absorb c t).1, hy.trans (past_absorb c t).2⟩

theorem samePlace_fill (c : Cursor) (count : Nat) : SamePlace c (c.fill count) :=
  ⟨plan_fill c count, (past_fillFrom c count c.source).1, (past_fillFrom c count c.source).2⟩

/-- Filling ends when the queue is long enough or the source is empty. -/
theorem isFilled_fillFrom (c : Cursor) (count : Nat) (ts : List Token) :
    (c.fillFrom count ts).isFilled count = true ∨ (c.fillFrom count ts).source = [] := by
  induction ts generalizing c with
  | nil => exact .inr rfl
  | cons t rest ih =>
    unfold fillFrom
    split
    · next h => exact .inl h
    · exact ih _

theorem samePlace_ahead (c : Cursor) (n : Nat) : SamePlace c (c.ahead n).2 := samePlace_fill c _

/-- `d` is the cursor `c` after looking ahead any number of times. -/
inductive Looked (c : Cursor) : Cursor → Prop
  | refl : Looked c c
  | ahead {d : Cursor} (h : Looked c d) (n : Nat) : Looked c (d.ahead n).2

namespace Looked

variable {c d : Cursor}

theorem trans {e : Cursor} (h : Looked c d) (h' : Looked d e) : Looked c e := by
  induction h' with
  | refl => exact h
  | ahead _ n ih => exact ih.ahead n

/-- Looking ahead leads to another place of no stream. -/
theorem samePlace (h : Looked c d) : SamePlace c d := by
  induction h with
  | refl => exact .refl c
  | ahead _ n ih => exact ih.trans (samePlace_ahead _ n)

end Looked

theorem looked_aheadFrom (c : Cursor) (skip : Token → Bool) (n limit : Nat) :
    Looked c (c.aheadFrom skip n limit).2 := by
  induction limit generalizing c n with
  | zero => exact .refl
  | succ limit ih =>
    have h : Looked c (c.ahead n).2 := Looked.refl.ahead n
    unfold aheadFrom
    split
    · next d hd => simpa [hd] using h
    · next t d hd =>
      rw [hd] at h
      split
      · exact h.trans (ih d (n + 1))
      · exact h

theorem looked_aheadSkipping (c : Cursor) (skip : Token → Bool) :
    Looked c (c.aheadSkipping skip).2 := looked_aheadFrom c skip 0 _

/-! ### Moving on -/

/-- What moving on does, by what comes next in the plan. -/
theorem advance_cases (c : Cursor) :
    (∃ t rest d, c.plan = .ok t :: rest ∧ c.advance = (.ok (some t), d) ∧
      d.plan = rest ∧ d.past = t :: c.past ∧ d.yielded = c.yielded + 1) ∨
    (∃ e rest d, c.plan = .error e :: rest ∧ c.advance = (.error e, d) ∧
      d.plan = rest ∧ d.past = c.past ∧ d.yielded = c.yielded) ∨
    (∃ d, c.plan = [] ∧ c.advance = (.ok none, d) ∧ SamePlace c d ∧ d.source = []) := by
  have hs := samePlace_fill c 1
  have hr := isFilled_fillFrom c 1 c.source
  rw [show c.fillFrom 1 c.source = c.fill 1 from rfl] at hr
  rw [← hs.plan]
  unfold advance plan
  rcases hp : (c.fill 1).pending with _ | ⟨t, rest⟩
  · right
    rcases hf : (c.fill 1).fault with _ | e
    · right
      -- nothing is queued and nothing is wrong, so the source is empty
      have he : (c.fill 1).source = [] := by simpa [isFilled, hp, hf] using hr
      exact ⟨c.fill 1, by simp [he], by simp [hp, hf], hs, he⟩
    · exact .inl ⟨e, _, { c.fill 1 with fault := none }, by simp; rfl, by simp [hp, hf],
        by simp [hp], hs.past, hs.yielded⟩
  · left
    exact ⟨t, _, _, by simp; rfl, by simp [hp]; rfl, by simp, by simp [hs.past],
      by simp [hs.yielded]⟩

end Cursor

/-! ### Classifying -/

namespace Classification

open Cursor

theorem looked_opensCall (c : Cursor) : Looked c (opensCall c).2 :=
  looked_aheadSkipping c _

theorem looked_ofOpenIdentifier (c : Cursor) (readsTypes : Bool) :
    Looked c (ofOpenIdentifier c readsTypes).2 := by
  have h := looked_opensCall c
  unfold ofOpenIdentifier
  simp only
  split
  · exact h
  · split
    · exact h
    · split
      · exact h
      · exact h.trans (looked_aheadSkipping _ _)

theorem looked_ofIdentifier (t : Token) (c : Cursor) (readsTypes : Bool) :
    Looked c (ofIdentifier t c readsTypes).2 := by
  unfold ofIdentifier
  split
  · exact .refl
  · split
    · exact .refl
    · exact looked_ofOpenIdentifier c readsTypes

theorem looked_segmentRole (c : Cursor) : Looked c (segmentRole c).2 := by
  unfold segmentRole
  split
  · exact .refl
  · exact looked_opensCall c

theorem looked_decide (t : Token) (opener : Option Kind) (s : Surroundings) (c : Cursor) :
    Looked c (decide t opener s c).2 := by
  unfold decide
  split
  · exact .refl
  · split
    · exact .refl
    · split
      · exact .refl
      · split
        · exact looked_segmentRole c
        · split
          · exact .refl
          · exact looked_ofIdentifier t c s.readsTypes

end Classification

theorem Classifier.looked_classify (r : Classifier) (i : Nat) (t : Token) (s : Surroundings)
    (c : Cursor) : Cursor.Looked c (r.classify i t s c).2.2 := by
  unfold Classifier.classify
  split
  · exact .refl
  · exact Classification.looked_decide t _ s c

end TokenAtlas
