import TokenAtlas.Proofs.Feature.Shape

/-! What becomes of openings. Main statement: with every token a builder that was opened is on
the stack or has left its product, and a candidate that was started is opened, discarded or
still pending. -/

namespace TokenAtlas.Stack

/-- Whether an opening word starts a candidate. -/
def starts (s : Stack) (k : Kind) (mayOpen : Bool) : Bool :=
  s.candidate.isNone && mayOpen && (Feature.ofOpener k).isSome

/-- How many candidates are pending. -/
def pending (s : Stack) : Nat := if s.candidate.isSome then 1 else 0

/-- A step that leads from `s` to `d` accounts for the builders on the stack, and for the
candidates that were pending or have just been started. -/
structure Balances (s : Stack) (started : Nat) (step : StackStep) (d : Stack) : Prop where
  depth : d.depth + step.products.length = s.depth + if step.opened.isSome then 1 else 0
  candidates : (if step.opened.isSome then 1 else 0) + (if step.discarded.isSome then 1 else 0) +
    d.pending = s.pending + started

theorem length_settle {f : Feed} {b : Builder} (h : b.progress = .finished ↔ f.done = true)
    (below : List Builder) :
    (settle below f b).1.length + (settle below f b).2.1.length = below.length + 1 := by
  rcases settle_cases h below with ⟨-, hs⟩ | ⟨-, hs⟩ <;> rw [hs] <;> rfl

theorem depth_feedActive {s : Stack} (h : ∀ b ∈ s.builders, b.progress ≠ .finished) (t : Token)
    (l : Levels) : (s.feedActive t l).2.depth + (s.feedActive t l).1.products.length = s.depth := by
  obtain ⟨_ | ⟨b, below⟩, candidate⟩ := s
  · rfl
  · exact length_settle (Builder.finished_feed_iff (h b List.mem_cons_self) t l) below

theorem opened_feedActive (s : Stack) (t : Token) (l : Levels) :
    (s.feedActive t l).1.opened = none := by
  obtain ⟨_ | ⟨b, below⟩, candidate⟩ := s <;> rfl

/-- A verified candidate is opened or discarded. -/
theorem balances_openBuilder {s : Stack} (hs : s.candidate = none) (c : Candidate) (l : Levels) :
    Balances s 1 (s.openBuilder c l).1 (s.openBuilder c l).2 := by
  obtain ⟨builders, candidate⟩ := s
  obtain rfl : candidate = none := hs
  unfold openBuilder
  split
  · exact ⟨rfl, rfl⟩
  · exact ⟨length_settle (Feature.finished_create_iff _ _ _) builders, rfl⟩

theorem balances_extendCandidate {s : Stack} (hs : s.candidate.isSome) (c : Candidate) (t : Token)
    (l : Levels) : Balances s 0 (s.extendCandidate c t l).1 (s.extendCandidate c t l).2 := by
  have hpending : s.pending = 1 := if_pos hs
  simp only [extendCandidate]
  split
  · obtain ⟨hdepth, hcandidates⟩ := balances_openBuilder
      (s := { s with candidate := none }) rfl { c with buffer := c.buffer ++ [t] } l
    exact ⟨hdepth, by rw [hcandidates, hpending]; rfl⟩
  · exact ⟨rfl, by rw [hpending]; rfl⟩
  · split
    · exact ⟨rfl, by rw [hpending]; rfl⟩
    · exact ⟨rfl, by rw [hpending]; rfl⟩

theorem balances_tryCandidate (s : Stack) (t : Token) (l : Levels) :
    Balances s 0 (s.tryCandidate t l).1 (s.tryCandidate t l).2 := by
  have hnothing : Balances s 0 .nothing s := ⟨rfl, by simp [StackStep.nothing]⟩
  unfold tryCandidate
  split
  · next c hc =>
    split
    · exact hnothing
    · exact balances_extendCandidate (by simp [hc]) c t l
  · exact hnothing

theorem pending_startCandidate (s : Stack) (k : Kind) (mayOpen : Bool) :
    (s.startCandidate k mayOpen).pending =
      s.pending + if s.starts k mayOpen then 1 else 0 := by
  obtain ⟨builders, candidate⟩ := s
  rcases candidate with _ | c
  · cases mayOpen
    · simp [startCandidate, pending, starts]
    · simp [startCandidate, pending, starts]
  · simp [startCandidate, pending, starts]

/-- Only opening a feature changes the builders before the innermost one is fed. -/
theorem builders_tryCandidate {s : Stack} {t : Token} {l : Levels}
    (h : (s.tryCandidate t l).1.opened = none) : (s.tryCandidate t l).2.builders = s.builders := by
  unfold tryCandidate at h ⊢
  split at h
  · split at h
    · next htrivia => rw [if_pos htrivia]
    · next htrivia =>
      rw [if_neg htrivia]
      simp only [extendCandidate] at h ⊢
      split at h
      · unfold openBuilder at h ⊢
        split at h
        · next hfull => rw [if_pos hfull]
        · simp at h
      · rfl
      · split <;> rfl
  · rfl

/-- A token accounts for the builders and for the candidates. -/
theorem WellFormed.balances {s : Stack} (h : s.WellFormed) (t : Token) (l : Levels)
    (mayOpen : Bool) :
    Balances s (if s.starts t.kind mayOpen then 1 else 0) (s.step t l mayOpen).1
      (s.step t l mayOpen).2 := by
  have htried := balances_tryCandidate (s.startCandidate t.kind mayOpen) t l
  have hkept := @builders_tryCandidate (s.startCandidate t.kind mayOpen) t l
  have hdepth : (s.startCandidate t.kind mayOpen).depth = s.depth :=
    congrArg List.length (builders_startCandidate s t.kind mayOpen)
  rw [builders_startCandidate] at hkept
  unfold Stack.step
  simp only
  generalize (s.startCandidate t.kind mayOpen).tryCandidate t l = first at htried hkept
  obtain ⟨hopened, hcandidates⟩ := htried
  rw [hdepth] at hopened
  rw [pending_startCandidate, Nat.add_zero] at hcandidates
  generalize (if s.starts t.kind mayOpen then 1 else 0) = started at hcandidates ⊢
  split
  · exact ⟨hopened, hcandidates⟩
  · next hnone =>
    have hnone : first.1.opened = none := by simpa using hnone
    have hsame : first.2.depth = s.depth := congrArg List.length (hkept hnone)
    have hfed := depth_feedActive (hkept hnone ▸ h.unfinished) t l
    refine ⟨?_, ?_⟩
    · simp only [opened_feedActive, Option.isSome_none, Bool.false_eq_true, if_false]
      omega
    · rw [← hcandidates, hnone]
      simp only [opened_feedActive, pending, candidate_feedActive]

end TokenAtlas.Stack
