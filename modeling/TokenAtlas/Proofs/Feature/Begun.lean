import TokenAtlas.Proofs.Feature.Site

/-! Signature builders that were fed nothing but their opening word. That a builder was fed
more shows in how far it says it has come, and in nothing it does. Main statement: counting
every builder as begun changes neither what a site does with tokens nor where it then is. -/

namespace TokenAtlas

namespace Builder

/-- The builder as one that was fed more than its opening word. -/
def begun : Builder → Builder
  | .functionSignature b => .functionSignature { b with fed := true }
  | b => b

@[simp] theorem begun_begun (b : Builder) : b.begun.begun = b.begun := by
  cases b <;> rfl

@[simp] theorem feed_begun (b : Builder) (t : Token) (l : Levels) :
    b.begun.feed t l = b.feed t l := by
  cases b <;> rfl

end Builder

theorem Feature.verify_begun (f : Feature) (l : Levels) (active : Option Builder)
    (buffer : List Token) :
    f.verify l (active.map Builder.begun) buffer = f.verify l active buffer := by
  rcases active with _ | _ | _ | _ <;> cases f <;> rfl

namespace Stack

/-- The stack with every builder counted as begun. -/
def begun (s : Stack) : Stack := { s with builders := s.builders.map Builder.begun }

@[simp] theorem begun_begun (s : Stack) : s.begun.begun = s.begun := by
  simp [begun, Function.comp_def]

theorem active?_begun (s : Stack) : s.begun.active? = s.active?.map Builder.begun :=
  List.head?_map

theorem depth_begun (s : Stack) : s.begun.depth = s.depth := List.length_map _

/-- Two answers of a stack that say the same and leave the same builders, begun or not. -/
def Alike (x y : StackStep × Stack) : Prop := x.1 = y.1 ∧ x.2.begun = y.2.begun

theorem settle_begun (below : List Builder) (f : Feed) (b : Builder) :
    (settle (below.map Builder.begun) f b).2 = (settle below f b).2 ∧
      (settle (below.map Builder.begun) f b).1.map Builder.begun =
        (settle below f b).1.map Builder.begun := by
  unfold settle
  split
  · split <;> simp [Function.comp_def]
  · simp [Function.comp_def]

theorem feedActive_begun (s : Stack) (t : Token) (l : Levels) :
    Alike (s.begun.feedActive t l) (s.feedActive t l) := by
  obtain ⟨builders, candidate⟩ := s
  cases builders with
  | nil => exact ⟨rfl, rfl⟩
  | cons b below =>
    obtain ⟨htold, hbuilders⟩ := settle_begun below (b.feed t l).1 (b.feed t l).2
    simp only [Alike, feedActive, begun, List.map_cons, Builder.feed_begun, htold, hbuilders]
    exact ⟨trivial, trivial⟩

theorem openBuilder_begun (s : Stack) (c : Candidate) (l : Levels) :
    Alike (s.begun.openBuilder c l) (s.openBuilder c l) := by
  unfold openBuilder
  rw [depth_begun]
  split
  · exact ⟨rfl, by simp⟩
  · obtain ⟨htold, hbuilders⟩ :=
      settle_begun s.builders (c.feature.create l c.buffer).1 (c.feature.create l c.buffer).2
    simp only [Alike, begun, htold, hbuilders]
    exact ⟨trivial, trivial⟩

theorem extendCandidate_begun (s : Stack) (c : Candidate) (t : Token) (l : Levels) :
    Alike (s.begun.extendCandidate c t l) (s.extendCandidate c t l) := by
  have hverify (buffer : List Token) :
      c.feature.verify l (⟨s.begun.builders, none⟩ : Stack).active? buffer =
        c.feature.verify l (⟨s.builders, none⟩ : Stack).active? buffer := by
    have hactive : (⟨s.begun.builders, none⟩ : Stack).active? = s.active?.map Builder.begun :=
      s.active?_begun
    rw [hactive, Feature.verify_begun]
    rfl
  unfold extendCandidate
  simp only [hverify]
  split
  · exact openBuilder_begun ⟨s.builders, none⟩ _ l
  · exact ⟨rfl, begun_begun ⟨s.builders, none⟩⟩
  · split
    · exact ⟨rfl, begun_begun ⟨s.builders, none⟩⟩
    · exact ⟨rfl, begun_begun ⟨s.builders, some _⟩⟩

theorem tryCandidate_begun (s : Stack) (t : Token) (l : Levels) :
    Alike (s.begun.tryCandidate t l) (s.tryCandidate t l) := by
  obtain ⟨builders, _ | c⟩ := s
  · exact ⟨rfl, begun_begun _⟩
  · unfold tryCandidate
    simp only [begun]
    split
    · exact ⟨rfl, begun_begun ⟨builders, some c⟩⟩
    · exact extendCandidate_begun ⟨builders, some c⟩ c t l

theorem startCandidate_begun (s : Stack) (k : Kind) (mayOpen : Bool) :
    s.begun.startCandidate k mayOpen = (s.startCandidate k mayOpen).begun := by
  unfold startCandidate
  by_cases h : (s.candidate.isNone && mayOpen) = true
  · rw [if_pos h]
    exact if_pos h
  · rw [if_neg h]
    exact if_neg h

theorem feedActive_alike {s d : Stack} (h : s.begun = d.begun) (t : Token) (l : Levels) :
    Alike (s.feedActive t l) (d.feedActive t l) := by
  have hs := feedActive_begun s t l
  have hd := feedActive_begun d t l
  rw [h] at hs
  exact ⟨hs.1.symm.trans hd.1, hs.2.symm.trans hd.2⟩

/-- Counting builders as begun makes no difference to a token. -/
theorem step_begun (s : Stack) (t : Token) (l : Levels) (mayOpen : Bool) :
    Alike (s.begun.step t l mayOpen) (s.step t l mayOpen) := by
  obtain ⟨hstep, hstack⟩ := tryCandidate_begun (s.startCandidate t.kind mayOpen) t l
  simp only [step, startCandidate_begun, hstep]
  -- as the candidate's answers are the same, both stacks go on to a builder or neither does
  split
  · exact ⟨rfl, hstack⟩
  · obtain ⟨hfed, hstack⟩ := feedActive_alike hstack t l
    exact ⟨by rw [hfed], hstack⟩

end Stack

namespace Site

/-- The site with every builder counted as begun. -/
def begun (s : Site) : Site := ⟨s.levels, s.stack.begun⟩

/-- Two sites that differ at most in which builders have begun do the same. -/
theorem next_alike {s d : Site} (h : s.begun = d.begun) (t : Token) :
    (s.next t).1 = (d.next t).1 ∧ (s.next t).2.begun = (d.next t).2.begun := by
  obtain ⟨l, s⟩ := s
  obtain ⟨l', d⟩ := d
  obtain ⟨rfl, hstack⟩ := Site.mk.inj h
  have hs := s.step_begun t (l.onto t.kind) true
  have hd := d.step_begun t (l.onto t.kind) true
  rw [show s.begun = d.begun from hstack] at hs
  exact ⟨hs.1.symm.trans hd.1, congrArg (Site.mk _) (hs.2.symm.trans hd.2)⟩

theorem steps_alike {s d : Site} (h : s.begun = d.begun) (ts : List Token) :
    s.steps ts = d.steps ts ∧ (s.after ts).begun = (d.after ts).begun := by
  induction ts generalizing s d with
  | nil => exact ⟨rfl, h⟩
  | cons t ts ih =>
    obtain ⟨hstep, hsite⟩ := next_alike h t
    obtain ⟨hsteps, hafter⟩ := ih hsite
    rw [steps_cons, steps_cons, hstep, hsteps]
    exact ⟨rfl, hafter⟩

end Site

end TokenAtlas
