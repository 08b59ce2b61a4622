import TokenAtlas.Proofs.Feature.Answers
import TokenAtlas.Proofs.Feature.Balance

/-! What a token does to the open features, candidates apart. Main statement: a well-formed
stack either lets its innermost builder take the token, which may be a namespace declaration
that has just been verified, or puts a builder on top that its opening word alone verifies. -/

namespace TokenAtlas.Stack

/-- What shows of a step: the hint, the news, the products and the builders behind it. -/
structure Effect where
  hint : Option Hint
  events : List BuildEvent
  products : List Product
  builders : List Builder
deriving Repr, DecidableEq

def effect (x : StackStep × Stack) : Effect :=
  ⟨x.1.hint, x.1.events, x.1.products, x.2.builders⟩

/-- What a token does to builders that are fed. -/
def fed (builders : List Builder) (t : Token) (l : Levels) : Effect :=
  effect ((⟨builders, none⟩ : Stack).feedActive t l)

/-- The token goes to the innermost builder. -/
theorem fed_cons (b : Builder) (below : List Builder) (t : Token) (l : Levels) :
    fed (b :: below) t l = ⟨(b.feed t l).1.hint, (b.feed t l).1.events,
      (settle below (b.feed t l).1 (b.feed t l).2).2.1,
      (settle below (b.feed t l).1 (b.feed t l).2).1⟩ := rfl

theorem effect_feedActive (s : Stack) (t : Token) (l : Levels) :
    effect (s.feedActive t l) = fed s.builders t l := by
  obtain ⟨_ | ⟨b, below⟩, candidate⟩ := s <;> rfl

/-- A candidate opens a builder only when it is verified and there is room. -/
theorem effect_openBuilder {s : Stack} {c : Candidate} {l : Levels}
    (h : (s.openBuilder c l).1.opened ≠ none) :
    effect (s.openBuilder c l) = ⟨(c.feature.create l c.buffer).1.hint,
      (c.feature.create l c.buffer).1.events,
      (settle s.builders (c.feature.create l c.buffer).1 (c.feature.create l c.buffer).2).2.1,
      (settle s.builders (c.feature.create l c.buffer).1 (c.feature.create l c.buffer).2).1⟩ := by
  unfold openBuilder at h ⊢
  split
  · next hfull => simp [hfull, StackStep.nothing] at h
  · rfl

/-- Where a candidate is opened, it is verified by its tokens up to this one. -/
theorem tryCandidate_of_opened {s : Stack} {t : Token} {l : Levels}
    (h : (s.tryCandidate t l).1.opened ≠ none) :
    ∃ c, s.candidate = some c ∧ c.feature.verify l s.active? (c.buffer ++ [t]) = .yes ∧
      s.tryCandidate t l = ({ s with candidate := none } : Stack).openBuilder
        { c with buffer := c.buffer ++ [t] } l := by
  unfold tryCandidate at h ⊢
  split at h
  · next c hc =>
    split at h
    · exact absurd rfl h
    · next htrivia =>
      refine ⟨c, hc, ?_⟩
      simp only [extendCandidate] at h ⊢
      rw [if_neg htrivia]
      split at h
      · next hyes => exact ⟨hyes, by simp⟩
      · exact absurd rfl h
      · split at h <;> exact absurd rfl h
  · exact absurd rfl h

/-- A step feeds the innermost builder unless a candidate was opened. -/
theorem effect_step (s : Stack) (t : Token) (l : Levels) (mayOpen : Bool) :
    effect (s.step t l mayOpen) =
      if ((s.startCandidate t.kind mayOpen).tryCandidate t l).1.opened.isSome then
        effect ((s.startCandidate t.kind mayOpen).tryCandidate t l)
      else fed s.builders t l := by
  have hkept := @builders_tryCandidate (s.startCandidate t.kind mayOpen) t l
  rw [builders_startCandidate] at hkept
  unfold step
  simp only
  generalize (s.startCandidate t.kind mayOpen).tryCandidate t l = first at hkept
  split
  · rfl
  · next hnone =>
    rw [← hkept (by simpa using hnone), ← effect_feedActive]
    rfl

/-- A builder that is created from one token behind its opening word is fed that token. -/
theorem create_pair (f : Feature) (word t : Token) (l : Levels) :
    f.create l [word, t] = (f.start (some word)).feed t l := by
  simp [Feature.create, Feature.replay]

/-- What a token does to a well-formed stack. -/
inductive Handles (s : Stack) (t : Token) (l : Levels) (e : Effect) : Prop
  | feeds (h : e = fed s.builders t l)
  | names (hempty : s.builders = []) (h : e = fed [.namespaceDeclaration .fresh] t l)
  | opens {f : Feature} (hopener : Feature.ofOpener t.kind = some f)
      (hne : f ≠ .namespaceDeclaration) (hyes : f.verify l s.active? [t] = .yes)
      (h : e = ⟨none, [], [], f.start (some t) :: s.builders⟩)

theorem WellFormed.handles {s : Stack} (h : s.WellFormed) (t : Token) (l : Levels)
    (mayOpen : Bool) : Handles s t l (effect (s.step t l mayOpen)) := by
  rw [effect_step]
  split
  · next hopened =>
    have hopened : ((s.startCandidate t.kind mayOpen).tryCandidate t l).1.opened ≠ none :=
      Option.isSome_iff_ne_none.1 hopened
    obtain ⟨c, hc, hyes, htry⟩ := tryCandidate_of_opened hopened
    rw [htry] at hopened ⊢
    rw [effect_openBuilder hopened]
    simp only [active?, builders_startCandidate] at hyes ⊢
    rcases h.candidate_startCandidate hc with ⟨f, hf, rfl⟩ | ⟨hempty, word, rfl⟩
    · refine .opens hf ?_ hyes rfl
      -- the word of a namespace alone is waited on
      rintro rfl
      simp only [Feature.verify, Feature.verifyNamespace, List.nil_append] at hyes
      split at hyes <;> simp at hyes
    · refine .names hempty ?_
      rw [List.singleton_append, create_pair, hempty, fed_cons]
      rfl
  · exact .feeds rfl

theorem hint_fed (builders : List Builder) {t : Token} (hname : t.kind.isName = false)
    (hkeyword : t.kind.isKeyword = false) (l : Levels) : (fed builders t l).hint = none := by
  cases builders with
  | nil => rfl
  | cons b below => exact b.hint_feed hname hkeyword l

/-- No feature has anything to say about a token that is no name and no reserved word. -/
theorem WellFormed.hint_step {s : Stack} (h : s.WellFormed) {t : Token}
    (hname : t.kind.isName = false) (hkeyword : t.kind.isKeyword = false) (l : Levels)
    (mayOpen : Bool) : (s.step t l mayOpen).1.hint = none := by
  change (effect (s.step t l mayOpen)).hint = none
  cases h.handles t l mayOpen with
  | feeds he =>
    rw [he]
    exact hint_fed _ hname hkeyword l
  | names _ he =>
    rw [he]
    exact hint_fed _ hname hkeyword l
  | opens _ _ _ he => rw [he]

end TokenAtlas.Stack
