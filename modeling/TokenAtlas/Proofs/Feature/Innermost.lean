import TokenAtlas.Proofs.Feature.Effect
import TokenAtlas.Proofs.Feature.Namespace

/-! Where a token goes. It begins a builder of its own or is taken by the innermost one, which
may leave with its product. Main statement: whatever was offered to a stack, one more token
leaves the builders below the innermost as they are, opens or closes at most one, and yields a
product exactly when one is closed. -/

namespace TokenAtlas

theorem NamespaceBuilder.length_events_feed (b : NamespaceBuilder) (t : Token) (l : Levels) :
    (b.feed t l).1.events.length ≤ 1 := by
  obtain ⟨phase, declaration⟩ := b
  unfold feed
  split
  · exact Nat.zero_le 1
  · cases phase with
    | fresh | naming =>
      simp only [feedName]
      split
      case h_4 => split <;> exact Nat.zero_le 1
      all_goals simp [named, Feed.withEvent, Feed.quiet, Feed.finished]
    | inBody depth opener =>
      simp only [feedBody]
      split <;> exact Nat.zero_le 1
    | finished => exact Nat.zero_le 1

/-- A token is one piece of news at most. -/
theorem Builder.length_events_feed (b : Builder) (t : Token) (l : Levels) :
    (b.feed t l).1.events.length ≤ 1 := by
  cases b with
  | namespaceDeclaration n => exact n.length_events_feed t l
  | namespaceImport i =>
    have hnone : (i.feed t).1.events = [] := (i.isPlain_feed t).events
    exact Nat.le_trans (Nat.le_of_eq (congrArg List.length hnone)) (Nat.zero_le 1)
  | functionSignature f =>
    have hnone : (f.feed t l).1.events = [] := (f.isPlain_feed t l).events
    exact Nat.le_trans (Nat.le_of_eq (congrArg List.length hnone)) (Nat.zero_le 1)

/-! ### Builders that have just been verified -/

namespace Feature

/-- The token that verifies the declaration of a namespace does not complete it. -/
theorem create_of_verifyNamespace {l : Levels} {active : Option Builder} {word t : Token}
    (h : verifyNamespace l active [word, t] = .yes) :
    (create .namespaceDeclaration l [word, t]).1.done = false := by
  have hpart : t.kind.isName = true ∨ t.kind = .openCurly := by
    simp only [verifyNamespace] at h
    split at h
    · simp at h
    · split at h
      · next hk => simpa using hk
      · simp at h
  rw [Stack.create_pair]
  rcases hpart with hname | hcurly
  · obtain ⟨hint, hfeed⟩ := NamespaceBuilder.feed_name (b := .fresh) l (.inl rfl) (.inl hname)
    simp [start, Builder.feed, hfeed]
  · simp [start, Builder.feed, NamespaceBuilder.feed, NamespaceBuilder.feedName, Token.isTrivia,
      Kind.isTrivia, hcurly, NamespaceBuilder.fresh, NamespaceBuilder.named, Feed.withEvent,
      Feed.quiet]

end Feature

namespace Stack

/-- The tokens that wait for their feature to be verified. -/
def buffered (s : Stack) : List Token := (s.candidate.map (·.buffer)).getD []

theorem buffered_of_startCandidate {s : Stack} {k : Kind} {mayOpen : Bool} {c : Candidate}
    (h : (s.startCandidate k mayOpen).candidate = some c) : s.buffered = c.buffer := by
  obtain ⟨builders, candidate⟩ := s
  unfold startCandidate at h
  split at h
  · next hnone =>
    obtain ⟨f, -, rfl⟩ := Option.map_eq_some_iff.1 h
    simp only [Bool.and_eq_true, Option.isNone_iff_eq_none] at hnone
    simp [buffered, hnone.1]
  · obtain rfl : candidate = some c := h
    rfl

theorem opened_step (s : Stack) (t : Token) (l : Levels) (mayOpen : Bool) :
    (s.step t l mayOpen).1.opened =
      ((s.startCandidate t.kind mayOpen).tryCandidate t l).1.opened := by
  unfold step
  simp only
  split
  · rfl
  · next hnone =>
    have hnone := Option.not_isSome_iff_eq_none.1 hnone
    rw [opened_feedActive, hnone]

theorem opened_openBuilder {s : Stack} {c : Candidate} {l : Levels} {f : Feature}
    (h : (s.openBuilder c l).1.opened = some f) : c.feature = f := by
  unfold openBuilder at h
  split at h
  · exact absurd h nofun
  · exact Option.some.inj h

/-- A token that opens no feature goes to the innermost builder. -/
theorem effect_of_not_opened {s : Stack} {t : Token} {l : Levels} {mayOpen : Bool}
    (h : (s.step t l mayOpen).1.opened = none) :
    effect (s.step t l mayOpen) = fed s.builders t l := by
  rw [opened_step] at h
  rw [effect_step, h]
  rfl

/-- A token that opens a feature is fed, behind those that were buffered, to a builder of its
own, and that builder is not complete. -/
theorem WellFormed.effect_of_opened {s : Stack} (h : s.WellFormed) {t : Token} {l : Levels}
    {mayOpen : Bool} {f : Feature} (hopened : (s.step t l mayOpen).1.opened = some f) :
    effect (s.step t l mayOpen) = ⟨(f.create l (s.buffered ++ [t])).1.hint,
      (f.create l (s.buffered ++ [t])).1.events, [],
      (f.create l (s.buffered ++ [t])).2 :: s.builders⟩ ∧
    (f.create l (s.buffered ++ [t])).1.events.length ≤ 1 := by
  rw [opened_step] at hopened
  have hne : ((s.startCandidate t.kind mayOpen).tryCandidate t l).1.opened ≠ none := by
    simp [hopened]
  obtain ⟨c, hc, hyes, htry⟩ := tryCandidate_of_opened hne
  rw [effect_step, hopened, Option.isSome_some, if_pos rfl, htry]
  rw [htry] at hopened hne
  obtain rfl := opened_openBuilder hopened
  rw [effect_openBuilder hne, buffered_of_startCandidate hc]
  simp only [builders_startCandidate]
  have hcreate : (c.feature.create l (c.buffer ++ [t])).1.done = false ∧
      (c.feature.create l (c.buffer ++ [t])).1.events.length ≤ 1 := by
    rcases h.candidate_startCandidate hc with ⟨f, -, rfl⟩ | ⟨-, word, rfl⟩
    · exact ⟨rfl, Nat.zero_le 1⟩
    · refine ⟨Feature.create_of_verifyNamespace hyes, ?_⟩
      rw [List.singleton_append, create_pair]
      exact Builder.length_events_feed _ t l
  exact ⟨by simp [settle, hcreate.1], hcreate.2⟩

/-! ### What a step touches -/

/-- A token that is fed leaves the builders below the innermost as they are. A product is the
innermost builder's, as it is when it has finished. -/
theorem fed_spec {builders : List Builder} (h : ∀ b ∈ builders, b.progress ≠ .finished)
    (t : Token) (l : Levels) :
    builders.tail <:+ (fed builders t l).builders ∧ (fed builders t l).events.length ≤ 1 ∧
      (fed builders t l).products.length ≤ 1 ∧
      ∀ p ∈ (fed builders t l).products, ∃ b, builders.head? = some b ∧
        (b.feed t l).2.progress = .finished ∧ p = (b.feed t l).2.snapshot := by
  cases builders with
  | nil => simp [fed, effect, feedActive, StackStep.nothing]
  | cons b below =>
    have hfinished := Builder.finished_feed_iff (h b List.mem_cons_self) t l
    have hevents := b.length_events_feed t l
    rw [fed_cons]
    rcases settle_cases hfinished below with ⟨hdone, hs⟩ | ⟨-, hs⟩
    · rw [hs]
      simp [hevents, hdone]
    · rw [hs]
      simp [hevents]

/-- A step `x` from `s` that touches no builder but the innermost: the token opens a feature of
its own, or it is fed to that builder. -/
structure TouchesInnermost (s : Stack) (t : Token) (l : Levels) (x : StackStep × Stack) :
    Prop where
  below : s.builders.tail <:+ x.2.builders
  depth_le : x.2.depth ≤ s.depth + 1
  le_depth : s.depth ≤ x.2.depth + 1
  opened : ∀ f, x.1.opened = some f → effect x =
    ⟨(f.create l (s.buffered ++ [t])).1.hint, (f.create l (s.buffered ++ [t])).1.events, [],
      (f.create l (s.buffered ++ [t])).2 :: s.builders⟩
  fed : x.1.opened = none → effect x = fed s.builders t l
  events : x.1.events.length ≤ 1
  products : x.1.products.length ≤ 1
  closes : x.1.products ≠ [] ↔ x.2.depth < s.depth
  product : ∀ p ∈ x.1.products, ∃ b, s.active? = some b ∧
    (b.feed t l).2.progress = .finished ∧ p = (b.feed t l).2.snapshot

theorem WellFormed.touchesInnermost {s : Stack} (h : s.WellFormed) (t : Token) (l : Levels)
    (mayOpen : Bool) : TouchesInnermost s t l (s.step t l mayOpen) := by
  have hdepth := (h.balances t l mayOpen).depth
  have hopens := @WellFormed.effect_of_opened s h t l mayOpen
  have hfeeds := @effect_of_not_opened s t l mayOpen
  generalize s.step t l mayOpen = x at hdepth hopens hfeeds ⊢
  cases hopened : x.1.opened with
  | none =>
    obtain ⟨hbelow, hevents, hproducts, hproduct⟩ := fed_spec h.unfinished t l
    rw [← hfeeds hopened] at hbelow hevents hproducts hproduct
    simp only [hopened, Option.isSome_none, Bool.false_eq_true, if_false] at hdepth
    exact
      { below := hbelow
        depth_le := by omega
        le_depth := by simp only [effect] at hproducts; omega
        opened := fun f hf => absurd (hopened.symm.trans hf) nofun
        fed := hfeeds
        events := hevents
        products := hproducts
        closes := by rw [Ne, ← List.length_eq_zero_iff]; omega
        product := hproduct }
  | some f =>
    obtain ⟨heffect, hevents⟩ := hopens hopened
    have hbuilders : x.2.builders = _ :: s.builders := congrArg Effect.builders heffect
    have hproducts : x.1.products = [] := congrArg Effect.products heffect
    have hnews : x.1.events = _ := congrArg Effect.events heffect
    simp only [hopened, hproducts, Option.isSome_some, if_true, List.length_nil] at hdepth
    exact
      { below := hbuilders ▸ (List.tail_suffix _).trans (List.suffix_cons _ _)
        depth_le := by omega
        le_depth := by omega
        opened := fun g hg => Option.some.inj (hopened.symm.trans hg) ▸ heffect
        fed := fun hnone => absurd (hopened.symm.trans hnone) nofun
        events := hnews ▸ hevents
        products := by simp [hproducts]
        closes := by simp [hproducts]; omega
        product := by simp [hproducts] }

/-- Whatever was offered to the empty stack, what is offered to it next touches no builder but
the innermost. -/
theorem touchesInnermost_offered (offers : List (Token × Levels × Bool)) (t : Token) (l : Levels)
    (mayOpen : Bool) :
    TouchesInnermost (empty.after offers) t l ((empty.after offers).step t l mayOpen) :=
  (wellFormed_empty.after offers).touchesInnermost t l mayOpen

end Stack

end TokenAtlas
