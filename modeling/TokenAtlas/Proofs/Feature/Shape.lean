import Mathlib.Tactic.ByContra
import TokenAtlas.Proofs.Feature.Completion
import TokenAtlas.Proofs.Feature.Cuts

/-! The shapes that a stack can have. Main statement: whatever tokens are offered to a stack
that was empty, at whatever levels and with whatever permissions, it holds a namespace
declaration, an import declaration outside or inside the body of a namespace, or functions
inside each other, perhaps in a namespace; all of them are unfinished and not too many. Only
the word of a namespace is waited on, and only while nothing is open. -/

namespace TokenAtlas

namespace Stack

/-- The builders that can be open at a time, the innermost first. -/
inductive Shape : List Builder → Prop
  | empty : Shape []
  | namespaceDeclaration (n : NamespaceBuilder) : Shape [.namespaceDeclaration n]
  | namespaceImport (i : ImportBuilder) : Shape [.namespaceImport i]
  | importInBody (i : ImportBuilder) {n : NamespaceBuilder} {depth : Int} {opener : Token}
      (h : n.phase = .inBody depth opener) :
      Shape [.namespaceImport i, .namespaceDeclaration n]
  | functions (f : SignatureBuilder) (fs : List SignatureBuilder)
      (outer : Option NamespaceBuilder) :
      Shape ((f :: fs).map .functionSignature ++ outer.toList.map .namespaceDeclaration)

/-- Builders of a possible shape, none of them finished, and not too many. -/
structure Sound (builders : List Builder) : Prop where
  shape : Shape builders
  length_le : builders.length ≤ Limits.nesting
  unfinished : ∀ b ∈ builders, b.progress ≠ .finished

/-- A stack of sound builders. A candidate is the word of a namespace and nothing more, and
nothing is open at the same time. -/
structure WellFormed (s : Stack) : Prop extends Sound s.builders where
  waiting : ∀ c, s.candidate = some c → s.builders = [] ∧
    ∃ word : Token, word.kind = .namespaceWord ∧ c = ⟨.namespaceDeclaration, [word]⟩

/-- The stack after some tokens were offered, each at its levels and with its permission to
open a feature. -/
def after (s : Stack) (offers : List (Token × Levels × Bool)) : Stack :=
  offers.foldl (fun s offer => (s.step offer.1 offer.2.1 offer.2.2).2) s

namespace Shape

theorem tail {b : Builder} {below : List Builder} (h : Shape (b :: below)) : Shape below := by
  cases h with
  | namespaceDeclaration n => exact .empty
  | namespaceImport i => exact .empty
  | importInBody i h => exact .namespaceDeclaration _
  | functions f fs outer =>
    rcases fs with _ | ⟨f', fs⟩
    · rcases outer with _ | n
      · exact .empty
      · exact .namespaceDeclaration n
    · exact .functions f' fs outer

/-- A builder stays of its feature when it is fed. -/
theorem feed {b : Builder} {below : List Builder} (h : Shape (b :: below)) (t : Token)
    (l : Levels) : Shape ((b.feed t l).2 :: below) := by
  cases h with
  | namespaceDeclaration n => exact .namespaceDeclaration _
  | namespaceImport i => exact .namespaceImport _
  | importInBody i h => exact .importInBody _ h
  | functions f fs outer => exact .functions _ fs outer

/-- Nothing is open around a namespace. -/
theorem below_namespace {n : NamespaceBuilder} {below : List Builder}
    (h : Shape (.namespaceDeclaration n :: below)) : below = [] := by
  cases h
  rfl

/-- What verifies a feature makes room for it. -/
theorem cons_of_verify {builders : List Builder} (h : Sound builders) {l : Levels}
    {buffer : List Token} {b : Builder}
    (hyes : b.feature.verify l builders.head? buffer = .yes) : Shape (b :: builders) := by
  cases b with
  | namespaceDeclaration n =>
    have hactive : builders.head? = none := by
      by_contra hsome
      simp [Builder.feature, Feature.verify, Feature.verifyNamespace,
        Option.isSome_iff_ne_none.2 hsome] at hyes
    rw [List.head?_eq_none_iff.1 hactive]
    exact .namespaceDeclaration n
  | namespaceImport i =>
    rcases builders with _ | ⟨c, below⟩
    · exact .namespaceImport i
    · have hdepth : c.bodyDepth = some l.curly := by
        by_contra hne
        simp [Builder.feature, Feature.verify, Feature.verifyImport, hne] at hyes
      cases c with
      | namespaceDeclaration n =>
        obtain rfl := h.shape.below_namespace
        have hopen : n.progress ≠ .finished := h.unfinished _ List.mem_cons_self
        rcases hphase : n.phase with _ | _ | ⟨depth, opener⟩ | _
        · simp [Builder.bodyDepth, NamespaceBuilder.bodyDepth, hphase] at hdepth
        · simp [Builder.bodyDepth, NamespaceBuilder.bodyDepth, hphase] at hdepth
        · exact .importInBody i hphase
        · simp [NamespaceBuilder.progress, hphase] at hopen
      | namespaceImport j => simp [Builder.bodyDepth] at hdepth
      | functionSignature f => simp [Builder.bodyDepth] at hdepth
  | functionSignature f =>
    cases h.shape with
    | empty => exact .functions f [] none
    | namespaceDeclaration n => exact .functions f [] (some n)
    | namespaceImport i => simp [Builder.feature, Feature.verify, Feature.verifySignature] at hyes
    | importInBody i h => simp [Builder.feature, Feature.verify, Feature.verifySignature] at hyes
    | functions g gs outer => exact .functions f (g :: gs) outer

end Shape

/-! ### Steps -/

theorem Sound.settle {below : List Builder} {f : Feed} {b : Builder} (h : Shape (b :: below))
    (hlength : (b :: below).length ≤ Limits.nesting)
    (hbelow : ∀ c ∈ below, c.progress ≠ .finished)
    (hb : b.progress = .finished ↔ f.done = true) : Sound (settle below f b).1 := by
  rcases settle_cases hb below with ⟨-, hs⟩ | ⟨hunfinished, hs⟩
  · rw [hs]
    exact ⟨h.tail, Nat.le_of_succ_le hlength, hbelow⟩
  · rw [hs]
    exact ⟨h, hlength, List.forall_mem_cons.2 ⟨hunfinished, hbelow⟩⟩

theorem Sound.feedActive {s : Stack} (h : Sound s.builders) (t : Token) (l : Levels) :
    Sound (s.feedActive t l).2.builders := by
  obtain ⟨builders, candidate⟩ := s
  cases builders with
  | nil => exact h
  | cons b below =>
    obtain ⟨hb, hbelow⟩ := List.forall_mem_cons.1 h.unfinished
    exact .settle (h.shape.feed t l) h.length_le hbelow (Builder.finished_feed_iff hb t l)

theorem Sound.openBuilder {s : Stack} (h : Sound s.builders) {c : Candidate} {l : Levels}
    (hyes : c.feature.verify l s.active? c.buffer = .yes) :
    Sound (s.openBuilder c l).2.builders := by
  unfold Stack.openBuilder
  split
  · exact h
  · next hroom =>
    have hshape : Shape ((c.feature.create l c.buffer).2 :: s.builders) :=
      .cons_of_verify h (by rwa [Feature.feature_create])
    exact .settle hshape (Nat.not_le.1 hroom) h.unfinished (Feature.finished_create_iff _ _ _)

theorem candidate_feedActive (s : Stack) (t : Token) (l : Levels) :
    (s.feedActive t l).2.candidate = s.candidate := by
  obtain ⟨_ | ⟨b, below⟩, candidate⟩ := s <;> rfl

theorem candidate_openBuilder (s : Stack) (c : Candidate) (l : Levels) :
    (s.openBuilder c l).2.candidate = s.candidate := by
  unfold openBuilder
  split <;> rfl

theorem discarded_openBuilder_ne (s : Stack) (c : Candidate) (l : Levels) :
    (s.openBuilder c l).1.discarded ≠ some .candidateOverflow := by
  unfold openBuilder
  split <;> simp

/-- A candidate that has just been started is extended by the word that started it. -/
theorem WellFormed.extendCandidate {s : Stack} (h : Sound s.builders) {c : Candidate} {t : Token}
    (hc : c.buffer = [] → Feature.ofOpener t.kind = some c.feature) (l : Levels) :
    (s.extendCandidate c t l).2.WellFormed ∧
      (s.extendCandidate c t l).1.discarded ≠ some .candidateOverflow := by
  simp only [Stack.extendCandidate]
  split
  · next hyes =>
    have hsound : Sound ({ s with candidate := none } : Stack).builders := h
    refine ⟨⟨hsound.openBuilder hyes, fun d hd => ?_⟩, discarded_openBuilder_ne _ _ _⟩
    rw [candidate_openBuilder] at hd
    simp at hd
  · exact ⟨⟨h, fun d hd => by simp at hd⟩, by simp⟩
  · next hunknown =>
    obtain ⟨hfeature, hactive, hlength⟩ := Feature.verify_unknown hunknown
    have hempty : c.buffer = [] := by
      rw [List.length_append, List.length_singleton] at hlength
      exact List.length_eq_zero_iff.1 (by omega)
    have hword : t.kind = .namespaceWord := by
      have ho := hc hempty
      rw [hfeature] at ho
      unfold Feature.ofOpener at ho
      split at ho <;> simp_all
    have hshort : ¬Limits.candidateTokens ≤ (c.buffer ++ [t]).length :=
      Nat.not_le.2 (Nat.lt_of_lt_of_le hlength (by decide))
    rw [if_neg hshort]
    refine ⟨⟨h, fun d hd => ⟨List.head?_eq_none_iff.1 hactive, t, hword, ?_⟩⟩, by
      simp [StackStep.nothing]⟩
    obtain rfl := Option.some.inj hd
    rw [hfeature, hempty, List.nil_append]

/-- A candidate that a token extends was started by it, or is the word of a namespace that
was waited on. -/
theorem WellFormed.candidate_startCandidate {s : Stack} (h : s.WellFormed) {k : Kind}
    {mayOpen : Bool} {c : Candidate} (hc : (s.startCandidate k mayOpen).candidate = some c) :
    (∃ f, Feature.ofOpener k = some f ∧ c = ⟨f, []⟩) ∨
      s.builders = [] ∧ ∃ word, c = ⟨.namespaceDeclaration, [word]⟩ := by
  unfold Stack.startCandidate at hc
  split at hc
  · obtain ⟨f, hf, rfl⟩ := Option.map_eq_some_iff.1 hc
    exact .inl ⟨f, hf, rfl⟩
  · obtain ⟨hempty, word, -, rfl⟩ := h.waiting c hc
    exact .inr ⟨hempty, word, rfl⟩

/-- Between two tokens a candidate has its word, so an empty one has just been started. -/
theorem WellFormed.startCandidate {s : Stack} (h : s.WellFormed) (k : Kind) (mayOpen : Bool) :
    ∀ c, (s.startCandidate k mayOpen).candidate = some c → c.buffer = [] →
      Feature.ofOpener k = some c.feature := by
  intro c hc hempty
  rcases h.candidate_startCandidate hc with ⟨f, hf, rfl⟩ | ⟨-, word, rfl⟩
  · exact hf
  · exact absurd hempty (List.cons_ne_nil _ _)

theorem builders_startCandidate (s : Stack) (k : Kind) (mayOpen : Bool) :
    (s.startCandidate k mayOpen).builders = s.builders := by
  unfold startCandidate
  split <;> rfl

theorem WellFormed.tryCandidate {s : Stack} (h : s.WellFormed) (t : Token) (l : Levels)
    (mayOpen : Bool) :
    ((s.startCandidate t.kind mayOpen).tryCandidate t l).2.WellFormed ∧
      ((s.startCandidate t.kind mayOpen).tryCandidate t l).1.discarded ≠
        some .candidateOverflow := by
  have hstart := h.startCandidate t.kind mayOpen
  have hsound : Sound (s.startCandidate t.kind mayOpen).builders := by
    rw [builders_startCandidate]
    exact h.toSound
  unfold Stack.tryCandidate
  split
  · next c hc =>
    split
    · next htrivia =>
      -- no opening word is trivia, so the candidate was there before
      refine ⟨⟨hsound, fun d hd => ?_⟩, by simp [StackStep.nothing]⟩
      have hold : s.candidate = some d := by
        unfold Stack.startCandidate at hd
        split at hd
        · obtain ⟨f, hf, -⟩ := Option.map_eq_some_iff.1 hd
          simp [Feature.isTrivia_of_ofOpener hf] at htrivia
        · exact hd
      rw [builders_startCandidate]
      exact h.waiting d hold
    · exact WellFormed.extendCandidate hsound (hstart c hc) l
  · next hnone => exact ⟨⟨hsound, fun d hd => by simp [hnone] at hd⟩, by simp [StackStep.nothing]⟩

/-- A stack stays well-formed when a token is offered to it, and a candidate never grows too
long. -/
theorem WellFormed.step {s : Stack} (h : s.WellFormed) (t : Token) (l : Levels) (mayOpen : Bool) :
    (s.step t l mayOpen).2.WellFormed ∧
      (s.step t l mayOpen).1.discarded ≠ some .candidateOverflow := by
  obtain ⟨htried, hdiscarded⟩ := h.tryCandidate t l mayOpen
  unfold Stack.step
  simp only
  generalize (s.startCandidate t.kind mayOpen).tryCandidate t l = first at htried hdiscarded
  split
  · exact ⟨htried, hdiscarded⟩
  · refine ⟨⟨htried.toSound.feedActive t l, fun c hc => ?_⟩, hdiscarded⟩
    rw [candidate_feedActive] at hc
    obtain ⟨hempty, hword⟩ := htried.waiting c hc
    refine ⟨?_, hword⟩
    -- nothing is open, so there is no builder to be fed
    simp [Stack.feedActive, hempty]

theorem wellFormed_empty : empty.WellFormed :=
  ⟨⟨.empty, Nat.zero_le _, List.forall_mem_nil _⟩, nofun⟩

theorem WellFormed.after {s : Stack} (h : s.WellFormed) (offers : List (Token × Levels × Bool)) :
    (s.after offers).WellFormed := by
  induction offers generalizing s with
  | nil => exact h
  | cons offer offers ih => exact ih (h.step offer.1 offer.2.1 offer.2.2).1

/-- Whatever was offered to the empty stack it is well-formed, and what is offered to it next
never makes a candidate grow too long. -/
theorem wellFormed_offered (offers : List (Token × Levels × Bool)) :
    (empty.after offers).WellFormed ∧ ∀ (t : Token) (l : Levels) (mayOpen : Bool),
      ((empty.after offers).step t l mayOpen).1.discarded ≠ some .candidateOverflow := by
  have h := wellFormed_empty.after offers
  exact ⟨h, fun t l mayOpen => (h.step t l mayOpen).2⟩

/-- An import inside the body of a namespace, as it is read after `namespace A \x7b use`. -/
example : (empty.after [(⟨.namespaceWord, "namespace", 1, 0⟩, .zero, true),
    (⟨.identifier, "A", 1, 10⟩, .zero, true),
    (⟨.openCurly, "\x7b", 1, 12⟩, Levels.zero.shift 1 .curly, true),
    (⟨.useWord, "use", 1, 14⟩, Levels.zero.shift 1 .curly, true)]).builders.map Builder.feature =
      [.namespaceImport, .namespaceDeclaration] := by
  decide

end Stack

end TokenAtlas
