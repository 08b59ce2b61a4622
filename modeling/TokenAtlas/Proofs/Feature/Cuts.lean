import TokenAtlas.Proofs.Feature.Inert
import TokenAtlas.Proofs.Token.Consecutive

/-! Cutting tokens. A token of which builders take nothing but the text may be cut into such
tokens of the same text, and the opening of an attribute into its mark and its bracket. Main
statement: wherever the tokens of a row are cut like that, the same features are opened,
finished and discarded, at the same levels, in the same order. -/

namespace TokenAtlas

namespace Feature

/-- Only the declaration of a namespace has to be waited for, and not longer than for one
token behind the word. -/
theorem verify_unknown {f : Feature} {l : Levels} {active : Option Builder} {buffer : List Token}
    (h : f.verify l active buffer = .unknown) :
    f = .namespaceDeclaration ∧ active = none ∧ buffer.length < 2 := by
  cases f with
  | namespaceDeclaration =>
    simp only [verify, verifyNamespace] at h
    split at h
    · exact absurd h nofun
    · next hn =>
      have hactive : active = none := by
        cases active <;> simp_all
      rcases buffer with _ | ⟨_, _ | ⟨t, _⟩⟩
      · exact ⟨rfl, hactive, by simp⟩
      · exact ⟨rfl, hactive, by simp⟩
      · simp only at h
        split at h <;> exact absurd h nofun
  | namespaceImport =>
    simp only [verify, verifyImport] at h
    split at h <;> split at h <;> exact absurd h nofun
  | functionSignature =>
    simp only [verify, verifySignature] at h
    split at h <;> exact absurd h nofun

theorem verifyNamespace_mute (l : Levels) (active : Option Builder) (w : Token) {t : Token}
    (ht : t.kind.isMute = true) : verifyNamespace l active [w, t] = .no := by
  have hname := (Kind.isMute_spec ht).2.1
  have hcurly : t.kind ≠ .openCurly := Kind.ne_of_isMute ht rfl
  simp [verifyNamespace, hname, hcurly]

/-- The builder of a namespace is never behind the mark of an attribute. -/
theorem isMarked_create_namespace (l : Levels) (w t : Token) :
    (create .namespaceDeclaration l [w, t]).2.isMarked = false := by
  by_cases h : (NamespaceBuilder.fresh.feed t l).1.done = true <;>
    simp [create, start, replay, Builder.feed, h, Builder.isMarked]

end Feature

namespace Stack

/-- The features between two tokens where no attribute is about to begin. Only the word of a
namespace is waited on. -/
structure Ready (s : Stack) : Prop where
  unmarked : ∀ b ∈ s.builders, b.isMarked = false
  waiting : ∀ c, s.candidate = some c →
    s.builders = [] ∧ ∃ word, c = ⟨.namespaceDeclaration, [word]⟩

theorem ready_idle {builders : List Builder} (h : ∀ b ∈ builders, b.isMarked = false) :
    Ready ⟨builders, none⟩ := ⟨h, fun _ hc => absurd hc (by simp)⟩

theorem ready_empty : empty.Ready := ready_idle (List.forall_mem_nil _)

theorem ready_waiting (word : Token) : Ready ⟨[], some ⟨.namespaceDeclaration, [word]⟩⟩ :=
  ⟨List.forall_mem_nil _, fun _ hc => ⟨rfl, word, (Option.some.inj hc).symm⟩⟩

theorem Ready.idle_or_waits {s : Stack} (h : s.Ready) :
    s.candidate = none ∨ ∃ word, s = ⟨[], some ⟨.namespaceDeclaration, [word]⟩⟩ := by
  obtain ⟨builders, candidate⟩ := s
  rcases candidate with _ | c
  · exact .inl rfl
  · obtain ⟨hbuilders, word, rfl⟩ := h.waiting c rfl
    obtain rfl : builders = [] := hbuilders
    exact .inr ⟨word, rfl⟩

theorem ready_settle {below : List Builder} {b : Builder} (hbelow : ∀ c ∈ below, c.isMarked = false)
    (hb : b.isMarked = false) (f : Feed) : Ready ⟨(settle below f b).1, none⟩ := by
  have htop : ∀ c ∈ b :: below, c.isMarked = false := List.forall_mem_cons.2 ⟨hb, hbelow⟩
  refine ready_idle ?_
  unfold settle
  split
  · split <;> exact hbelow
  · exact htop

theorem Ready.feedActive {s : Stack} (h : s.Ready) (hc : s.candidate = none) {t : Token}
    (ht : t.kind ≠ .attributeMarker) (l : Levels) : (s.feedActive t l).2.Ready := by
  obtain ⟨builders, candidate⟩ := s
  obtain rfl : candidate = none := hc
  cases builders with
  | nil => exact h
  | cons b below =>
    obtain ⟨hb, hbelow⟩ := List.forall_mem_cons.1 h.unmarked
    exact ready_settle hbelow (Builder.isMarked_feed hb ht l) _

theorem ready_step_waiting (word t : Token) (l : Levels) :
    ((⟨[], some ⟨.namespaceDeclaration, [word]⟩⟩ : Stack).step t l true).2.Ready := by
  by_cases htrivia : t.isTrivia = true
  · rw [step_waiting_trivia l _ true htrivia]
    exact ready_waiting word
  · have htrivia : t.isTrivia = false := by simpa using htrivia
    rcases hv : Feature.verify .namespaceDeclaration l none [word, t] with _ | _ | _
    · rw [step_waiting_open (c := ⟨.namespaceDeclaration, [word]⟩) true htrivia hv]
      exact ready_settle (List.forall_mem_nil _) (Feature.isMarked_create_namespace l word t) _
    · rw [step_waiting_no (c := ⟨.namespaceDeclaration, [word]⟩) true htrivia hv]
      exact ready_empty
    · exact absurd (Feature.verify_unknown hv).2.2 (by simp)

/-- Only the mark of an attribute is followed by a place where one is about to begin. -/
theorem Ready.step {s : Stack} (h : s.Ready) {t : Token} (ht : t.kind ≠ .attributeMarker)
    (l : Levels) : (s.step t l true).2.Ready := by
  rcases h.idle_or_waits with hc | ⟨word, rfl⟩
  · rcases ho : Feature.ofOpener t.kind with _ | f
    · rw [step_of_declines hc (declines_of_ofOpener ho s l)]
      exact h.feedActive hc ht l
    · rcases hv : f.verify l s.active? [t] with _ | _ | _
      · by_cases hroom : s.depth < Limits.nesting
        · rw [(step_of_yes hc ho hv hroom).2.2]
          exact ready_idle (List.forall_mem_cons.2 ⟨f.isMarked_start _, h.unmarked⟩)
        · rw [(step_of_full hc ho hv (Nat.not_lt.1 hroom)).2.2]
          exact h.feedActive hc ht l
      · have hdeclines : s.Declines l t := fun g hg => by
          rwa [← Option.some.inj (ho.symm.trans hg)]
        rw [step_of_declines hc hdeclines]
        exact h.feedActive hc ht l
      · obtain ⟨rfl, hactive, -⟩ := Feature.verify_unknown hv
        obtain ⟨builders, candidate⟩ := s
        obtain rfl : candidate = none := hc
        obtain rfl : builders = [] := List.head?_eq_none_iff.1 hactive
        rw [step_of_unknown ho hv]
        exact ready_waiting t
  · exact ready_step_waiting word t l

/-! ### Mute tokens -/

/-- What becomes of a candidate at a token that is no part of a name, and solid if it is more
than trivia. -/
def rejecting (s : Stack) (solid : Bool) : StackStep :=
  { StackStep.nothing with
    discarded := if s.candidate.isSome && solid then some .rejected else none }

/-- The stack with another builder on top, if there is a builder, and without the candidate if
that is rejected. -/
def retop (s : Stack) (solid : Bool) (f : Builder → Builder) : Stack :=
  ⟨s.builders.modifyHead f, if solid then none else s.candidate⟩

theorem step_mute_of_idle {s : Stack} (hc : s.candidate = none) {t : Token}
    (ht : t.kind.isMute = true) {l : Levels} {f : Builder → Builder}
    (hf : ∀ b ∈ s.active?, b.feed t l = (.quiet, f b)) (solid : Bool) :
    s.step t l true = (s.rejecting solid, s.retop solid f) := by
  have ho := (Kind.isMute_spec ht).1
  rw [step_of_declines hc (declines_of_ofOpener ho s l)]
  obtain ⟨builders, candidate⟩ := s
  obtain rfl : candidate = none := hc
  cases builders with
  | nil => simp [Stack.feedActive, rejecting, retop, StackStep.nothing, ho]
  | cons b below =>
    have hb := hf b rfl
    simp [Stack.feedActive, hb, settle, Feed.quiet, rejecting, retop, StackStep.nothing, ho]

/-- A token that a builder says nothing about goes to the innermost builder, and a solid one
rejects the candidate. -/
theorem Ready.step_mute {s : Stack} (h : s.Ready) {t : Token} (ht : t.kind.isMute = true)
    {l : Levels} {f : Builder → Builder}
    (hf : ∀ b ∈ s.active?, b.feed t l = (.quiet, f b)) :
    s.step t l true = (s.rejecting (!t.isTrivia), s.retop (!t.isTrivia) f) := by
  rcases h.idle_or_waits with hc | ⟨word, rfl⟩
  · exact step_mute_of_idle hc ht hf _
  · by_cases htrivia : t.isTrivia = true
    · rw [step_waiting_trivia l _ true htrivia]
      simp [rejecting, retop, StackStep.nothing, htrivia]
    · have htrivia : t.isTrivia = false := by simpa using htrivia
      have hno : Feature.verify .namespaceDeclaration l none [word, t] = .no :=
        Feature.verifyNamespace_mute l none word ht
      rw [step_waiting_no (c := ⟨.namespaceDeclaration, [word]⟩) true htrivia hno]
      simp [rejecting, retop, StackStep.nothing, htrivia]

theorem Ready.isMarked_active {s : Stack} (h : s.Ready) : ∀ b ∈ s.active?, b.isMarked = false :=
  fun b hb => h.unmarked b (List.mem_of_mem_head? hb)

theorem retop_retop (s : Stack) (solid solid' : Bool) (f g : Builder → Builder) :
    (s.retop solid f).retop solid' g = s.retop (solid || solid') (g ∘ f) := by
  obtain ⟨builders, candidate⟩ := s
  cases builders <;> cases solid <;> cases solid' <;> rfl

theorem active?_retop (s : Stack) (solid : Bool) (f : Builder → Builder) :
    (s.retop solid f).active? = s.active?.map f := by
  obtain ⟨builders, candidate⟩ := s
  cases builders <;> rfl

theorem begun_absorb_empty (s : Stack) :
    (s.retop false (·.absorb false "")).begun = s.begun := by
  obtain ⟨builders, candidate⟩ := s
  cases builders with
  | nil => rfl
  | cons b below => simp [retop, begun, Builder.absorb_empty]

/-- An inert token. -/
theorem Ready.step_inert {s : Stack} (h : s.Ready) {t : Token} (ht : t.kind.isInert = true)
    (l : Levels) :
    s.step t l true =
      (s.rejecting (!t.isTrivia), s.retop (!t.isTrivia) (·.absorb (!t.isTrivia) t.text)) :=
  h.step_mute (Kind.isMute_of_isInert ht) fun b hb =>
    Builder.feed_inert (h.isMarked_active b hb) ht l

end Stack

/-! ### Rows of tokens -/

/-- Whether nothing was opened, finished, discarded or made known. -/
def StackStep.isSilent (step : StackStep) : Bool :=
  step.events.isEmpty && step.products.isEmpty && step.opened.isNone && step.discarded.isNone

/-- The steps that opened, finished or discarded something or made it known. -/
def loud (steps : List StackStep) : List StackStep := steps.filter (!·.isSilent)

theorem loud_append (xs ys : List StackStep) : loud (xs ++ ys) = loud xs ++ loud ys :=
  List.filter_append ..

theorem Stack.loud_rejecting_false (s : Stack) : loud [s.rejecting false] = [] := by
  simp [loud, rejecting, StackStep.isSilent, StackStep.nothing]

/-- A candidate is rejected once. -/
theorem Stack.loud_rejecting_rejecting (s : Stack) (solid solid' : Bool) (f : Builder → Builder) :
    loud [s.rejecting solid] ++ loud [(s.retop solid f).rejecting solid'] =
      loud [s.rejecting (solid || solid')] := by
  obtain ⟨builders, _ | c⟩ := s <;> cases solid <;> cases solid' <;> rfl

/-- Whether some token is more than trivia. -/
def Token.isSolid (ts : List Token) : Bool := ts.any (!·.isTrivia)

namespace Site

/-- From `s` two rows of tokens come to the same, silent steps apart. -/
structure Agree (s : Site) (as bs : List Token) : Prop where
  steps : loud (s.steps as) = loud (s.steps bs)
  after : (s.after as).begun = (s.after bs).begun

theorem Agree.append {s : Site} {as bs cs ds : List Token} (h : s.Agree as bs)
    (h' : (s.after as).Agree cs ds) : s.Agree (as ++ cs) (bs ++ ds) := by
  obtain ⟨hsteps, hafter⟩ := steps_alike h.after ds
  constructor
  · rw [steps_append, steps_append, loud_append, loud_append, h.steps, h'.steps, hsteps]
  · rw [after_append, after_append, h'.after, hafter]

/-- A row of inert tokens does what its text does. -/
theorem row_of_inert {s : Site} (h : s.stack.Ready) {ts : List Token}
    (hts : ∀ t ∈ ts, t.kind.isInert = true) :
    loud (s.steps ts) = loud [s.stack.rejecting (Token.isSolid ts)] ∧
      (s.after ts).begun = begun ⟨s.levels,
        s.stack.retop (Token.isSolid ts) (·.absorb (Token.isSolid ts) (Token.joined ts))⟩ := by
  induction ts generalizing s with
  | nil =>
    exact ⟨(Stack.loud_rejecting_false _).symm,
      congrArg (Site.mk _) (Stack.begun_absorb_empty _).symm⟩
  | cons t ts ih =>
    obtain ⟨ht, hts⟩ := List.forall_mem_cons.1 hts
    have hnext : s.next t = (s.stack.rejecting (!t.isTrivia),
        ⟨s.levels, s.stack.retop (!t.isTrivia) (·.absorb (!t.isTrivia) t.text)⟩) := by
      simp only [next, h.step_inert ht, Levels.past_of_bracket_none (Kind.bracket_of_isInert ht)]
    have hready : (s.next t).2.stack.Ready := h.step (Kind.ne_of_isInert ht rfl) _
    obtain ⟨hsteps, hafter⟩ := ih hready hts
    rw [hnext] at hsteps hafter
    -- the text adds up, and a candidate that was rejected at `t` is not rejected again
    rw [steps_cons, after_cons, hnext, ← List.singleton_append, loud_append, hsteps, hafter,
      Stack.loud_rejecting_rejecting, Stack.retop_retop, Token.joined_cons]
    simp only [Function.comp_def, Builder.absorb_absorb]
    exact ⟨rfl, rfl⟩

/-- An inert token may be cut into inert tokens of the same text, if one of them is more than
trivia whenever it is. -/
theorem agree_of_inert {s : Site} (h : s.stack.Ready) {t : Token} (ht : t.kind.isInert = true)
    {ts : List Token} (hts : ∀ a ∈ ts, a.kind.isInert = true) (htext : Token.joined ts = t.text)
    (hsolid : Token.isSolid ts = !t.isTrivia) : s.Agree [t] ts := by
  have hone : ∀ a ∈ [t], a.kind.isInert = true := by simpa using ht
  obtain ⟨hsteps, hafter⟩ := row_of_inert h hts
  obtain ⟨hsteps', hafter'⟩ := row_of_inert h hone
  have hsolid' : Token.isSolid [t] = Token.isSolid ts := by simp [Token.isSolid, ← hsolid]
  have htext' : Token.joined [t] = Token.joined ts := by simp [Token.joined, ← htext]
  rw [hsolid'] at hsteps' hafter'
  rw [htext'] at hafter'
  exact ⟨hsteps'.trans hsteps.symm, hafter'.trans hafter.symm⟩

/-- The opening of an attribute may be cut into its mark and its bracket. -/
theorem agree_of_attribute {s : Site} (h : s.stack.Ready) {t mark o : Token}
    (ht : t.kind = .attributeOpen) (hmark : mark.kind = .attributeMarker)
    (ho : o.kind = .openSquare) (htext : mark.text ++ o.text = t.text) :
    s.Agree [t] [mark, o] := by
  obtain ⟨l, s⟩ := s
  -- the innermost builder, if there is one, is behind both what it is behind the one
  obtain ⟨f, g, hf, hg, hfg, hcomp⟩ : ∃ f g : Builder → Builder,
      (∀ b ∈ s.active?, b.feed t (l.shift 1 .square) = (.quiet, f b)) ∧
      (∀ b ∈ s.active?, b.feed mark l = (.quiet, g b)) ∧
      (∀ b ∈ (s.retop true g).active?, b.feed o (l.shift 1 .square) = (.quiet, f b)) ∧
      f ∘ g = f := by
    simp only [Stack.active?_retop]
    rcases hactive : s.active? with _ | b
    · exact ⟨id, id, by simp, by simp, by simp, rfl⟩
    · obtain ⟨c, d, hc, hd, hcd⟩ := Builder.feed_attribute (h.isMarked_active b hactive) ht hmark ho
        htext l (l.shift 1 .square)
      exact ⟨fun _ => c, fun _ => d, by simpa using hc, by simpa using hd, by simpa using hcd, rfl⟩
  have hone : next ⟨l, s⟩ t = (s.rejecting true, ⟨l.shift 1 .square, s.retop true f⟩) := by
    have hstep := h.step_mute (by rw [ht]; rfl) hf
    simp only [Token.isTrivia, ht, Kind.isTrivia, Bool.not_false] at hstep
    simp only [next, ht, Levels.onto_opening (k := .attributeOpen) rfl, hstep,
      Levels.past_opening (k := .attributeOpen) rfl]
  have hfirst : next ⟨l, s⟩ mark = (s.rejecting true, ⟨l, s.retop true g⟩) := by
    have hstep := h.step_mute (by rw [hmark]; rfl) hg
    simp only [Token.isTrivia, hmark, Kind.isTrivia, Bool.not_false] at hstep
    simp only [next, hmark, Levels.onto_of_bracket_none (k := .attributeMarker) rfl, hstep,
      Levels.past_of_bracket_none (k := .attributeMarker) rfl]
  have hsecond : next ⟨l, s.retop true g⟩ o =
      ((s.retop true g).rejecting false, ⟨l.shift 1 .square, s.retop true f⟩) := by
    have hstep := Stack.step_mute_of_idle (s := s.retop true g) rfl (by rw [ho]; rfl) hfg false
    rw [Stack.retop_retop, hcomp] at hstep
    simp only [next, ho, Levels.onto_opening (k := .openSquare) rfl, hstep,
      Levels.past_opening (k := .openSquare) rfl, Bool.or_false]
  constructor
  · simp only [steps_cons, steps_nil, hone, hfirst, hsecond]
    exact ((loud_append [_] [_]).trans (s.loud_rejecting_rejecting true false g)).symm
  · simp only [after_cons, after_nil, hone, hfirst, hsecond]

end Site

/-- A token and what it may be cut into. -/
inductive Cut : Token → List Token → Prop
  | whole {t : Token} (h : t.kind ≠ .attributeMarker) : Cut t [t]
  | text {t : Token} {ts : List Token} (h : t.kind.isInert = true)
      (hts : ∀ a ∈ ts, a.kind.isInert = true) (htext : Token.joined ts = t.text)
      (hsolid : Token.isSolid ts = !t.isTrivia) : Cut t ts
  | opening {t mark o : Token} (h : t.kind = .attributeOpen)
      (hmark : mark.kind = .attributeMarker) (ho : o.kind = .openSquare)
      (htext : mark.text ++ o.text = t.text) : Cut t [mark, o]

theorem Cut.agree {t : Token} {ts : List Token} (h : Cut t ts) {s : Site} (hs : s.stack.Ready) :
    s.Agree [t] ts ∧ (s.after [t]).stack.Ready := by
  refine ⟨?_, hs.step ?_ _⟩
  · cases h with
    | whole => exact ⟨rfl, rfl⟩
    | text h hts htext hsolid => exact Site.agree_of_inert hs h hts htext hsolid
    | opening h hmark ho htext => exact Site.agree_of_attribute hs h hmark ho htext
  · cases h with
    | whole h => exact h
    | text h => exact Kind.ne_of_isInert h rfl
    | opening h => rw [h]; decide

/-- Cutting the tokens of a row makes no difference. -/
theorem Site.agree_of_cuts {cut : Token → List Token} {ts : List Token}
    (h : ∀ t ∈ ts, Cut t (cut t)) {s : Site} (hs : s.stack.Ready) :
    s.Agree ts (ts.flatMap cut) := by
  induction ts generalizing s with
  | nil => exact ⟨rfl, rfl⟩
  | cons t ts ih =>
    obtain ⟨ht, hts⟩ := List.forall_mem_cons.1 h
    obtain ⟨hagree, hready⟩ := ht.agree hs
    exact hagree.append (ih hts hready)

end TokenAtlas
