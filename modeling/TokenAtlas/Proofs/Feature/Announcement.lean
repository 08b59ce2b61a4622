import TokenAtlas.Proofs.Feature.Effect

/-! Names of namespaces, announced and declared. A declaration announces its name once, when
the name has ended, and is finished with that name. Main statement: whatever was offered to a
stack, the names announced so far are those declared so far, and one more while the body of a
namespace is open. -/

namespace TokenAtlas

def BuildEvent.name : BuildEvent → String
  | .namespaceNameKnown name => name

/-- The name of a product that declares a namespace. -/
def Product.namespaceName? : Product → Option String
  | .namespaceDeclaration d => some d.name
  | .namespaceImport _ | .functionSignature _ => none

namespace NamespaceBuilder

/-- The name, once it has ended. -/
def announced? (b : NamespaceBuilder) : Option String :=
  match b.phase with
  | .fresh | .naming => none
  | .inBody _ _ | .finished => some b.declaration.name

/-- A name is announced when it ends, and stays as it was announced. -/
theorem announced_feed (b : NamespaceBuilder) (t : Token) (l : Levels) :
    b.announced?.toList ++ (b.feed t l).1.events.map BuildEvent.name =
      (b.feed t l).2.announced?.toList := by
  obtain ⟨phase, declaration⟩ := b
  unfold feed
  split
  · simp [Feed.quiet]
  · cases phase with
    | fresh | naming =>
      simp only [feedName]
      split
      case h_4 => split <;> simp [announced?, addName, Feed.quiet, Feed.hinted]
      all_goals
        simp [announced?, addName, named, Feed.withEvent, Feed.quiet, Feed.finished,
          BuildEvent.name]
    | inBody depth opener =>
      simp only [feedBody]
      split <;> simp [announced?, Feed.quiet, Feed.finished]
    | finished => simp [Feed.quiet]

theorem announced_of_finished {b : NamespaceBuilder} (h : b.progress = .finished) :
    b.announced? = some b.declaration.name := by
  obtain ⟨_ | _ | ⟨depth, opener⟩ | _, d⟩ := b
  · exact absurd h nofun
  · exact absurd h nofun
  · exact absurd h nofun
  · rfl

/-- The builder after some tokens, each at its levels. -/
def after (b : NamespaceBuilder) (offers : List (Token × Levels)) : NamespaceBuilder :=
  offers.foldl (fun b offer => (b.feed offer.1 offer.2).2) b

/-- All that became known on the way. -/
def news (b : NamespaceBuilder) : List (Token × Levels) → List BuildEvent
  | [] => []
  | offer :: offers =>
    (b.feed offer.1 offer.2).1.events ++ (b.feed offer.1 offer.2).2.news offers

theorem announced_news (b : NamespaceBuilder) (offers : List (Token × Levels)) :
    b.announced?.toList ++ (b.news offers).map BuildEvent.name =
      (b.after offers).announced?.toList := by
  induction offers generalizing b with
  | nil => simp [news, after]
  | cons offer offers ih =>
    rw [news, List.map_append, ← List.append_assoc, announced_feed, ih]
    rfl

/-- An announced name stays as it is and is not announced again. -/
theorem announced_after {b : NamespaceBuilder} {name : String} (h : b.announced? = some name)
    (offers : List (Token × Levels)) :
    b.news offers = [] ∧ (b.after offers).announced? = some name := by
  have hnews := b.announced_news offers
  rw [h] at hnews
  rcases hafter : (b.after offers).announced? with _ | later
  · simp [hafter] at hnews
  · obtain ⟨rfl, hnone⟩ : name = later ∧ b.news offers = [] := by simpa [hafter] using hnews
    exact ⟨hnone, rfl⟩

end NamespaceBuilder

namespace Builder

/-- The name of the namespace whose body the builder is in. -/
def openName? : Builder → Option String
  | .namespaceDeclaration ⟨.inBody _ _, d⟩ => some d.name
  | _ => none

/-- Unless it has finished, a declaration whose name has ended has an open body. -/
theorem openName_eq_announced {n : NamespaceBuilder} (h : n.progress ≠ .finished) :
    (namespaceDeclaration n).openName? = n.announced? := by
  obtain ⟨_ | _ | ⟨depth, opener⟩ | _, d⟩ := n
  · rfl
  · rfl
  · rfl
  · exact absurd rfl h

/-- Other builders than that of a namespace have no news, nor a name to declare. -/
theorem silent_of_ne {b : Builder} (h : b.feature ≠ .namespaceDeclaration) (t : Token)
    (l : Levels) : (b.feed t l).1.events = [] ∧ b.openName? = none ∧
      b.snapshot.namespaceName? = none := by
  cases b with
  | namespaceDeclaration n => exact absurd rfl h
  | namespaceImport i => exact ⟨(i.isPlain_feed t).events, rfl, rfl⟩
  | functionSignature f => exact ⟨(f.isPlain_feed t l).events, rfl, rfl⟩

end Builder

/-! ### Steps -/

namespace Stack

/-- The name of the namespace whose body is open. Its builder is the bottom one. -/
def openName (builders : List Builder) : Option String :=
  builders.getLast?.bind Builder.openName?

/-- The names that became known. -/
def Effect.announced (e : Effect) : List String := e.events.map BuildEvent.name

/-- The names of the declarations that were finished. -/
def Effect.declared (e : Effect) : List String := e.products.filterMap Product.namespaceName?

theorem openName_cons {b : Builder} (h : b.openName? = none) (below : List Builder) :
    openName (b :: below) = openName below := by
  rcases below with _ | ⟨c, below⟩
  · exact h
  · rw [openName, openName, List.getLast?_cons_cons]

/-- What was open and what becomes known is declared or open. -/
theorem announced_fed {builders : List Builder} (h : Sound builders) (t : Token) (l : Levels) :
    (openName builders).toList ++ (fed builders t l).announced =
      (fed builders t l).declared ++ (openName (fed builders t l).builders).toList := by
  cases builders with
  | nil => rfl
  | cons b below =>
    have hunfinished : b.progress ≠ .finished := h.unfinished b List.mem_cons_self
    have hfinished := Builder.finished_feed_iff hunfinished t l
    rw [fed_cons]
    by_cases hb : b.feature = .namespaceDeclaration
    · cases b with
      | namespaceDeclaration n =>
        obtain rfl := h.shape.below_namespace
        have hname := n.announced_feed t l
        have hopen : openName [.namespaceDeclaration n] = n.announced? :=
          Builder.openName_eq_announced hunfinished
        rw [hopen]
        rcases settle_cases hfinished [] with ⟨hdone, hs⟩ | ⟨hopen', hs⟩
        · have hannounced : (n.feed t l).2.announced? = some (n.feed t l).2.declaration.name :=
            NamespaceBuilder.announced_of_finished hdone
          rw [hannounced] at hname
          rw [hs]
          exact hname
        · rw [hs]
          exact hname.trans (congrArg Option.toList (Builder.openName_eq_announced hopen').symm)
      | namespaceImport i => exact absurd hb nofun
      | functionSignature f => exact absurd hb nofun
    · obtain ⟨hevents, hopen, -⟩ := Builder.silent_of_ne hb t l
      have hb' : (b.feed t l).2.feature ≠ .namespaceDeclaration := by simpa using hb
      obtain ⟨-, hopen', hname⟩ := Builder.silent_of_ne hb' t l
      rw [openName_cons hopen]
      rcases settle_cases hfinished below with ⟨-, hs⟩ | ⟨-, hs⟩
      · simp [Effect.announced, Effect.declared, hevents, hs, hname]
      · simp [Effect.announced, Effect.declared, hevents, hs, openName_cons hopen']

/-- A token keeps the balance of names. -/
theorem WellFormed.announces {s : Stack} (h : s.WellFormed) (t : Token) (l : Levels)
    (mayOpen : Bool) :
    (openName s.builders).toList ++ (effect (s.step t l mayOpen)).announced =
      (effect (s.step t l mayOpen)).declared ++
        (openName (effect (s.step t l mayOpen)).builders).toList := by
  cases h.handles t l mayOpen with
  | feeds he =>
    rw [he]
    exact announced_fed h.toSound t l
  | names hempty he =>
    have hfresh : Sound [.namespaceDeclaration .fresh] :=
      ⟨.namespaceDeclaration _, by decide, by simp [Builder.progress, NamespaceBuilder.progress,
        NamespaceBuilder.fresh]⟩
    rw [he, hempty]
    exact announced_fed hfresh t l
  | @opens f hopener hne hyes he =>
    have hsilent := Builder.silent_of_ne (b := f.start (some t))
      (by rwa [Feature.feature_start]) t l
    rw [he, openName_cons hsilent.2.1]
    simp [Effect.announced, Effect.declared]

/-! ### Runs -/

/-- What is done on the way, offer by offer. -/
def effects (s : Stack) : List (Token × Levels × Bool) → List Effect
  | [] => []
  | offer :: offers =>
    effect (s.step offer.1 offer.2.1 offer.2.2) ::
      (s.step offer.1 offer.2.1 offer.2.2).2.effects offers

theorem WellFormed.announced_effects {s : Stack} (h : s.WellFormed)
    (offers : List (Token × Levels × Bool)) :
    (openName s.builders).toList ++ (s.effects offers).flatMap Effect.announced =
      (s.effects offers).flatMap Effect.declared ++
        (openName (s.after offers).builders).toList := by
  induction offers generalizing s with
  | nil => simp [effects, Stack.after]
  | cons offer offers ih =>
    have hstep := h.announces offer.1 offer.2.1 offer.2.2
    have hrest := ih (h.step offer.1 offer.2.1 offer.2.2).1
    rw [effects, List.flatMap_cons, List.flatMap_cons, ← List.append_assoc, hstep,
      List.append_assoc, List.append_assoc]
    exact congrArg _ hrest

/-- Whatever was offered to the empty stack, the names announced so far are those declared so
far, and that of the namespace whose body is open. That name is the one that is declared next,
and until then it stays and no other one is announced. A declaration on its own announces its
name when it has ended, and never again or otherwise. -/
theorem announced_eq_declared (offers : List (Token × Levels × Bool)) :
    (empty.effects offers).flatMap Effect.announced =
      (empty.effects offers).flatMap Effect.declared ++
        (openName (empty.after offers).builders).toList ∧
    (∀ name, openName (empty.after offers).builders = some name → ∀ more,
      (((empty.after offers).effects more).flatMap Effect.declared).head? = some name ∨
      ((empty.after offers).effects more).flatMap Effect.declared = [] ∧
        ((empty.after offers).effects more).flatMap Effect.announced = [] ∧
        openName (empty.after (offers ++ more)).builders = some name) ∧
    ∀ feeds more : List (Token × Levels),
      (NamespaceBuilder.fresh.news feeds).map BuildEvent.name =
        (NamespaceBuilder.fresh.after feeds).announced?.toList ∧
      ∀ name, (NamespaceBuilder.fresh.after feeds).announced? = some name →
        (NamespaceBuilder.fresh.after feeds).news more = [] ∧
        ((NamespaceBuilder.fresh.after feeds).after more).announced? = some name := by
  have h := wellFormed_empty.after offers
  refine ⟨wellFormed_empty.announced_effects offers, fun name hname more => ?_,
    fun feeds more => ⟨NamespaceBuilder.fresh.announced_news feeds,
      fun name hname => NamespaceBuilder.announced_after hname more⟩⟩
  have hmore := h.announced_effects more
  have hafter : empty.after (offers ++ more) = (empty.after offers).after more :=
    List.foldl_append
  rw [hname] at hmore
  rw [hafter]
  rcases hdeclared : ((empty.after offers).effects more).flatMap Effect.declared with
    _ | ⟨first, rest⟩
  · right
    rw [hdeclared] at hmore
    rcases hopen : openName ((empty.after offers).after more).builders with _ | later
    · simp [hopen] at hmore
    · obtain ⟨rfl, hnone⟩ := List.cons.inj (hopen ▸ hmore)
      exact ⟨rfl, hnone, rfl⟩
  · left
    rw [hdeclared] at hmore
    rw [List.head?_cons, (List.cons.inj hmore).1]

/-- The beginning of a namespace with a body. -/
def namespaceA : List (Token × Levels × Bool) :=
  [(⟨.namespaceWord, "namespace", 1, 0⟩, .zero, true), (⟨.identifier, "A", 1, 10⟩, .zero, true),
    (⟨.openCurly, "\x7b", 1, 12⟩, Levels.zero.shift 1 .curly, true)]

/-- The name that is open in the body is declared behind it. -/
theorem announced_eq_declared_namespaceA :
    openName (empty.after namespaceA).builders = some "A" ∧
      (((empty.after namespaceA).effects
        [(⟨.closeCurly, "\x7d", 1, 14⟩, Levels.zero.shift 1 .curly, true)]).flatMap
          Effect.declared).head? = some "A" := by
  have hopen : openName (empty.after namespaceA).builders = some "A" := by decide
  exact ⟨hopen, ((announced_eq_declared namespaceA).2.1 "A" hopen _).resolve_right (by decide)⟩

end Stack

end TokenAtlas
