import TokenAtlas.Proofs.Source.Recovery

/-! Signatures with intersection types. A type is a tree of names with ampersands, bars and
parentheses; everything else is as in the signatures without. Main statement: in the parameter
list the builder takes every ampersand for the mark of a reference, and it runs the names of an
intersection together. What ampersands in types are there for is kept exactly if there are
none. -/

namespace TokenAtlas

open Written SignatureBuilder

namespace Written

/-- A type with ampersands and bars between its names, and parentheses around any part of it. -/
inductive TypeTree
  | term (x : TypeTerm)
  | group (opener : Lexeme (· = .openParen)) (x : TypeTree) (closer : Lexeme (· = .closeParen))
  | both (x : TypeTree) (ampersand : Lexeme (· = .ampersand)) (y : TypeTree)
  | either (x : TypeTree) (bar : Lexeme (· = .pipe)) (y : TypeTree)

/-- Names that stand between two bars, run together. The first of them keeps its question
mark. -/
def runTogether : List TypeTerm → String
  | [] => ""
  | x :: xs => x.text ++ Token.joined (xs.map (·.name.token))

namespace TypeTree

def tokens : TypeTree → List Token
  | term x => x.tokens
  | group o x c => o.tokens ++ (x.tokens ++ c.tokens)
  | both x ampersand y => x.tokens ++ (ampersand.tokens ++ y.tokens)
  | either x bar y => x.tokens ++ (bar.tokens ++ y.tokens)

/-- Whether there is an ampersand in it. -/
def intersects : TypeTree → Bool
  | term _ => false
  | group _ x _ => x.intersects
  | both _ _ _ => true
  | either x _ y => x.intersects || y.intersects

/-- What stands between two bars, when the type is read behind the alternatives `done` and the
beginning of another one. -/
def divide : TypeTree → List (List TypeTerm) × List TypeTerm → List (List TypeTerm) × List TypeTerm
  | term x, (done, current) => (done, current ++ [x])
  | group _ x _, s => x.divide s
  | both x _ y, s => y.divide (x.divide s)
  | either x _ y, s => y.divide ((x.divide s).1 ++ [(x.divide s).2], [])

/-- The alternatives of the type, each with the names between its bars. -/
def alternatives (x : TypeTree) : List (List TypeTerm) :=
  (x.divide ([], [])).1 ++ [(x.divide ([], [])).2]

/-- What is recorded of the type: ampersands and parentheses leave no trace. -/
def texts (x : TypeTree) : List String := x.alternatives.map runTogether

theorem divide_ne_nil (x : TypeTree) (s : List (List TypeTerm) × List TypeTerm) :
    (x.divide s).2 ≠ [] := by
  induction x generalizing s with
  | term x => simp [divide]
  | group o x c ih => exact ih s
  | both x ampersand y _ ih => exact ih _
  | either x bar y _ ih => exact ih _

/-- An ampersand joins names of one alternative. -/
theorem any_divide (x : TypeTree) (s : List (List TypeTerm) × List TypeTerm) :
    ((x.divide s).1 ++ [(x.divide s).2]).any (2 ≤ ·.length) =
      (s.1.any (2 ≤ ·.length) || x.intersects || !s.2.isEmpty) := by
  induction x generalizing s with
  | term x =>
    obtain ⟨done, current⟩ := s
    cases current <;> simp [divide, intersects]
  | group o x c ih => exact ih s
  | both x ampersand y _ ih =>
    have hne := x.divide_ne_nil s
    rw [divide, ih, intersects]
    simp [hne]
  | either x bar y ihx ihy =>
    rw [divide, ihy, ihx, intersects]
    simp only [List.isEmpty_nil, Bool.not_true, Bool.or_false]
    ac_rfl

/-- Names are run together in a type with ampersands and in no other one. -/
theorem any_alternatives (x : TypeTree) :
    x.alternatives.any (2 ≤ ·.length) = x.intersects := by
  rw [alternatives, any_divide]
  simp

end TypeTree

theorem runTogether_concat {xs : List TypeTerm} (h : xs ≠ []) (x : TypeTerm) :
    runTogether (xs ++ [x]) = runTogether xs ++ x.name.token.text := by
  cases xs with
  | nil => exact absurd rfl h
  | cons y ys => simp [runTogether, Token.joined, String.append_assoc]

theorem runTogether_ne_empty {xs : List TypeTerm} (h : xs ≠ []) : runTogether xs ≠ "" := by
  cases xs with
  | nil => exact absurd rfl h
  | cons x xs => simp [runTogether, x.text_ne_empty]

end Written

/-! ### Reading types -/

/-- The builder `K crossed types type` has closed some types and is reading another one, in a list
of the parenthesis depth `depth`. It has read an ampersand if `crossed`. -/
structure Mixes (depth : Int) (K : Bool → List String → TypeDraft → SignatureBuilder) :
    Prop where
  collects : ∀ crossed l, Collects l (K crossed)
  ampersand : ∀ crossed types type l {t : Token}, t.kind = .ampersand →
    (K crossed types type).feed t l = (.quiet, K true types type)
  paren : ∀ crossed types type {l : Levels} {t : Token}, depth < l.parens →
    t.kind = .openParen ∨ t.kind = .closeParen →
    (K crossed types type).feed t l = (.quiet, K crossed types type)

namespace Written

/-- A draft of the names that were read since the last bar. -/
structure Drafts (xs : List TypeTerm) (type : TypeDraft) : Prop where
  text : type.text = runTogether xs
  fresh : xs = [] → type = .empty

namespace Drafts

variable {xs : List TypeTerm} {type : TypeDraft}

theorem appendTo (h : Drafts xs type) (hne : xs ≠ []) (types : List String) :
    type.appendTo types = types ++ [runTogether xs] := by
  rw [TypeDraft.appendTo, h.text]
  exact if_neg (runTogether_ne_empty hne)

theorem term {l : Levels} {K : List String → TypeDraft → SignatureBuilder} (hK : Collects l K)
    (h : Drafts xs type) (x : TypeTerm) (types : List String) :
    ∃ type', Drafts (xs ++ [x]) type' ∧ Passes (K types type) l x.tokens (K types type') := by
  by_cases hxs : xs = []
  · rw [h.fresh hxs, hxs]
    exact ⟨⟨x.text, false⟩, ⟨by simp [runTogether, Token.joined], by simp⟩, x.passes hK types⟩
  · have hne : type.text ≠ "" := h.text ▸ runTogether_ne_empty hxs
    have hpush : ∀ nullable, TypeDraft.push ⟨type.text, nullable⟩ x.name.token.text =
        ⟨type.text ++ x.name.token.text, nullable⟩ := by
      intro nullable
      simp [TypeDraft.push, hne]
    have hdrafts : ∀ nullable,
        Drafts (xs ++ [x]) ⟨type.text ++ x.name.token.text, nullable⟩ := by
      intro nullable
      exact ⟨by rw [runTogether_concat hxs, h.text], by simp⟩
    have hname : ∀ nullable, Passes (K types ⟨type.text, nullable⟩) l x.name.tokens
        (K types ⟨type.text ++ x.name.token.text, nullable⟩) := by
      intro nullable
      exact .lexeme x.name (Kind.bracket_of_isTypePart x.name.admitted)
        (hpush nullable ▸ hK.part types ⟨type.text, nullable⟩ x.name.admitted) (hK.blank _ _)
    cases hquestion : x.question with
    | none =>
      rw [TypeTerm.tokens, hquestion]
      exact ⟨_, hdrafts type.nullable, hname type.nullable⟩
    | some question =>
      rw [TypeTerm.tokens, hquestion]
      exact ⟨_, hdrafts true, (Passes.lexeme question (by rw [question.admitted]; rfl)
        (hK.question types type question.admitted) (hK.blank _ _)).append (hname true)⟩

end Drafts

/-- A type is read name by name. Behind it its last alternative is not closed yet. -/
theorem TypeTree.passes {depth : Int} {K : Bool → List String → TypeDraft → SignatureBuilder}
    (h : Mixes depth K) (x : TypeTree) {l : Levels} (hl : depth ≤ l.parens) (crossed : Bool)
    {s : List (List TypeTerm) × List TypeTerm} {type : TypeDraft} (hs : Drafts s.2 type) :
    ∃ type', Drafts (x.divide s).2 type' ∧
      Passes (K crossed (s.1.map runTogether) type) l x.tokens
        (K (crossed || x.intersects) ((x.divide s).1.map runTogether) type') := by
  have hblank : ∀ crossed types type l (t : Token), t.isTrivia = true →
      (K crossed types type).feed t l = (.quiet, K crossed types type) :=
    fun crossed types type l => (h.collects crossed l).blank types type
  induction x generalizing l crossed s type with
  | term x =>
    rw [intersects, Bool.or_false]
    exact hs.term (h.collects crossed l) x _
  | group o x c ih =>
    have hinside : depth < (l.shift 1 .paren).parens := by
      rw [Levels.parens_shift, if_pos rfl]
      omega
    have hobracket : o.token.kind.bracket = some (.paren, .opening) := by
      rw [o.admitted]
      rfl
    have hcbracket : c.token.kind.bracket = some (.paren, .closing) := by
      rw [c.admitted]
      rfl
    obtain ⟨type', htype, hread⟩ := ih (Int.le_of_lt hinside) crossed hs
    have hopen := h.paren crossed (s.1.map runTogether) type hinside (.inl o.admitted)
    have hclose := h.paren (crossed || x.intersects) ((x.divide s).1.map runTogether) type'
      hinside (.inr c.admitted)
    have hgroup := Passes.enclosed hobracket hcbracket hopen
      ((Passes.blanks o.trivia (hblank _ _ _ _)).append hread) hclose
    have hall := hgroup.append (.blanks c.trivia (hblank _ _ _ _))
    have htokens : (group o x c).tokens =
        o.token :: (o.blanks ++ x.tokens ++ [c.token]) ++ c.blanks := by
      simp [tokens, Lexeme.tokens]
    rw [htokens]
    exact ⟨type', htype, hall⟩
  | both x ampersand y ihx ihy =>
    obtain ⟨type', htype, hx⟩ := ihx hl crossed hs
    obtain ⟨type'', htype', hy⟩ := ihy hl true htype
    have hampersand := Passes.lexeme ampersand (by rw [ampersand.admitted]; rfl)
      (h.ampersand (crossed || x.intersects) ((x.divide s).1.map runTogether) type' l
        ampersand.admitted) (hblank _ _ _ _)
    rw [intersects, Bool.or_true]
    exact ⟨type'', htype', hx.append (hampersand.append hy)⟩
  | either x bar y ihx ihy =>
    obtain ⟨type', htype, hx⟩ := ihx hl crossed hs
    obtain ⟨type'', htype', hy⟩ := ihy hl (crossed || x.intersects)
      (s := ((x.divide s).1 ++ [(x.divide s).2], [])) ⟨rfl, fun _ => rfl⟩
    have hbar := (h.collects (crossed || x.intersects) l).pipe
      ((x.divide s).1.map runTogether) type' bar.admitted
    rw [htype.appendTo (x.divide_ne_nil s)] at hbar
    rw [List.map_append, List.map_singleton, Bool.or_assoc] at hy
    exact ⟨type'', htype', hx.append ((Passes.lexeme bar (by rw [bar.admitted]; rfl) hbar
      (hblank _ _ _ _)).append hy)⟩

/-- A whole type is read, the last of its alternatives into a draft. -/
theorem TypeTree.read {depth : Int} {K : Bool → List String → TypeDraft → SignatureBuilder}
    (h : Mixes depth K) (x : TypeTree) {l : Levels} (hl : depth ≤ l.parens) :
    ∃ types type, type.appendTo types = x.texts ∧
      Passes (K false [] .empty) l x.tokens (K x.intersects types type) := by
  obtain ⟨type, htype, hpasses⟩ := x.passes h hl false (s := ([], [])) ⟨rfl, fun _ => rfl⟩
  refine ⟨_, type, ?_, hpasses⟩
  rw [htype.appendTo (x.divide_ne_nil _), texts, alternatives, List.map_append]
  rfl

end Written

namespace SignatureBuilder

variable (l : Levels) (p : Parameter) (type : TypeDraft) (s : TokenAtlas.Signature)

/-- Inside the list parentheses count for nothing, outside attributes and defaults. -/
theorem feed_inList_paren {t : Token} {m : Levels} (hm : l.parens < m.parens)
    (ht : t.kind = .openParen ∨ t.kind = .closeParen) :
    (inList l p type none s).feed t m = (.quiet, inList l p type none s) := by
  have hne : m.parens ≠ l.parens := by omega
  rcases ht with ht | ht <;>
    simp [inList, feed, feedParameters, feedList, feedParameter, ht, hne, Kind.isTypePart,
      Kind.isName, Kind.isNameSegment]

/-- In front of its name a parameter takes every ampersand for the mark of a reference. -/
theorem mixes_inList : Mixes l.parens fun crossed types type =>
    inList l { Parameter.empty with types := types, byReference := crossed } type none
      { s with hasReference := s.hasReference || crossed } where
  collects crossed m := collects_inList l { Parameter.empty with byReference := crossed }
    { s with hasReference := s.hasReference || crossed } m rfl
  ampersand crossed types type m t ht := by
    rw [feed_inList_ampersand l _ type _ m ht]
    simp
  paren _ _ type m t hm ht := feed_inList_paren l _ type _ hm ht

/-- Behind the colon ampersands and parentheses count for nothing. -/
theorem mixes_behind (depth : Int) : Mixes depth fun _ types type =>
    ⟨true, .behind true type, { s with returnTypes := types }⟩ where
  collects _ l := collects_behind s l
  ampersand _ types type l t ht := by
    simp [feed, feedBehind, ht, Kind.isTypePart, Kind.isName, Kind.isNameSegment]
  paren _ types type l t _ ht := by
    rcases ht with ht | ht <;>
      simp [feed, feedBehind, ht, Kind.isTypePart, Kind.isName, Kind.isNameSegment]

end SignatureBuilder

namespace Written

theorem TypeTree.readsTypes (x : TypeTree) (l : Levels) :
    ReadsTypes l x.tokens x.texts x.intersects := by
  intro s
  have hread := x.read (mixes_inList l s) (Int.le_refl l.parens)
  rwa [Bool.or_false] at hread

theorem TypeTree.readsReturns (x : TypeTree) (l : Levels) : ReadsReturns l x.tokens x.texts := by
  intro s hs
  have hread := x.read (mixes_behind s l.parens) (Int.le_refl l.parens)
  rwa [← hs] at hread

/-! ### Signatures -/

/-- A parameter whose type may be an intersection, with the default that it may have. -/
structure MixedArgument where
  modifiers : List Modifier
  type : Option TypeTree
  reference : Option (Lexeme (· = .ampersand))
  ellipsis : Option (Lexeme (· = .ellipsis))
  name : Lexeme (· = .variableName)
  default : Option Default

namespace MixedArgument

def tokens (x : MixedArgument) : List Token :=
  x.modifiers.flatMap Modifier.tokens ++ ((x.type.map TypeTree.tokens).getD [] ++
    (Lexeme.tokens? x.reference ++ (Lexeme.tokens? x.ellipsis ++ x.name.tokens))) ++
    (x.default.map fun d => d.equals :: d.value).getD []

/-- What is recorded of the parameter. An ampersand in its type marks a reference as well. -/
def parameter (x : MixedArgument) : Parameter where
  types := (x.type.map TypeTree.texts).getD []
  name := x.name.token.text
  default := (x.default.map fun d => Text.trimString (Token.joined d.value)).filter (· ≠ "")
  byReference := x.type.any TypeTree.intersects || x.reference.isSome
  variadic := x.ellipsis.isSome

theorem reads (x : MixedArgument) (l : Levels) : ReadsArgument l x.tokens x.parameter := by
  have htypes : ReadsTypes l ((x.type.map TypeTree.tokens).getD [])
      ((x.type.map TypeTree.texts).getD []) (x.type.any TypeTree.intersects) := by
    cases x.type with
    | none => exact TypeList.nil.readsTypes l
    | some type => exact type.readsTypes l
  exact (htypes.binding x.modifiers x.reference x.ellipsis x.name).argument x.name.nonempty
    x.default

end MixedArgument

/-- Parameters with commas between them, and perhaps behind them. -/
structure MixedArguments where
  front : List (MixedArgument × Lexeme (· = .comma))
  last : Option MixedArgument

namespace MixedArguments

def tokens (x : MixedArguments) : List Token :=
  x.front.flatMap (fun a => a.1.tokens ++ a.2.tokens) ++ (x.last.map MixedArgument.tokens).getD []

def toList (x : MixedArguments) : List MixedArgument := x.front.map Prod.fst ++ x.last.toList

theorem reads (x : MixedArguments) (l : Levels) :
    ReadsList l x.tokens (x.toList.map MixedArgument.parameter) := by
  obtain ⟨front, last⟩ := x
  induction front with
  | nil =>
    cases last with
    | none => exact .nil l
    | some last => exact (last.reads l).last
  | cons a front ih =>
    have hmore := (a.1.reads l).more a.2 ih
    simpa [tokens, toList] using hmore

end MixedArguments

/-- A signature whose types may be intersections. -/
structure MixedSignature where
  word : Lexeme fun k => k = .functionWord ∨ k = .fnWord
  reference : Option (Lexeme (· = .ampersand))
  name : Option (Lexeme fun k => k = .identifier ∨ k.isKeyword = true)
  opener : Lexeme (· = .openParen)
  arguments : MixedArguments
  closer : Token
  use : List Token
  returns : Option (Lexeme (· = .colon) × TypeTree)
  ending : Ending
  unnamed : word.token.kind = .fnWord → name = none
  isCloser : closer.kind = .closeParen
  isUse : ∀ t ∈ use, isUsePart t.kind

namespace MixedSignature

/-- The tokens behind the opening word, up to the return types. -/
def front (x : MixedSignature) : List Token :=
  Lexeme.tokens? x.reference ++ (Lexeme.tokens? x.name ++ (x.opener.tokens ++
    (x.arguments.tokens ++ x.closer :: x.use)))

/-- The tokens behind the opening word and in front of the end. -/
def head (x : MixedSignature) : List Token :=
  x.word.blanks ++ (x.front ++ (x.returns.map fun r => r.1.tokens ++ r.2.tokens).getD [])

/-- The tokens behind the opening word. -/
def tokens (x : MixedSignature) : List Token := x.head ++ (x.ending.front ++ [x.ending.final])

def types (x : MixedSignature) : List TypeTree :=
  x.arguments.toList.filterMap (·.type) ++ (x.returns.map Prod.snd).toList

/-- What is recorded of the tokens, if the levels `l` hold in front of them. -/
def recorded (x : MixedSignature) (l : Levels) : TokenAtlas.Signature where
  kind :=
    if x.name.isSome then .named else if x.word.token.kind = .fnWord then .arrow else .anonymous
  name := x.name.map (·.token.text)
  hasReference := x.reference.isSome ||
    (x.arguments.toList.map MixedArgument.parameter).any (·.byReference)
  parameters := x.arguments.toList.map MixedArgument.parameter
  returnTypes := (x.returns.map fun r => r.2.texts).getD []
  useText := Text.trimString (Token.joined x.use)
  body := x.ending.block? (l.behind x.head)

/-- What ampersands are written for: behind a type they mark a reference, and in a type they keep
names apart. -/
structure KeepsApart (x : MixedSignature) (s : TokenAtlas.Signature) : Prop where
  byReference : s.parameters.map (·.byReference) = x.arguments.toList.map (·.reference.isSome)
  hasReference : s.hasReference = (x.reference.isSome || s.parameters.any (·.byReference))
  types : ∀ type ∈ x.types, ∀ names ∈ type.alternatives, 2 ≤ names.length →
    runTogether names ∉ s.parameters.flatMap (·.types) ++ s.returnTypes

theorem takes (x : MixedSignature) (l : Levels) :
    ∃ d, Takes (opened x.word.token) l (x.head ++ x.ending.front) d ∧
      d.feed x.ending.final ((l.behind (x.head ++ x.ending.front)).onto x.ending.final.kind) =
        (.finished, ⟨true, .finished, x.recorded l⟩) := by
  have hunnamed : decide (x.word.token.kind = .fnWord) = true → x.name = none :=
    fun h => x.unnamed (of_decide_eq_true h)
  have hfront := takes_heading l x.reference x.name hunnamed x.opener x.arguments.reads
    x.isCloser x.isUse
  obtain ⟨d, htakes, hfinal⟩ := takes_to_end x.word x.ending (by simp [Lexeme.tokens]) rfl hfront
    (readsToEnd (fun y => y.readsReturns _) x.returns rfl)
  refine ⟨d, htakes, hfinal.trans ?_⟩
  simp only [recorded, announcement, blank, decide_eq_true_eq]
  rfl

/-- Every alternative of every type is recorded, its names run together. -/
theorem runTogether_mem_recorded (x : MixedSignature) (l : Levels) {type : TypeTree}
    (htype : type ∈ x.types) {names : List TypeTerm} (hnames : names ∈ type.alternatives) :
    runTogether names ∈ (x.recorded l).parameters.flatMap (·.types) ++
      (x.recorded l).returnTypes := by
  have htext : runTogether names ∈ type.texts := List.mem_map_of_mem hnames
  rw [List.mem_append]
  rcases List.mem_append.1 htype with htype | htype
  · obtain ⟨a, ha, htree⟩ := List.mem_filterMap.1 htype
    refine .inl (List.mem_flatMap.2 ⟨a.parameter, List.mem_map_of_mem ha, ?_⟩)
    simpa [MixedArgument.parameter, htree] using htext
  · refine .inr ?_
    obtain ⟨r, hr, rfl⟩ := Option.map_eq_some_iff.1 (Option.mem_toList.1 htype)
    simpa [recorded, hr] using htext

/-- What is recorded keeps names apart if there are no ampersands in types, and only then. -/
theorem keepsApart_recorded_iff (x : MixedSignature) (l : Levels) :
    x.KeepsApart (x.recorded l) ↔ ∀ type ∈ x.types, type.intersects = false := by
  constructor
  · intro h type htype
    rw [Bool.eq_false_iff, ← type.any_alternatives]
    intro hany
    obtain ⟨names, hnames, hlength⟩ := List.any_eq_true.1 hany
    exact h.types type htype names hnames (of_decide_eq_true hlength)
      (x.runTogether_mem_recorded l htype hnames)
  · intro h
    refine ⟨?_, rfl, ?_⟩
    · rw [recorded, List.map_map]
      refine List.map_congr_left fun a ha => ?_
      have hplain : a.type.any TypeTree.intersects = false := by
        cases htree : a.type with
        | none => rfl
        | some type => exact h type (List.mem_append_left _ (List.mem_filterMap.2 ⟨a, ha, htree⟩))
      simp [MixedArgument.parameter, hplain]
    · intro type htype names hnames hlength
      have hany := h type htype
      rw [← type.any_alternatives, List.any_eq_false] at hany
      exact absurd (decide_eq_true hlength) (hany names hnames)

end MixedSignature

end Written

namespace SignatureBuilder

/-- Fed a signature with intersection types at the levels counted along it, a builder is done at
the last token and not before. Names with ampersands between them are recorded as one, and an
ampersand in the type of a parameter as the mark of a reference, so that what ampersands are
written for is kept exactly if no type has one. -/
theorem recovers_intersections (tracker : LevelTracker) (x : Written.MixedSignature) :
    let levels := tracker.along (x.word.token :: x.tokens)
    let fed := ((x.word.token :: x.tokens).zip levels).tail
    ((opened x.word.token).answers fed).map (·.done) =
        List.replicate (x.tokens.length - 1) false ++ [true] ∧
      (opened x.word.token).after fed =
        ⟨true, .finished, x.recorded tracker.settle.levels⟩ ∧
      (x.KeepsApart ((opened x.word.token).after fed).signature ↔
        ∀ type ∈ x.types, type.intersects = false) := by
  obtain ⟨d, htakes, hfinal⟩ := x.takes tracker.settle.levels
  have htokens : x.tokens = (x.head ++ x.ending.front) ++ [x.ending.final] := by
    simp [Written.MixedSignature.tokens]
  obtain ⟨hdone, hafter⟩ := recovers_of_takes tracker x.word.admitted htokens htakes hfinal
  refine ⟨hdone, hafter, ?_⟩
  rw [hafter]
  exact x.keepsApart_recorded_iff tracker.settle.levels

/-- `function f(A&B $x): C&D;`. -/
def intersected : Written.MixedSignature where
  word := ⟨⟨.functionWord, "function", 1, 0⟩, [⟨.whitespace, " ", 1, 8⟩], .inl rfl, by decide,
    by decide⟩
  reference := none
  name := some ⟨⟨.identifier, "f", 1, 9⟩, [], .inl rfl, by decide, by decide⟩
  opener := ⟨⟨.openParen, "(", 1, 10⟩, [], rfl, by decide, by decide⟩
  arguments := ⟨[], some {
    modifiers := []
    type := some (.both (.term ⟨none, ⟨⟨.identifier, "A", 1, 11⟩, [], rfl, by decide, by decide⟩⟩)
      ⟨⟨.ampersand, "&", 1, 12⟩, [], rfl, by decide, by decide⟩
      (.term ⟨none, ⟨⟨.identifier, "B", 1, 13⟩, [⟨.whitespace, " ", 1, 14⟩], rfl, by decide,
        by decide⟩⟩))
    reference := none
    ellipsis := none
    name := ⟨⟨.variableName, "$x", 1, 15⟩, [], rfl, by decide, by decide⟩
    default := none }⟩
  closer := ⟨.closeParen, ")", 1, 17⟩
  use := []
  returns := some (⟨⟨.colon, ":", 1, 18⟩, [⟨.whitespace, " ", 1, 19⟩], rfl, by decide, by decide⟩,
    .both (.term ⟨none, ⟨⟨.identifier, "C", 1, 20⟩, [], rfl, by decide, by decide⟩⟩)
      ⟨⟨.ampersand, "&", 1, 21⟩, [], rfl, by decide, by decide⟩
      (.term ⟨none, ⟨⟨.identifier, "D", 1, 22⟩, [], rfl, by decide, by decide⟩⟩))
  ending := .stop ⟨.semicolon, ";", 1, 23⟩ (.inl rfl)
  unnamed h := absurd h (by decide)
  isCloser := rfl
  isUse := by simp

/-- It ends at the semicolon, and what its ampersands are there for is not kept. -/
theorem recovers_intersections_intersected :
    let ts := intersected.word.token :: intersected.tokens
    let fed := (ts.zip (LevelTracker.start.along ts)).tail
    ((opened intersected.word.token).answers fed).map (·.done) =
        List.replicate 14 false ++ [true] ∧
      ((opened intersected.word.token).after fed).phase = .finished ∧
      ¬ intersected.KeepsApart ((opened intersected.word.token).after fed).signature := by
  obtain ⟨hdone, hafter, happart⟩ := recovers_intersections .start intersected
  refine ⟨hdone, congrArg SignatureBuilder.phase hafter, fun h => ?_⟩
  exact absurd (happart.1 h) (by decide)

/-- The parameter is no reference, and neither `AB` nor `CD` stands there. -/
theorem intersection_marks_reference :
    let tokens := intersected.word.token :: intersected.tokens
    let s := ((opened intersected.word.token).after
      (tokens.zip (LevelTracker.start.along tokens)).tail).signature
    s = ⟨.named, some "f", true, [⟨["AB"], "$x", none, true, false⟩], ["CD"], "", none⟩ ∧
      ¬ intersected.KeepsApart s := by
  intro tokens s
  have hs : s =
      ⟨.named, some "f", true, [⟨["AB"], "$x", none, true, false⟩], ["CD"], "", none⟩ := by
    decide +kernel
  refine ⟨hs, fun h => ?_⟩
  have hreference := h.byReference
  rw [hs] at hreference
  exact absurd hreference (by decide)

end SignatureBuilder

end TokenAtlas
