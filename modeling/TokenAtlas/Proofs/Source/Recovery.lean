import TokenAtlas.Proofs.Source.Parameters

/-! Signatures are recovered from their tokens. Main statement: a builder that is fed a written
signature is done at its last token and not before, and has what the signature stands for
then. -/

namespace TokenAtlas

open Written SignatureBuilder

/-! ### In front of the parameter list -/

namespace SignatureBuilder

/-- A builder in front of the parameter list. -/
def inHeader (s : TokenAtlas.Signature) : SignatureBuilder := ⟨true, .opening, s⟩

variable (s : TokenAtlas.Signature) {t : Token} (l : Levels)

theorem feed_inHeader_blank (ht : t.isTrivia = true) :
    (inHeader s).feed t l = (.quiet, inHeader s) := by
  rcases hk : t.kind <;>
    simp_all [Token.isTrivia, Kind.isTrivia, inHeader, feed, feedOpening, Kind.isKeyword]

theorem feed_inHeader_ampersand (ht : t.kind = .ampersand) :
    (inHeader s).feed t l = (.quiet, inHeader { s with hasReference := true }) := by
  simp [inHeader, feed, feedOpening, ht]

/-- The first name counts, except for an arrow function. -/
theorem feed_inHeader_name (hname : s.name = none) (hkind : s.kind ≠ .arrow)
    (ht : t.kind = .identifier ∨ t.kind.isKeyword = true) :
    (inHeader s).feed t l = (⟨false, some (.ofCategory .functionName), []⟩,
      inHeader { s with name := some t.text, kind := .named }) := by
  have hopens : t.kind ≠ .ampersand ∧ t.kind ≠ .openParen := by
    rcases hk : t.kind <;> simp_all [Kind.isKeyword]
  simp [inHeader, feed, feedOpening, hopens, hname, hkind, ht, Feed.hinted]

theorem feed_inHeader_openParen (ht : t.kind = .openParen) :
    (inHeader s).feed t l = (.quiet, inList l .empty .empty none s) := by
  simp [inHeader, inList, feed, feedOpening, ht, ParameterDraft.empty]

end SignatureBuilder

namespace Written

/-- The signature that a builder begins with. -/
def blank (isArrow : Bool) : TokenAtlas.Signature :=
  ⟨if isArrow then .arrow else .anonymous, none, false, [], [], "", none⟩

theorem passes_headerReference (x : Option (Lexeme (· = .ampersand))) (l : Levels)
    {s : TokenAtlas.Signature} (hs : s.hasReference = false) :
    Passes (inHeader s) l (Lexeme.tokens? x) (inHeader { s with hasReference := x.isSome }) := by
  cases x with
  | none =>
    rw [Option.isSome_none, ← hs]
    exact .nil _ _
  | some x =>
    exact .lexeme x (by rw [x.admitted]; rfl) (feed_inHeader_ampersand s l x.admitted)
      fun t ht => feed_inHeader_blank _ l ht

theorem passes_name (x : Option (Lexeme fun k => k = .identifier ∨ k.isKeyword = true))
    (l : Levels) {s : TokenAtlas.Signature} (hs : s.name = none)
    (hx : x.isSome = true → s.kind ≠ .arrow) :
    Passes (inHeader s) l (Lexeme.tokens? x)
      (inHeader { s with
        name := x.map (·.token.text)
        kind := if x.isSome then .named else s.kind }) := by
  cases x with
  | none =>
    simp only [Option.map_none, ← hs]
    exact .nil _ _
  | some x =>
    have hplain : x.token.kind.bracket = none := by
      rcases x.admitted with h | h
      · rw [h]
        rfl
      · exact Kind.bracket_of_isKeyword h
    exact .lexeme x hplain (feed_inHeader_name s l hs (hx rfl) x.admitted)
      fun t ht => feed_inHeader_blank _ l ht

end Written

/-! ### Behind the parameter list -/

namespace SignatureBuilder

theorem feed_behind_use (s : TokenAtlas.Signature) {t : Token} (l : Levels)
    (ht : isUsePart t.kind) :
    (⟨true, .behind false .empty, s⟩ : SignatureBuilder).feed t l =
      (.quiet, ⟨true, .behind false .empty, { s with useText := s.useText ++ t.text }⟩) := by
  obtain ⟨hcolon, hsemicolon, hopen, harrow⟩ := ht
  simp only [feed, feedBehind]
  split <;> simp_all

theorem takes_use {ts : List Token} (h : ∀ t ∈ ts, isUsePart t.kind) (s : TokenAtlas.Signature)
    (l : Levels) :
    Takes ⟨true, .behind false .empty, s⟩ l ts
      ⟨true, .behind false .empty, { s with useText := s.useText ++ Token.joined ts }⟩ := by
  induction ts generalizing s l with
  | nil => simpa [Token.joined] using Takes.nil _ l
  | cons t ts ih =>
    rw [Token.joined_cons, ← String.append_assoc]
    exact .quiet (feed_behind_use s _ (h t List.mem_cons_self))
      (ih (fun u hu => h u (List.mem_cons_of_mem _ hu)) _ _)

/-- Behind the colon return types are read. -/
theorem collects_behind (s : TokenAtlas.Signature) (l : Levels) :
    Collects l fun types type => ⟨true, .behind true type, { s with returnTypes := types }⟩ where
  question types type t ht := by simp [feed, feedBehind, ht]
  part types type t ht := by
    rcases hk : t.kind <;>
      simp_all [feed, feedBehind, Kind.isTypePart, Kind.isName, Kind.isNameSegment]
  pipe types type t ht := by simp [feed, feedBehind, ht]
  blank types type t ht := by
    rcases hk : t.kind <;>
      simp_all [Token.isTrivia, Kind.isTrivia, feed, feedBehind, Kind.isTypePart, Kind.isName,
        Kind.isNameSegment]

theorem Takes.of_fed {b d : SignatureBuilder} {l : Levels} {ts : List Token} (hts : ts ≠ [])
    (h : Takes { b with fed := true } l ts d) : Takes b l ts d := by
  cases h with
  | nil => exact absurd rfl hts
  | step hfeed hrest => exact .step hfeed hrest

end SignatureBuilder

namespace Written

/-- What a reference and a name in front of the parameter list tell of a signature. -/
def announcement (isArrow : Bool) (reference : Option (Lexeme (· = .ampersand)))
    (name : Option (Lexeme fun k => k = .identifier ∨ k.isKeyword = true)) :
    TokenAtlas.Signature :=
  ⟨if name.isSome then .named else (blank isArrow).kind, name.map (·.token.text),
    reference.isSome, [], [], "", none⟩

/-- What is known of a signature in front of its parameter list. -/
def Declarator.announced (x : Declarator) (isArrow : Bool) : TokenAtlas.Signature :=
  announcement isArrow x.reference x.name

/-- What is known of it behind the use clause. -/
def Declarator.declared (x : Declarator) (isArrow : Bool) : TokenAtlas.Signature :=
  { x.announced isArrow with
    hasReference := x.reference.isSome || x.arguments.parameters.any (·.byReference)
    parameters := x.arguments.parameters
    useText := Token.joined x.use }

/-- A reference, a name, a list and a use clause are read up to the return types, if the list
is. -/
theorem takes_heading (l : Levels) {isArrow : Bool} (reference : Option (Lexeme (· = .ampersand)))
    (name : Option (Lexeme fun k => k = .identifier ∨ k.isKeyword = true))
    (hname : isArrow = true → name = none) (opener : Lexeme (· = .openParen)) {ts : List Token}
    {ps : List Parameter} (hlist : ∀ l, ReadsList l ts ps) {closer : Token}
    (hcloser : closer.kind = .closeParen) {use : List Token}
    (huse : ∀ t ∈ use, isUsePart t.kind) :
    Takes (inHeader (blank isArrow)) l
      (Lexeme.tokens? reference ++ (Lexeme.tokens? name ++ (opener.tokens ++
        (ts ++ closer :: use))))
      ⟨true, .behind false .empty, { announcement isArrow reference name with
        hasReference := reference.isSome || ps.any (·.byReference)
        parameters := ps
        useText := Token.joined use }⟩ := by
  have hobracket : opener.token.kind.bracket = some (.paren, .opening) := by
    rw [opener.admitted]
    rfl
  have hcbracket : closer.kind.bracket = some (.paren, .closing) := by
    rw [hcloser]
    rfl
  have hkind : name.isSome = true → (blank isArrow).kind ≠ .arrow := by
    intro hsome hk
    cases isArrow with
    | true => simp [hname rfl] at hsome
    | false => exact absurd hk nofun
  have hfront := (passes_headerReference reference l (s := blank isArrow) rfl).append
    (passes_name name l (s := { blank isArrow with hasReference := reference.isSome }) rfl hkind)
  -- the list, at its own levels
  have hopener := feed_inHeader_openParen (announcement isArrow reference name)
    (l.shift 1 .paren) opener.admitted
  have hblanks := Passes.blanks (b := inList (l.shift 1 .paren) .empty .empty none
    (announcement isArrow reference name)) (l := l.shift 1 .paren) opener.trivia
    fun t ht => feed_inList_passed _ _ _ _ _ (.inl ht)
  obtain ⟨d, s, hd, hs, hread⟩ :=
    hlist (l.shift 1 .paren) (announcement isArrow reference name)
  have hinside := hblanks.append hread
  -- the bracket that ends it
  have hend := feed_drafting_closeParen (l.shift 1 .paren) s hd hcloser
  rw [hs] at hend
  have hclause := takes_use huse { announcement isArrow reference name with
    hasReference := reference.isSome || ps.any (·.byReference)
    parameters := ps
    useText := "" } l
  rw [String.empty_append] at hclause
  have htokens : Lexeme.tokens? reference ++ (Lexeme.tokens? name ++ (opener.tokens ++
      (ts ++ closer :: use))) = (Lexeme.tokens? reference ++ Lexeme.tokens? name) ++
      (opener.token :: ((opener.blanks ++ ts) ++ closer :: use)) := by
    simp [Lexeme.tokens]
  rw [htokens]
  refine hfront.takes.append ?_
  rw [hfront.levels]
  refine .quiet (by rw [l.onto_opening hobracket]; exact hopener) ?_
  rw [l.past_opening hobracket]
  refine hinside.takes.append ?_
  rw [hinside.levels]
  refine .quiet (by rw [Levels.onto_closing hcbracket]; exact hend) ?_
  rw [Levels.past_closing hcbracket]
  exact hclause

/-- What stands behind the opening word is read up to the return types. -/
theorem Declarator.takes (x : Declarator) (l : Levels) {isArrow : Bool}
    (h : isArrow = true → x.name = none) :
    Takes (inHeader (blank isArrow)) l x.tokens
      ⟨true, .behind false .empty, x.declared isArrow⟩ :=
  takes_heading l x.reference x.name h x.opener x.arguments.reads x.isCloser x.isUse

/-- The tokens are read as return types, the last of them into a draft. -/
def ReadsReturns (l : Levels) (ts : List Token) (texts : List String) : Prop :=
  ∀ s : TokenAtlas.Signature, s.returnTypes = [] → ∃ types type, type.appendTo types = texts ∧
    Passes ⟨true, .behind true .empty, s⟩ l ts
      ⟨true, .behind true type, { s with returnTypes := types }⟩

theorem TypeList.readsReturns (x : TypeList) (l : Levels) :
    ReadsReturns l x.tokens x.texts := by
  intro s hs
  have hcollects := collects_behind s l
  obtain ⟨types, type, htypes, hpasses⟩ := x.passes hcollects []
  rw [← hs] at hpasses
  exact ⟨types, type, htypes, hpasses⟩

/-- Behind the list the builder is in front of the end, with these return types. -/
def ReadsToEnd (s : TokenAtlas.Signature) (l : Levels) (ts : List Token)
    (returnTypes : List String) : Prop :=
  ∃ b inReturn type, b.phase = .behind inReturn type ∧
    b.returning type = { s with returnTypes := returnTypes } ∧
    b.signature.useText = s.useText ∧ Passes ⟨true, .behind false .empty, s⟩ l ts b

/-- The return types that a signature may have are read, the last of them into a draft. -/
theorem readsToEnd {α : Type} {tokens : α → List Token} {texts : α → List String} {l : Levels}
    (h : ∀ y, ReadsReturns l (tokens y) (texts y)) (x : Option (Lexeme (· = .colon) × α))
    {s : TokenAtlas.Signature} (hs : s.returnTypes = []) :
    ReadsToEnd s l ((x.map fun r => r.1.tokens ++ tokens r.2).getD [])
      ((x.map fun r => texts r.2).getD []) := by
  rcases x with _ | ⟨colon, y⟩
  · refine ⟨_, false, .empty, rfl, ?_, rfl, .nil _ _⟩
    simp [returning, TypeDraft.appendTo, TypeDraft.empty, ← hs]
  · have hcolon : (⟨true, .behind false .empty, s⟩ : SignatureBuilder).feed colon.token l =
        (.quiet, ⟨true, .behind true .empty, s⟩) := by
      simp [feed, feedBehind, colon.admitted]
    have hblank : ∀ t : Token, t.isTrivia = true →
        (⟨true, .behind true .empty, s⟩ : SignatureBuilder).feed t l =
          (.quiet, ⟨true, .behind true .empty, s⟩) :=
      fun t ht => (collects_behind s l).blank s.returnTypes .empty t ht
    obtain ⟨types, type, htypes, hpasses⟩ := h y s hs
    refine ⟨_, true, type, rfl, ?_, rfl,
      (Passes.lexeme colon (by rw [colon.admitted]; rfl) hcolon hblank).append hpasses⟩
    rw [returning, htypes]
    rfl

/-- A signature ends at its last token and not before. -/
theorem Ending.finishes (x : Ending) (l : Levels) {b : SignatureBuilder} {inReturn : Bool}
    {type : TypeDraft} (hb : b.phase = .behind inReturn type) :
    ∃ d, Takes b l x.front d ∧
      d.feed x.final ((l.behind x.front).onto x.final.kind) = (.finished, ⟨true, .finished,
        { b.returning type with
          useText := Text.trimString b.signature.useText
          body := (x.block? l).or b.signature.body }⟩) := by
  cases x with
  | stop t ht =>
    refine ⟨b, .nil _ _, ?_⟩
    rw [final, feed_end _ hb ht, block?, Option.none_or]
    rfl
  | body o c content ho hc paired =>
    have hobracket : o.kind.bracket = some (.curly, .opening) := by rw [ho]; rfl
    have hcbracket : c.kind.bracket = some (.curly, .closing) := by rw [hc]; rfl
    have hdepth : (l.shift 1 .curly).curly = l.curly + 1 := by simp [Levels.curly_shift]
    have hopen := feed_openCurly (l.shift 1 .curly) hb ho
    rw [hdepth] at hopen
    have hcontent : Takes ⟨true, .inBody (l.curly + 1) o, b.returning type⟩ (l.shift 1 .curly)
        content ⟨true, .inBody (l.curly + 1) o, b.returning type⟩ := by
      refine paired.takes (fun t m h => ?_) (Int.le_of_eq hdepth.symm)
      have hclose :
          ¬((decide (t.kind = .closeCurly) && decide (m.curly = l.curly + 1)) = true) := by
        intro hk
        simp only [Bool.and_eq_true, decide_eq_true_eq] at hk
        exact h ⟨by rw [hk.1]; rfl, hk.2⟩
      simp only [feed, feedBody, if_neg hclose]
    refine ⟨_, .quiet (by rw [l.onto_opening hobracket]; exact hopen)
      (l.past_opening hobracket ▸ hcontent), ?_⟩
    have hbehind : ((l.shift 1 .curly).behind content).curly = l.curly + 1 :=
      (paired.depth_behind (l.shift 1 .curly)).trans hdepth
    rw [front, Levels.behind_cons, l.past_opening hobracket, final, Levels.onto_closing hcbracket,
      ← hbehind, feed_closeCurly _ _ _ hc]
    rw [hbehind]
    rfl

/-- Without a body so far the signature has the one that it ends with. -/
theorem Ending.takes (x : Ending) (l : Levels) {b : SignatureBuilder} {inReturn : Bool}
    {type : TypeDraft} (hb : b.phase = .behind inReturn type) (hbody : b.signature.body = none) :
    ∃ d, Takes b l x.front d ∧
      d.feed x.final ((l.behind x.front).onto x.final.kind) = (.finished, ⟨true, .finished,
        { b.returning type with
          useText := Text.trimString b.signature.useText
          body := x.block? l }⟩) := by
  obtain ⟨d, htakes, hfinal⟩ := x.finishes l hb
  rw [hbody, Option.or_none] at hfinal
  exact ⟨d, htakes, hfinal⟩

theorem Signature.kind_eq (x : Written.Signature) :
    x.kind = (x.declarator.announced (x.word.token.kind = .fnWord)).kind := by
  simp only [kind, Declarator.announced, announcement, blank]
  by_cases hword : x.word.token.kind = .fnWord
  · simp [hword, x.unnamed hword]
  · simp [hword]

/-- If everything in front of the end is read the builder is not done there, and done with the
last token. -/
theorem takes_to_end (word : Lexeme fun k => k = .functionWord ∨ k = .fnWord) (ending : Ending)
    {l : Levels} {front behind : List Token} {s : TokenAtlas.Signature}
    {returnTypes : List String} (hne : front ≠ []) (hbody : s.body = none)
    (hfront : Takes (inHeader (blank (word.token.kind = .fnWord))) l front
      ⟨true, .behind false .empty, s⟩)
    (hbehind : ReadsToEnd s (l.behind front) behind returnTypes) :
    ∃ d, Takes (opened word.token) l (word.blanks ++ (front ++ behind) ++ ending.front) d ∧
      d.feed ending.final ((l.behind (word.blanks ++ (front ++ behind) ++ ending.front)).onto
          ending.final.kind) =
        (.finished, ⟨true, .finished, { s with
          returnTypes := returnTypes
          useText := Text.trimString s.useText
          body := ending.block? (l.behind (word.blanks ++ (front ++ behind))) }⟩) := by
  have hblanks := Passes.blanks (b := inHeader (blank (word.token.kind = .fnWord))) (l := l)
    word.trivia fun t ht => feed_inHeader_blank _ l ht
  obtain ⟨b, inReturn, type, hb, hreturning, huse, hreturns⟩ := hbehind
  have hhead : Takes (opened word.token) l (word.blanks ++ (front ++ behind)) b := by
    refine Takes.of_fed (by simp [hne]) (hblanks.takes.append ?_)
    rw [hblanks.levels]
    exact hfront.append hreturns.takes
  have hbody' : b.signature.body = none :=
    (congrArg TokenAtlas.Signature.body hreturning).trans hbody
  obtain ⟨d, hend, hfinal⟩ :=
    ending.takes (l.behind (word.blanks ++ (front ++ behind))) hb hbody'
  refine ⟨d, hhead.append hend, ?_⟩
  rw [Levels.behind_append, hfinal, hreturning, huse]

/-- The builder of a signature is not done in front of the last token, and what it is done
with there is what the signature stands for. -/
theorem Signature.takes (x : Written.Signature) (l : Levels) :
    ∃ d, Takes (opened x.word.token) l (x.head ++ x.ending.front) d ∧
      d.feed x.ending.final ((l.behind (x.head ++ x.ending.front)).onto x.ending.final.kind) =
        (.finished, ⟨true, .finished, x.meaning l⟩) := by
  have hunnamed : decide (x.word.token.kind = .fnWord) = true → x.declarator.name = none :=
    fun h => x.unnamed (of_decide_eq_true h)
  obtain ⟨d, htakes, hfinal⟩ := takes_to_end x.word x.ending
    (by simp [Declarator.tokens, Lexeme.tokens]) rfl (x.declarator.takes l hunnamed)
    (readsToEnd (fun y => y.readsReturns _) x.returns rfl)
  refine ⟨d, htakes, hfinal.trans ?_⟩
  rw [meaning, x.kind_eq]
  rfl

end Written

namespace SignatureBuilder

/-- A builder that takes all tokens in front of the last one, and is done with that one, is fed
them at the levels counted along them. -/
theorem recovers_of_takes (tracker : LevelTracker) {word last : Token} {ts front : List Token}
    {d : SignatureBuilder} {s : TokenAtlas.Signature}
    (hword : word.kind = .functionWord ∨ word.kind = .fnWord) (hts : ts = front ++ [last])
    (htakes : Takes (opened word) tracker.settle.levels front d)
    (hfinal : d.feed last ((tracker.settle.levels.behind front).onto last.kind) =
      (.finished, ⟨true, .finished, s⟩)) :
    let fed := ((word :: ts).zip (tracker.along (word :: ts))).tail
    ((opened word).answers fed).map (·.done) = List.replicate (ts.length - 1) false ++ [true] ∧
      (opened word).after fed = ⟨true, .finished, s⟩ := by
  have hbracket : word.kind.bracket = none := by
    rcases hword with h | h <;> rw [h] <;> rfl
  simp only [LevelTracker.zip_along, Levels.track_cons, List.tail_cons,
    Levels.past_of_bracket_none hbracket]
  rw [hts, htakes.answers_append, htakes.after_append, Levels.track_cons, Levels.track_nil,
    answers_cons, after_cons, hfinal]
  refine ⟨?_, rfl⟩
  rw [List.map_append, htakes.done_answers]
  simp
  rfl

/-- Fed a written signature at the levels counted along it, a builder is done at the last token
and not before, and has what the signature stands for. -/
theorem recovers_written (tracker : LevelTracker) (x : Written.Signature) :
    let levels := tracker.along (x.word.token :: x.tokens)
    let fed := ((x.word.token :: x.tokens).zip levels).tail
    ((opened x.word.token).answers fed).map (·.done) =
        List.replicate (x.tokens.length - 1) false ++ [true] ∧
      (opened x.word.token).after fed =
        ⟨true, .finished, x.meaning tracker.settle.levels⟩ := by
  obtain ⟨d, htakes, hfinal⟩ := x.takes tracker.settle.levels
  have htokens : x.tokens = (x.head ++ x.ending.front) ++ [x.ending.final] := by
    simp [Written.Signature.tokens]
  exact recovers_of_takes tracker x.word.admitted htokens htakes hfinal

/-- `function &f(#[A] ?int|string $x = [1], &...$rest) : int|null`, with a body. -/
def annotated : Written.Signature :=
  let x : Argument := {
    binding :=
      { modifiers := [.skipped
          { opener := .composite ⟨.attributeOpen, "#[", 3, 12⟩ rfl
            content := [⟨.identifier, "A", 3, 14⟩]
            closer := ⟨⟨.closeSquare, "]", 3, 15⟩, [⟨.whitespace, " ", 3, 16⟩], rfl, by decide,
              by decide⟩
            paired := .other nofun .nil
            even := rfl }]
        types := .more
          ⟨some ⟨⟨.question, "?", 3, 17⟩, [], rfl, by decide, isTrivia_of_mem_nil⟩,
            ⟨⟨.identifier, "int", 3, 18⟩, [], rfl, by decide, isTrivia_of_mem_nil⟩⟩
          ⟨⟨.pipe, "|", 3, 21⟩, [], rfl, by decide, isTrivia_of_mem_nil⟩
          (.last ⟨none, ⟨⟨.identifier, "string", 3, 22⟩, [⟨.whitespace, " ", 3, 28⟩], rfl,
            by decide, by decide⟩⟩)
        reference := none
        ellipsis := none
        name := ⟨⟨.variableName, "$x", 3, 29⟩, [⟨.whitespace, " ", 3, 31⟩], rfl, by decide,
          by decide⟩ }
    default := some ⟨⟨.equals, "=", 3, 32⟩,
      [⟨.whitespace, " ", 3, 33⟩, ⟨.openSquare, "[", 3, 34⟩, ⟨.integer, "1", 3, 35⟩,
        ⟨.closeSquare, "]", 3, 36⟩], rfl,
      .token rfl rfl nofun (@Value.group .square _ _ [_] [] rfl rfl rfl (.token rfl rfl .nil)
        .nil)⟩ }
  let rest : Argument := {
    binding :=
      { modifiers := []
        types := .nil
        reference := some ⟨⟨.ampersand, "&", 3, 39⟩, [], rfl, by decide, isTrivia_of_mem_nil⟩
        ellipsis := some ⟨⟨.ellipsis, "...", 3, 40⟩, [], rfl, by decide, isTrivia_of_mem_nil⟩
        name := ⟨⟨.variableName, "$rest", 3, 43⟩, [], rfl, by decide, isTrivia_of_mem_nil⟩ }
    default := none }
  { word := ⟨⟨.functionWord, "function", 3, 0⟩, [⟨.whitespace, " ", 3, 8⟩], .inl rfl, by decide,
      by decide⟩
    declarator :=
      { reference := some ⟨⟨.ampersand, "&", 3, 9⟩, [], rfl, by decide, isTrivia_of_mem_nil⟩
        name := some ⟨⟨.identifier, "f", 3, 10⟩, [], .inl rfl, by decide, isTrivia_of_mem_nil⟩
        opener := ⟨⟨.openParen, "(", 3, 11⟩, [], rfl, by decide, isTrivia_of_mem_nil⟩
        arguments := .more x
          ⟨⟨.comma, ",", 3, 37⟩, [⟨.whitespace, " ", 3, 38⟩], rfl, by decide, by decide⟩
          (.last rest)
        closer := ⟨.closeParen, ")", 3, 48⟩
        use := [⟨.whitespace, " ", 3, 49⟩]
        isCloser := rfl
        isUse := by simp [isUsePart] }
    unnamed := nofun
    returns := some (⟨⟨.colon, ":", 3, 50⟩, [⟨.whitespace, " ", 3, 51⟩], rfl, by decide,
        by decide⟩,
      .more ⟨none, ⟨⟨.identifier, "int", 3, 52⟩, [], rfl, by decide, isTrivia_of_mem_nil⟩⟩
        ⟨⟨.pipe, "|", 3, 55⟩, [], rfl, by decide, isTrivia_of_mem_nil⟩
        (.last ⟨none, ⟨⟨.identifier, "null", 3, 56⟩, [⟨.whitespace, " ", 3, 60⟩], rfl, by decide,
          by decide⟩⟩))
    ending := .body ⟨.openCurly, "\x7b", 3, 61⟩ ⟨.closeCurly, "\x7d", 3, 66⟩
      [⟨.identifier, "g", 3, 62⟩, ⟨.openParen, "(", 3, 63⟩, ⟨.closeParen, ")", 3, 64⟩,
        ⟨.semicolon, ";", 3, 65⟩] rfl rfl
      (.other nofun (.other nofun (.other nofun (.other nofun .nil)))) }

/-- Neither the semicolon in the body nor the brackets of the attribute and the default end it. -/
theorem recovers_written_annotated :
    let ts := annotated.word.token :: annotated.tokens
    let fed := (ts.zip (LevelTracker.start.along ts)).tail
    ((opened annotated.word.token).answers fed).map (·.done) = List.replicate 38 false ++ [true] ∧
      ((opened annotated.word.token).after fed).signature =
        ⟨.named, some "f", true, [⟨["?int", "string"], "$x", some "[1]", false, false⟩,
          ⟨[], "$rest", none, true, true⟩], ["int", "null"], "",
          some ⟨1, ⟨.openCurly, "\x7b", 3, 61⟩, ⟨.closeCurly, "\x7d", 3, 66⟩⟩⟩ := by
  obtain ⟨hdone, hafter⟩ := recovers_written .start annotated
  have hmeaning : annotated.meaning LevelTracker.start.settle.levels =
      ⟨.named, some "f", true, [⟨["?int", "string"], "$x", some "[1]", false, false⟩,
        ⟨[], "$rest", none, true, true⟩], ["int", "null"], "",
        some ⟨1, ⟨.openCurly, "\x7b", 3, 61⟩, ⟨.closeCurly, "\x7d", 3, 66⟩⟩⟩ := by decide
  rw [hmeaning] at hafter
  exact ⟨hdone, congrArg SignatureBuilder.signature hafter⟩

/-- `function f(#[A(] $x);`, with a bracket in the attribute that is not closed there. -/
def unclosed : List Token :=
  [⟨.functionWord, "function", 1, 0⟩, ⟨.whitespace, " ", 1, 8⟩, ⟨.identifier, "f", 1, 9⟩,
    ⟨.openParen, "(", 1, 10⟩, ⟨.attributeOpen, "#[", 1, 11⟩, ⟨.identifier, "A", 1, 13⟩,
    ⟨.openParen, "(", 1, 14⟩, ⟨.closeSquare, "]", 1, 15⟩, ⟨.whitespace, " ", 1, 16⟩,
    ⟨.variableName, "$x", 1, 17⟩, ⟨.closeParen, ")", 1, 19⟩, ⟨.semicolon, ";", 1, 20⟩]

/-- Square brackets that match do not make an attribute harmless: the other brackets in it are
counted as well, and one that is left open hides the end of the parameter list. -/
theorem unclosed_unfinished :
    Paired .square ((unclosed.drop 5).take 2) ∧
      ((opened ⟨.functionWord, "function", 1, 0⟩).answers
        (unclosed.zip (LevelTracker.start.along unclosed)).tail).map (·.done) =
        List.replicate 11 false :=
  ⟨.other nofun (.other (by simp [Kind.bracket]) .nil), by decide⟩

end SignatureBuilder

end TokenAtlas
