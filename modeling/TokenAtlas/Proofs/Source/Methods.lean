import TokenAtlas.Proofs.Source.Recovery

/-! Functions named after reserved words. Main statement: a function with a name and a body is
one product, named by whatever identifier or reserved word stands in front of its list, also
where that word opens a feature elsewhere. The words that open a function are the exception:
such a word begins a function of its own, which has no name and takes the list and the body. -/

namespace TokenAtlas

/-- What a signature has besides its list, its use clause and its return types. -/
def Signature.heading (s : Signature) : FunctionKind × Option String × Option Block :=
  (s.kind, s.name, s.body)

namespace SignatureBuilder

/-- From `b` on, the name being past, the builder has come to `d`, which is named as `b` is. -/
structure Reaches (b d : SignatureBuilder) : Prop where
  phase : d.phase ≠ .opening
  heading : d.signature.heading = b.signature.heading

theorem reaches_feedParameter (b : SignatureBuilder) (parens unified : Int) (d : ParameterDraft)
    (t : Token) (l : Levels) : b.Reaches (b.feedParameter parens unified d t l) := by
  unfold feedParameter
  simp only
  split
  case h_7 | h_8 => split <;> exact ⟨by simp, rfl⟩
  all_goals exact ⟨by simp, rfl⟩

theorem reaches_feedList (b : SignatureBuilder) (parens unified : Int) (d : ParameterDraft)
    (t : Token) (l : Levels) : b.Reaches (b.feedList parens unified d t l) := by
  unfold feedList
  split
  · exact ⟨by simp, rfl⟩
  · split
    · split <;> exact ⟨by simp, rfl⟩
    · exact reaches_feedParameter b parens unified d t l

theorem reaches_feedParameters (b : SignatureBuilder) (parens unified : Int) (d : ParameterDraft)
    (t : Token) (l : Levels) : b.Reaches (b.feedParameters parens unified d t l) := by
  unfold feedParameters
  split
  · split <;> exact ⟨by simp, rfl⟩
  · split
    · exact ⟨by simp, rfl⟩
    · split
      · exact ⟨by simp, rfl⟩
      · split
        · exact ⟨by simp, rfl⟩
        · exact reaches_feedList b parens unified _ t l

theorem reaches_feedBehind {b : SignatureBuilder} (hb : b.phase ≠ .opening) (inReturn : Bool)
    (type : TypeDraft) (t : Token) (l : Levels) :
    b.Reaches (b.feedBehind inReturn type t l).2 := by
  unfold feedBehind
  simp only
  split
  case h_5 =>
    split
    · split
      case h_3 => split <;> exact ⟨by first | exact hb | simp, rfl⟩
      all_goals exact ⟨by simp, rfl⟩
    · exact ⟨hb, rfl⟩
  all_goals exact ⟨by simp [close], rfl⟩

/-- Behind its name a function that is not complete yet is named as before. -/
theorem reaches_feed {b : SignatureBuilder} (hb : b.phase ≠ .opening) {t : Token} {l : Levels}
    (hdone : (b.feed t l).1.done = false) : b.Reaches (b.feed t l).2 := by
  obtain ⟨fed, phase, signature⟩ := b
  cases phase with
  | opening => exact absurd rfl hb
  | parameters parens unified d =>
    have h := reaches_feedParameters ⟨true, .parameters parens unified d, signature⟩ parens unified
      d t l
    exact ⟨h.phase, h.heading⟩
  | behind inReturn type =>
    have hphase : SignaturePhase.behind inReturn type ≠ .opening := by simp
    have h := @reaches_feedBehind ⟨true, .behind inReturn type, signature⟩ hphase inReturn type t l
    exact ⟨h.phase, h.heading⟩
  | inBody depth opener =>
    simp only [feed, feedBody] at hdone ⊢
    split at hdone
    · simp [Feed.finished] at hdone
    · next h =>
      rw [if_neg h]
      exact ⟨by simp, rfl⟩
  | finished => exact ⟨by simp [feed], rfl⟩

theorem Takes.reaches {b d : SignatureBuilder} {l : Levels} {ts : List Token}
    (h : Takes b l ts d) (hb : b.phase ≠ .opening) : b.Reaches d := by
  induction h with
  | nil => exact ⟨hb, rfl⟩
  | @step b c d l t rest hint hfeed _ ih =>
    have hfed := reaches_feed (t := t) (l := l.onto t.kind) hb (by rw [hfeed])
    rw [hfeed] at hfed
    have hrest := ih hfed.phase
    exact ⟨hrest.phase, hrest.heading.trans hfed.heading⟩

/-! ### In front of the list -/

theorem feed_opening_blank {b : SignatureBuilder} {t : Token} (l : Levels)
    (hb : b.phase = .opening) (ht : t.isTrivia = true ∨ t.kind = .ampersand) :
    ∃ c, b.feed t l = (.quiet, c) ∧ c.phase = .opening ∧
      c.signature.heading = b.signature.heading := by
  rcases ht with ht | ht
  · rcases hk : t.kind <;> simp [Token.isTrivia, Kind.isTrivia, hk] at ht <;>
      exact ⟨{ b with fed := true }, by simp [feed, hb, feedOpening, hk, Kind.isKeyword], hb, rfl⟩
  · exact ⟨{ b with fed := true, signature := { b.signature with hasReference := true } },
      by simp [feed, hb, feedOpening, ht], hb, rfl⟩

/-- Trivia and ampersands leave the builder in front of the list. -/
theorem takes_blanks {b : SignatureBuilder} (l : Levels) (hb : b.phase = .opening)
    {ts : List Token} (h : ∀ t ∈ ts, t.isTrivia = true ∨ t.kind = .ampersand) :
    ∃ d, b.Takes l ts d ∧ d.phase = .opening ∧ d.signature.heading = b.signature.heading := by
  induction ts generalizing b l with
  | nil => exact ⟨b, .nil b l, hb, rfl⟩
  | cons t ts ih =>
    obtain ⟨c, hfeed, hc, hheading⟩ :=
      feed_opening_blank (l.onto t.kind) hb (h t List.mem_cons_self)
    obtain ⟨d, htakes, hd, hrest⟩ :=
      ih (l.past t.kind) hc fun u hu => h u (List.mem_cons_of_mem _ hu)
    exact ⟨d, .quiet hfeed htakes, hd, hrest.trans hheading⟩

/-- The first name counts, except for an arrow function. -/
theorem feed_opening_name {b : SignatureBuilder} {t : Token} (l : Levels)
    (hb : b.phase = .opening) (hname : b.signature.name = none) (hkind : b.signature.kind ≠ .arrow)
    (ht : t.kind = .identifier ∨ t.kind.isKeyword = true) :
    b.feed t l = (⟨false, some (.ofCategory .functionName), []⟩,
      inHeader { b.signature with name := some t.text, kind := .named }) := by
  have hfed : b.feed t l = (inHeader b.signature).feed t l := by simp [feed, hb, inHeader]
  rw [hfed, feed_inHeader_name b.signature l hname hkind ht]

theorem reaches_openParen {b : SignatureBuilder} {t : Token} (hb : b.phase = .opening)
    (ht : t.kind = .openParen) (l : Levels) : b.Reaches (b.feed t l).2 := by
  constructor <;> simp [feed, hb, feedOpening, ht, Signature.heading]

end SignatureBuilder

namespace Written

/-- What stands behind the name of a function: a parameter list and a body, in which no feature
begins. -/
structure ListAndBody where
  blanks : List Token
  opener : Token
  list : List Token
  closer : Token
  behind : List Token
  bodyOpener : Token
  body : List Token
  bodyCloser : Token
  isBlank : ∀ t ∈ blanks, t.isTrivia = true
  listed : Signature.Listed opener closer list behind
  isBodyOpener : bodyOpener.kind = .openCurly
  isBody : Paired .curly body
  isPlain : ∀ t ∈ body, Feature.ofOpener t.kind = none
  isBodyCloser : bodyCloser.kind = .closeCurly

namespace ListAndBody

/-- The tokens in front of the last one. -/
def front (x : ListAndBody) : List Token :=
  x.blanks ++ ((x.opener :: (x.list ++ x.closer :: x.behind)) ++ x.bodyOpener :: x.body)

def ending (x : ListAndBody) : Ending :=
  .body x.bodyOpener x.bodyCloser x.body x.isBodyOpener x.isBodyCloser x.isBody

theorem behind_blanks (x : ListAndBody) (l : Levels) : l.behind x.blanks = l :=
  l.behind_of_plain fun t ht => Kind.bracket_of_isTrivia (x.isBlank t ht)

theorem parts (x : ListAndBody) : ∀ t ∈ x.front, t.kind.isSignaturePart = true := by
  intro t ht
  rcases List.mem_append.1 ht with ht | ht
  · exact Kind.isSignaturePart_of_isTrivia (x.isBlank t ht)
  · rcases List.mem_append.1 ht with ht | ht
    · exact x.listed.parts t ht
    · rcases List.mem_cons.1 ht with rfl | ht
      · rw [x.isBodyOpener]
        rfl
      · exact Kind.isSignaturePart_of_isListPart (by simp [Kind.isListPart, x.isPlain t ht])

/-- The function is complete at the bracket that closes its body, and named as it was in front
of its list. -/
theorem takes (x : ListAndBody) (l : Levels) {b : SignatureBuilder} (hb : b.phase = .opening)
    (hbody : b.signature.body = none) :
    ∃ d s, b.Takes l x.front d ∧
      d.feed x.bodyCloser ((l.behind x.front).onto x.bodyCloser.kind) =
        (.finished, ⟨true, .finished, s⟩) ∧
      s.heading = (b.signature.kind, b.signature.name,
        some ⟨l.curly + 1, x.bodyOpener, x.bodyCloser⟩) := by
  obtain ⟨b₁, htakes₁, hb₁, hheading₁⟩ :=
    SignatureBuilder.takes_blanks l hb fun t ht => .inl (x.isBlank t ht)
  obtain ⟨b₂, inReturn, type, htakes₂, hb₂⟩ := x.listed.takes l hb₁
  have hheading₂ : b₂.signature.heading = b₁.signature.heading := by
    cases htakes₂ with
    | step hfeed hrest =>
      have hopener := SignatureBuilder.reaches_openParen hb₁ x.listed.isOpener
        (l.onto x.opener.kind)
      rw [hfeed] at hopener
      exact (hrest.reaches hopener.phase).heading.trans hopener.heading
  have hheading := hheading₂.trans hheading₁
  simp only [Signature.heading, Prod.mk.injEq] at hheading
  obtain ⟨hkind, hname, hbody₂⟩ := hheading
  obtain ⟨d, htakes₃, hfeed⟩ := x.ending.takes l hb₂ (hbody₂.trans hbody)
  have hlevels : l.behind x.front = l.behind x.ending.front := by
    rw [front, Levels.behind_append, x.behind_blanks, Levels.behind_append,
      x.listed.levels_behind]
    rfl
  rw [← hlevels] at hfeed
  refine ⟨d, _, htakes₁.append ?_, hfeed, ?_⟩
  · rw [x.behind_blanks]
    refine htakes₂.append ?_
    rw [x.listed.levels_behind]
    exact htakes₃
  · rw [Signature.heading, ← hkind, ← hname]
    rfl

end ListAndBody

/-- A function that is written with a name of its own and a body. -/
structure Method where
  word : Lexeme (· = .functionWord)
  reference : Option (Lexeme (· = .ampersand))
  name : Token
  isName : name.kind = .identifier ∨ name.kind.isKeyword = true
  rest : ListAndBody

namespace Method

/-- The tokens between the opening word and the name. -/
def announcement (x : Method) : List Token := x.word.blanks ++ Lexeme.tokens? x.reference

/-- The tokens in front of the last one. -/
def front (x : Method) : List Token :=
  (x.word.token :: x.announcement) ++ (x.name :: x.rest.front)

def tokens (x : Method) : List Token := x.front ++ [x.rest.bodyCloser]

theorem announcement_blank (x : Method) :
    ∀ t ∈ x.announcement, t.isTrivia = true ∨ t.kind = .ampersand := by
  intro t ht
  rcases List.mem_append.1 ht with ht | ht
  · exact .inl (x.word.trivia t ht)
  · rcases hreference : x.reference with _ | reference
    · simp [hreference, Lexeme.tokens?] at ht
    · simp only [hreference, Lexeme.tokens?, Option.map_some, Option.getD_some] at ht
      rcases List.mem_cons.1 ht with rfl | ht
      · exact .inr reference.admitted
      · exact .inl (reference.trivia t ht)

theorem behind_announcement (x : Method) (l : Levels) : l.behind x.announcement = l :=
  l.behind_of_plain fun t ht => by
    rcases x.announcement_blank t ht with h | h
    · exact Kind.bracket_of_isTrivia h
    · rw [h]
      rfl

theorem bracket_name (x : Method) : x.name.kind.bracket = none := by
  rcases x.isName with h | h
  · rw [h]
    rfl
  · exact Kind.bracket_of_isKeyword h

end Method

end Written

/-! ### At a site -/

namespace Site

/-- Behind its name a function is read up to its end. -/
theorem yields_listAndBody (x : Written.ListAndBody) (l : Levels) {b : SignatureBuilder}
    (hb : b.phase = .opening) (hbody : b.signature.body = none) (below : List Builder) :
    ∃ s, Yields (reading l b below)
        (x.front.map (·, []) ++ [(x.bodyCloser, [.functionSignature s])])
        ⟨l.behind (x.front ++ [x.bodyCloser]), ⟨below, none⟩⟩ ∧
      s.heading = (b.signature.kind, b.signature.name,
        some ⟨l.curly + 1, x.bodyOpener, x.bodyCloser⟩) := by
  obtain ⟨d, s, htakes, hfeed, hs⟩ := x.takes l hb hbody
  have hend := next_signature_end below (by rw [x.isBodyCloser]; rfl) hfeed rfl
  refine ⟨s, (quiet_of_takes htakes below x.parts).yields.append (.step hend ?_), hs⟩
  rw [Levels.behind_append]
  exact .nil _

/-- Up to its name a function is open without one. -/
theorem quiet_announcement (x : Written.Method) (l : Levels) :
    ∃ b, Quiet ⟨l, .empty⟩ (x.word.token :: x.announcement) (reading l b []) ∧
      b.phase = .opening ∧ b.signature.heading = (.anonymous, none, none) := by
  have hopener : Feature.ofOpener x.word.token.kind = some .functionSignature := by
    rw [x.word.admitted]
    rfl
  have hbracket : x.word.token.kind.bracket = none := by
    rw [x.word.admitted]
    rfl
  have hopened : (SignatureBuilder.opened x.word.token).signature.heading =
      (.anonymous, none, none) := by
    rw [SignatureBuilder.opened, x.word.admitted]
    rfl
  obtain ⟨b, htakes, hb, hheading⟩ := SignatureBuilder.takes_blanks l
    (b := .opened x.word.token) rfl x.announcement_blank
  have hroom : ([] : List Builder).length < Limits.nesting := by decide
  have hnext := next_yes (l := l) hopener rfl hroom
  rw [Levels.past_of_bracket_none hbracket] at hnext
  have hquiet := quiet_of_takes htakes [] fun t ht => by
    rcases x.announcement_blank t ht with h | h
    · exact Kind.isSignaturePart_of_isTrivia h
    · rw [h]
      rfl
  rw [x.behind_announcement] at hquiet
  exact ⟨b, .step hnext hquiet, hb, hheading.trans hopened⟩

end Site

namespace Written.Method

/-- The tokens, the last one with what is complete there. -/
def marked (x : Method) (s : TokenAtlas.Signature) : List (Token × List Product) :=
  x.front.map (·, []) ++ [(x.rest.bodyCloser, [.functionSignature s])]

/-- Behind the word or the name a function with a name of its own is complete at its last
token. -/
theorem yields_of_name (x : Method) {l : Levels} {b c : SignatureBuilder} {below : List Builder}
    (hquiet : Site.Quiet ⟨l, .empty⟩ (x.word.token :: x.announcement) (.reading l b []))
    (hname : (Site.reading l b []).Moves x.name [] [] (.reading l c below))
    (hc : c.phase = .opening) (hbody : c.signature.body = none) :
    ∃ s d, Site.Yields ⟨l, .empty⟩ (x.marked s) ⟨d, ⟨below, none⟩⟩ ∧
      s.heading = (c.signature.kind, c.signature.name,
        some ⟨l.curly + 1, x.rest.bodyOpener, x.rest.bodyCloser⟩) := by
  obtain ⟨s, hyields, hs⟩ := Site.yields_listAndBody x.rest l hc hbody below
  refine ⟨s, l.behind (x.rest.front ++ [x.rest.bodyCloser]), ?_, hs⟩
  have hmarked := hquiet.yields.append (.step hname hyields)
  simpa [marked, front] using hmarked

/-- A function has its name, unless that is a word that opens a function. -/
theorem yields_named (x : Method) (l : Levels)
    (hopener : Feature.ofOpener x.name.kind ≠ some .functionSignature) :
    ∃ s d, Site.Yields ⟨l, .empty⟩ (x.marked s) ⟨d, .empty⟩ ∧
      s.heading = (.named, some x.name.text,
        some ⟨l.curly + 1, x.rest.bodyOpener, x.rest.bodyCloser⟩) := by
  obtain ⟨b, hquiet, hb, hheading⟩ := Site.quiet_announcement x l
  simp only [Signature.heading, Prod.mk.injEq] at hheading
  obtain ⟨hkind, hnone, hbody⟩ := hheading
  have hfeed := SignatureBuilder.feed_opening_name (l.onto x.name.kind) hb hnone
    (by rw [hkind]; simp) x.isName
  have hnext := Site.next_reading [] hopener hfeed
  rw [Levels.past_of_bracket_none x.bracket_name] at hnext
  exact x.yields_of_name hquiet hnext rfl hbody

/-- A word that opens a function begins another one, which takes the list and the body. -/
theorem yields_nested (x : Method) (l : Levels)
    (hopener : Feature.ofOpener x.name.kind = some .functionSignature) :
    ∃ s d b, Site.Yields ⟨l, .empty⟩ (x.marked s) ⟨d, ⟨[.functionSignature b], none⟩⟩ ∧
      s.heading = ((SignatureBuilder.opened x.name).signature.kind, none,
        some ⟨l.curly + 1, x.rest.bodyOpener, x.rest.bodyCloser⟩) ∧
      b.phase = .opening ∧ b.signature.name = none := by
  obtain ⟨b, hquiet, hb, hheading⟩ := Site.quiet_announcement x l
  simp only [Signature.heading, Prod.mk.injEq] at hheading
  obtain ⟨-, hnone, -⟩ := hheading
  have hroom : [Builder.functionSignature b].length < Limits.nesting := by
    rw [List.length_singleton]
    decide
  have hnext := Site.next_yes (l := l) hopener rfl hroom
  rw [Levels.past_of_bracket_none x.bracket_name] at hnext
  obtain ⟨s, d, hyields, hs⟩ := x.yields_of_name (c := .opened x.name) hquiet hnext rfl rfl
  exact ⟨s, d, b, hyields, hs, hb, hnone⟩

theorem map_fst_marked (x : Method) (s : TokenAtlas.Signature) :
    (x.marked s).map Prod.fst = x.tokens := by
  simp [marked, tokens, Function.comp_def]

theorem map_snd_marked (x : Method) (s : TokenAtlas.Signature) :
    (x.marked s).map Prod.snd =
      List.replicate x.front.length [] ++ [[.functionSignature s]] := by
  simp [marked, Function.comp_def, List.map_const']

end Written.Method

/-- A function with a name and a body is one product, complete at the end of the body. It has
its name, and no feature is left open, unless the name is a word that opens a function. In that
case the list and the body belong to a nameless function, inside one that is left open. -/
theorem Course.method_named (tracker : LevelTracker) (x : Written.Method) :
    ∃ s : Signature,
      ((⟨tracker, .empty⟩ : Course).steps (x.tokens.map (·, true))).map (·.products) =
        List.replicate x.front.length [] ++ [[.functionSignature s]] ∧
      s.body = some ⟨tracker.settle.levels.curly + 1, x.rest.bodyOpener, x.rest.bodyCloser⟩ ∧
      (Feature.ofOpener x.name.kind ≠ some .functionSignature →
        s.kind = .named ∧ s.name = some x.name.text ∧
        ((⟨tracker, .empty⟩ : Course).after (x.tokens.map (·, true))).stack = .empty) ∧
      (Feature.ofOpener x.name.kind = some .functionSignature →
        s.kind ≠ .named ∧ s.name = none ∧ ∃ b : SignatureBuilder,
          ((⟨tracker, .empty⟩ : Course).after (x.tokens.map (·, true))).stack =
            ⟨[.functionSignature b], none⟩ ∧ b.phase = .opening ∧ b.signature.name = none) := by
  by_cases hopener : Feature.ofOpener x.name.kind = some .functionSignature
  · obtain ⟨s, d, b, hyields, hs, hb, hname⟩ := x.yields_nested tracker.settle.levels hopener
    obtain ⟨hproducts, hsite⟩ :=
      products_of_yields (c := ⟨tracker, .empty⟩) hyields (x.map_fst_marked s)
    rw [x.map_snd_marked] at hproducts
    simp only [Signature.heading, Prod.mk.injEq] at hs
    refine ⟨s, hproducts, hs.2.2, fun h => absurd hopener h,
      fun _ => ⟨?_, hs.2.1, b, ?_, hb, hname⟩⟩
    · rw [hs.1]
      simp only [SignatureBuilder.opened, SignatureBuilder.fresh]
      split <;> simp
    · exact congrArg Site.stack hsite
  · obtain ⟨s, d, hyields, hs⟩ := x.yields_named tracker.settle.levels hopener
    obtain ⟨hproducts, hsite⟩ :=
      products_of_yields (c := ⟨tracker, .empty⟩) hyields (x.map_fst_marked s)
    rw [x.map_snd_marked] at hproducts
    simp only [Signature.heading, Prod.mk.injEq] at hs
    exact ⟨s, hproducts, hs.2.2, fun _ => ⟨hs.1, hs.2.1, congrArg Site.stack hsite⟩,
      fun h => absurd h hopener⟩

/-- `function namespace(A $x) {g();}`. -/
def namespaceMethod : Written.Method where
  word := ⟨⟨.functionWord, "function", 4, 0⟩, [⟨.whitespace, " ", 4, 8⟩], rfl, by decide, by decide⟩
  reference := none
  name := ⟨.namespaceWord, "namespace", 4, 9⟩
  isName := .inr rfl
  rest :=
    { blanks := []
      opener := ⟨.openParen, "(", 4, 18⟩
      list := [⟨.identifier, "A", 4, 19⟩, ⟨.whitespace, " ", 4, 20⟩, ⟨.variableName, "$x", 4, 21⟩]
      closer := ⟨.closeParen, ")", 4, 23⟩
      behind := [⟨.whitespace, " ", 4, 24⟩]
      bodyOpener := ⟨.openCurly, "\x7b", 4, 25⟩
      body := [⟨.identifier, "g", 4, 26⟩, ⟨.openParen, "(", 4, 27⟩, ⟨.closeParen, ")", 4, 28⟩,
        ⟨.semicolon, ";", 4, 29⟩]
      bodyCloser := ⟨.closeCurly, "\x7d", 4, 30⟩
      isBlank := Written.isTrivia_of_mem_nil
      listed := ⟨rfl, .token rfl rfl (.token rfl rfl (.token rfl rfl .nil)), rfl,
        .token rfl rfl .nil⟩
      isBodyOpener := rfl
      isBody := .other nofun (.other nofun (.other nofun (.other nofun .nil)))
      isPlain := by decide
      isBodyCloser := rfl }

/-- A word that opens another feature is a name. -/
theorem Course.method_named_namespaceMethod :
    ∃ s : Signature,
      (Course.start.steps (namespaceMethod.tokens.map (·, true))).map (·.products) =
        List.replicate 14 [] ++ [[.functionSignature s]] ∧
      s.kind = .named ∧ s.name = some "namespace" ∧
      s.body = some ⟨1, ⟨.openCurly, "\x7b", 4, 25⟩, ⟨.closeCurly, "\x7d", 4, 30⟩⟩ ∧
      (Course.start.after (namespaceMethod.tokens.map (·, true))).stack = .empty := by
  obtain ⟨s, hproducts, hbody, hnamed, -⟩ := Course.method_named .start namespaceMethod
  obtain ⟨hkind, hname, hstack⟩ := hnamed (by decide)
  exact ⟨s, hproducts, hkind, hname, hbody, hstack⟩

/-- A function with an empty list and an empty body. -/
def functionNamed (name : Token) : List Token :=
  [⟨.functionWord, "function", 1, 0⟩, ⟨.whitespace, " ", 1, 8⟩, name,
    ⟨.openParen, "(", 1, name.endOffset⟩, ⟨.closeParen, ")", 1, name.endOffset + 1⟩,
    ⟨.openCurly, "\x7b", 1, name.endOffset + 2⟩, ⟨.closeCurly, "\x7d", 1, name.endOffset + 3⟩]

/-- A word that opens a function is no name of one, though it is reserved as others are. -/
theorem function_named_function_nameless :
    Kind.functionWord.isKeyword = true ∧
      ((⟨.start, .empty⟩ : Course).steps ((functionNamed ⟨.functionWord, "function", 1, 9⟩).map
        (·, true))).map (·.products) =
        List.replicate 6 [] ++ [[.functionSignature ⟨.anonymous, none, false, [], [], "",
          some ⟨1, ⟨.openCurly, "\x7b", 1, 19⟩, ⟨.closeCurly, "\x7d", 1, 20⟩⟩⟩]] ∧
      ((⟨.start, .empty⟩ : Course).after ((functionNamed ⟨.functionWord, "function", 1, 9⟩).map
        (·, true))).stack.depth = 1 := by
  decide

end TokenAtlas
