import TokenAtlas.Proofs.Source.Reading
import TokenAtlas.Proofs.Source.Written

/-! Parameter lists are recovered from their tokens. Behind each part of a parameter the builder
is in a state that the part determines, with the levels that held in front of it. Main
statement: behind a list the signature has its parameters, the last of them in a draft. -/

namespace TokenAtlas

namespace SignatureBuilder

/-- The builder takes the tokens without coming to an end, and they leave the levels as they
were. -/
structure Passes (b : SignatureBuilder) (l : Levels) (ts : List Token) (d : SignatureBuilder) :
    Prop where
  takes : Takes b l ts d
  levels : l.behind ts = l

namespace Passes

variable {b c d : SignatureBuilder} {l : Levels} {as bs ts : List Token}

theorem nil (b : SignatureBuilder) (l : Levels) : Passes b l [] b := ⟨.nil b l, rfl⟩

theorem append (ha : Passes b l as c) (hb : Passes c l bs d) : Passes b l (as ++ bs) d where
  takes := ha.takes.append (ha.levels.symm ▸ hb.takes)
  levels := by rw [Levels.behind_append, ha.levels, hb.levels]

theorem cons {t : Token} {hint : Option Hint} (hplain : t.kind.bracket = none)
    (hfeed : b.feed t l = (⟨false, hint, []⟩, c)) (hrest : Passes c l ts d) :
    Passes b l (t :: ts) d where
  takes := by
    rw [← Levels.onto_of_bracket_none hplain l] at hfeed
    refine .step hfeed ?_
    rw [Levels.past_of_bracket_none hplain]
    exact hrest.takes
  levels := by rw [Levels.behind_cons, Levels.past_of_bracket_none hplain, hrest.levels]

theorem blanks (h : ∀ t ∈ ts, t.isTrivia = true)
    (hblank : ∀ t : Token, t.isTrivia = true → b.feed t l = (.quiet, b)) : Passes b l ts b := by
  induction ts with
  | nil => exact .nil b l
  | cons t ts ih =>
    have ht := h t List.mem_cons_self
    exact .cons (Kind.bracket_of_isTrivia ht) (hblank t ht)
      (ih fun u hu => h u (List.mem_cons_of_mem _ hu))

/-- A group in brackets, at whose ends the builder sees the levels inside it. -/
theorem enclosed {family : Family} {o e : Token} {b' d' : SignatureBuilder}
    (ho : o.kind.bracket = some (family, .opening)) (he : e.kind.bracket = some (family, .closing))
    (hopen : b.feed o (l.shift 1 family) = (.quiet, b'))
    (hinner : Passes b' (l.shift 1 family) ts d')
    (hclose : d'.feed e (l.shift 1 family) = (.quiet, d)) : Passes b l (o :: (ts ++ [e])) d where
  takes := by
    refine .quiet (by rw [l.onto_opening ho]; exact hopen) ?_
    rw [l.past_opening ho]
    refine hinner.takes.append ?_
    rw [hinner.levels]
    exact .quiet (by rw [Levels.onto_closing he]; exact hclose) (.nil _ _)
  levels := by
    rw [Levels.behind_cons, l.past_opening ho, Levels.behind_append, hinner.levels,
      Levels.behind_cons, Levels.past_closing he, Levels.behind_nil]

theorem lexeme {part : Kind → Prop} (x : Written.Lexeme part) {hint : Option Hint}
    (hplain : x.token.kind.bracket = none)
    (hfeed : b.feed x.token l = (⟨false, hint, []⟩, c))
    (hblank : ∀ t : Token, t.isTrivia = true → c.feed t l = (.quiet, c)) :
    Passes b l x.tokens c :=
  .cons hplain hfeed (.blanks x.trivia hblank)

end Passes

end SignatureBuilder

namespace Paired

variable {family : Family} {ts : List Token}

/-- A builder that waits for a bracket to close takes no notice of what is matched above the
depth of that bracket. -/
theorem takes (h : Paired family ts) {b : SignatureBuilder} {depth : Int}
    (hpass : ∀ (t : Token) (l : Levels),
      ¬(t.kind.bracket = some (family, .closing) ∧ l.depth family = depth) →
      b.feed t l = (.quiet, b)) {l : Levels} (hl : depth ≤ l.depth family) : b.Takes l ts b := by
  induction h generalizing l with
  | nil => exact .nil b l
  | @other t rest ht _ ih =>
    exact .quiet (hpass t _ fun hk => ht _ hk.1) (ih (by rwa [Levels.depth_past_of_ne ht]))
  | @group o c inner rest ho hc hinner _ ihinner ihrest =>
    have hdepth := l.depth_shift_self 1 family
    have hbehind := hinner.depth_behind (l.shift 1 family)
    refine .quiet (hpass o _ fun hk => by simp [ho] at hk) ?_
    rw [l.past_opening ho]
    refine (ihinner (by omega)).append (.quiet (hpass c _ ?_) (ihrest ?_))
    · rintro ⟨-, heq⟩
      rw [Levels.onto_closing hc] at heq
      omega
    · rw [Levels.depth_past_closing hc]
      omega

end Paired

open Written SignatureBuilder

/-! ### Types -/

/-- The builder `K types type` has closed some types and is reading another one. -/
structure Collects (l : Levels) (K : List String → TypeDraft → SignatureBuilder) : Prop where
  question : ∀ types type {t : Token}, t.kind = .question →
    (K types type).feed t l = (.quiet, K types { type with nullable := true })
  part : ∀ types type {t : Token}, t.kind.isTypePart = true →
    (K types type).feed t l = (.quiet, K types (type.push t.text))
  pipe : ∀ types type {t : Token}, t.kind = .pipe →
    (K types type).feed t l = (.quiet, K (type.appendTo types) .empty)
  blank : ∀ types type (t : Token), t.isTrivia = true →
    (K types type).feed t l = (.quiet, K types type)

namespace Written

theorem TypeTerm.passes {l : Levels} {K : List String → TypeDraft → SignatureBuilder}
    (h : Collects l K) (x : TypeTerm) (types : List String) :
    Passes (K types .empty) l x.tokens (K types ⟨x.text, false⟩) := by
  obtain ⟨question, name⟩ := x
  have hbracket : name.token.kind.bracket = none := Kind.bracket_of_isTypePart name.admitted
  cases question with
  | none =>
    have hname := h.part types .empty name.admitted
    have hpush : TypeDraft.empty.push name.token.text = ⟨name.token.text, false⟩ := by
      simp [TypeDraft.push, TypeDraft.empty]
    rw [hpush] at hname
    exact .lexeme name hbracket hname (h.blank _ _)
  | some question =>
    have hname := h.part types ⟨"", true⟩ name.admitted
    have hpush : TypeDraft.push ⟨"", true⟩ name.token.text = ⟨"?" ++ name.token.text, false⟩ := rfl
    rw [hpush] at hname
    exact (Passes.lexeme question (by rw [question.admitted]; rfl)
      (h.question types .empty question.admitted) (h.blank _ _)).append
      (.lexeme name hbracket hname (h.blank _ _))

theorem TypeTerm.text_ne_empty (x : TypeTerm) : x.text ≠ "" := by
  unfold text
  split
  · simp
  · exact x.name.nonempty

theorem TypeTerm.appendTo_text (x : TypeTerm) (types : List String) :
    TypeDraft.appendTo ⟨x.text, false⟩ types = types ++ [x.text] := if_neg x.text_ne_empty

/-- Behind a list of types the one that was read last may not be closed yet. -/
theorem TypeList.passes {l : Levels} {K : List String → TypeDraft → SignatureBuilder}
    (h : Collects l K) (x : TypeList) (types : List String) :
    ∃ types' type, type.appendTo types' = types ++ x.texts ∧
      Passes (K types .empty) l x.tokens (K types' type) := by
  induction x generalizing types with
  | nil => exact ⟨types, .empty, by simp [TypeDraft.appendTo, TypeDraft.empty, texts], .nil _ _⟩
  | last term => exact ⟨types, _, term.appendTo_text types, term.passes h types⟩
  | more term bar rest ih =>
    have hbar := h.pipe types ⟨term.text, false⟩ bar.admitted
    rw [term.appendTo_text] at hbar
    obtain ⟨types', type, htypes, hrest⟩ := ih (types ++ [term.text])
    rw [List.append_assoc] at htypes
    exact ⟨types', type, htypes, (term.passes h types).append
      ((Passes.lexeme bar (by rw [bar.admitted]; rfl) hbar (h.blank _ _)).append hrest)⟩

end Written

/-! ### Parameters -/

namespace SignatureBuilder

/-- A builder in a parameter list whose own levels are `l`, outside attributes. -/
def inList (l : Levels) (p : Parameter) (type : TypeDraft) (default : Option String)
    (s : TokenAtlas.Signature) : SignatureBuilder :=
  ⟨true, .parameters l.parens l.unified ⟨p, type, default, false, none⟩, s⟩

/-- A builder in an attribute, which closes at the square depth `depth`. -/
def inAttribute (l : Levels) (p : Parameter) (type : TypeDraft) (s : TokenAtlas.Signature)
    (depth : Int) : SignatureBuilder :=
  ⟨true, .parameters l.parens l.unified ⟨p, type, none, false, some depth⟩, s⟩

variable (l : Levels) (p : Parameter) (type : TypeDraft) (s : TokenAtlas.Signature) {t : Token}
  (m : Levels)

/-- Trivia and modifiers count for nothing. -/
theorem feed_inList_passed (ht : t.isTrivia = true ∨ t.kind = .keyword) :
    (inList l p type none s).feed t m = (.quiet, inList l p type none s) := by
  rcases hk : t.kind <;>
    simp_all [Token.isTrivia, Kind.isTrivia, inList, feed, feedParameters, feedList, feedParameter,
      Kind.isTypePart, Kind.isName, Kind.isNameSegment]

theorem feed_inList_typePart (hp : p.name = "") (ht : t.kind.isTypePart = true) :
    (inList l p type none s).feed t m = (.quiet, inList l p (type.push t.text) none s) := by
  rcases hk : t.kind <;>
    simp_all [inList, feed, feedParameters, feedList, feedParameter, Kind.isTypePart, Kind.isName,
      Kind.isNameSegment]

theorem feed_inList_question (ht : t.kind = .question) :
    (inList l p type none s).feed t m =
      (.quiet, inList l p { type with nullable := true } none s) := by
  simp [inList, feed, feedParameters, feedList, feedParameter, ht]

theorem feed_inList_pipe (ht : t.kind = .pipe) :
    (inList l p type none s).feed t m =
      (.quiet, inList l { p with types := type.appendTo p.types } .empty none s) := by
  simp [inList, feed, feedParameters, feedList, feedParameter, ht, ParameterDraft.closeType]

theorem feed_inList_ampersand (ht : t.kind = .ampersand) :
    (inList l p type none s).feed t m = (.quiet,
      inList l { p with byReference := true } type none { s with hasReference := true }) := by
  simp [inList, feed, feedParameters, feedList, feedParameter, ht]

theorem feed_inList_ellipsis (ht : t.kind = .ellipsis) :
    (inList l p type none s).feed t m =
      (.quiet, inList l { p with variadic := true } type none s) := by
  simp [inList, feed, feedParameters, feedList, feedParameter, ht]

theorem feed_inList_variable (ht : t.kind = .variableName) :
    (inList l p type none s).feed t m = (.quiet,
      inList l { p with types := type.appendTo p.types, name := t.text } .empty none s) := by
  simp [inList, feed, feedParameters, feedList, feedParameter, ht, ParameterDraft.closeType]

theorem feed_inList_equals (ht : t.kind = .equals) :
    (inList l p type none s).feed t m = (.quiet, inList l p type (some "") s) := by
  simp [inList, feed, feedParameters, feedList, feedParameter, ht]

/-- A parameter in the list reads its types in front of its name. -/
theorem collects_inList (hp : p.name = "") :
    Collects m fun types type => inList l { p with types } type none s where
  question _ _ _ := feed_inList_question l _ _ s m
  part _ _ _ := feed_inList_typePart l _ _ s m hp
  pipe _ _ _ := feed_inList_pipe l _ _ s m
  blank _ _ _ ht := feed_inList_passed l _ _ s m (.inl ht)

/-- In an attribute only the bracket that closes it counts. -/
theorem feed_inAttribute (depth : Int)
    (h : ¬(t.kind.bracket = some (.square, .closing) ∧ m.depth .square = depth)) :
    (inAttribute l p type s depth).feed t m = (.quiet, inAttribute l p type s depth) := by
  have hclose : ¬((decide (t.kind = .closeSquare) && decide (m.square = depth)) = true) := by
    intro hk
    simp only [Bool.and_eq_true, decide_eq_true_eq] at hk
    exact h ⟨by rw [hk.1]; rfl, hk.2⟩
  simp only [inAttribute, feed, feedParameters, if_neg hclose]

theorem feed_inAttribute_close (ht : t.kind = .closeSquare) :
    (inAttribute l p type s m.square).feed t m = (.quiet, inList l p type none s) := by
  simp [inAttribute, inList, feed, feedParameters, ht]

end SignatureBuilder

namespace Written

/-- Behind the bracket that opens an attribute the builder passes over it. -/
theorem AttributeOpener.takes (x : AttributeOpener) (l : Levels) (p : Parameter)
    (type : TypeDraft) (s : TokenAtlas.Signature) :
    (inList l p type none s).Takes l x.tokens
        (inAttribute l p type s (l.shift 1 .square).square) ∧
      l.behind x.tokens = l.shift 1 .square := by
  cases x with
  | composite o ho =>
    have hbracket : o.kind.bracket = some (.square, .opening) := by rw [ho]; rfl
    refine ⟨.quiet ?_ (.nil _ _), l.past_opening hbracket⟩
    rw [l.onto_opening hbracket]
    simp [inList, inAttribute, feed, feedParameters, ho]
  | marked marker o hmarker ho =>
    have hmarkerBracket : marker.kind.bracket = none := by rw [hmarker]; rfl
    have hbracket : o.kind.bracket = some (.square, .opening) := by rw [ho]; rfl
    have hlevels : l.behind [marker, o] = l.shift 1 .square := by
      rw [Levels.behind_cons, Levels.past_of_bracket_none hmarkerBracket, Levels.behind_cons,
        l.past_opening hbracket, Levels.behind_nil]
    refine ⟨.quiet (c := ⟨true, .parameters l.parens l.unified
      ⟨p, type, none, true, none⟩, s⟩) ?_ (.quiet ?_ (.nil _ _)), hlevels⟩
    · simp [inList, feed, feedParameters, hmarker]
    · rw [Levels.past_of_bracket_none hmarkerBracket, l.onto_opening hbracket]
      simp [inAttribute, feed, feedParameters, ho]

theorem Attribute.passes (x : Attribute) (l : Levels) (p : Parameter) (type : TypeDraft)
    (s : TokenAtlas.Signature) :
    Passes (inList l p type none s) l x.tokens (inList l p type none s) := by
  obtain ⟨hopener, hlevels⟩ := x.opener.takes l p type s
  have hbracket : x.closer.token.kind.bracket = some (.square, .closing) := by
    rw [x.closer.admitted]
    rfl
  have hcontent : (l.shift 1 .square).behind x.content = l.shift 1 .square := by
    have habove := Levels.zero.behind_above (l.shift 1 .square) x.content
    rwa [x.even, Levels.zero_above] at habove
  have hcloser : Passes (inList l p type none s) l x.closer.blanks (inList l p type none s) :=
    .blanks x.closer.trivia fun t ht => feed_inList_passed l p type s l (.inl ht)
  constructor
  · refine hopener.append ?_
    rw [hlevels]
    refine (x.paired.takes (fun t m h => feed_inAttribute l p type s m _ h)
      (Int.le_refl _)).append ?_
    rw [hcontent]
    refine .quiet (c := inList l p type none s) ?_ ?_
    · rw [Levels.onto_closing hbracket]
      exact feed_inAttribute_close l p type s (l.shift 1 .square) x.closer.admitted
    · rw [Levels.past_closing hbracket]
      exact hcloser.takes
  · rw [tokens, Levels.behind_append, hlevels, Levels.behind_append, hcontent, Lexeme.tokens,
      Levels.behind_cons, Levels.past_closing hbracket, hcloser.levels]

/-- What stands in front of a parameter counts for nothing. -/
theorem Modifier.passes (xs : List Modifier) (l : Levels) (p : Parameter) (type : TypeDraft)
    (s : TokenAtlas.Signature) :
    Passes (inList l p type none s) l (xs.flatMap Modifier.tokens) (inList l p type none s) := by
  induction xs with
  | nil => exact .nil _ _
  | cons x xs ih =>
    rw [List.flatMap_cons]
    refine Passes.append ?_ ih
    cases x with
    | skipped x => exact x.passes l p type s
    | word x =>
      exact .lexeme x (by rw [x.admitted]; rfl) (feed_inList_passed l p type s l (.inr x.admitted))
        fun t ht => feed_inList_passed l p type s l (.inl ht)

theorem passes_reference (x : Option (Lexeme (· = .ampersand))) (l : Levels) (p : Parameter)
    (type : TypeDraft) (s : TokenAtlas.Signature) :
    Passes (inList l p type none s) l (Lexeme.tokens? x)
      (inList l { p with byReference := p.byReference || x.isSome } type none
        { s with hasReference := s.hasReference || x.isSome }) := by
  cases x with
  | none =>
    rw [Option.isSome_none, Bool.or_false, Bool.or_false]
    exact .nil _ _
  | some x =>
    rw [Option.isSome_some, Bool.or_true, Bool.or_true]
    exact .lexeme x (by rw [x.admitted]; rfl) (feed_inList_ampersand l p type s l x.admitted)
      fun t ht => feed_inList_passed l _ type _ l (.inl ht)

theorem passes_ellipsis (x : Option (Lexeme (· = .ellipsis))) (l : Levels) {p : Parameter}
    (hp : p.variadic = false) (type : TypeDraft) (s : TokenAtlas.Signature) :
    Passes (inList l p type none s) l (Lexeme.tokens? x)
      (inList l { p with variadic := x.isSome } type none s) := by
  cases x with
  | none =>
    rw [Option.isSome_none, ← hp]
    exact .nil _ _
  | some x =>
    rw [Option.isSome_some]
    exact .lexeme x (by rw [x.admitted]; rfl) (feed_inList_ellipsis l p type s l x.admitted)
      fun t ht => feed_inList_passed l _ type _ l (.inl ht)

end Written

namespace SignatureBuilder

/-- In front of a name the tokens are read as types, the last of them into a draft. There is an
ampersand among them if `crossed`. -/
def ReadsTypes (l : Levels) (ts : List Token) (texts : List String) (crossed : Bool) : Prop :=
  ∀ s : TokenAtlas.Signature, ∃ types type, type.appendTo types = texts ∧
    Passes (inList l .empty .empty none s) l ts
      (inList l { Parameter.empty with types := types, byReference := crossed } type none
        { s with hasReference := s.hasReference || crossed })

/-- The tokens are read as a parameter, up to its default. -/
def ReadsBinding (l : Levels) (ts : List Token) (p : Parameter) : Prop :=
  ∀ s : TokenAtlas.Signature, Passes (inList l .empty .empty none s) l ts
    (inList l p .empty none { s with hasReference := s.hasReference || p.byReference })

/-- A parameter is read if its types are. -/
theorem ReadsTypes.binding {l : Levels} {ts : List Token} {texts : List String} {crossed : Bool}
    (h : ReadsTypes l ts texts crossed) (modifiers : List Modifier)
    (reference : Option (Lexeme (· = .ampersand))) (ellipsis : Option (Lexeme (· = .ellipsis)))
    (name : Lexeme (· = .variableName)) :
    ReadsBinding l
      (modifiers.flatMap Modifier.tokens ++ (ts ++ (Lexeme.tokens? reference ++
        (Lexeme.tokens? ellipsis ++ name.tokens))))
      ⟨texts, name.token.text, none, crossed || reference.isSome, ellipsis.isSome⟩ := by
  intro s
  obtain ⟨types, type, htypes, hread⟩ := h s
  have hname := feed_inList_variable l
    ⟨types, "", none, crossed || reference.isSome, ellipsis.isSome⟩ type
    { s with hasReference := s.hasReference || crossed || reference.isSome } l name.admitted
  rw [htypes] at hname
  rw [← Bool.or_assoc]
  exact (Modifier.passes modifiers l .empty .empty s).append (hread.append
    ((passes_reference reference l _ type _).append
      ((passes_ellipsis ellipsis l rfl type _).append
        (.lexeme name (by rw [name.admitted]; rfl) hname
          fun t ht => feed_inList_passed l _ _ _ l (.inl ht)))))

end SignatureBuilder

namespace Written

theorem TypeList.readsTypes (x : TypeList) (l : Levels) : ReadsTypes l x.tokens x.texts false := by
  intro s
  rw [Bool.or_false]
  exact x.passes (collects_inList l .empty s l rfl) []

theorem Binding.reads (x : Binding) (l : Levels) : ReadsBinding l x.tokens x.parameter :=
  (x.types.readsTypes l).binding x.modifiers x.reference x.ellipsis x.name

end Written

/-! ### Defaults -/

namespace SignatureBuilder

/-- A builder that has read `text` of a default in a list with these depths. -/
def inDefault (parens unified : Int) (p : Parameter) (s : TokenAtlas.Signature) (text : String) :
    SignatureBuilder :=
  ⟨true, .parameters parens unified ⟨p, .empty, some text, false, none⟩, s⟩

variable {parens unified : Int} (p : Parameter) (s : TokenAtlas.Signature) (text : String)

/-- In a default every token but the comma and the bracket that end it is put behind the
others. -/
theorem feed_inDefault {t : Token} {m : Levels} (hpart : t.kind.isValuePart = true)
    (hclose : ¬(t.kind = .closeParen ∧ m.parens = parens))
    (hcomma : ¬(t.kind = .comma ∧ m.unified = unified)) :
    (inDefault parens unified p s text).feed t m =
      (.quiet, inDefault parens unified p s (text ++ t.text)) := by
  have hattribute : t.kind ≠ .attributeOpen ∧ t.kind ≠ .attributeMarker := by
    simpa [Kind.isValuePart] using hpart
  simp [inDefault, feed, feedParameters, feedList, hattribute, hclose, hcomma]

/-- A group in a default, from what stands in it. -/
theorem passes_inDefault_group {family : Family} {o c : Token} {inner : List Token} {m : Levels}
    (hopart : o.kind.isValuePart = true) (ho : o.kind.bracket = some (family, .opening))
    (hc : c.kind.bracket = some (family, .closing)) (hparens : parens ≤ m.parens)
    (hinner : ∀ text, Passes (inDefault parens unified p s text) (m.shift 1 family) inner
      (inDefault parens unified p s (text ++ Token.joined inner))) :
    Passes (inDefault parens unified p s text) m (o :: (inner ++ [c]))
      (inDefault parens unified p s (text ++ Token.joined (o :: (inner ++ [c])))) := by
  have hcpart : c.kind.isValuePart = true := by
    rcases hk : c.kind <;> simp_all [Kind.isValuePart, Kind.bracket]
  have hopen := @feed_inDefault parens unified p s text o (m.shift 1 family) hopart
    (fun hk => by simp [hk.1, Kind.bracket] at ho) (fun hk => by simp [hk.1, Kind.bracket] at ho)
  have hclose := @feed_inDefault parens unified p s (text ++ o.text ++ Token.joined inner) c
    (m.shift 1 family) hcpart (fun hlast => by
      obtain ⟨hk, heq⟩ := hlast
      obtain rfl : family = .paren := by simpa [hk, Kind.bracket, eq_comm] using hc
      rw [Levels.parens_shift, if_pos rfl] at heq
      omega) (fun hk => by simp [hk.1, Kind.bracket] at hc)
  have htext : text ++ Token.joined (o :: (inner ++ [c])) =
      text ++ o.text ++ Token.joined inner ++ c.text := by
    simp [Token.joined, String.append_assoc]
  rw [htext]
  exact .enclosed ho hc hopen (hinner (text ++ o.text)) hclose

end SignatureBuilder

/-- Inside the brackets of a default commas count for nothing. -/
theorem Nested.passes_inDefault {ts : List Token} (h : Nested Kind.isValuePart ts)
    {parens unified : Int} (p : Parameter) (s : TokenAtlas.Signature) (text : String) {m : Levels}
    (hparens : parens ≤ m.parens) (hunified : unified < m.unified) :
    Passes (inDefault parens unified p s text) m ts
      (inDefault parens unified p s (text ++ Token.joined ts)) := by
  induction h generalizing m text with
  | nil => simpa [Token.joined] using Passes.nil _ _
  | @token t rest hpart hplain _ ih =>
    rw [Token.joined_cons, ← String.append_assoc]
    exact .cons hplain (feed_inDefault p s text hpart
      (fun hk => by simp [hk.1, Kind.bracket] at hplain) (by omega)) (ih _ hparens hunified)
  | @group family o c inner rest hopart _ ho hc _ _ ihinner ihrest =>
    have hdeeper := m.unified_shift_one family
    have hparens' := m.parens_shift 1 family
    have hgroup := passes_inDefault_group p s text hopart ho hc hparens fun text =>
      ihinner text (by split at hparens' <;> omega) (by omega)
    have hall := hgroup.append (ihrest _ hparens hunified)
    rw [String.append_assoc, ← Token.joined_append] at hall
    simpa using hall

/-- In front of a comma of the list or its bracket a default is read up to its end. -/
theorem Written.Value.passes {ts : List Token} (h : Value ts) (l : Levels) (p : Parameter)
    (s : TokenAtlas.Signature) (text : String) :
    Passes (inDefault l.parens l.unified p s text) l ts
      (inDefault l.parens l.unified p s (text ++ Token.joined ts)) := by
  induction h generalizing text with
  | nil => simpa [Token.joined] using Passes.nil _ _
  | @token t rest hpart hplain hcomma _ ih =>
    rw [Token.joined_cons, ← String.append_assoc]
    exact .cons hplain (feed_inDefault p s text hpart
      (fun hk => by simp [hk.1, Kind.bracket] at hplain) fun hk => hcomma hk.1) (ih _)
  | @group family o c inner rest hopart ho hc hinner _ ih =>
    have hdeeper := l.unified_shift_one family
    have hparens := l.parens_shift 1 family
    have hinner : ∀ text, Passes (inDefault l.parens l.unified p s text) (l.shift 1 family) inner
        (inDefault l.parens l.unified p s (text ++ Token.joined inner)) := fun text =>
      hinner.passes_inDefault p s text (by split at hparens <;> omega) (by omega)
    have hall := (passes_inDefault_group p s text hopart ho hc (Int.le_refl _) hinner).append (ih _)
    rw [String.append_assoc, ← Token.joined_append] at hall
    simpa using hall

/-! ### Parameter lists -/

namespace SignatureBuilder

/-- A builder that has read the draft `d` in a parameter list whose own levels are `l`. -/
def drafting (l : Levels) (d : ParameterDraft) (s : TokenAtlas.Signature) : SignatureBuilder :=
  ⟨true, .parameters l.parens l.unified d, s⟩

/-- The signature with one more parameter, if there is anything in the draft. -/
def withDraft (s : TokenAtlas.Signature) (d : ParameterDraft) : TokenAtlas.Signature :=
  { s with parameters := s.parameters ++ d.toParameter?.toList }

variable (l : Levels) {d : ParameterDraft} (s : TokenAtlas.Signature) {t : Token}

theorem feed_drafting_comma (hd : d.skipping = none) (ht : t.kind = .comma) :
    (drafting l d s).feed t l = (.quiet, inList l .empty .empty none (withDraft s d)) := by
  obtain ⟨p, type, default, marked, skipping⟩ := d
  obtain rfl : skipping = none := hd
  cases default <;>
    simp [drafting, inList, withDraft, feed, feedParameters, feedList, feedParameter, ht,
      addParameter, ParameterDraft.empty] <;> rfl

theorem feed_drafting_closeParen (hd : d.skipping = none) (ht : t.kind = .closeParen) :
    (drafting l d s).feed t l = (.quiet, ⟨true, .behind false .empty, withDraft s d⟩) := by
  obtain ⟨p, type, default, marked, skipping⟩ := d
  obtain rfl : skipping = none := hd
  simp [drafting, withDraft, feed, feedParameters, feedList, ht, addParameter]
  rfl

/-- The tokens are read into a draft of a parameter. -/
def ReadsArgument (ts : List Token) (p : Parameter) : Prop :=
  ∀ s : TokenAtlas.Signature, ∃ d : ParameterDraft, d.skipping = none ∧ d.toParameter? = some p ∧
    Passes (inList l .empty .empty none s) l ts
      (drafting l d { s with hasReference := s.hasReference || p.byReference })

/-- The tokens are read as parameters, the last of them into a draft. -/
def ReadsList (ts : List Token) (ps : List Parameter) : Prop :=
  ∀ s : TokenAtlas.Signature, ∃ d s', d.skipping = none ∧
    withDraft s' d = { s with
      hasReference := s.hasReference || ps.any (·.byReference)
      parameters := s.parameters ++ ps } ∧
    Passes (inList l .empty .empty none s) l ts (drafting l d s')

variable {l} {ts us : List Token} {p : Parameter} {ps : List Parameter}

/-- A parameter is read into a draft of it. -/
theorem ReadsBinding.argument (h : ReadsBinding l ts p) (hname : p.name ≠ "")
    (default : Option Default) :
    ReadsArgument l (ts ++ (default.map fun d => d.equals :: d.value).getD [])
      { p with
        default := (default.map fun d => Text.trimString (Token.joined d.value)).filter
          (· ≠ "") } := by
  intro s
  have hbinding := h s
  cases default with
  | none =>
    refine ⟨⟨p, .empty, none, false, none⟩, rfl, ?_, ?_⟩
    · simp [ParameterDraft.toParameter?, ParameterDraft.closeType, TypeDraft.appendTo,
        TypeDraft.empty, hname]
    · rw [Option.map_none, Option.getD_none, List.append_nil]
      exact hbinding
  | some default =>
    have hequals := feed_inList_equals l p .empty
      { s with hasReference := s.hasReference || p.byReference } l default.isEquals
    have hvalue := default.isValue.passes l p
      { s with hasReference := s.hasReference || p.byReference } ""
    rw [String.empty_append] at hvalue
    refine ⟨⟨p, .empty, some (Token.joined default.value), false, none⟩, rfl, ?_,
      hbinding.append (.cons (by rw [default.isEquals]; rfl) hequals hvalue)⟩
    simp [ParameterDraft.toParameter?, ParameterDraft.closeType, TypeDraft.appendTo,
      TypeDraft.empty, hname]

theorem ReadsList.nil (l : Levels) : ReadsList l [] [] := by
  intro s
  refine ⟨.empty, s, rfl, ?_, .nil _ _⟩
  simp [withDraft, ParameterDraft.toParameter?, ParameterDraft.closeType, ParameterDraft.empty,
    Parameter.empty, TypeDraft.appendTo, TypeDraft.empty]

theorem ReadsArgument.last (h : ReadsArgument l ts p) : ReadsList l ts [p] := by
  intro s
  obtain ⟨d, hd, hparameter, hpasses⟩ := h s
  exact ⟨d, _, hd, by simp [withDraft, hparameter], hpasses⟩

theorem ReadsArgument.more (h : ReadsArgument l ts p) (comma : Lexeme (· = .comma))
    (hrest : ReadsList l us ps) : ReadsList l (ts ++ (comma.tokens ++ us)) (p :: ps) := by
  intro s
  obtain ⟨d, hd, hparameter, hpasses⟩ := h s
  have hcomma := feed_drafting_comma l
    { s with hasReference := s.hasReference || p.byReference } hd comma.admitted
  obtain ⟨d', s', hd', hs', hrest⟩ := hrest (withDraft
    { s with hasReference := s.hasReference || p.byReference } d)
  refine ⟨d', s', hd', ?_, hpasses.append ((Passes.lexeme comma (by rw [comma.admitted]; rfl)
    hcomma fun t ht => feed_inList_passed l _ _ _ l (.inl ht)).append hrest)⟩
  rw [hs']
  simp [withDraft, hparameter, Bool.or_assoc]

end SignatureBuilder

namespace Written

theorem Argument.reads (x : Argument) (l : Levels) : ReadsArgument l x.tokens x.parameter :=
  (x.binding.reads l).argument x.binding.name.nonempty x.default

/-- A parameter list is read, the last of its parameters into a draft. -/
theorem ArgumentList.reads (x : ArgumentList) (l : Levels) :
    ReadsList l x.tokens x.parameters := by
  induction x with
  | nil => exact .nil l
  | last x => exact (x.reads l).last
  | more x comma rest ih => exact (x.reads l).more comma ih

end Written

end TokenAtlas
