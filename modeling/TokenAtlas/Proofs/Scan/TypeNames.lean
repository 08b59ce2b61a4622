import TokenAtlas.Proofs.Feature.Alone
import TokenAtlas.Proofs.Feature.Effect
import TokenAtlas.Proofs.Feature.Import
import TokenAtlas.Proofs.Scan.Balance

/-! Identifiers in types. Whether an identifier is put into a type is decided while the innermost
function is fed it, and whether the scan classifies it among types is asked behind that. Main
statement: both come to the same, wherever a function stands and whatever it was fed. For an
identifier never changes how the next name would be read, so what is asked behind it holds of
it. -/

namespace TokenAtlas

namespace TypeDraft

/-- The question mark that goes in front of the next name, if one waits. -/
def mark (d : TypeDraft) : String := if d.text = "" && d.nullable then "?" else ""

theorem text_push (d : TypeDraft) (text : String) :
    (d.push text).text = d.text ++ (d.mark ++ text) := by
  obtain ⟨begun, nullable⟩ := d
  by_cases h : begun = "" <;> cases nullable <;> simp [push, mark, h]

/-- A type that takes some text is longer than before. -/
theorem text_ne_append (d : TypeDraft) {text : String} (h : text ≠ "") :
    d.text ≠ d.text ++ (d.mark ++ text) := by
  intro heq
  have hchars := congrArg String.toList heq
  rw [String.toList_append, List.self_eq_append_right, String.toList_append,
    List.append_eq_nil_iff] at hchars
  exact h (String.toList_eq_nil_iff.1 hchars.2)

end TypeDraft

namespace ParameterDraft

/-- The parameter behind an identifier. An attribute takes no part of it, and a default takes it
whole. -/
def addName (d : ParameterDraft) (text : String) : ParameterDraft :=
  match d.skipping, d.default with
  | some _, _ => d
  | none, some default => { d with marked := false, default := some (default ++ text) }
  | none, none =>
    if d.parameter.name = "" then { d with marked := false, type := d.type.push text }
    else { d with marked := false }

theorem readsType_addName (d : ParameterDraft) (text : String) :
    (d.addName text).readsType = d.readsType := by
  obtain ⟨parameter, type, default, marked, skipping⟩ := d
  rcases skipping with _ | depth <;> rcases default with _ | default
  · simp only [addName]
    split <;> rfl
  all_goals rfl

theorem type_addName (d : ParameterDraft) (text : String) :
    (d.addName text).type = if d.readsType then d.type.push text else d.type := by
  obtain ⟨parameter, type, default, marked, skipping⟩ := d
  rcases skipping with _ | depth <;> rcases default with _ | default
  · by_cases hname : parameter.name = "" <;> simp [addName, readsType, hname]
  all_goals simp [addName, readsType]

end ParameterDraft

variable {t : Token}

namespace SignatureBuilder

/-- The type that is being read, of a parameter or of what the function gives back. -/
def typeDraft? (b : SignatureBuilder) : Option TypeDraft :=
  match b.phase with
  | .parameters _ _ draft => some draft.type
  | .behind _ type => some type
  | _ => none

/-- When the builder is fed the token, the type that is being read takes the token's text, behind
what is in it already. -/
def AddsToType (b : SignatureBuilder) (t : Token) (l : Levels) : Prop :=
  ∃ before behind, b.typeDraft? = some before ∧ (b.feed t l).2.typeDraft? = some behind ∧
    behind.text = before.text ++ (before.mark ++ t.text)

theorem exists_typeDraft {b : SignatureBuilder} (h : b.readsTypes = true) :
    ∃ draft, b.typeDraft? = some draft := by
  obtain ⟨fed, phase, signature⟩ := b
  cases phase with
  | parameters parens unified draft => exact ⟨_, rfl⟩
  | behind inReturn type => exact ⟨_, rfl⟩
  | opening | inBody | finished => exact absurd h nofun

theorem feedParameters_identifier (ht : t.kind = .identifier) (b : SignatureBuilder)
    (parens unified : Int) (d : ParameterDraft) (l : Levels) :
    b.feedParameters parens unified d t l =
      { b with phase := .parameters parens unified (d.addName t.text) } := by
  obtain ⟨parameter, type, default, marked, skipping⟩ := d
  rcases skipping with _ | depth
  · rcases default with _ | default
    · by_cases hname : parameter.name = "" <;>
        simp [feedParameters, feedList, feedParameter, ParameterDraft.addName, ht, hname,
          Kind.isTypePart, Kind.isName, Kind.isNameSegment]
    · simp [feedParameters, feedList, ParameterDraft.addName, ht]
  · simp [feedParameters, ParameterDraft.addName, ht]

/-- An identifier completes nothing and leaves it as it is whether names are read as types. If
they are, the type that is being read takes it. -/
theorem feed_identifier (ht : t.kind = .identifier) (b : SignatureBuilder) (l : Levels) :
    (b.feed t l).1.done = false ∧ (b.feed t l).2.readsTypes = b.readsTypes ∧
      (b.feed t l).2.typeDraft? =
        if b.readsTypes then b.typeDraft?.map (·.push t.text) else b.typeDraft? := by
  obtain ⟨fed, phase, signature⟩ := b
  cases phase with
  | opening =>
    simp only [feed, feedOpening, ht]
    split <;> exact ⟨rfl, rfl, rfl⟩
  | parameters parens unified d =>
    refine ⟨rfl, ?_, ?_⟩ <;> simp only [feed, feedParameters_identifier ht, readsTypes, typeDraft?]
    · exact d.readsType_addName t.text
    · by_cases hreads : d.readsType = true <;> simp [d.type_addName, hreads]
  | behind inReturn type =>
    cases inReturn <;> simp [feed, feedBehind, ht, readsTypes, typeDraft?, Kind.isTypePart,
      Kind.isName, Kind.isNameSegment, Feed.quiet]
  | inBody depth opener => simp [feed, feedBody, ht, readsTypes, typeDraft?, Feed.quiet]
  | finished => exact ⟨rfl, rfl, rfl⟩

/-- A type takes an identifier exactly if names are read as types behind the identifier. -/
theorem addsToType_iff (ht : t.kind = .identifier) (htext : t.text ≠ "") (b : SignatureBuilder)
    (l : Levels) : b.AddsToType t l ↔ (b.feed t l).2.readsTypes = true := by
  obtain ⟨-, hreads, htype⟩ := b.feed_identifier ht l
  rw [hreads]
  constructor
  · rintro ⟨before, behind, hbefore, hbehind, htext'⟩
    by_contra hnot
    -- the type would be the same and yet longer
    rw [if_neg hnot, hbefore, hbehind] at htype
    obtain rfl := Option.some.inj htype
    exact behind.text_ne_append htext htext'
  · intro h
    obtain ⟨draft, hdraft⟩ := exists_typeDraft h
    rw [if_pos h, hdraft] at htype
    exact ⟨draft, draft.push t.text, hdraft, htype, draft.text_push t.text⟩

end SignatureBuilder

/-! ### Among other features -/

theorem NamespaceBuilder.done_feed_identifier (ht : t.kind = .identifier) (b : NamespaceBuilder)
    (l : Levels) : (b.feed t l).1.done = false := by
  obtain ⟨phase, declaration⟩ := b
  cases phase <;> simp [feed, feedName, feedBody, Token.isTrivia, Kind.isTrivia, ht, Kind.isName,
    Kind.isNameSegment, Feed.hinted, Feed.quiet]

/-- No feature is complete at an identifier. -/
theorem Builder.done_feed_identifier (ht : t.kind = .identifier) (b : Builder) (l : Levels) :
    (b.feed t l).1.done = false := by
  cases b with
  | namespaceDeclaration n => exact n.done_feed_identifier ht l
  | namespaceImport i =>
    obtain ⟨hint, hfeed⟩ := i.feed_of_not_semicolon (t := t) (by simp [ht])
    exact congrArg Feed.done hfeed
  | functionSignature f => exact (f.feed_identifier ht l).1

/-- Whether names are read as types behind an identifier is up to the feature that is fed it. -/
theorem Stack.WellFormed.readsTypes_step {s : Stack} (h : s.WellFormed)
    (ht : t.kind = .identifier) (l : Levels) (mayOpen : Bool) :
    (s.step t l mayOpen).2.active?.any Builder.readsTypes =
      s.active?.any fun b => (b.feed t l).2.readsTypes := by
  change (Stack.effect (s.step t l mayOpen)).builders.head?.any Builder.readsTypes = _
  cases h.handles t l mayOpen with
  | feeds he =>
    rw [he]
    rcases hb : s.builders with _ | ⟨b, below⟩
    · simp [active?, hb, fed, effect, feedActive]
    · rw [fed_cons, settle, b.done_feed_identifier ht]
      simp [active?, hb]
  | names hempty he =>
    rw [he, fed_cons, settle, Builder.done_feed_identifier ht]
    simp [active?, hempty, Builder.feed, Builder.readsTypes]
  | opens hopener => simp [ht, Feature.ofOpener] at hopener

namespace Scanner

theorem readsTypes_surroundings (o : ScanOptions) (source : List Token) (n : Nat)
    (ht : t.kind = .identifier) :
    (((ofTokens o source).after n).surroundings t).readsTypes =
      ((ofTokens o source).after n).active?.any fun b =>
        (b.feed t (((ofTokens o source).after n).tracker.advance t.kind).levels).2.readsTypes :=
  (counted_after o source n).stack.readsTypes_step ht _ _

/-- Whatever a function was fed, an identifier is put into the type that is being read exactly if
names are read as types behind it, and that type stays as it is otherwise. A scan classifies an
identifier among types exactly if the innermost feature is a function that puts it into one. -/
theorem identifier_in_type_iff (ht : t.kind = .identifier) (htext : t.text ≠ "") :
    (∀ (isArrow : Bool) (before : List (Token × Levels)) (l : Levels),
      (((SignatureBuilder.fresh isArrow).after before).AddsToType t l ↔
        (((SignatureBuilder.fresh isArrow).after before).feed t l).2.readsTypes = true) ∧
      ((((SignatureBuilder.fresh isArrow).after before).feed t l).2.readsTypes = false →
        (((SignatureBuilder.fresh isArrow).after before).feed t l).2.typeDraft? =
          ((SignatureBuilder.fresh isArrow).after before).typeDraft?)) ∧
    ∀ (o : ScanOptions) (source : List Token) (n : Nat),
      (((ofTokens o source).after n).surroundings t).readsTypes = true ↔
        ∃ f, ((ofTokens o source).after n).active? = some (.functionSignature f) ∧
          f.AddsToType t (((ofTokens o source).after n).tracker.advance t.kind).levels := by
  refine ⟨fun isArrow before l => ?_, fun o source n => ?_⟩
  · generalize (SignatureBuilder.fresh isArrow).after before = b
    refine ⟨b.addsToType_iff ht htext l, fun hnot => ?_⟩
    obtain ⟨-, hreads, htype⟩ := b.feed_identifier ht l
    rw [htype, ← hreads, hnot, if_neg Bool.false_ne_true]
  · rw [readsTypes_surroundings o source n ht]
    rcases ((ofTokens o source).after n).active? with _ | b
    · simp
    · cases b with
      | functionSignature f => simp [f.addsToType_iff ht htext, Builder.feed, Builder.readsTypes]
      | namespaceDeclaration | namespaceImport => simp [Builder.feed, Builder.readsTypes]

/-- A function whose parameter has a type and the name of a constant as default. -/
def typedParameter : List Token :=
  [⟨.functionWord, "function", 1, 0⟩, ⟨.whitespace, " ", 1, 8⟩, ⟨.identifier, "f", 1, 9⟩,
    ⟨.openParen, "(", 1, 10⟩, ⟨.identifier, "T", 1, 11⟩, ⟨.variableName, "$x", 1, 12⟩,
    ⟨.equals, "=", 1, 14⟩, ⟨.identifier, "N", 1, 15⟩, ⟨.closeParen, ")", 1, 16⟩]

/-- The type is put into the parameter's, by a builder on its own and in a scan, and the default is
not. -/
theorem identifier_in_type_iff_typedParameter :
    ((SignatureBuilder.fresh false).after
        [(⟨.openParen, "(", 1, 10⟩, ⟨1, 0, 0, 1⟩)]).AddsToType
      ⟨.identifier, "T", 1, 11⟩ ⟨1, 0, 0, 1⟩ ∧
    (∃ f, ((ofTokens ⟨true, false⟩ typedParameter).after 4).active? =
        some (.functionSignature f) ∧ f.AddsToType ⟨.identifier, "T", 1, 11⟩ ⟨1, 0, 0, 1⟩) ∧
    ¬ ∃ f, ((ofTokens ⟨true, false⟩ typedParameter).after 7).active? =
        some (.functionSignature f) ∧ f.AddsToType ⟨.identifier, "N", 1, 15⟩ ⟨1, 0, 0, 1⟩ := by
  obtain ⟨hfed, htype⟩ :=
    identifier_in_type_iff (t := ⟨.identifier, "T", 1, 11⟩) rfl (by decide)
  obtain ⟨-, hdefault⟩ :=
    identifier_in_type_iff (t := ⟨.identifier, "N", 1, 15⟩) rfl (by decide)
  refine ⟨(hfed false _ _).1.2 (by decide), ?_, ?_⟩
  · exact (htype ⟨true, false⟩ typedParameter 4).1 (by decide +kernel)
  · exact mt (hdefault ⟨true, false⟩ typedParameter 7).2 (by decide +kernel)

end Scanner

end TokenAtlas
