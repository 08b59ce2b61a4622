import TokenAtlas.Proofs.Source.Intersections
import TokenAtlas.Proofs.Source.Passages
import TokenAtlas.Proofs.Text.Margins

/-! Defaults of parameters in which functions stand. The builder of such a function takes its
tokens, so that the builder of the signature around it does not see them. Main statement: a
signature is complete at its last token, and as the default of a parameter it has the trimmed text
of the tokens that stand in no function. This is the text of the whole default just where no
function stands in it. -/

namespace TokenAtlas

open SignatureBuilder

/-! ### Texts without blanks -/

/-- Trimming takes blanks only. -/
theorem Text.filter_trim (cs : List Char) :
    (trim cs).filter (!isBlank ·) = cs.filter (!isBlank ·) := by
  have hfront : (margins cs).front.filter (!isBlank ·) = [] :=
    List.filter_eq_nil_iff.2 fun c hc => by simp [List.mem_takeWhile_imp hc]
  have hback : (margins cs).back.filter (!isBlank ·) = [] :=
    List.filter_eq_nil_iff.2 fun c hc => by
      simp [List.mem_takeWhile_imp (List.mem_reverse.1 hc)]
  calc (trim cs).filter (!isBlank ·)
      = ((margins cs).front ++ ((margins cs).body ++ (margins cs).back)).filter (!isBlank ·) := by
        rw [List.filter_append, List.filter_append, hfront, hback, List.nil_append,
          List.append_nil]
        rfl
    _ = cs.filter (!isBlank ·) := by rw [margins_append]

/-- How many characters of some tokens are not blank. -/
def Token.visible (ts : List Token) : Nat := (texts ts).flatten.countP (!Text.isBlank ·)

namespace Token

theorem visible_cons (t : Token) (ts : List Token) :
    visible (t :: ts) = t.text.toList.countP (!Text.isBlank ·) + visible ts := List.countP_append

theorem visible_append (as bs : List Token) : visible (as ++ bs) = visible as + visible bs := by
  rw [visible, texts_append, List.flatten_append, List.countP_append]
  rfl

/-- Tokens with the same trimmed text have equally many characters that are not blank. -/
theorem visible_of_trimString {as bs : List Token}
    (h : Text.trimString (joined as) = Text.trimString (joined bs)) : visible as = visible bs := by
  have htrim := String.ofList_injective h
  rw [toList_joined, toList_joined] at htrim
  rw [visible, visible, List.countP_eq_length_filter, List.countP_eq_length_filter,
    ← Text.filter_trim (texts as).flatten, htrim, Text.filter_trim]

end Token

namespace Passage

open Token (visible visible_cons visible_append)

theorem visible_word (front : Signature.Opening) :
    0 < front.word.text.toList.countP (!Text.isBlank ·) := by
  obtain ⟨c, hc, hblank⟩ := front.isVisible
  exact List.countP_pos_iff.2 ⟨c, hc, by simp [hblank]⟩

theorem visible_outside_le (p : Passage) : visible p.outside ≤ visible p.tokens := by
  induction p with
  | nil => exact Nat.le_refl _
  | token t hplain hopener rest ih =>
    simp only [outside, tokens, visible_cons]
    omega
  | group family o c ho hc inner rest ihinner ihrest =>
    simp only [outside, tokens, visible_cons, visible_append]
    omega
  | signature front list back stop hstop rest _ ih =>
    simp only [outside, tokens, visible_cons, visible_append]
    omega
  | function front list back o c ho hc body rest _ _ ih =>
    simp only [outside, tokens, visible_cons, visible_append]
    omega

/-- With the word of a function its characters are missing. -/
theorem visible_outside_lt {p : Passage} (h : p.isPlain = false) :
    visible p.outside < visible p.tokens := by
  induction p with
  | nil => exact absurd h.symm Bool.false_ne_true
  | token t hplain hopener rest ih =>
    have hrest := ih h
    simp only [outside, tokens, visible_cons]
    omega
  | group family o c ho hc inner rest ihinner ihrest =>
    have hinner := inner.visible_outside_le
    have hrest := rest.visible_outside_le
    simp only [outside, tokens, visible_cons, visible_append]
    rcases Bool.and_eq_false_iff.1 h with h | h
    · have hlt := ihinner h
      omega
    · have hlt := ihrest h
      omega
  | signature front list back stop hstop rest _ _ =>
    have hword := visible_word front
    have hrest := rest.visible_outside_le
    simp only [outside, tokens, visible_cons, visible_append]
    omega
  | function front list back o c ho hc body rest _ _ _ =>
    have hword := visible_word front
    have hrest := rest.visible_outside_le
    simp only [outside, tokens, visible_cons, visible_append]
    omega

theorem outside_of_isPlain {p : Passage} (h : p.isPlain = true) : p.outside = p.tokens := by
  induction p with
  | nil => rfl
  | token t hplain hopener rest ih => rw [outside, tokens, ih h]
  | group family o c ho hc inner rest ihinner ihrest =>
    obtain ⟨hinner, hrest⟩ := Bool.and_eq_true_iff.1 h
    rw [outside, tokens, ihinner hinner, ihrest hrest]
  | signature front list back stop hstop rest _ _ => exact absurd h Bool.false_ne_true
  | function front list back o c ho hc body rest _ _ _ => exact absurd h Bool.false_ne_true

end Passage

namespace Written

/-! ### Defaults -/

/-- What is recorded of the tokens of a default, if there is one. A blank default is none. -/
def recordedDefault (value : Option (List Token)) : Option String :=
  (value.map fun ts => Text.trimString (Token.joined ts)).filter (· ≠ "")

theorem trimString_of_recordedDefault {as bs : List Token}
    (h : recordedDefault (some as) = recordedDefault (some bs)) :
    Text.trimString (Token.joined as) = Text.trimString (Token.joined bs) := by
  simp only [recordedDefault, Option.map_some, Option.filter_some, decide_eq_true_eq] at h
  by_cases ha : Text.trimString (Token.joined as) = "" <;>
    by_cases hb : Text.trimString (Token.joined bs) = "" <;> simp_all

/-- A default in which functions may stand. Outside of them there are no attributes, and commas in
brackets only. -/
structure NestingDefault where
  equals : Token
  value : Passage
  isEquals : equals.kind = .equals
  isValue : Value value.outside

/-- The default without the functions in it. -/
def NestingDefault.bare (x : NestingDefault) : Default :=
  ⟨x.equals, x.value.outside, x.isEquals, x.isValue⟩

/-- A parameter, which has no default in `binding`, and its default. -/
structure NestingArgument where
  binding : MixedArgument
  default : Option NestingDefault
  isBinding : binding.default = none

namespace NestingArgument

def tokens (x : NestingArgument) : List Token :=
  x.binding.tokens ++ (x.default.map fun d => d.equals :: d.value.tokens).getD []

/-- The parameter without the functions in its default. -/
def bare (x : NestingArgument) : MixedArgument :=
  { x.binding with default := x.default.map NestingDefault.bare }

theorem tokens_bare (x : NestingArgument) : x.bare.tokens =
    x.binding.tokens ++ (x.default.map fun d => d.equals :: d.value.outside).getD [] := by
  rw [MixedArgument.tokens, MixedArgument.tokens, x.isBinding, bare]
  cases x.default <;> simp [NestingDefault.bare]

theorem default_parameter (x : NestingArgument) :
    x.bare.parameter.default = recordedDefault (x.default.map (·.value.outside)) := by
  rw [MixedArgument.parameter, bare, recordedDefault, Option.map_map, Option.map_map]
  rfl

/-- The whole default is recorded exactly if no function stands in it. -/
theorem default_parameter_eq_iff (x : NestingArgument) :
    x.bare.parameter.default = recordedDefault (x.default.map (·.value.tokens)) ↔
      ∀ d ∈ x.default, d.value.isPlain = true := by
  rw [default_parameter]
  rcases x.default with _ | d
  · simp
  · simp only [Option.map_some, Option.mem_def, Option.some.injEq, forall_eq']
    constructor
    · intro h
      by_contra hfunction
      -- the word of a function is not blank, and trimming takes blanks only
      have hlt := Passage.visible_outside_lt (Bool.eq_false_iff.2 hfunction)
      rw [Token.visible_of_trimString (trimString_of_recordedDefault h)] at hlt
      exact absurd hlt (Nat.lt_irrefl _)
    · intro h
      rw [Passage.outside_of_isPlain h]

end NestingArgument

/-- Parameters with commas between them, and perhaps behind them. -/
structure NestingArguments where
  front : List (NestingArgument × Lexeme (· = .comma))
  last : Option NestingArgument

namespace NestingArguments

def tokens (x : NestingArguments) : List Token :=
  x.front.flatMap (fun a => a.1.tokens ++ a.2.tokens) ++
    (x.last.map NestingArgument.tokens).getD []

def toList (x : NestingArguments) : List NestingArgument := x.front.map Prod.fst ++ x.last.toList

def bare (x : NestingArguments) : MixedArguments :=
  ⟨x.front.map fun a => (a.1.bare, a.2), x.last.map NestingArgument.bare⟩

theorem toList_bare (x : NestingArguments) : x.bare.toList = x.toList.map NestingArgument.bare := by
  obtain ⟨front, last⟩ := x
  cases last <;> simp [bare, toList, MixedArguments.toList, Function.comp_def]

end NestingArguments

/-- The end of a signature in whose body functions may stand. -/
inductive NestingEnding
  | stop (t : Token) (ht : t.kind = .semicolon ∨ t.kind = .doubleArrow)
  | body (o c : Token) (content : Passage) (ho : o.kind = .openCurly) (hc : c.kind = .closeCurly)

namespace NestingEnding

/-- The tokens in front of the last. -/
def front : NestingEnding → List Token
  | stop _ _ => []
  | body o _ content _ _ => o :: content.tokens

def bare : NestingEnding → Ending
  | stop t ht => .stop t ht
  | body o c content ho hc => .body o c content.outside ho hc (.of_nested content.nested_outside)

end NestingEnding

/-- The tokens behind the opening word, up to the bracket that opens the parameter list. -/
def MixedSignature.upToList (x : MixedSignature) : List Token :=
  x.word.blanks ++ (Lexeme.tokens? x.reference ++ (Lexeme.tokens? x.name ++ x.opener.tokens))

/-- The tokens behind the parameter list and in front of the end. -/
def MixedSignature.behindList (x : MixedSignature) : List Token :=
  x.closer :: (x.use ++ (x.returns.map fun r => r.1.tokens ++ r.2.tokens).getD [])

theorem MixedSignature.head_eq (x : MixedSignature) :
    x.head = x.upToList ++ (x.arguments.tokens ++ x.behindList) := by
  simp [head, MixedSignature.front, upToList, behindList]

/-- A signature in whose defaults and body functions may stand. `bare` is the signature without
these, and no other function stands in it. -/
structure NestingSignature where
  bare : MixedSignature
  arguments : NestingArguments
  ending : NestingEnding
  areArguments : bare.arguments = arguments.bare
  isEnding : bare.ending = ending.bare
  plain : ∀ t ∈ bare.head ++ bare.ending.front, Feature.ofOpener t.kind ≠ some .functionSignature

/-- The tokens behind the opening word and in front of the last one. -/
def NestingSignature.inner (x : NestingSignature) : List Token :=
  x.bare.upToList ++ (x.arguments.tokens ++ x.bare.behindList) ++ x.ending.front

def NestingSignature.tokens (x : NestingSignature) : List Token :=
  x.bare.word.token :: (x.inner ++ [x.bare.ending.final])

/-! ### Reading -/

theorem NestingArgument.carries (x : NestingArgument)
    (hplain : ∀ t ∈ x.bare.tokens, Feature.ofOpener t.kind ≠ some .functionSignature) :
    Carries 0 x.bare.tokens x.tokens := by
  rw [tokens_bare] at hplain ⊢
  refine (Carries.plain fun t ht => hplain t (List.mem_append_left _ ht)).append ?_
  cases x.default with
  | none => exact .nil 0
  | some d => exact .cons (by rw [d.isEquals]; decide) (d.value.carries_outside (by decide))

theorem NestingArguments.carries (x : NestingArguments)
    (hplain : ∀ t ∈ x.bare.tokens, Feature.ofOpener t.kind ≠ some .functionSignature) :
    Carries 0 x.bare.tokens x.tokens := by
  obtain ⟨front, last⟩ := x
  induction front with
  | nil =>
    cases last with
    | none => exact .nil 0
    | some last => exact last.carries hplain
  | cons a front ih =>
    have htokens : (bare ⟨a :: front, last⟩).tokens =
        (a.1.bare.tokens ++ a.2.tokens) ++ (bare ⟨front, last⟩).tokens := by
      simp [bare, MixedArguments.tokens]
    rw [htokens] at hplain ⊢
    have hfront : ∀ t ∈ a.1.bare.tokens ++ a.2.tokens,
        Feature.ofOpener t.kind ≠ some .functionSignature :=
      fun t ht => hplain t (List.mem_append_left _ ht)
    have hmore := ((a.1.carries fun t ht => hfront t (List.mem_append_left _ ht)).append
      (.plain fun t ht => hfront t (List.mem_append_right _ ht))).append
      (ih fun t ht => hplain t (List.mem_append_right _ ht))
    simpa [tokens] using hmore

theorem NestingEnding.carries (x : NestingEnding) : Carries 0 x.bare.front x.front := by
  cases x with
  | stop t ht => exact .nil 0
  | body o c content ho hc => exact .cons (by rw [ho]; decide) (content.carries_outside (by decide))

/-- What a signature leaves to its builder is the signature without the functions in it. -/
theorem NestingSignature.carries (x : NestingSignature) :
    Carries 0 (x.bare.head ++ x.bare.ending.front) x.inner := by
  have hplain := x.plain
  have hending := x.ending.carries
  rw [MixedSignature.head_eq, x.areArguments] at hplain ⊢
  rw [← x.isEnding] at hending
  have hhead : ∀ t ∈ x.bare.upToList ++ (x.arguments.bare.tokens ++ x.bare.behindList),
      Feature.ofOpener t.kind ≠ some .functionSignature :=
    fun t ht => hplain t (List.mem_append_left _ ht)
  refine Carries.append (.append (.plain fun t ht => ?_)
    (.append (x.arguments.carries fun t ht => ?_) (.plain fun t ht => ?_))) hending
  · exact hhead t (List.mem_append_left _ ht)
  · exact hhead t (List.mem_append_right _ (List.mem_append_left _ ht))
  · exact hhead t (List.mem_append_right _ (List.mem_append_right _ ht))

end Written

/-- Over a signature in whose defaults and body functions stand a course completes the signature
at the last token and leaves no feature open. The default of a parameter is recorded without the
functions in it, and is whole exactly if there are none. -/
theorem Course.defaults_without_functions (tracker : LevelTracker) (x : Written.NestingSignature) :
    let course : Course := ⟨tracker, .empty⟩
    let s := x.bare.recorded tracker.settle.levels
    ((course.steps (x.tokens.map (·, true))).map (·.products)).getLast? =
        some [.functionSignature s] ∧
      (course.after (x.tokens.map (·, true))).stack = .empty ∧
      s.parameters = x.arguments.toList.map (·.bare.parameter) ∧
      ∀ a ∈ x.arguments.toList,
        a.bare.parameter.default = Written.recordedDefault (a.default.map (·.value.outside)) ∧
        (a.bare.parameter.default = Written.recordedDefault (a.default.map (·.value.tokens)) ↔
          ∀ d ∈ a.default, d.value.isPlain = true) := by
  intro course s
  obtain ⟨d, htakes, hfinal⟩ := x.bare.takes tracker.settle.levels
  have hopener : Feature.ofOpener x.bare.ending.final.kind = none := x.bare.ending.ofOpener_final
  have hword : Feature.ofOpener x.bare.word.token.kind = some .functionSignature := by
    rcases x.bare.word.admitted with hk | hk <;> rw [hk] <;> rfl
  have hempty : ([] : List Builder).length = 0 := rfl
  obtain ⟨xs, hxs, hyields⟩ :=
    Site.yields_function hword rfl hempty (by decide) x.carries htakes hopener hfinal
  have htokens : (xs ++ [(x.bare.ending.final, [Product.functionSignature s])]).map Prod.fst =
      x.tokens := by
    rw [List.map_append, hxs]
    rfl
  obtain ⟨hproducts, hsite⟩ := course.products_of_yields hyields htokens
  refine ⟨?_, congrArg (·.stack) hsite, ?_, fun a _ =>
    ⟨a.default_parameter, a.default_parameter_eq_iff⟩⟩
  · rw [hproducts, List.map_append, List.map_singleton, List.getLast?_concat]
  · simp only [s, Written.MixedSignature.recorded, x.areArguments,
      Written.NestingArguments.toList_bare, List.map_map]
    rfl

namespace Written

/-- `fn() => 1`, with a blank in front. -/
def arrowFunction : Passage :=
  .token ⟨.whitespace, " ", 2, 15⟩ rfl nofun (.signature
    { word := ⟨.fnWord, "fn", 2, 16⟩
      header := []
      opener := ⟨.openParen, "(", 2, 18⟩
      isWord := rfl
      isVisible := ⟨'f', by decide, by decide⟩
      isHeader := nofun
      isOpener := rfl }
    .nil ⟨⟨.closeParen, ")", 2, 19⟩, [⟨.whitespace, " ", 2, 20⟩], rfl, .token rfl rfl .nil⟩
    ⟨.doubleArrow, "=>", 2, 21⟩ (.inr rfl)
    (.token ⟨.whitespace, " ", 2, 23⟩ rfl nofun (.token ⟨.integer, "1", 2, 24⟩ rfl nofun .nil)))

/-- `function f($x = fn() => 1) {}`. -/
def arrowDefault : NestingSignature :=
  let arguments : NestingArguments := ⟨[], some {
    binding := ⟨[], none, none, none,
      ⟨⟨.variableName, "$x", 2, 11⟩, [⟨.whitespace, " ", 2, 13⟩], rfl, by decide, by decide⟩, none⟩
    default := some ⟨⟨.equals, "=", 2, 14⟩, arrowFunction, rfl,
      .token rfl rfl nofun (.token rfl rfl nofun (.token rfl rfl nofun .nil))⟩
    isBinding := rfl }⟩
  let ending : NestingEnding :=
    .body ⟨.openCurly, "\x7b", 2, 27⟩ ⟨.closeCurly, "\x7d", 2, 28⟩ .nil rfl rfl
  { bare :=
      { word := ⟨⟨.functionWord, "function", 2, 0⟩, [⟨.whitespace, " ", 2, 8⟩], .inl rfl,
          by decide, by decide⟩
        reference := none
        name := some ⟨⟨.identifier, "f", 2, 9⟩, [], .inl rfl, by decide, isTrivia_of_mem_nil⟩
        opener := ⟨⟨.openParen, "(", 2, 10⟩, [], rfl, by decide, isTrivia_of_mem_nil⟩
        arguments := arguments.bare
        closer := ⟨.closeParen, ")", 2, 25⟩
        use := [⟨.whitespace, " ", 2, 26⟩]
        returns := none
        ending := ending.bare
        unnamed := fun h => absurd h (by decide)
        isCloser := rfl
        isUse := by simp [isUsePart] }
    arguments := arguments
    ending := ending
    areArguments := rfl
    isEnding := rfl
    plain := by decide }

/-- The signature is complete behind its body, and its default is not the whole text. -/
theorem defaults_without_functions_arrowDefault :
    let s := arrowDefault.bare.recorded .zero
    ((Course.start.steps (arrowDefault.tokens.map (·, true))).map (·.products)).getLast? =
        some [.functionSignature s] ∧
      (Course.start.after (arrowDefault.tokens.map (·, true))).stack = .empty ∧
      ∃ a ∈ arrowDefault.arguments.toList,
        a.bare.parameter.default = recordedDefault (a.default.map (·.value.outside)) ∧
        a.bare.parameter.default ≠ recordedDefault (a.default.map (·.value.tokens)) := by
  obtain ⟨hproducts, hstack, -, hdefaults⟩ := Course.defaults_without_functions .start arrowDefault
  obtain ⟨a, ha⟩ : ∃ a, arrowDefault.arguments.toList = [a] := ⟨_, rfl⟩
  have hmem : a ∈ arrowDefault.arguments.toList := ha ▸ List.mem_singleton_self a
  obtain ⟨houtside, hwhole⟩ := hdefaults a hmem
  have hplain : ∃ d ∈ a.default, d.value.isPlain = false := by
    obtain rfl : _ = a := List.cons.inj ha |>.1
    exact ⟨_, rfl, rfl⟩
  refine ⟨hproducts, hstack, a, hmem, houtside, fun h => ?_⟩
  obtain ⟨d, hd, hnested⟩ := hplain
  simp [hwhole.1 h d hd] at hnested

/-- The default is `fn() => 1`, and `1` is recorded of it. -/
theorem arrow_default_cut :
    ((Course.start.steps (arrowDefault.tokens.map (·, true))).map (·.products)).getLast? =
        some [.functionSignature ⟨.named, some "f", false, [⟨[], "$x", some "1", false, false⟩],
          [], "", some ⟨1, ⟨.openCurly, "\x7b", 2, 27⟩, ⟨.closeCurly, "\x7d", 2, 28⟩⟩⟩] ∧
      arrowDefault.arguments.toList.map (fun a =>
        recordedDefault (a.default.map (·.value.tokens))) = [some "fn() => 1"] := by
  decide +kernel

end Written

end TokenAtlas
