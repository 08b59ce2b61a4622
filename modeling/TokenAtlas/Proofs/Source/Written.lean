import TokenAtlas.Proofs.Feature.Site
import TokenAtlas.Proofs.Source.Grammar

/-! Signatures as they are written. Every part of a signature is given by its tokens with the
trivia behind them, and says what it stands for; nothing is said of phases or drafts. What an
attribute, a default and a body hold is not taken apart: only their brackets matter. -/

namespace TokenAtlas

/-- Tokens in which the brackets of one family match. Those of the others need not. -/
inductive Paired (family : Family) : List Token → Prop
  | nil : Paired family []
  | other {t : Token} {rest : List Token} (ht : ∀ side, t.kind.bracket ≠ some (family, side))
      (hrest : Paired family rest) : Paired family (t :: rest)
  | group {o c : Token} {inner rest : List Token} (ho : o.kind.bracket = some (family, .opening))
      (hc : c.kind.bracket = some (family, .closing)) (hinner : Paired family inner)
      (hrest : Paired family rest) : Paired family (o :: (inner ++ c :: rest))

/-- Kinds of tokens that begin no attribute. -/
def Kind.isValuePart (k : Kind) : Bool := k ≠ .attributeOpen && k ≠ .attributeMarker

namespace Paired

variable {family : Family} {ts : List Token}

theorem depth_behind (h : Paired family ts) (l : Levels) :
    (l.behind ts).depth family = l.depth family := by
  induction h generalizing l with
  | nil => rfl
  | other ht _ ih => rw [Levels.behind_cons, ih, Levels.depth_past_of_ne ht]
  | @group o c inner rest ho hc _ _ ihinner ihrest =>
    rw [Levels.behind_cons, l.past_opening ho, Levels.behind_append, Levels.behind_cons, ihrest,
      Levels.depth_past_closing hc, ihinner, Levels.depth_shift_self]
    omega

end Paired

namespace Written

/-- The tokens of a default: matched brackets without attributes, and commas only in them. -/
inductive Value : List Token → Prop
  | nil : Value []
  | token {t : Token} {rest : List Token} (hpart : t.kind.isValuePart = true)
      (hplain : t.kind.bracket = none) (hcomma : t.kind ≠ .comma) (hrest : Value rest) :
      Value (t :: rest)
  | group {family : Family} {o c : Token} {inner rest : List Token}
      (hopart : o.kind.isValuePart = true) (ho : o.kind.bracket = some (family, .opening))
      (hc : c.kind.bracket = some (family, .closing)) (hinner : Nested Kind.isValuePart inner)
      (hrest : Value rest) : Value (o :: (inner ++ c :: rest))

/-- A token of the kinds that `part` admits, with the trivia behind it. -/
structure Lexeme (part : Kind → Prop) where
  token : Token
  blanks : List Token
  admitted : part token.kind
  nonempty : token.text ≠ ""
  trivia : ∀ t ∈ blanks, t.isTrivia = true

def Lexeme.tokens {part : Kind → Prop} (x : Lexeme part) : List Token := x.token :: x.blanks

/-- For a token with nothing behind it. -/
theorem isTrivia_of_mem_nil : ∀ t ∈ ([] : List Token), t.isTrivia = true := by
  simp

/-- The tokens of a part that may be missing. -/
def Lexeme.tokens? {part : Kind → Prop} (x : Option (Lexeme part)) : List Token :=
  (x.map Lexeme.tokens).getD []

/-- A type of one token. -/
structure TypeTerm where
  question : Option (Lexeme (· = .question))
  name : Lexeme (·.isTypePart = true)

namespace TypeTerm

def tokens (x : TypeTerm) : List Token := Lexeme.tokens? x.question ++ x.name.tokens

def text (x : TypeTerm) : String :=
  if x.question.isSome then "?" ++ x.name.token.text else x.name.token.text

end TypeTerm

/-- Types with bars between them, and perhaps behind them. -/
inductive TypeList
  | nil
  | last (type : TypeTerm)
  | more (type : TypeTerm) (bar : Lexeme (· = .pipe)) (rest : TypeList)

namespace TypeList

def tokens : TypeList → List Token
  | nil => []
  | last type => type.tokens
  | more type bar rest => type.tokens ++ (bar.tokens ++ rest.tokens)

def texts : TypeList → List String
  | nil => []
  | last type => [type.text]
  | more type _ rest => type.text :: rest.texts

end TypeList

/-- The bracket that opens an attribute: a token of its own kind, or a square bracket directly
behind the mark of an attribute. -/
inductive AttributeOpener
  | composite (o : Token) (ho : o.kind = .attributeOpen)
  | marked (marker o : Token) (hmarker : marker.kind = .attributeMarker) (ho : o.kind = .openSquare)

def AttributeOpener.tokens : AttributeOpener → List Token
  | composite o _ => [o]
  | marked marker o _ _ => [marker, o]

/-- An attribute. Its square brackets match, and of the others it closes as many as it
opens. -/
structure Attribute where
  opener : AttributeOpener
  content : List Token
  closer : Lexeme (· = .closeSquare)
  paired : Paired .square content
  even : Levels.zero.behind content = .zero

def Attribute.tokens (x : Attribute) : List Token :=
  x.opener.tokens ++ (x.content ++ x.closer.tokens)

/-- What may stand in front of a parameter. -/
inductive Modifier
  | skipped (x : Attribute)
  | word (x : Lexeme (· = .keyword))

def Modifier.tokens : Modifier → List Token
  | skipped x => x.tokens
  | word x => x.tokens

structure Default where
  equals : Token
  value : List Token
  isEquals : equals.kind = .equals
  isValue : Value value

/-- A parameter without its default. -/
structure Binding where
  modifiers : List Modifier
  types : TypeList
  reference : Option (Lexeme (· = .ampersand))
  ellipsis : Option (Lexeme (· = .ellipsis))
  name : Lexeme (· = .variableName)

namespace Binding

def tokens (x : Binding) : List Token :=
  x.modifiers.flatMap Modifier.tokens ++ (x.types.tokens ++ (Lexeme.tokens? x.reference ++
    (Lexeme.tokens? x.ellipsis ++ x.name.tokens)))

def parameter (x : Binding) : Parameter :=
  ⟨x.types.texts, x.name.token.text, none, x.reference.isSome, x.ellipsis.isSome⟩

end Binding

/-- A parameter with the default that it may have. A blank default is none. -/
structure Argument where
  binding : Binding
  default : Option Default

namespace Argument

def tokens (x : Argument) : List Token :=
  x.binding.tokens ++ (x.default.map fun d => d.equals :: d.value).getD []

def parameter (x : Argument) : Parameter :=
  { x.binding.parameter with
    default := (x.default.map fun d => Text.trimString (Token.joined d.value)).filter (· ≠ "") }

end Argument

/-- Parameters with commas between them, and perhaps behind them. -/
inductive ArgumentList
  | nil
  | last (x : Argument)
  | more (x : Argument) (comma : Lexeme (· = .comma)) (rest : ArgumentList)

namespace ArgumentList

def tokens : ArgumentList → List Token
  | nil => []
  | last x => x.tokens
  | more x comma rest => x.tokens ++ (comma.tokens ++ rest.tokens)

def parameters : ArgumentList → List Parameter
  | nil => []
  | last x => [x.parameter]
  | more x _ rest => x.parameter :: rest.parameters

end ArgumentList

/-- Kinds of tokens that may stand in a use clause. -/
def isUsePart (k : Kind) : Prop := k ≠ .colon ∧ k ≠ .semicolon ∧ k ≠ .openCurly ∧ k ≠ .doubleArrow

/-- The end of a signature: a semicolon, a double arrow, or a body. -/
inductive Ending
  | stop (t : Token) (ht : t.kind = .semicolon ∨ t.kind = .doubleArrow)
  | body (o c : Token) (content : List Token) (ho : o.kind = .openCurly)
      (hc : c.kind = .closeCurly) (paired : Paired .curly content)

namespace Ending

/-- The tokens in front of the last. -/
def front : Ending → List Token
  | stop _ _ => []
  | body o _ content _ _ _ => o :: content

def final : Ending → Token
  | stop t _ => t
  | body _ c _ _ _ _ => c

/-- The body, if the levels `l` hold in front of it. -/
def block? (l : Levels) : Ending → Option Block
  | stop _ _ => none
  | body o c _ _ _ _ => some ⟨l.curly + 1, o, c⟩

end Ending

/-- What follows the opening word, up to the return types. The trivia behind the parameter
list counts for the use clause. -/
structure Declarator where
  reference : Option (Lexeme (· = .ampersand))
  name : Option (Lexeme fun k => k = .identifier ∨ k.isKeyword = true)
  opener : Lexeme (· = .openParen)
  arguments : ArgumentList
  closer : Token
  use : List Token
  isCloser : closer.kind = .closeParen
  isUse : ∀ t ∈ use, isUsePart t.kind

namespace Declarator

def tokens (x : Declarator) : List Token :=
  Lexeme.tokens? x.reference ++ (Lexeme.tokens? x.name ++ (x.opener.tokens ++
    (x.arguments.tokens ++ x.closer :: x.use)))

end Declarator

/-- A signature. Arrow functions have no name. -/
structure Signature where
  word : Lexeme fun k => k = .functionWord ∨ k = .fnWord
  declarator : Declarator
  unnamed : word.token.kind = .fnWord → declarator.name = none
  returns : Option (Lexeme (· = .colon) × TypeList)
  ending : Ending

namespace Signature

/-- The tokens behind the opening word and in front of the end. -/
def head (x : Signature) : List Token :=
  x.word.blanks ++ (x.declarator.tokens ++
    (x.returns.map fun r => r.1.tokens ++ r.2.tokens).getD [])

/-- The tokens behind the opening word. -/
def tokens (x : Signature) : List Token := x.head ++ (x.ending.front ++ [x.ending.final])

def kind (x : Signature) : FunctionKind :=
  if x.word.token.kind = .fnWord then .arrow
  else if x.declarator.name.isSome then .named else .anonymous

/-- What the tokens stand for, if the levels `l` hold in front of them. -/
def meaning (x : Signature) (l : Levels) : TokenAtlas.Signature where
  kind := x.kind
  name := x.declarator.name.map (·.token.text)
  hasReference :=
    x.declarator.reference.isSome || x.declarator.arguments.parameters.any (·.byReference)
  parameters := x.declarator.arguments.parameters
  returnTypes := (x.returns.map fun r => r.2.texts).getD []
  useText := Text.trimString (Token.joined x.declarator.use)
  body := x.ending.block? (l.behind x.head)

end Signature

end Written

end TokenAtlas
