import TokenAtlas.Feature.Hint
import TokenAtlas.Levels
import TokenAtlas.Text.Blank

/-! Building a function signature. A signature has four parts: what stands before the
parameter list, the list, what stands behind it, and the body. A named function, a
closure and an arrow function differ in the first and the last of them only. -/

namespace TokenAtlas

/-- Tokens that can be part of a type. -/
def Kind.isTypePart (k : Kind) : Bool :=
  match k with
  | .separator | .arrayWord | .callableWord | .staticWord => true
  | _ => k.isName

/-- A type that is being read, and whether a question mark stands in front of it. -/
structure TypeDraft where
  text : String
  nullable : Bool
deriving Repr, DecidableEq

namespace TypeDraft

def empty : TypeDraft := ⟨"", false⟩

def push (d : TypeDraft) (text : String) : TypeDraft :=
  if d.text = "" && d.nullable then ⟨"?" ++ text, false⟩ else { d with text := d.text ++ text }

/-- The types with the one that is being read, if there is one. -/
def appendTo (d : TypeDraft) (types : List String) : List String :=
  if d.text = "" then types else types ++ [d.text]

end TypeDraft

/-- A parameter that is being read. `default` is the text behind the equals sign;
`skipping` is the square depth of an attribute that is being passed over, and `marked`
says that the mark of an attribute was just read. -/
structure ParameterDraft where
  parameter : Parameter
  type : TypeDraft
  default : Option String
  marked : Bool
  skipping : Option Int
deriving Repr, DecidableEq

namespace ParameterDraft

def empty : ParameterDraft := ⟨.empty, .empty, none, false, none⟩

/-- Close the type that is being read. -/
def closeType (d : ParameterDraft) : ParameterDraft :=
  { d with
    parameter := { d.parameter with types := d.type.appendTo d.parameter.types }
    type := .empty }

/-- The complete parameter, `none` if there is nothing in it. A blank default is no
default. -/
def toParameter? (d : ParameterDraft) : Option Parameter :=
  let p := d.closeType.parameter
  let p := { p with default := (d.default.map Text.trimString).filter (· ≠ "") }
  if p.name = "" && p.types.isEmpty then none else some p

/-- Whether a name that comes now is part of the parameter's type. -/
def readsType (d : ParameterDraft) : Bool :=
  d.default.isNone && d.skipping.isNone && d.parameter.name = ""

end ParameterDraft

/-- Where a signature stands. Brackets are matched by the depths at which they were
opened. -/
inductive SignaturePhase
  | opening
  | parameters (parens unified : Int) (draft : ParameterDraft)
  | behind (inReturn : Bool) (type : TypeDraft)
  | inBody (depth : Int) (opener : Token)
  | finished
deriving Repr, DecidableEq

def SignaturePhase.name : SignaturePhase → String
  | .opening => "init"
  | .parameters _ _ _ => "params"
  | .behind _ _ => "post_params"
  | .inBody _ _ | .finished => "closed"

structure SignatureBuilder where
  fed : Bool
  phase : SignaturePhase
  signature : Signature
deriving Repr, DecidableEq

namespace SignatureBuilder

/-- A builder that was fed nothing but the word that opens the signature. -/
def fresh (isArrow : Bool) : SignatureBuilder :=
  ⟨false, .opening, ⟨if isArrow then .arrow else .anonymous, none, false, [], [], "", none⟩⟩

def progress (b : SignatureBuilder) : Progress :=
  if b.phase = .finished then .finished else if b.fed then .building else .pending

/-- Whether a name that comes now is a parameter's or a return type. -/
def readsTypes (b : SignatureBuilder) : Bool :=
  match b.phase with
  | .parameters _ _ draft => draft.readsType
  | .behind inReturn _ => inReturn
  | _ => false

/-- Complete the signature. -/
def close (b : SignatureBuilder) : SignatureBuilder :=
  { b with
    phase := .finished
    signature := { b.signature with useText := Text.trimString b.signature.useText } }

/-- A token before the parameter list. A function may be named after a reserved word. -/
def feedOpening (b : SignatureBuilder) (t : Token) (l : Levels) : Feed × SignatureBuilder :=
  match t.kind with
  | .ampersand => (.quiet, { b with signature := { b.signature with hasReference := true } })
  | .openParen => (.quiet, { b with phase := .parameters l.parens l.unified .empty })
  | k =>
    if b.signature.name.isNone && b.signature.kind ≠ .arrow &&
        (k = .identifier || k.isKeyword) then
      (.hinted (.ofCategory .functionName),
        { b with signature := { b.signature with name := some t.text, kind := .named } })
    else (.quiet, b)

def addParameter (b : SignatureBuilder) (d : ParameterDraft) : SignatureBuilder :=
  { b with
    signature :=
      { b.signature with parameters := b.signature.parameters ++ d.toParameter?.toList } }

/-- A token of a parameter that is outside attributes and defaults. Modifiers and
trivia count for nothing. -/
def feedParameter (b : SignatureBuilder) (parens unified : Int) (d : ParameterDraft) (t : Token)
    (l : Levels) : SignatureBuilder :=
  let keep (d : ParameterDraft) := { b with phase := .parameters parens unified d }
  match t.kind with
  | .question => keep { d with type := { d.type with nullable := true } }
  | .pipe => keep d.closeType
  | .ampersand =>
    { keep { d with parameter := { d.parameter with byReference := true } } with
      signature := { b.signature with hasReference := true } }
  | .ellipsis => keep { d with parameter := { d.parameter with variadic := true } }
  | .variableName =>
    let d := d.closeType
    keep { d with parameter := { d.parameter with name := t.text } }
  | .equals => keep { d with default := some "" }
  | .comma =>
    if l.unified = unified then
      { b.addParameter d with phase := .parameters parens unified .empty }
    else keep d
  | k =>
    if k.isTypePart && d.parameter.name = "" then keep { d with type := d.type.push t.text }
    else keep d

/-- A token in the parameter list, outside attributes. -/
def feedList (b : SignatureBuilder) (parens unified : Int) (d : ParameterDraft) (t : Token)
    (l : Levels) : SignatureBuilder :=
  if t.kind = .closeParen && l.parens = parens then
    { b.addParameter d with phase := .behind false .empty }
  else
    match d.default with
    | some text =>
      if t.kind = .comma && l.unified = unified then
        { b.addParameter d with phase := .parameters parens unified .empty }
      else { b with phase := .parameters parens unified { d with default := some (text ++ t.text) } }
    | none => b.feedParameter parens unified d t l

/-- A token in the parameter list. An attribute is passed over up to the bracket that
closes it. -/
def feedParameters (b : SignatureBuilder) (parens unified : Int) (d : ParameterDraft) (t : Token)
    (l : Levels) : SignatureBuilder :=
  let keep (d : ParameterDraft) := { b with phase := .parameters parens unified d }
  match d.skipping with
  | some depth =>
    if t.kind = .closeSquare && l.square = depth then keep { d with skipping := none } else keep d
  | none =>
    if t.kind = .attributeMarker then keep { d with marked := true }
    else if t.kind = .attributeOpen then keep { d with skipping := some l.square }
    else if t.kind = .openSquare && d.marked then
      keep { d with marked := false, skipping := some l.square }
    else b.feedList parens unified { d with marked := false } t l

/-- A token behind the parameter list: the closure's use clause first, and behind a
colon the return types. -/
def feedBehind (b : SignatureBuilder) (inReturn : Bool) (type : TypeDraft) (t : Token)
    (l : Levels) : Feed × SignatureBuilder :=
  let keep (type : TypeDraft) : SignatureBuilder := { b with phase := .behind inReturn type }
  let closed : SignatureBuilder :=
    { b with
      signature := { b.signature with returnTypes := type.appendTo b.signature.returnTypes } }
  match t.kind with
  | .doubleArrow | .semicolon => (.finished, closed.close)
  | .openCurly => (.quiet, { closed with phase := .inBody l.curly t })
  | .colon => (.quiet, { b with phase := .behind true type })
  | k =>
    if inReturn then
      match k with
      | .question => (.quiet, keep { type with nullable := true })
      | .pipe => (.quiet, { closed with phase := .behind inReturn .empty })
      | k => (.quiet, if k.isTypePart then keep (type.push t.text) else b)
    else
      (.quiet,
        { b with signature := { b.signature with useText := b.signature.useText ++ t.text } })

/-- A token inside the body that was opened by `opener`. -/
def feedBody (b : SignatureBuilder) (depth : Int) (opener t : Token) (l : Levels) :
    Feed × SignatureBuilder :=
  if t.kind = .closeCurly && l.curly = depth then
    (.finished,
      { b with signature := { b.signature with body := some ⟨depth, opener, t⟩ } }.close)
  else (.quiet, b)

def feed (b : SignatureBuilder) (t : Token) (l : Levels) : Feed × SignatureBuilder :=
  let b := { b with fed := true }
  match b.phase with
  | .opening => b.feedOpening t l
  | .parameters parens unified draft => (.quiet, b.feedParameters parens unified draft t l)
  | .behind inReturn type => b.feedBehind inReturn type t l
  | .inBody depth opener => b.feedBody depth opener t l
  | .finished => (.quiet, b)

end SignatureBuilder

end TokenAtlas
