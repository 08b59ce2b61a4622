import Std.Data.TreeMap
import TokenAtlas.Cursor
import TokenAtlas.Feature.Hint
import TokenAtlas.Symbol.Imports

/-! The classification of tokens. What a builder hints counts first, then a `case`
label, a closing curly bracket by its own opening one, a qualified name, and the
category of the kind. An identifier is classified by the tokens around it. A token is
classified once; the result is kept under its index. -/

namespace TokenAtlas

/-- The category of a token and its tags. -/
structure Classification where
  category : Category
  tags : List Tag
deriving Repr, DecidableEq

/-- What a scan knows when it classifies a token. `readsTypes` says that the innermost
builder is reading types. -/
structure Surroundings where
  hint : Option Hint
  levels : Levels
  readsTypes : Bool
  imports : Imports

namespace Classification

/-- Tokens that may stand between a list of class names and the word in front. -/
def isNameList (t : Token) : Bool :=
  t.isTrivia || t.kind.isName || t.kind = .comma || t.kind = .separator

/-- Tokens that may stand between the types to catch and the bracket in front. -/
def isTypeUnion (t : Token) : Bool :=
  t.isTrivia || t.kind.isName || t.kind = .pipe || t.kind = .separator

/-- Whether a name behind these tokens, the latest first, is that of a class: a word
that introduces classes stands in front of the list, or it is a type to catch. -/
def namesClass (before : List Token) : Bool :=
  ((Cursor.nearest isNameList before).any fun found => found.1.kind.introducesClass) ||
    match Cursor.nearest isTypeUnion before with
    | some (t, rest) =>
      t.kind = .openParen &&
        (Cursor.nearest Token.isTrivia rest).any fun found => found.1.kind = .catchWord
    | none => false

/-- Whether an opening round bracket comes next, blanks apart. -/
def opensCall (c : Cursor) : Bool × Cursor :=
  let (next, c) := c.aheadSkipping (·.kind.isWhitespace)
  (next.any (·.kind = .openParen), c)

/-- The category that the token before an identifier gives to it. -/
def afterOperator : Kind → Option Category
  | .objectOperator | .nullsafeObjectOperator => some .variableName
  | .doubleColon | .constWord => some .constantName
  | _ => none

/-- The category of an identifier that is neither reserved nor in a place for names of
classes. -/
def ofOpenIdentifier (c : Cursor) (readsTypes : Bool) : Category × Cursor :=
  let (isCall, c) := opensCall c
  if isCall then (.functionName, c)
  else
    match c.previousSignificant.bind fun t => afterOperator t.kind with
    | some category => (category, c)
    | none =>
      if readsTypes then (.className, c)
      else
        let (next, c) := c.nextSignificant
        (if next.any (·.kind = .doubleColon) then .className else .plainName, c)

/-- The category of an identifier. -/
def ofIdentifier (t : Token) (c : Cursor) (readsTypes : Bool) : Category × Cursor :=
  match Category.ofReserved t.text with
  | some category => (category, c)
  | none => if namesClass c.before then (.className, c) else ofOpenIdentifier c readsTypes

/-- The role of the last segment of a qualified name. -/
def segmentRole (c : Cursor) : SymbolKind × Cursor :=
  if namesClass c.before then (.classLike, c)
  else
    let (isCall, c) := opensCall c
    (if isCall then .function else .classLike, c)

/-- The category of a closing curly bracket whose opening one was of kind `opener`. -/
def ofCloser : Option Kind → Category
  | some .dollarCurly => .variableNameClose
  | some .curlyDollar => .interpolation
  | _ => .punctuation

/-- Whether a token is the name of a `case`. -/
def isCaseLabel (t : Token) (c : Cursor) : Bool :=
  (t.kind = .identifier || t.kind.isKeyword) &&
    c.previousSignificant.any (·.kind = .caseWord)

/-- The category of a token and the role of a qualified name. `opener` is the kind of
the curly bracket that the token closes. -/
def decide (t : Token) (opener : Option Kind) (s : Surroundings) (c : Cursor) :
    (Category × Option SymbolKind) × Cursor :=
  match s.hint with
  | some hint => ((hint.category, hint.role), c)
  | none =>
    if isCaseLabel t c then ((.plainName, none), c)
    else if t.kind = .closeCurly then ((ofCloser opener, none), c)
    else if t.kind.isNameSegment then
      let (role, c) := segmentRole c
      ((.qualifiedName, some role), c)
    else
      match Category.ofKind t.kind with
      | some category => ((category, none), c)
      | none =>
        let (category, c) := ofIdentifier t c s.readsTypes
        ((category, none), c)

def keywordTags (t : Token) (category : Category) : List Tag :=
  if category.isKeywordFamily then [.keyword t.text.toLower] else []

def bracketTags (t : Token) (l : Levels) : List Tag :=
  match t.kind.bracket with
  | some (family, side) => [.bracket side family (l.depth family)]
  | none => []

/-- The tags of a name: its role and its full form. A class name that a builder saw is
not resolved. -/
def nameTags (t : Token) (category : Category) (role : Option SymbolKind) (s : Surroundings) :
    List Tag :=
  match category with
  | .qualifiedName =>
    if t.kind.isName then
      let name :=
        if s.hint.any (·.absolute) then Name.relative t.text
        else s.imports.resolve (role.getD .classLike) t.text
      (role.map Tag.role).toList ++ [.resolved name]
    else []
  | .className => if s.hint.isNone then [.resolved (s.imports.resolve .classLike t.text)] else []
  | _ => []

def tagsOf (t : Token) (category : Category) (role : Option SymbolKind) (s : Surroundings) :
    List Tag :=
  keywordTags t category ++ (bracketTags t s.levels ++ nameTags t category role s)

end Classification

/-- The classifications so far by index, the open curly brackets, the innermost first,
and how often a kept classification was asked for. -/
structure Classifier where
  kept : Std.TreeMap Nat Classification
  curlies : List Kind
  hits : Nat

namespace Classifier

def fresh : Classifier := ⟨∅, [], 0⟩

/-- Follow the curly brackets. The kind is that of the bracket which the token closes. -/
def trackCurly (curlies : List Kind) (k : Kind) : Option Kind × List Kind :=
  match k.bracket with
  | some (.curly, .opening) => (none, k :: curlies)
  | some (.curly, .closing) => (curlies.head?, curlies.tail)
  | _ => (none, curlies)

/-- Classify the token with index `i`, which is the current one of the cursor. -/
def classify (r : Classifier) (i : Nat) (t : Token) (s : Surroundings) (c : Cursor) :
    Classification × Classifier × Cursor :=
  match r.kept[i]? with
  | some known => (known, { r with hits := r.hits + 1 }, c)
  | none =>
    let (opener, curlies) := trackCurly r.curlies t.kind
    let ((category, role), c) := Classification.decide t opener s c
    let found : Classification := ⟨category, Classification.tagsOf t category role s⟩
    (found, { r with kept := r.kept.insert i found, curlies := curlies }, c)

/-- The category alone. -/
def category (r : Classifier) (i : Nat) (t : Token) (s : Surroundings) (c : Cursor) :
    Category × Classifier × Cursor :=
  let (found, rest) := r.classify i t s c
  (found.category, rest)

end Classifier

end TokenAtlas
