import TokenAtlas.Symbol.Name
import TokenAtlas.Token.Basic

/-! Categories of tokens for presentation, and the tags that go with them. Most kinds
of tokens have one category wherever they stand; identifiers do not. -/

namespace TokenAtlas

/-- What a token means to a reader. `plainName` is an identifier whose role is not
known, `variableName` a property or the name inside braces in a string, and
`variableNameClose` the brace behind such a name. -/
inductive Category
  | keyword | expressionKeyword | typeKeyword | literal | magicConstant
  | variableRef | variableName | variableNameClose | className | functionName | constantName | qualifiedName | plainName
  | quotedString | heredoc | interpolation | number | cast
  | operator | punctuation | attributeMark
  | comment | docComment | whitespace | lineBreak | tag | inlineHtml
  | unknown
deriving Repr, DecidableEq

namespace Category

def name : Category → String
  | .keyword => "keyword"
  | .expressionKeyword => "expression_keyword"
  | .typeKeyword => "type_keyword"
  | .literal => "literal"
  | .magicConstant => "magic_constant"
  | .variableRef => "variable"
  | .variableName => "variable_name"
  | .variableNameClose => "variable_name_close"
  | .className => "class_name"
  | .functionName => "function_name"
  | .constantName => "constant_name"
  | .qualifiedName => "namespace"
  | .plainName => "string"
  | .quotedString => "quoted_string"
  | .heredoc => "heredoc"
  | .interpolation => "interpolation"
  | .number => "number"
  | .cast => "cast"
  | .operator => "operator"
  | .punctuation => "punctuation"
  | .attributeMark => "attribute"
  | .comment => "comment"
  | .docComment => "doc_comment"
  | .whitespace => "whitespace"
  | .lineBreak => "line_break"
  | .tag => "tag"
  | .inlineHtml => "inline_html"
  | .unknown => "unknown"

def all : List Category :=
  [.keyword, .expressionKeyword, .typeKeyword, .literal, .magicConstant, .variableRef,
   .variableName, .variableNameClose, .className, .functionName, .constantName, .qualifiedName,
   .plainName, .quotedString, .heredoc, .interpolation, .number, .cast, .operator, .punctuation,
   .attributeMark, .comment, .docComment, .whitespace, .lineBreak, .tag, .inlineHtml, .unknown]

def ofName? (s : String) : Option Category := all.find? (·.name = s)

/-- The class name of a category in a style sheet. -/
def styleClass (c : Category) : String :=
  c.name.map fun ch => if ch = '_' then '-' else ch

/-- Categories whose tokens are tagged with the keyword they spell. -/
def isKeywordFamily : Category → Bool
  | .keyword | .expressionKeyword | .typeKeyword | .literal | .magicConstant => true
  | _ => false

/-- The category of an identifier that names a symbol of a known kind. -/
def ofSymbol : SymbolKind → Category
  | .classLike => .className
  | .function => .functionName
  | .constant => .constantName

/-- The category of a kind, `none` for identifiers. -/
def ofKind : Kind → Option Category
  | .inlineHtml => some .inlineHtml
  | .openTag | .openTagWithEcho | .closeTag => some .tag
  | .whitespace => some .whitespace
  | .lineBreak => some .lineBreak
  | .comment => some .comment
  | .docComment => some .docComment
  | .variableName => some .variableRef
  | .stringVariable => some .variableName
  | .identifier => none
  | .qualifiedName | .fullyQualifiedName | .relativeName | .separator => some .qualifiedName
  | .constantString | .stringSegment | .doubleQuote | .backtick => some .quotedString
  | .heredocStart | .heredocEnd => some .heredoc
  | .dollarCurly | .curlyDollar => some .interpolation
  | .integer | .decimal | .numericString => some .number
  | .intCast | .doubleCast | .stringCast | .arrayCast | .objectCast | .boolCast | .unsetCast
  | .castType => some .cast
  | .attributeOpen | .attributeMarker => some .attributeMark
  | .namespaceWord | .useWord | .functionWord | .fnWord | .asWord | .constWord | .classWord
  | .newWord | .instanceofWord | .extendsWord | .interfaceWord | .traitWord | .enumWord
  | .implementsWord | .insteadofWord | .catchWord | .caseWord | .staticWord
  | .keyword => some .keyword
  | .arrayWord | .callableWord => some .typeKeyword
  | .expressionKeyword => some .expressionKeyword
  | .magicConstant => some .magicConstant
  | .doubleColon | .objectOperator | .nullsafeObjectOperator | .doubleArrow | .ellipsis
  | .operator | .question | .pipe | .ampersand | .equals | .dollar | .char => some .operator
  | .openParen | .closeParen | .openCurly | .closeCurly | .openSquare | .closeSquare
  | .semicolon | .comma | .colon => some .punctuation
  | .unknown => some .unknown

/-- Names that look like identifiers and are reserved. -/
def ofReserved (text : String) : Option Category :=
  let word := text.toLower
  if word ∈ ["true", "false", "null"] then some .literal
  else if word ∈ ["string", "array", "int", "integer", "bool", "boolean", "object", "float",
      "double", "mixed", "void", "never", "self", "parent", "static", "iterable", "callable",
      "resource"] then some .typeKeyword
  else none

end Category

/-- What else is known about a token: the keyword it spells, the bracket it is and its
depth, the role of a qualified name's last segment, or the full form of a name. -/
inductive Tag
  | keyword (name : String)
  | bracket (side : Side) (family : Family) (depth : Int)
  | role (kind : SymbolKind)
  | resolved (name : String)
deriving Repr, DecidableEq

def Tag.styleClass : Tag → String
  | .keyword name => s!"keyword-{name}"
  | .bracket .opening family depth => s!"opens-{family.name}-{depth}"
  | .bracket .closing family depth => s!"closes-{family.name}-{depth}"
  | .role kind => s!"role-{kind.name}"
  | .resolved _ => "resolved"

end TokenAtlas
