/-! Token kinds. A kind has the name under which a lexer reports it and a label for
displays. The names of some lexer tokens that are treated alike lead to one kind, and
that kind's own name is then not read back. -/

namespace TokenAtlas

/-- The kinds of tokens. `lineBreak`, `castType` and `attributeMarker` are kinds of
atoms only. -/
inductive Kind
  | inlineHtml | openTag | openTagWithEcho | closeTag
  | whitespace | lineBreak | comment | docComment
  | variableName | identifier | qualifiedName | fullyQualifiedName | relativeName
  | constantString | stringSegment | stringVariable | integer | decimal | numericString
  | heredocStart | heredocEnd | doubleQuote | backtick
  | intCast | doubleCast | stringCast | arrayCast | objectCast | boolCast | unsetCast | castType
  | attributeOpen | attributeMarker | dollarCurly | curlyDollar
  | namespaceWord | useWord | functionWord | fnWord | asWord | constWord
  | classWord | newWord | instanceofWord | extendsWord | interfaceWord | traitWord | enumWord
  | implementsWord | insteadofWord | catchWord
  | caseWord | staticWord | arrayWord | callableWord | keyword | expressionKeyword | magicConstant
  | doubleColon | objectOperator | nullsafeObjectOperator | doubleArrow | separator | ellipsis
  | operator
  | openParen | closeParen | openCurly | closeCurly | openSquare | closeSquare | semicolon | comma
  | colon | question | pipe | ampersand | equals | dollar | char
  | unknown
deriving Repr, DecidableEq, Inhabited

/-- The families of brackets whose nesting is tracked. -/
inductive Family
  | paren | curly | square
deriving Repr, DecidableEq

inductive Side
  | opening | closing
deriving Repr, DecidableEq

namespace Kind

/-- The name of a kind in a token dump. -/
def name : Kind → String
  | .inlineHtml => "T_INLINE_HTML"
  | .openTag => "T_OPEN_TAG"
  | .openTagWithEcho => "T_OPEN_TAG_WITH_ECHO"
  | .closeTag => "T_CLOSE_TAG"
  | .whitespace => "T_WHITESPACE"
  | .lineBreak => "LINE_BREAK"
  | .comment => "T_COMMENT"
  | .docComment => "T_DOC_COMMENT"
  | .variableName => "T_VARIABLE"
  | .identifier => "T_STRING"
  | .qualifiedName => "T_NAME_QUALIFIED"
  | .fullyQualifiedName => "T_NAME_FULLY_QUALIFIED"
  | .relativeName => "T_NAME_RELATIVE"
  | .constantString => "T_CONSTANT_ENCAPSED_STRING"
  | .stringSegment => "T_ENCAPSED_AND_WHITESPACE"
  | .stringVariable => "T_STRING_VARNAME"
  | .integer => "T_LNUMBER"
  | .decimal => "T_DNUMBER"
  | .numericString => "T_NUM_STRING"
  | .heredocStart => "T_START_HEREDOC"
  | .heredocEnd => "T_END_HEREDOC"
  | .doubleQuote => "\""
  | .backtick => "`"
  | .intCast => "T_INT_CAST"
  | .doubleCast => "T_DOUBLE_CAST"
  | .stringCast => "T_STRING_CAST"
  | .arrayCast => "T_ARRAY_CAST"
  | .objectCast => "T_OBJECT_CAST"
  | .boolCast => "T_BOOL_CAST"
  | .unsetCast => "T_UNSET_CAST"
  | .castType => "CAST_TYPE"
  | .attributeOpen => "T_ATTRIBUTE"
  | .attributeMarker => "ATTRIBUTE_MARKER"
  | .dollarCurly => "T_DOLLAR_OPEN_CURLY_BRACES"
  | .curlyDollar => "T_CURLY_OPEN"
  | .namespaceWord => "T_NAMESPACE"
  | .useWord => "T_USE"
  | .functionWord => "T_FUNCTION"
  | .fnWord => "T_FN"
  | .asWord => "T_AS"
  | .constWord => "T_CONST"
  | .classWord => "T_CLASS"
  | .newWord => "T_NEW"
  | .instanceofWord => "T_INSTANCEOF"
  | .extendsWord => "T_EXTENDS"
  | .interfaceWord => "T_INTERFACE"
  | .traitWord => "T_TRAIT"
  | .enumWord => "T_ENUM"
  | .implementsWord => "T_IMPLEMENTS"
  | .insteadofWord => "T_INSTEADOF"
  | .catchWord => "T_CATCH"
  | .caseWord => "T_CASE"
  | .staticWord => "T_STATIC"
  | .arrayWord => "T_ARRAY"
  | .callableWord => "T_CALLABLE"
  | .keyword => "KEYWORD"
  | .expressionKeyword => "EXPRESSION_KEYWORD"
  | .magicConstant => "MAGIC_CONSTANT"
  | .doubleColon => "T_DOUBLE_COLON"
  | .objectOperator => "T_OBJECT_OPERATOR"
  | .nullsafeObjectOperator => "T_NULLSAFE_OBJECT_OPERATOR"
  | .doubleArrow => "T_DOUBLE_ARROW"
  | .separator => "T_NS_SEPARATOR"
  | .ellipsis => "T_ELLIPSIS"
  | .operator => "OPERATOR"
  | .openParen => "("
  | .closeParen => ")"
  | .openCurly => "\x7b"
  | .closeCurly => "\x7d"
  | .openSquare => "["
  | .closeSquare => "]"
  | .semicolon => ";"
  | .comma => ","
  | .colon => ":"
  | .question => "?"
  | .pipe => "|"
  | .ampersand => "&"
  | .equals => "="
  | .dollar => "$"
  | .char => "CHAR"
  | .unknown => "UNKNOWN"

/-- The name of a kind in displays. -/
def label : Kind → String
  | .inlineHtml => "InlineHtml"
  | .openTag => "OpenTag"
  | .openTagWithEcho => "OpenTagWithEcho"
  | .closeTag => "CloseTag"
  | .whitespace => "Whitespace"
  | .lineBreak => "LineBreak"
  | .comment => "Comment"
  | .docComment => "DocComment"
  | .variableName => "Variable"
  | .identifier => "Identifier"
  | .qualifiedName => "NameQualified"
  | .fullyQualifiedName => "NameFullyQualified"
  | .relativeName => "NameRelative"
  | .constantString => "ConstantString"
  | .stringSegment => "EncapsedString"
  | .stringVariable => "StringVarname"
  | .integer => "LNumber"
  | .decimal => "DNumber"
  | .numericString => "NumString"
  | .heredocStart => "StartHeredoc"
  | .heredocEnd => "EndHeredoc"
  | .doubleQuote => "DoubleQuote"
  | .backtick => "Backtick"
  | .intCast => "IntCast"
  | .doubleCast => "DoubleCast"
  | .stringCast => "StringCast"
  | .arrayCast => "ArrayCast"
  | .objectCast => "ObjectCast"
  | .boolCast => "BoolCast"
  | .unsetCast => "UnsetCast"
  | .castType => "CastType"
  | .attributeOpen => "Attribute"
  | .attributeMarker => "AttributeMarker"
  | .dollarCurly => "DollarOpenCurlyBraces"
  | .curlyDollar => "CurlyOpen"
  | .namespaceWord => "Namespace"
  | .useWord => "Use"
  | .functionWord => "Function"
  | .fnWord => "Fn"
  | .asWord => "As"
  | .constWord => "Const"
  | .classWord => "Class"
  | .newWord => "New"
  | .instanceofWord => "Instanceof"
  | .extendsWord => "Extends"
  | .interfaceWord => "Interface"
  | .traitWord => "Trait"
  | .enumWord => "Enum"
  | .implementsWord => "Implements"
  | .insteadofWord => "Insteadof"
  | .catchWord => "Catch"
  | .caseWord => "Case"
  | .staticWord => "Static"
  | .arrayWord => "Array"
  | .callableWord => "Callable"
  | .keyword => "Keyword"
  | .expressionKeyword => "ExpressionKeyword"
  | .magicConstant => "MagicConstant"
  | .doubleColon => "DoubleColon"
  | .objectOperator => "ObjectOperator"
  | .nullsafeObjectOperator => "NullsafeObjectOperator"
  | .doubleArrow => "DoubleArrow"
  | .separator => "NsSeparator"
  | .ellipsis => "Ellipsis"
  | .operator => "Operator"
  | .openParen => "OpenParen"
  | .closeParen => "CloseParen"
  | .openCurly => "OpenCurly"
  | .closeCurly => "CloseCurly"
  | .openSquare => "OpenSquare"
  | .closeSquare => "CloseSquare"
  | .semicolon => "Semicolon"
  | .comma => "Comma"
  | .colon => "Colon"
  | .question => "Question"
  | .pipe => "Pipe"
  | .ampersand => "Ampersand"
  | .equals => "Equals"
  | .dollar => "Dollar"
  | .char => "Char"
  | .unknown => "Unknown"

/-- The kind of a token that is one character long. -/
def ofChar : Char → Kind
  | '(' => .openParen
  | ')' => .closeParen
  | '\x7b' => .openCurly
  | '\x7d' => .closeCurly
  | '[' => .openSquare
  | ']' => .closeSquare
  | ';' => .semicolon
  | ',' => .comma
  | ':' => .colon
  | '?' => .question
  | '|' => .pipe
  | '&' => .ampersand
  | '=' => .equals
  | '$' => .dollar
  | '"' => .doubleQuote
  | '\x60' => .backtick
  | '\\' => .separator
  | _ => .char

/-- The kinds that are the only ones under their name. -/
def sole : List Kind :=
  [.inlineHtml, .openTag, .openTagWithEcho, .closeTag, .whitespace, .lineBreak, .comment,
   .docComment, .variableName, .identifier, .qualifiedName, .fullyQualifiedName, .relativeName,
   .constantString, .stringSegment, .stringVariable, .integer, .decimal, .numericString,
   .heredocStart, .heredocEnd, .intCast, .doubleCast, .stringCast, .arrayCast, .objectCast,
   .boolCast, .unsetCast, .castType, .attributeOpen, .attributeMarker, .dollarCurly, .curlyDollar,
   .namespaceWord, .useWord, .functionWord, .fnWord, .asWord, .constWord, .classWord, .newWord,
   .instanceofWord, .extendsWord, .interfaceWord, .traitWord, .enumWord, .implementsWord,
   .insteadofWord, .catchWord, .caseWord, .staticWord, .arrayWord, .callableWord, .objectOperator,
   .nullsafeObjectOperator, .doubleArrow, .separator, .ellipsis]

/-- The lexer names that share a kind. -/
def sharedNames : List (Kind × List String) :=
  [(.keyword,
    ["T_ABSTRACT", "T_BREAK", "T_CONTINUE", "T_DECLARE", "T_DEFAULT", "T_DO", "T_ECHO", "T_ELSE",
     "T_ELSEIF", "T_ENDDECLARE", "T_ENDFOR", "T_ENDFOREACH", "T_ENDIF", "T_ENDSWITCH",
     "T_ENDWHILE", "T_FINAL", "T_FINALLY", "T_FOR", "T_FOREACH", "T_GLOBAL", "T_GOTO", "T_IF",
     "T_PRIVATE", "T_PROTECTED", "T_PUBLIC", "T_READONLY", "T_RETURN", "T_SWITCH", "T_TRY",
     "T_VAR", "T_WHILE", "T_HALT_COMPILER"]),
   (.expressionKeyword,
    ["T_ISSET", "T_EMPTY", "T_EVAL", "T_INCLUDE", "T_INCLUDE_ONCE", "T_REQUIRE", "T_REQUIRE_ONCE",
     "T_PRINT", "T_LIST", "T_EXIT", "T_CLONE", "T_YIELD", "T_YIELD_FROM", "T_THROW", "T_MATCH",
     "T_UNSET"]),
   (.magicConstant,
    ["T_LINE", "T_FILE", "T_DIR", "T_CLASS_C", "T_TRAIT_C", "T_METHOD_C", "T_FUNC_C", "T_NS_C",
     "T_PROPERTY_C"]),
   (.operator,
    ["T_IS_EQUAL", "T_IS_NOT_EQUAL", "T_IS_IDENTICAL", "T_IS_NOT_IDENTICAL",
     "T_IS_SMALLER_OR_EQUAL", "T_IS_GREATER_OR_EQUAL", "T_SPACESHIP", "T_PLUS_EQUAL",
     "T_MINUS_EQUAL", "T_MUL_EQUAL", "T_DIV_EQUAL", "T_CONCAT_EQUAL", "T_MOD_EQUAL",
     "T_AND_EQUAL", "T_OR_EQUAL", "T_XOR_EQUAL", "T_SL_EQUAL", "T_SR_EQUAL", "T_POW_EQUAL",
     "T_COALESCE_EQUAL", "T_COALESCE", "T_BOOLEAN_AND", "T_BOOLEAN_OR", "T_LOGICAL_AND",
     "T_LOGICAL_OR", "T_LOGICAL_XOR", "T_INC", "T_DEC", "T_SL", "T_SR", "T_POW"]),
   (.ampersand,
    ["T_AMPERSAND_FOLLOWED_BY_VAR_OR_VARARG", "T_AMPERSAND_NOT_FOLLOWED_BY_VAR_OR_VARARG"]),
   (.doubleColon,
    ["T_PAAMAYIM_NEKUDOTAYIM", "T_DOUBLE_COLON"])]

/-- The kind that a lexer name, or the text of a token of one character, stands for.
An unfamiliar name is not an error. -/
def ofName (s : String) : Kind :=
  match s.toList with
  | [c] => ofChar c
  | _ =>
    match sole.find? (·.name = s) with
    | some k => k
    | none =>
      match sharedNames.find? (fun entry => entry.2.contains s) with
      | some entry => entry.1
      | none => .unknown

/-- The bracket a kind is, if it takes part in nesting. -/
def bracket : Kind → Option (Family × Side)
  | .openParen => some (.paren, .opening)
  | .closeParen => some (.paren, .closing)
  | .openCurly | .curlyDollar | .dollarCurly => some (.curly, .opening)
  | .closeCurly => some (.curly, .closing)
  | .openSquare | .attributeOpen => some (.square, .opening)
  | .closeSquare => some (.square, .closing)
  | _ => none

def isCast : Kind → Bool
  | .intCast | .doubleCast | .stringCast | .arrayCast | .objectCast | .boolCast
  | .unsetCast => true
  | _ => false

def isWhitespace : Kind → Bool
  | .whitespace | .lineBreak => true
  | _ => false

/-- Kinds that carry no meaning for the grammar. -/
def isTrivia : Kind → Bool
  | .whitespace | .lineBreak | .comment | .docComment => true
  | _ => false

/-- Names that hold a separator. -/
def isNameSegment : Kind → Bool
  | .qualifiedName | .fullyQualifiedName | .relativeName => true
  | _ => false

def isName (k : Kind) : Bool := k = .identifier || k.isNameSegment

/-- Words after which the name of a class stands. -/
def introducesClass : Kind → Bool
  | .classWord | .newWord | .instanceofWord | .extendsWord | .interfaceWord | .traitWord
  | .enumWord | .implementsWord | .insteadofWord | .useWord => true
  | _ => false

/-- Reserved words. -/
def isKeyword : Kind → Bool
  | .namespaceWord | .useWord | .functionWord | .fnWord | .asWord | .constWord | .classWord
  | .newWord | .instanceofWord | .extendsWord | .interfaceWord | .traitWord | .enumWord
  | .implementsWord | .insteadofWord | .catchWord | .caseWord | .staticWord | .arrayWord
  | .callableWord | .keyword | .expressionKeyword => true
  | _ => false

end Kind

def Family.name : Family → String
  | .paren => "paren"
  | .curly => "curly"
  | .square => "square"

end TokenAtlas
