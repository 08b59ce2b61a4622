/-! The kinds of symbols, and the names they have: segments joined by backslashes. A backslash
in front makes a name absolute. -/

namespace TokenAtlas

/-- Classes include interfaces, traits, enums and namespaces. -/
inductive SymbolKind
  | classLike | function | constant
deriving Repr, DecidableEq

def SymbolKind.name : SymbolKind → String
  | .classLike => "class"
  | .function => "function"
  | .constant => "constant"

namespace Name

def isSeparator (c : Char) : Bool := c = '\\'

/-- The name without the separators in front. -/
def relative (s : String) : String := String.ofList (s.toList.dropWhile isSeparator)

/-- The name without the separators behind. -/
def withoutTail (s : String) : String :=
  String.ofList (s.toList.reverse.dropWhile isSeparator).reverse

/-- What follows the last separator. -/
def lastSegment (s : String) : String :=
  String.ofList (s.toList.reverse.takeWhile (!isSeparator ·)).reverse

def join (front back : String) : String := front ++ "\\" ++ back

/-- How a name is to be resolved: it is `absolute`, has one segment only, or begins
with a segment that others follow. -/
inductive Shape
  | absolute (rest : String)
  | single
  | qualified (first rest : String)
deriving Repr, DecidableEq

def shape (s : String) : Shape :=
  match s.toList with
  | '\\' :: rest => .absolute (String.ofList rest)
  | cs =>
    match cs.dropWhile (!isSeparator ·) with
    | [] => .single
    | _ :: rest =>
      .qualified (String.ofList (cs.takeWhile (!isSeparator ·))) (String.ofList rest)

/-- Whether a segment is the word that stands for the active namespace. -/
def isNamespaceWord (s : String) : Bool := s.toLower = "namespace"

end Name

end TokenAtlas
