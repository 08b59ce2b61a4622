import TokenAtlas.Symbol.Name
import TokenAtlas.Token.Basic

/-! What is recognized in a token stream: namespace declarations, import declarations
and function signatures. -/

namespace TokenAtlas

/-- The features that are recognized. -/
inductive Feature
  | namespaceDeclaration | namespaceImport | functionSignature
deriving Repr, DecidableEq

def Feature.name : Feature → String
  | .namespaceDeclaration => "namespace_declaration"
  | .namespaceImport => "namespace_import"
  | .functionSignature => "function_signature"

/-- The feature that an opening word may begin. -/
def Feature.ofOpener : Kind → Option Feature
  | .namespaceWord => some .namespaceDeclaration
  | .useWord => some .namespaceImport
  | .functionWord | .fnWord => some .functionSignature
  | _ => none

/-- A block in curly brackets, with the curly depth inside it. -/
structure Block where
  depth : Int
  opener : Token
  closer : Token
deriving Repr, DecidableEq

/-- A declaration of a namespace, the global one if the name is empty. -/
structure NamespaceDeclaration where
  name : String
  body : Option Block
deriving Repr, DecidableEq

/-- An imported name in full, with the name it is known by if that is not its last
segment. -/
structure ImportEntry where
  kind : SymbolKind
  name : String
  knownAs : Option String
deriving Repr, DecidableEq

structure ImportDeclaration where
  entries : List ImportEntry
  groupPrefix : Option String
deriving Repr, DecidableEq

inductive FunctionKind
  | named | anonymous | arrow
deriving Repr, DecidableEq

def FunctionKind.name : FunctionKind → String
  | .named => "named"
  | .anonymous => "anonymous"
  | .arrow => "arrow"

/-- A parameter. Its types stand in order, with a question mark in front of a nullable
one; its default is the trimmed text of the expression. -/
structure Parameter where
  types : List String
  name : String
  default : Option String
  byReference : Bool
  variadic : Bool
deriving Repr, DecidableEq

namespace Parameter

def empty : Parameter := ⟨[], "", none, false, false⟩

def isUnion (p : Parameter) : Bool := 1 < p.types.length

end Parameter

/-- A function's signature. `useText` is what stands between the parameters and the
body or the return types. -/
structure Signature where
  kind : FunctionKind
  name : Option String
  hasReference : Bool
  parameters : List Parameter
  returnTypes : List String
  useText : String
  body : Option Block
deriving Repr, DecidableEq

inductive Product
  | namespaceDeclaration (declaration : NamespaceDeclaration)
  | namespaceImport (declaration : ImportDeclaration)
  | functionSignature (signature : Signature)
deriving Repr, DecidableEq

namespace Product

def feature : Product → Feature
  | .namespaceDeclaration _ => .namespaceDeclaration
  | .namespaceImport _ => .namespaceImport
  | .functionSignature _ => .functionSignature

def body : Product → Option Block
  | .namespaceDeclaration d => d.body
  | .namespaceImport _ => none
  | .functionSignature s => s.body

end Product

end TokenAtlas
