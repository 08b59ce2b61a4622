import TokenAtlas.Feature.ImportBuilder
import TokenAtlas.Feature.NamespaceBuilder
import TokenAtlas.Feature.SignatureBuilder

/-! Builders of all features. A builder is created from the buffered tokens that begin
a feature and is then fed one token at a time. -/

namespace TokenAtlas

inductive Builder
  | namespaceDeclaration (b : NamespaceBuilder)
  | namespaceImport (b : ImportBuilder)
  | functionSignature (b : SignatureBuilder)
deriving Repr, DecidableEq

namespace Builder

def feature : Builder → Feature
  | .namespaceDeclaration _ => .namespaceDeclaration
  | .namespaceImport _ => .namespaceImport
  | .functionSignature _ => .functionSignature

def progress : Builder → Progress
  | .namespaceDeclaration b => b.progress
  | .namespaceImport b => b.progress
  | .functionSignature b => b.progress

def feed (b : Builder) (t : Token) (l : Levels) : Feed × Builder :=
  match b with
  | .namespaceDeclaration b => (b.feed t l).map id .namespaceDeclaration
  | .namespaceImport b => (b.feed t).map id .namespaceImport
  | .functionSignature b => (b.feed t l).map id .functionSignature

/-- The product as far as it is known. -/
def snapshot : Builder → Product
  | .namespaceDeclaration b => .namespaceDeclaration b.declaration
  | .namespaceImport b => .namespaceImport b.declaration
  | .functionSignature b => .functionSignature b.signature

/-- The complete product. -/
def product? (b : Builder) : Option Product :=
  if b.progress = .finished then some b.snapshot else none

/-- The curly depth inside an open namespace body. -/
def bodyDepth : Builder → Option Int
  | .namespaceDeclaration b => b.bodyDepth
  | _ => none

/-- Whether a name that comes now is a parameter's or a return type. -/
def readsTypes : Builder → Bool
  | .functionSignature b => b.readsTypes
  | _ => false

/-- The phase of a function signature. -/
def phaseName? : Builder → Option String
  | .functionSignature b => some b.phase.name
  | _ => none

end Builder

namespace Feature

/-- A namespace is declared outside every block and every other feature. The token
behind the word decides. -/
def verifyNamespace (l : Levels) (active : Option Builder) (buffer : List Token) : Verdict :=
  if active.isSome || l.curly ≠ 0 then .no
  else
    match buffer with
    | [] | [_] => .unknown
    | _ :: t :: _ => if t.kind.isName || t.kind = .openCurly then .yes else .no

/-- An import stands outside every block or directly in the body of a namespace.
Elsewhere the word opens a trait use or a use clause. -/
def verifyImport (l : Levels) (active : Option Builder) : Verdict :=
  match active with
  | none => if l.curly = 0 then .yes else .no
  | some b => if b.bodyDepth = some l.curly then .yes else .no

/-- A function may stand anywhere except in an import declaration. -/
def verifySignature : Option Builder → Verdict
  | some (.namespaceImport _) => .no
  | _ => .yes

/-- Whether the buffered tokens, of which the first is the opening word, begin the
feature. -/
def verify (f : Feature) (l : Levels) (active : Option Builder) (buffer : List Token) : Verdict :=
  match f with
  | .namespaceDeclaration => verifyNamespace l active buffer
  | .namespaceImport => verifyImport l active
  | .functionSignature => verifySignature active

/-- A builder that was fed nothing but its opening word. -/
def start (f : Feature) (opener : Option Token) : Builder :=
  match f with
  | .namespaceDeclaration => .namespaceDeclaration .fresh
  | .namespaceImport => .namespaceImport .fresh
  | .functionSignature => .functionSignature (.fresh (opener.any (·.kind = .fnWord)))

/-- Feed tokens in order until the builder is done. The answer is that to the last
token fed, with the news of all. -/
def replay (b : Builder) (news : List BuildEvent) (last : Feed) (l : Levels) :
    List Token → Feed × Builder
  | [] => ({ last with events := news }, b)
  | t :: rest =>
    match b.feed t l with
    | (f, b) =>
      if f.done then ({ f with events := news ++ f.events }, b)
      else replay b (news ++ f.events) f l rest

/-- A builder for the feature that begins with the buffered tokens. -/
def create (f : Feature) (l : Levels) (buffer : List Token) : Feed × Builder :=
  replay (f.start buffer.head?) [] .quiet l (buffer.drop 1)

end Feature

end TokenAtlas
