import TokenAtlas.Feature.Hint
import TokenAtlas.Levels

/-! Building a namespace declaration. The name runs up to a semicolon, which completes
the declaration, or up to a curly bracket, whose partner completes it. Trivia counts
for nothing. -/

namespace TokenAtlas

/-- Where a namespace declaration stands. -/
inductive NamespacePhase
  | fresh
  | naming
  | inBody (depth : Int) (opener : Token)
  | finished
deriving Repr, DecidableEq

structure NamespaceBuilder where
  phase : NamespacePhase
  declaration : NamespaceDeclaration
deriving Repr, DecidableEq

namespace NamespaceBuilder

def fresh : NamespaceBuilder := ⟨.fresh, ⟨"", none⟩⟩

def progress (b : NamespaceBuilder) : Progress :=
  match b.phase with
  | .fresh => .pending
  | .naming | .inBody _ _ => .building
  | .finished => .finished

/-- The curly depth inside the body, once the body was opened. -/
def bodyDepth (b : NamespaceBuilder) : Option Int :=
  match b.phase with
  | .fresh | .naming => none
  | .inBody depth _ => some depth
  | .finished => b.declaration.body.map (·.depth)

/-- The answer to the token that ends the name. -/
def named (b : NamespaceBuilder) (f : Feed) : Feed :=
  f.withEvent (.namespaceNameKnown b.declaration.name)

def addName (b : NamespaceBuilder) (text : String) : NamespaceBuilder :=
  ⟨.naming, { b.declaration with name := b.declaration.name ++ text }⟩

/-- A token before the name has ended. -/
def feedName (b : NamespaceBuilder) (t : Token) (l : Levels) : Feed × NamespaceBuilder :=
  match t.kind with
  | .separator => (.quiet, b.addName t.text)
  | .semicolon => (b.named .finished, { b with phase := .finished })
  | .openCurly => (b.named .quiet, { b with phase := .inBody l.curly t })
  | k =>
    if k.isName then (.hinted (.name none), b.addName t.text)
    else (.quiet, { b with phase := .naming })

/-- A token inside the body that was opened by `opener`. -/
def feedBody (b : NamespaceBuilder) (depth : Int) (opener t : Token) (l : Levels) :
    Feed × NamespaceBuilder :=
  if t.kind = .closeCurly && l.curly = depth then
    (.finished, ⟨.finished, { b.declaration with body := some ⟨depth, opener, t⟩ }⟩)
  else (.quiet, b)

def feed (b : NamespaceBuilder) (t : Token) (l : Levels) : Feed × NamespaceBuilder :=
  if t.isTrivia then (.quiet, b)
  else
    match b.phase with
    | .finished => (.quiet, b)
    | .inBody depth opener => b.feedBody depth opener t l
    | .fresh | .naming => b.feedName t l

end NamespaceBuilder

end TokenAtlas
