import TokenAtlas.Category
import TokenAtlas.Feature.Product

/-! What a builder has to say about a token it was fed: how the token is to be
categorized, whether the feature is complete, and what became known. -/

namespace TokenAtlas

/-- The category of a token as its builder sees it, with the role of a name's last
segment. An absolute name is not resolved against the imports. -/
structure Hint where
  category : Category
  role : Option SymbolKind
  absolute : Bool
deriving Repr, DecidableEq

namespace Hint

def ofCategory (c : Category) : Hint := ⟨c, none, false⟩

/-- The hint for a qualified name. -/
def name (role : Option SymbolKind) : Hint := ⟨.qualifiedName, role, true⟩

end Hint

/-- News from a builder. -/
inductive BuildEvent
  | namespaceNameKnown (name : String)
deriving Repr, DecidableEq

/-- A builder's answer to a token. -/
structure Feed where
  done : Bool
  hint : Option Hint
  events : List BuildEvent
deriving Repr, DecidableEq

namespace Feed

/-- The answer to a token that the builder has nothing to say about. -/
def quiet : Feed := ⟨false, none, []⟩

def finished : Feed := ⟨true, none, []⟩

def hinted (h : Hint) : Feed := ⟨false, some h, []⟩

def withEvent (f : Feed) (e : BuildEvent) : Feed := { f with events := f.events ++ [e] }

end Feed

/-- How far a builder has come. -/
inductive Progress
  | pending | building | finished
deriving Repr, DecidableEq

def Progress.name : Progress → String
  | .pending => "pending"
  | .building => "building"
  | .finished => "finished"

/-- Whether a feature begins with the buffered tokens. -/
inductive Verdict
  | yes | no | unknown
deriving Repr, DecidableEq

def Verdict.name : Verdict → String
  | .yes => "yes"
  | .no => "no"
  | .unknown => "unknown"

end TokenAtlas
