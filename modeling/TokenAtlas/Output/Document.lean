import TokenAtlas.Moment
import TokenAtlas.Output.Listing

/-! What a scan leaves behind, and the document that presents it. -/

namespace TokenAtlas

/-- The tokens of a scan, the features in the order of completion, and what was in
force at the end. -/
structure ScanResult where
  tokens : List ScannedToken
  products : List Product
  imports : Imports
  metrics : ScanMetrics

namespace ScanResult

/-- The source put together again from its tokens. -/
def sourceText (r : ScanResult) : String :=
  r.tokens.foldl (fun text t => text ++ t.token.text) ""

def active (r : ScanResult) : Option String := r.imports.active

end ScanResult

/-- A scan as it is presented. `source` is a name for where the tokens came from. -/
structure Document where
  generated : Moment
  source : Option String
  mode : OutputMode
  active : Option String
  listing : Listing
  features : List Product
  imports : Imports
  metrics : Option ScanMetrics

def Document.ofResult (r : ScanResult) (p : StreamPreferences) (source : Option String)
    (generated : Moment) : Document where
  generated := generated
  source := source
  mode := p.mode
  active := r.active
  listing := .ofTokens p r.tokens
  features := r.products
  imports := r.imports
  metrics := if p.metrics then some r.metrics else none

end TokenAtlas
