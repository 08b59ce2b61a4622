import TokenAtlas.Dump.FileError
import TokenAtlas.Feature.Product
import TokenAtlas.Levels
import TokenAtlas.Preferences
import TokenAtlas.Scan.Outcome

/-! What is worth telling while a stream is read, scanned and handed on. The steps are
pure; what they have to report they return as notices, in order. -/

namespace TokenAtlas

inductive Notice
  | loggingReady
  | tokenLimitsReady
  | fileLimitsReady
  | pipelineStarted (path : String) (refine : Bool) (mode : OutputMode)
  | fileStarted (path : String)
  | fileAccepted (size : Nat)
  | fileRejected (path : String) (error : Dump.FileError)
  | fileRead (path : String) (size tokens : Nat) (timed : Bool)
  | importReplaced (name previous : String)
  | importIgnored (name : String) (kind : SymbolKind)
  | candidateDropped (opener : String) (line buffered : Nat)
  | builderRefused (feature : Feature) (depth : Nat)
  | builderOpened (feature : Feature) (line depth : Nat)
  | builderFinished (feature : Feature) (depth : Nat)
  | namespaceEntered (name : Option String)
  | featureRecognized (feature : Feature)
  | scanHalted (error : ScanError) (yielded : Nat)
  | scanUnbalanced (levels : Levels)
  | scanUnfinished (innermost : Feature) (depth : Nat)
  | scanComplete (tokens features : Nat)
  | scanMeasured (metrics : ScanMetrics)
  | streamClassified (path : String) (tokens features : Nat) (active : Option String)
  | outputGenerated (mode : OutputMode) (entries : Nat)
deriving Repr, DecidableEq

/-- A result with what is to be told about it, in order. -/
structure Told (α : Type) where
  value : α
  notices : List Notice

end TokenAtlas
