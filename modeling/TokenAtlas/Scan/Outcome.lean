import TokenAtlas.Atom.Refine

/-! What comes of a scan besides its tokens: why it halts, where a token was refused or there are
too many, and its counts. -/

namespace TokenAtlas

inductive ScanError
  | refused (index : Nat) (refusal : Atom.Refusal)
  | tooManyTokens (limit : Nat)
deriving Repr, DecidableEq

def ScanError.message : ScanError → String
  | .refused index refusal => s!"Token {index} could not be atomized: {refusal.message}"
  | .tooManyTokens limit => s!"Token stream exceeds {limit} tokens"

def ScanError.code : ScanError → Log.Code
  | .refused _ refusal => refusal.code
  | .tooManyTokens _ => .tooManyTokens

/-- What a scan counts. Hits are classifications that were asked for again. -/
structure ScanMetrics where
  tokensYielded : Nat
  rawTokens : Nat
  atomsProduced : Nat
  buildersOpened : Nat
  buildersFinished : Nat
  candidatesDiscarded : Nat
  namespacesEntered : Nat
  importsRegistered : Nat
  cacheHits : Nat
deriving Repr, DecidableEq

def ScanMetrics.zero : ScanMetrics := ⟨0, 0, 0, 0, 0, 0, 0, 0, 0⟩

end TokenAtlas
