import TokenAtlas.Classification
import TokenAtlas.Feature.Stack

/-! Scanning a token stream in one pass. For each token the levels move, the open
features take it, namespaces and imports come into force, and the token is classified.
A scan ends at the end of the stream, or halts at a token that is refused or one too
many, and yields nothing after that. -/

namespace TokenAtlas

/-- How a stream is scanned: whether tokens are refined, and if so whether blanks
around lines are kept apart. -/
structure ScanOptions where
  refine : Bool
  apart : Bool
deriving Repr, DecidableEq

/-- A token with its place in the stream and its classification. -/
structure ScannedToken where
  index : Nat
  token : Token
  category : Category
  tags : List Tag
deriving Repr, DecidableEq

/-- How a scan came to its end. -/
inductive ScanEnd
  | running | finished | halted
deriving Repr, DecidableEq

structure Scanner where
  cursor : Cursor
  classifier : Classifier
  tracker : LevelTracker
  stack : Stack
  imports : Imports
  /-- The finished features, the latest first. -/
  finished : List Product
  counts : ScanMetrics
  ending : ScanEnd

namespace Scanner

def ofTokens (o : ScanOptions) (ts : List Token) : Scanner where
  cursor := .ofTokens (if o.refine then some o.apart else none) ts
  classifier := .fresh
  tracker := .start
  stack := .empty
  imports := .empty
  finished := []
  counts := .zero
  ending := .running

def levels (s : Scanner) : Levels := s.tracker.levels

/-- The finished features in the order of completion. -/
def products (s : Scanner) : List Product := s.finished.reverse

def active? (s : Scanner) : Option Builder := s.stack.active?

def metrics (s : Scanner) : ScanMetrics :=
  { s.counts with
    rawTokens := s.cursor.pulled
    atomsProduced := s.cursor.atoms
    cacheHits := s.classifier.hits }

/-- A result with the notices that led to it and the scanner after it. -/
structure Answer (α : Type) where
  value : α
  notices : List Notice
  scanner : Scanner

/-- Enter the namespace whose name became known. -/
def applyEvent (s : Scanner) (notices : List Notice) : BuildEvent → Scanner × List Notice
  | .namespaceNameKnown name =>
    let imports := Imports.enter name
    let counts := { s.counts with namespacesEntered := s.counts.namespacesEntered + 1 }
    ({ s with imports, counts }, notices ++ [.namespaceEntered imports.active])

/-- Take over a finished feature. An import declaration comes into force. -/
def applyProduct (s : Scanner) (notices : List Notice) (p : Product) : Scanner × List Notice :=
  let counts := { s.counts with buildersFinished := s.counts.buildersFinished + 1 }
  let s := { s with counts, finished := p :: s.finished }
  match p with
  | .namespaceImport d =>
    let applied := s.imports.apply d
    let counts := { counts with importsRegistered := counts.importsRegistered + applied.accepted }
    ({ s with imports := applied.imports, counts },
      notices ++ applied.notices ++ [.featureRecognized p.feature])
  | _ => (s, notices ++ [.featureRecognized p.feature])

/-- Take over everything that a token did to the open features. -/
def applyStep (s : Scanner) (step : StackStep) : Scanner × List Notice :=
  let counts :=
    { s.counts with
      buildersOpened := s.counts.buildersOpened + if step.opened.isSome then 1 else 0
      candidatesDiscarded := s.counts.candidatesDiscarded + if step.discarded.isSome then 1 else 0 }
  let (s, notices) :=
    step.events.foldl (fun acc e => applyEvent acc.1 acc.2 e) ({ s with counts }, step.notices)
  step.products.foldl (fun acc p => applyProduct acc.1 acc.2 p) (s, notices)

/-- Whether an opening word at the cursor can begin a feature. Behind `::` and `case`
it is a name. -/
def mayOpen (c : Cursor) : Bool :=
  !(c.previousSignificant.any fun t => t.kind = .doubleColon || t.kind = .caseWord)

/-- Halt with an error. -/
def halt (s : Scanner) (e : ScanError) : Answer (Except ScanError (Option ScannedToken)) :=
  ⟨.error e, [.scanHalted e s.counts.tokensYielded], { s with ending := .halted }⟩

/-- What is told at the end of a stream. -/
def endNotices (s : Scanner) : List Notice :=
  (if s.levels.isBalanced then [] else [.scanUnbalanced s.levels]) ++
    (s.active?.map fun b => Notice.scanUnfinished b.feature s.stack.depth).toList ++
    [.scanComplete s.counts.tokensYielded s.finished.length]

/-- Come to the end of the stream. -/
def finish (s : Scanner) : Answer (Except ScanError (Option ScannedToken)) :=
  let s := { s with tracker := s.tracker.settle, ending := .finished }
  ⟨.ok none, s.endNotices, s⟩

/-- Scan the token that the cursor has just reached. -/
def scanToken (s : Scanner) (index : Nat) (t : Token) : Answer ScannedToken :=
  let s := { s with tracker := s.tracker.advance t.kind }
  let levels := s.levels
  let (step, stack) := s.stack.step t levels (mayOpen s.cursor)
  let (s, notices) := { s with stack }.applyStep step
  let surroundings : Surroundings :=
    ⟨step.hint, levels, s.active?.any Builder.readsTypes, s.imports⟩
  let (found, classifier, cursor) := s.classifier.classify index t surroundings s.cursor
  let counts := { s.counts with tokensYielded := s.counts.tokensYielded + 1 }
  ⟨⟨index, t, found.category, found.tags⟩, notices, { s with classifier, cursor, counts }⟩

/-- Move to the next token and scan it. -/
def next (s : Scanner) : Answer (Except ScanError (Option ScannedToken)) :=
  if s.ending ≠ .running then ⟨.ok none, [], s⟩
  else
    let index := s.cursor.yielded
    match s.cursor.advance with
    | (.error refusal, cursor) =>
      { s with cursor }.halt (.refused index refusal)
    | (.ok none, cursor) => { s with cursor }.finish
    | (.ok (some t), cursor) =>
      let s := { s with cursor }
      if Limits.tokenCount ≤ index then
        s.halt (.tooManyTokens Limits.tokenCount)
      else
        let a := s.scanToken index t
        ⟨.ok (some a.value), a.notices, a.scanner⟩

/-- The tokens that the next `limit` moves yield, up to the end or an error. -/
def run (s : Scanner) (limit : Nat) : Answer (List ScannedToken × Option ScanError) :=
  go s [] [] limit
where
  go (s : Scanner) (done : List ScannedToken) (told : List Notice) :
      Nat → Answer (List ScannedToken × Option ScanError)
    | 0 => ⟨(done.reverse, none), told.reverse, s⟩
    | limit + 1 =>
      match s.next with
      | ⟨.ok none, notices, s⟩ => ⟨(done.reverse, none), (notices.reverse ++ told).reverse, s⟩
      | ⟨.error e, notices, s⟩ => ⟨(done.reverse, some e), (notices.reverse ++ told).reverse, s⟩
      | ⟨.ok (some t), notices, s⟩ => go s (t :: done) (notices.reverse ++ told) limit

/-- Scan to the end. No scan yields more than `Limits.tokenCount` tokens, so one more
move than that always gets there. -/
def scanAll (s : Scanner) : Answer (List ScannedToken × Option ScanError) :=
  s.run (Limits.tokenCount + 1)

end Scanner

end TokenAtlas
