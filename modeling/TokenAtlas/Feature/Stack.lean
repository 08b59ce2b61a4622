import TokenAtlas.Feature.Builder
import TokenAtlas.Limits
import TokenAtlas.Notice

/-! The features that are open at a token, one inside the other. An opening word starts
a candidate: the tokens from the word on, trivia apart, are buffered until they verify
the feature or refute it. Every other token goes to the innermost builder, which leaves
the stack with its product when it is complete. -/

namespace TokenAtlas

structure Candidate where
  feature : Feature
  buffer : List Token
deriving Repr, DecidableEq

/-- Why no builder came of a candidate. -/
inductive Discard
  | rejected | candidateOverflow | depthExceeded
deriving Repr, DecidableEq

def Discard.name : Discard → String
  | .rejected => "rejected"
  | .candidateOverflow => "candidate_overflow"
  | .depthExceeded => "depth_exceeded"

/-- All that one token did to the stack. -/
structure StackStep where
  hint : Option Hint
  events : List BuildEvent
  products : List Product
  opened : Option Feature
  discarded : Option Discard
  notices : List Notice
deriving Repr, DecidableEq

def StackStep.nothing : StackStep := ⟨none, [], [], none, none, []⟩

/-- The open builders, the innermost first, and the candidate if there is one. -/
structure Stack where
  builders : List Builder
  candidate : Option Candidate
deriving Repr, DecidableEq

namespace Stack

def empty : Stack := ⟨[], none⟩

def active? (s : Stack) : Option Builder := s.builders.head?

def depth (s : Stack) : Nat := s.builders.length

def candidateLength (s : Stack) : Nat := (s.candidate.map (·.buffer.length)).getD 0

/-- Put a builder that was just fed on top of the others, or take its product if it is
done. -/
def settle (below : List Builder) (f : Feed) (b : Builder) : List Builder × List Product ×
    List Notice :=
  if f.done then
    match b.product? with
    | some p => (below, [p], [.builderFinished b.feature below.length])
    | none => (below, [], [])
  else (b :: below, [], [])

/-- Open a builder for a verified candidate. A full stack takes no other. -/
def openBuilder (s : Stack) (c : Candidate) (l : Levels) : StackStep × Stack :=
  if Limits.nesting ≤ s.depth then
    ({ StackStep.nothing with
        discarded := some .depthExceeded
        notices := [.builderRefused c.feature s.depth] }, s)
  else
    let (f, b) := c.feature.create l c.buffer
    let (builders, products, notices) := settle s.builders f b
    let line := (c.buffer.head?.map (·.line)).getD 0
    (⟨f.hint, f.events, products, some c.feature, none,
      .builderOpened c.feature line (s.depth + 1) :: notices⟩, { s with builders := builders })

/-- Give a token to the innermost builder. -/
def feedActive (s : Stack) (t : Token) (l : Levels) : StackStep × Stack :=
  match s.builders with
  | [] => (.nothing, s)
  | b :: below =>
    let (f, b) := b.feed t l
    let (builders, products, notices) := settle below f b
    (⟨f.hint, f.events, products, none, none, notices⟩, { s with builders := builders })

/-- Start a candidate at an opening word, unless one is pending. -/
def startCandidate (s : Stack) (k : Kind) (mayOpen : Bool) : Stack :=
  if s.candidate.isNone && mayOpen then
    { s with candidate := (Feature.ofOpener k).map fun f => ⟨f, []⟩ }
  else s

/-- Add a token to a candidate and decide what becomes of it. -/
def extendCandidate (s : Stack) (c : Candidate) (t : Token) (l : Levels) : StackStep × Stack :=
  let c := { c with buffer := c.buffer ++ [t] }
  let s := { s with candidate := none }
  match c.feature.verify l s.active? c.buffer with
  | .yes => s.openBuilder c l
  | .no => ({ StackStep.nothing with discarded := some .rejected }, s)
  | .unknown =>
    if Limits.candidateTokens ≤ c.buffer.length then
      let opener := c.buffer.head?.getD t
      ({ StackStep.nothing with
          discarded := some .candidateOverflow
          notices := [.candidateDropped opener.text opener.line c.buffer.length] }, s)
    else (.nothing, { s with candidate := some c })

/-- Give a token that is not trivia to the candidate that is pending. -/
def tryCandidate (s : Stack) (t : Token) (l : Levels) : StackStep × Stack :=
  match s.candidate with
  | some c => if t.isTrivia then (.nothing, s) else s.extendCandidate c t l
  | none => (.nothing, s)

/-- Take one token. `mayOpen` is false where an opening word is only a name. -/
def step (s : Stack) (t : Token) (l : Levels) (mayOpen : Bool) : StackStep × Stack :=
  let s := s.startCandidate t.kind mayOpen
  let (first, s) := s.tryCandidate t l
  if first.opened.isSome then (first, s)
  else
    let (fed, s) := s.feedActive t l
    ({ fed with
        discarded := first.discarded
        notices := first.notices ++ fed.notices }, s)

end Stack

end TokenAtlas
