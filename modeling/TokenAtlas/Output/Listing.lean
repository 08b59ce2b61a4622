import Std.Data.TreeMap
import TokenAtlas.Preferences
import TokenAtlas.Scan

/-! Listings of scanned tokens for presentation, one after the other or gathered by the
lines on which they start. -/

namespace TokenAtlas

/-- A text with the classes of a style sheet. -/
structure Fragment where
  text : String
  classes : List String
deriving Repr, DecidableEq

/-- The class of the category comes first, then those of the tags. -/
def Fragment.ofScanned (t : ScannedToken) : Fragment :=
  ⟨t.token.text, t.category.styleClass :: t.tags.map Tag.styleClass⟩

inductive OutputToken
  | enhanced (t : ScannedToken)
  | raw (t : Token)
  | fragment (f : Fragment)
deriving Repr, DecidableEq

def OutputToken.shape (m : OutputMode) (t : ScannedToken) : OutputToken :=
  match m with
  | .enhanced => .enhanced t
  | .raw => .raw t.token
  | .fragments => .fragment (.ofScanned t)

/-- Drop every blank token that stands right before a line break or at the end. -/
def trimTrailing (ts : List ScannedToken) : List ScannedToken := go [] ts
where
  endsLine (t : ScannedToken) (next : Option ScannedToken) : Bool :=
    t.token.kind = .whitespace && next.all (·.token.kind = .lineBreak)
  go (kept : List ScannedToken) : List ScannedToken → List ScannedToken
    | [] => kept.reverse
    | t :: rest => if endsLine t rest.head? then go kept rest else go (t :: kept) rest

private theorem trimTrailing_go_eq (kept ts : List ScannedToken) :
    trimTrailing.go kept ts = kept.reverse ++ trimTrailing.go [] ts := by
  induction ts generalizing kept with
  | nil => simp [trimTrailing.go]
  | cons t rest ih =>
    simp only [trimTrailing.go]
    split
    · rw [ih]
    · rw [ih, ih [t]]
      simp

@[simp] theorem trimTrailing_nil : trimTrailing [] = [] := rfl

theorem trimTrailing_cons (t : ScannedToken) (rest : List ScannedToken) :
    trimTrailing (t :: rest) =
      if trimTrailing.endsLine t rest.head? then trimTrailing rest else t :: trimTrailing rest := by
  simp only [trimTrailing, trimTrailing.go]
  split
  · rfl
  · rw [trimTrailing_go_eq]
    rfl

/-- Tokens by the line on which they start, in order within a line. -/
abbrev LineTable := Std.TreeMap Nat (List OutputToken)

inductive Listing
  | byIndex (ts : List OutputToken)
  | byLine (lines : LineTable)

namespace Listing

/-- Put a token in front of the others of its line. -/
def addToLine (m : OutputMode) (t : ScannedToken) (lines : LineTable) : LineTable :=
  lines.alter t.token.line fun others => some (.shape m t :: others.getD [])

def ofTokens (p : StreamPreferences) (ts : List ScannedToken) : Listing :=
  let selected := if p.trims then trimTrailing ts else ts
  if p.byLine then .byLine (selected.foldr (addToLine p.mode) ∅)
  else .byIndex (selected.map (OutputToken.shape p.mode))

/-- All tokens, those of earlier lines first. -/
def toList : Listing → List OutputToken
  | byIndex ts => ts
  | byLine lines => lines.toList.flatMap (·.2)

def size (l : Listing) : Nat := l.toList.length

def isEmpty (l : Listing) : Bool := l.size = 0

def isByLine : Listing → Bool
  | byIndex _ => false
  | byLine _ => true

end Listing

end TokenAtlas
