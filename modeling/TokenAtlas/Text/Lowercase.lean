import TokenAtlas.Text.CaseTable

/-! Lower-casing. Every character has a lower-case form of its own except the capital
sigma, which becomes a final sigma at the end of a word and a plain one elsewhere. -/

namespace TokenAtlas.Text

/-- The lower-case form of a character by itself. The dotted capital I keeps its dot
as a second character. -/
def lowerChar (c : Char) : List Char :=
  if c.toNat < 0x80 then [c.toLower]
  else if c = '\u0130' then ['i', '\u0307']
  else
    match caseRuns.findSome? (·.lower? c.toNat) with
    | some n => [Char.ofNat n]
    | none => [c]

/-- Whether the first character that counts is a cased one. -/
def startsCased (cs : List Char) : Bool :=
  match cs.dropWhile isCaseIgnorable with
  | [] => false
  | c :: _ => isCased c

/-- The lower-case form of a capital sigma between the reversed text `before` and the
text `after`. -/
def lowerSigma (before after : List Char) : Char :=
  if startsCased before && !startsCased after then 'ς' else 'σ'

/-- The lower-case form of a text. -/
def lower (cs : List Char) : List Char := go [] [] cs
where
  go (before out : List Char) : List Char → List Char
    | [] => out.reverse
    | c :: rest =>
      if c = 'Σ' then go (c :: before) (lowerSigma before rest :: out) rest
      else go (c :: before) ((lowerChar c).reverse ++ out) rest

def lowerString (s : String) : String := String.ofList (lower s.toList)

end TokenAtlas.Text
