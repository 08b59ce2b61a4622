import TokenAtlas.Limits
import TokenAtlas.Text.Blank
import TokenAtlas.Text.LineBreak
import TokenAtlas.Token.Basic

/-! Splitting a composite token into atoms. A splitter turns the text of a token into
pieces that append to it again, or names the defect of the text. Empty pieces give no
atom; the others are placed one behind the other from the token's position on. -/

namespace TokenAtlas.Atom

open Text

/-- The ways to split a token. `lines` splits at line breaks only, unless the blanks
around each line are to be kept apart as well. -/
inductive Splitter
  | whitespace | cast | attributeOpen | openTag | closeTag | heredocStart | heredocEnd
  | lines (apart : Bool)
deriving Repr, DecidableEq

namespace Splitter

def name : Splitter → String
  | .whitespace => "split_whitespace"
  | .cast => "split_cast"
  | .attributeOpen => "split_attribute"
  | .openTag => "split_open_tag"
  | .closeTag => "split_close_tag"
  | .heredocStart => "split_heredoc_start"
  | .heredocEnd => "split_heredoc_end"
  | .lines _ => "split_lines"

/-- The kinds a splitter is for, in words. -/
def expected : Splitter → String
  | .whitespace => "T_WHITESPACE"
  | .cast => "a cast token"
  | .attributeOpen => "T_ATTRIBUTE"
  | .openTag => "T_OPEN_TAG or T_OPEN_TAG_WITH_ECHO"
  | .closeTag => "T_CLOSE_TAG"
  | .heredocStart => "T_START_HEREDOC"
  | .heredocEnd => "T_END_HEREDOC"
  | .lines _ => "a comment or string segment"

/-- The splitter for the tokens of a kind. Kinds without one are atomic. -/
def ofKind (apart : Bool) : Kind → Option Splitter
  | .whitespace => some .whitespace
  | .intCast | .doubleCast | .stringCast | .arrayCast | .objectCast | .boolCast
  | .unsetCast => some .cast
  | .attributeOpen => some .attributeOpen
  | .openTag | .openTagWithEcho => some .openTag
  | .closeTag => some .closeTag
  | .heredocStart => some .heredocStart
  | .heredocEnd => some .heredocEnd
  | .comment | .docComment | .constantString | .stringSegment => some (.lines apart)
  | _ => none

/-- Whether tokens of kind `k` are split this way. -/
def accepts (s : Splitter) (k : Kind) : Bool :=
  match s with
  | .lines apart => ofKind apart k = some s
  | _ => ofKind false k = some s

end Splitter

/-- What can be wrong with the text of a composite token. -/
inductive Defect
  | emptyWhitespace
  | castNotInParens
  | castWithoutType
  | attributeSpelling
  | openTagSpelling
  | openTagContinued
  | closeTagSpelling
  | closeTagContinued
  | heredocLineOpen
  | heredocNotOneLine
  | heredocEndMissing
deriving Repr, DecidableEq

def Defect.reason : Defect → String
  | .emptyWhitespace => "empty whitespace token"
  | .castNotInParens => "cast must be a parenthesized type name"
  | .castWithoutType => "cast has no type name"
  | .attributeSpelling => "attribute opener must be `#[`"
  | .openTagSpelling => "open tag must start with `<?`"
  | .openTagContinued => "open tag may only be followed by whitespace"
  | .closeTagSpelling => "close tag must start with `?>`"
  | .closeTagContinued => "close tag may only be followed by one line break"
  | .heredocLineOpen => "heredoc opener must end the line"
  | .heredocNotOneLine => "heredoc opener must be a single identifier line"
  | .heredocEndMissing => "heredoc terminator is empty"

/-- A part of a token's text and the kind of atom it becomes. -/
abbrev Piece := Kind × List Char

/-- The text of a list of pieces. -/
def pieceText (ps : List Piece) : List Char := ps.flatMap Prod.snd

/-- Blanks cut into runs of line-break characters and runs of other characters. -/
def blankRuns (cs : List Char) : List Piece :=
  (cs.splitBy fun a b => isBreak a == isBreak b).map fun run =>
    (if run.any isBreak then .lineBreak else .whitespace, run)

def castPieces (cs : List Char) : Except Defect (List Piece) :=
  match cs with
  | '(' :: rest =>
    let inner := rest.dropLast
    if rest.getLast? = some ')' && !inner.isEmpty then
      let m := margins inner
      if m.body.isEmpty then .error .castWithoutType
      else
        .ok [(.openParen, ['(']), (.whitespace, m.front), (.castType, m.body),
          (.whitespace, m.back), (.closeParen, [')'])]
    else .error .castNotInParens
  | _ => .error .castNotInParens

def attributePieces (cs : List Char) : Except Defect (List Piece) :=
  if cs = ['#', '['] then .ok [(.attributeMarker, ['#']), (.openSquare, ['['])]
  else .error .attributeSpelling

/-- The length of the tag at the start of a text. The long tag may be written in
either case. -/
def openTagLength? (cs : List Char) : Option Nat :=
  if (cs.take 5).map Char.toLower = ['<', '?', 'p', 'h', 'p'] then some 5
  else if cs.take 3 = ['<', '?', '='] then some 3
  else if cs.take 2 = ['<', '?'] then some 2
  else none

def openTagPieces (kind : Kind) (cs : List Char) : Except Defect (List Piece) :=
  match openTagLength? cs with
  | none => .error .openTagSpelling
  | some n =>
    let rest := cs.drop n
    if rest.all isBlank then .ok ((kind, cs.take n) :: blankRuns rest)
    else .error .openTagContinued

def closeTagPieces : List Char → Except Defect (List Piece)
  | '?' :: '>' :: rest =>
    if rest ∈ [[], ['\n'], ['\r'], ['\r', '\n']] then
      .ok [(.closeTag, ['?', '>']), (.lineBreak, rest)]
    else .error .closeTagContinued
  | _ => .error .closeTagSpelling

/-- A text cut before the line break at its end. -/
def cutLastBreak? (cs : List Char) : Option (List Char × List Char) :=
  match cs.reverse with
  | '\n' :: '\r' :: rest => some (rest.reverse, ['\r', '\n'])
  | '\n' :: rest => some (rest.reverse, ['\n'])
  | '\r' :: rest => some (rest.reverse, ['\r'])
  | _ => none

def heredocStartPieces (cs : List Char) : Except Defect (List Piece) :=
  match cutLastBreak? cs with
  | none => .error .heredocLineOpen
  | some (opener, ending) =>
    if opener.isEmpty || opener.any isBreak then .error .heredocNotOneLine
    else .ok [(.heredocStart, opener), (.lineBreak, ending)]

/-- The blanks that may indent a heredoc terminator. -/
def isIndent (c : Char) : Bool := c = ' ' || c = '\t'

def heredocEndPieces (cs : List Char) : Except Defect (List Piece) :=
  let terminator := cs.dropWhile isIndent
  if terminator.isEmpty then .error .heredocEndMissing
  else .ok [(.whitespace, cs.takeWhile isIndent), (.heredocEnd, terminator)]

/-- One line of a comment or a string. A blank line is whitespace as a whole. -/
def linePieces (apart : Bool) (kind : Kind) (l : Line) : List Piece :=
  if apart then
    let m := margins l.content
    [(.whitespace, m.front), (kind, m.body), (.whitespace, m.back), (.lineBreak, l.ending)]
  else [(kind, l.content), (.lineBreak, l.ending)]

/-- The pieces of a token's text. -/
def Splitter.pieces (s : Splitter) (kind : Kind) (cs : List Char) : Except Defect (List Piece) :=
  match s with
  | .whitespace => if cs.isEmpty then .error .emptyWhitespace else .ok (blankRuns cs)
  | .cast => castPieces cs
  | .attributeOpen => attributePieces cs
  | .openTag => openTagPieces kind cs
  | .closeTag => closeTagPieces cs
  | .heredocStart => heredocStartPieces cs
  | .heredocEnd => heredocEndPieces cs
  | .lines apart => .ok ((Text.lines cs).flatMap (linePieces apart kind))

/-- The atoms of pieces that stand one behind the other from `p` on. -/
def place (p : Position) (ps : List Piece) : List Token := go p [] ps
where
  go (p : Position) (placed : List Token) : List Piece → List Token
    | [] => placed.reverse
    | (kind, cs) :: rest =>
      if cs.isEmpty then go p placed rest
      else
        let text := String.ofList cs
        go (p.advance text) (⟨kind, text, p.line, p.offset⟩ :: placed) rest

private theorem place_go_eq (p : Position) (placed : List Token) (ps : List Piece) :
    place.go p placed ps = placed.reverse ++ place.go p [] ps := by
  induction ps generalizing p placed with
  | nil => simp [place.go]
  | cons piece rest ih =>
    simp only [place.go]
    split
    · exact ih p placed
    · rw [ih, ih _ [_]]
      simp

@[simp] theorem place_nil (p : Position) : place p [] = [] := rfl

theorem place_cons (p : Position) (kind : Kind) (cs : List Char) (rest : List Piece) :
    place p ((kind, cs) :: rest) =
      if cs.isEmpty then place p rest
      else ⟨kind, String.ofList cs, p.line, p.offset⟩ :: place (p.advance (String.ofList cs)) rest := by
  simp only [place, place.go]
  split
  · rfl
  · rw [place_go_eq]
    simp

end TokenAtlas.Atom
