/-! Line breaks in a text. A line feed ends a line and so does a carriage return;
a carriage return directly before a line feed forms one break with it. Counting is
additive except where a cut separates the two halves of such a pair. -/

namespace TokenAtlas.Text

/-- The two characters that can take part in a line break. -/
def isBreak (c : Char) : Bool := c = '\n' || c = '\r'

/-- Whether `c`, standing before `rest`, completes a line break. -/
def endsLine (c : Char) (rest : List Char) : Bool :=
  c = '\n' || (c = '\r' && rest.head? != some '\n')

/-- The number of line breaks of a text. -/
def lineBreaks (cs : List Char) : Nat := go 0 cs
where
  go (n : Nat) : List Char → Nat
    | [] => n
    | c :: rest => go (if endsLine c rest then n + 1 else n) rest

private theorem lineBreaks_go_eq (n : Nat) (cs : List Char) :
    lineBreaks.go n cs = n + lineBreaks.go 0 cs := by
  induction cs generalizing n with
  | nil => rfl
  | cons c rest ih =>
    simp only [lineBreaks.go]
    rw [ih, ih (if endsLine c rest then 0 + 1 else 0)]
    split <;> omega

@[simp] theorem lineBreaks_nil : lineBreaks [] = 0 := rfl

theorem lineBreaks_cons (c : Char) (rest : List Char) :
    lineBreaks (c :: rest) = (if endsLine c rest then 1 else 0) + lineBreaks rest := by
  simp only [lineBreaks, lineBreaks.go]
  rw [lineBreaks_go_eq]

/-- A line of a text: its content and the break that ends it, empty for an
unfinished last line. -/
structure Line where
  content : List Char
  ending : List Char
deriving Repr, DecidableEq

/-- Put one more character in front of a text that is already cut into lines. -/
def Line.consChar (c : Char) (lines : List Line) : List Line :=
  if c = '\n' then ⟨[], ['\n']⟩ :: lines
  else if c = '\r' then
    match lines with
    | ⟨[], ['\n']⟩ :: rest => ⟨[], ['\r', '\n']⟩ :: rest
    | _ => ⟨[], ['\r']⟩ :: lines
  else
    match lines with
    | [] => [⟨[c], []⟩]
    | line :: rest => { line with content := c :: line.content } :: rest

/-- The lines of a text. The empty text has none. -/
def lines (cs : List Char) : List Line := cs.foldr Line.consChar []

def Line.toList (l : Line) : List Char := l.content ++ l.ending

theorem Line.flatMap_consChar (c : Char) (ls : List Line) :
    (Line.consChar c ls).flatMap Line.toList = c :: ls.flatMap Line.toList := by
  unfold Line.consChar
  split
  · next h => simp [h, Line.toList]
  · split
    · next h =>
      split
      · simp [h, Line.toList]
      · simp [h, Line.toList]
    · split <;> simp [Line.toList]

/-- Nothing is lost by cutting a text into lines. -/
theorem flatMap_lines (cs : List Char) : (lines cs).flatMap Line.toList = cs := by
  induction cs with
  | nil => rfl
  | cons c cs ih =>
    rw [lines, List.foldr_cons, Line.flatMap_consChar]
    exact congrArg (c :: ·) ih

end TokenAtlas.Text
