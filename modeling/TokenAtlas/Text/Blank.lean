/-! Sets of characters given as ranges of code points, and the blank characters, which are
those with the Unicode property White_Space. A text is cut into its blank margins and what
stands between them. -/

namespace TokenAtlas.Text

/-- Closed ranges of code points, ascending and apart. -/
abbrev Ranges := List (Nat × Nat)

def Ranges.contains (rs : Ranges) (c : Char) : Bool :=
  rs.any fun r => r.1 ≤ c.toNat && c.toNat ≤ r.2

def blankRanges : Ranges :=
  [(0x09, 0x0D), (0x20, 0x20), (0x85, 0x85), (0xA0, 0xA0), (0x1680, 0x1680), (0x2000, 0x200A),
   (0x2028, 0x2029), (0x202F, 0x202F), (0x205F, 0x205F), (0x3000, 0x3000)]

def isBlank (c : Char) : Bool := blankRanges.contains c

def trimStart (cs : List Char) : List Char := cs.dropWhile isBlank

def trimEnd (cs : List Char) : List Char := (cs.reverse.dropWhile isBlank).reverse

def trim (cs : List Char) : List Char := trimEnd (trimStart cs)

def trimString (s : String) : String := String.ofList (trim s.toList)

/-- A text cut into the blanks in front, the body, and the blanks behind. Of a blank
text everything stands in front. -/
structure Margins where
  front : List Char
  body : List Char
  back : List Char
deriving Repr, DecidableEq

def margins (cs : List Char) : Margins :=
  let rest := trimStart cs
  ⟨cs.takeWhile isBlank, trimEnd rest, (rest.reverse.takeWhile isBlank).reverse⟩

theorem margins_append (cs : List Char) :
    (margins cs).front ++ ((margins cs).body ++ (margins cs).back) = cs := by
  simp only [margins, trimEnd, ← List.reverse_append, List.takeWhile_append_dropWhile,
    List.reverse_reverse, trimStart]

end TokenAtlas.Text
