import TokenAtlas.Json.Number

/-! The lexemes of JSON: punctuation and scalars, with blanks between them. -/

namespace TokenAtlas.Json

inductive Lexeme
  | punctuation (c : Char)
  | scalar (v : Value)
deriving Repr

/-- The blanks of JSON. -/
def isSpace (c : Char) : Bool := c = ' ' || c = '\n' || c = '\t' || c = '\r'

def isPunctuation (c : Char) : Bool :=
  c = '[' || c = ']' || c = '\x7b' || c = '\x7d' || c = ':' || c = ','

/-- Characters that can be part of a number. -/
def isNumeric (c : Char) : Bool :=
  c.isDigit || c = '-' || c = '+' || c = '.' || c = 'e' || c = 'E'

def hexValue? (c : Char) : Option Nat :=
  if c.isDigit then some (c.toNat - '0'.toNat)
  else if 'a' ≤ c && c ≤ 'f' then some (c.toNat - 'a'.toNat + 10)
  else if 'A' ≤ c && c ≤ 'F' then some (c.toNat - 'A'.toNat + 10)
  else none

/-- The number that four hexadecimal digits stand for. -/
def hexUnit? (a b c d : Char) : Option Nat := do
  return 4096 * (← hexValue? a) + 256 * (← hexValue? b) + 16 * (← hexValue? c) + (← hexValue? d)

/-- The character that one letter behind a backslash stands for. -/
def shortEscape? (c : Char) : Option Char :=
  match c with
  | '"' => some '"'
  | '\\' => some '\\'
  | '/' => some '/'
  | 'b' => some '\x08'
  | 'f' => some '\x0c'
  | 'n' => some '\n'
  | 'r' => some '\r'
  | 't' => some '\t'
  | _ => none

/-- A string that is being read: the characters so far, the latest first, the first half
of a surrogate pair if one was just read, and whether every half has its other one. -/
structure StringDraft where
  chars : List Char
  high : Option Nat
  paired : Bool
deriving Repr, DecidableEq

namespace StringDraft

def empty : StringDraft := ⟨[], none, true⟩

def push (d : StringDraft) (c : Char) : StringDraft :=
  ⟨c :: d.chars, none, d.paired && d.high.isNone⟩

/-- Add a unit of 16 bits. -/
def pushUnit (d : StringDraft) (n : Nat) : StringDraft :=
  if 0xD800 ≤ n && n < 0xDC00 then ⟨d.chars, some n, d.paired && d.high.isNone⟩
  else if 0xDC00 ≤ n && n < 0xE000 then
    match d.high with
    | some h =>
      ⟨Char.ofNat (0x10000 + 1024 * (h - 0xD800) + (n - 0xDC00)) :: d.chars, none, d.paired⟩
    | none => { d with paired := false }
  else d.push (Char.ofNat n)

def value (d : StringDraft) : Value :=
  if d.paired && d.high.isNone then .string (String.ofList d.chars.reverse) else .unreadable

end StringDraft

/-- Read a string behind its opening quote; also the text behind its closing one. -/
def readString (d : StringDraft) : List Char → Option (Value × List Char)
  | [] => none
  | '"' :: rest => some (d.value, rest)
  | '\\' :: 'u' :: a :: b :: c :: e :: rest =>
    match hexUnit? a b c e with
    | some n => readString (d.pushUnit n) rest
    | none => none
  | '\\' :: c :: rest =>
    match shortEscape? c with
    | some c => readString (d.push c) rest
    | none => none
  | c :: rest => if c < ' ' || c = '\\' then none else readString (d.push c) rest

theorem readString_length {d : StringDraft} {cs rest : List Char} {v : Value}
    (h : readString d cs = some (v, rest)) : rest.length < cs.length := by
  fun_induction readString d cs with
  | case1 => simp at h
  | case2 => simp_all
  | case3 d a b c e r n hn ih => have := ih h; simp; omega
  | case4 => simp at h
  | case5 d c r _ c' hc ih => have := ih h; simp; omega
  | case6 => simp at h
  | case7 => simp at h
  | case8 d c r _ _ _ _ ih => have := ih h; simp; omega

/-- The value of a bare word. -/
def word? (cs : List Char) : Option Value :=
  if cs = ['n', 'u', 'l', 'l'] then some .null
  else if cs = ['t', 'r', 'u', 'e'] then some (.bool true)
  else if cs = ['f', 'a', 'l', 's', 'e'] then some (.bool false)
  else none

/-- The lexemes of a text, `none` if some part of it is not one. -/
def lexemes (done : List Lexeme) : List Char → Option (List Lexeme)
  | [] => some done.reverse
  | c :: rest =>
    if isSpace c then lexemes done rest
    else if isPunctuation c then lexemes (.punctuation c :: done) rest
    else if c = '"' then
      match _h : readString .empty rest with
      | some (v, rest') => lexemes (.scalar v :: done) rest'
      | none => none
    else if c.isLower then
      match word? (c :: rest.takeWhile Char.isLower) with
      | some v => lexemes (.scalar v :: done) (rest.dropWhile Char.isLower)
      | none => none
    else if isNumeric c then
      match NumberText.ofChars? (c :: rest.takeWhile isNumeric) with
      | some t => lexemes (.scalar t.value :: done) (rest.dropWhile isNumeric)
      | none => none
    else none
termination_by cs => cs.length
decreasing_by
  · simp
  · simp
  · have := readString_length _h; simp; omega
  · have := (List.dropWhile_sublist Char.isLower (l := rest)).length_le; simp; omega
  · have := (List.dropWhile_sublist isNumeric (l := rest)).length_le; simp; omega

end TokenAtlas.Json
