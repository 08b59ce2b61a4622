import TokenAtlas.Json.Value
import TokenAtlas.Measure.Rounding

/-! Reading JSON numbers. A whole number without fraction and exponent that fits 64
bits is kept exactly. Any other number is real, provided that it is in the range of
double-precision numbers, and keeps as many digits in front as fit 64 bits. -/

namespace TokenAtlas.Json

open TokenAtlas.Measure (Quotient)

/-- The largest natural number of 64 bits. -/
def maxWord : Nat := Nat.pow 2 64 - 1

def digitValue (c : Char) : Nat := c.toNat - '0'.toNat

/-- Take digits while the number fits 64 bits; also the number of digits left over. -/
def takeDigits (n : Nat) : List Char → Nat × Nat
  | [] => (n, 0)
  | c :: rest =>
    let n' := 10 * n + digitValue c
    if maxWord < n' then (n, rest.length + 1) else takeDigits n' rest

/-- The parts of a number's text. -/
structure NumberText where
  negative : Bool
  whole : List Char
  fraction : Option (List Char)
  exponent : Option (Bool × List Char)
deriving Repr, DecidableEq

/-- The digits in front and the text behind them; digits there must be. -/
def cutDigits (cs : List Char) : Option (List Char × List Char) :=
  let digits := cs.takeWhile Char.isDigit
  if digits.isEmpty then none else some (digits, cs.dropWhile Char.isDigit)

/-- Whole numbers have no zero in front. -/
def cutWhole (cs : List Char) : Option (List Char × List Char) :=
  match cutDigits cs with
  | some ('0' :: _ :: _, _) => none
  | other => other

def cutFraction (cs : List Char) : Option (Option (List Char) × List Char) :=
  match cs with
  | '.' :: rest => (cutDigits rest).map fun (digits, rest) => (some digits, rest)
  | _ => some (none, cs)

def cutSign (cs : List Char) : Bool × List Char :=
  match cs with
  | '-' :: rest => (true, rest)
  | '+' :: rest => (false, rest)
  | _ => (false, cs)

def cutExponent (cs : List Char) : Option (Option (Bool × List Char) × List Char) :=
  match cs with
  | [] => some (none, [])
  | c :: rest =>
    if c = 'e' || c = 'E' then
      let (negative, rest) := cutSign rest
      (cutDigits rest).map fun (digits, rest) => (some (negative, digits), rest)
    else none

/-- The parts of a number, if the text is one. -/
def NumberText.ofChars? (cs : List Char) : Option NumberText := do
  let (negative, cs) := match cs with
    | '-' :: rest => (true, rest)
    | _ => (false, cs)
  let (whole, cs) ← cutWhole cs
  let (fraction, cs) ← cutFraction cs
  let (exponent, cs) ← cutExponent cs
  if cs.isEmpty then some ⟨negative, whole, fraction, exponent⟩ else none

/-- The number a list of digits stands for. -/
def digitsValue (cs : List Char) : Nat := cs.foldl (fun n c => 10 * n + digitValue c) 0

/-- Whether `n` times the `e`-th power of ten is below the range's end, each factor and
the product being rounded. Beyond the 308th power only zero is. -/
def inRange (n : Nat) (e : Int) : Bool :=
  if e < 0 || n = 0 then true
  else if 308 < e then false
  else
    let power := (Quotient.ofNat (Nat.pow 10 e.toNat)).rounded
    let product := ((Quotient.ofNat n).rounded.mul power).rounded
    product.num < Nat.pow 2 1024 * product.den

/-- The exponent behind the letter, when the digits before it stand for `n` times the
`e`-th power of ten. Exponents beyond 32 bits are too large unless they are negative or
the number is zero. -/
def inRangeWith (n : Nat) (e : Int) : Option (Bool × List Char) → Bool
  | none => inRange n e
  | some (negative, digits) =>
    let m := digitsValue digits
    if Nat.pow 2 31 ≤ m then negative || n = 0
    else inRange n (if negative then e - m else e + m)

/-- The power of ten that an exponent adds. -/
def exponentValue : Option (Bool × List Char) → Int
  | none => 0
  | some (negative, digits) => if negative then -digitsValue digits else digitsValue digits

/-- The number with a sign that digits without one stand for. -/
def NumberText.signed (t : NumberText) (n : Nat) : Int := if t.negative then -n else n

/-- The value of a number. Minus zero is not a whole number. -/
def NumberText.value (t : NumberText) : Value :=
  let (n, dropped) := takeDigits 0 t.whole
  match t.fraction, t.exponent with
  | none, none =>
    if dropped ≠ 0 then if inRange n dropped then .real (t.signed n) dropped else .unreadable
    else if t.negative && (n = 0 || Nat.pow 2 63 < n) then .real (t.signed n) 0
    else .int (t.signed n)
  | fraction, exponent =>
    let digits := fraction.getD []
    let (n, left) := takeDigits n digits
    let e : Int := dropped - (digits.length - left : Nat)
    if inRangeWith n e exponent then .real (t.signed n) (e + exponentValue exponent)
    else .unreadable

end TokenAtlas.Json
