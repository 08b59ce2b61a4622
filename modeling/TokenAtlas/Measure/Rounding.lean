/-! Rounding of quotients of natural numbers: to the nearest whole number, to the
nearest number with 53 significant bits, and to some decimal places. A tie always goes
to the even neighbour. -/

namespace TokenAtlas.Measure

/-- The whole number nearest to `num / den`. -/
def roundDiv (num den : Nat) : Nat :=
  let quot := num / den
  let twice := 2 * (num % den)
  if twice < den then quot
  else if twice = den then quot + quot % 2
  else quot + 1

/-- A number that is not negative, as a quotient. -/
structure Quotient where
  num : Nat
  den : Nat
deriving Repr, DecidableEq

namespace Quotient

def ofNat (n : Nat) : Quotient := ⟨n, 1⟩

def add (x y : Quotient) : Quotient := ⟨x.num * y.den + y.num * x.den, x.den * y.den⟩

def mul (x y : Quotient) : Quotient := ⟨x.num * y.num, x.den * y.den⟩

def div (x y : Quotient) : Quotient := ⟨x.num * y.den, x.den * y.num⟩

/-- The quotient times `2 ^ up / 2 ^ down`. -/
def scale (x : Quotient) (up down : Nat) : Quotient :=
  ⟨x.num * Nat.pow 2 up, x.den * Nat.pow 2 down⟩

/-- The nearest number with 53 significant bits. -/
def rounded (x : Quotient) : Quotient :=
  if x.num = 0 then ofNat 0
  else
    let up := 53 + x.den.log2
    let down := x.num.log2
    let scaled := x.scale up down
    if scaled.num / scaled.den < Nat.pow 2 53 then
      ⟨roundDiv scaled.num scaled.den * Nat.pow 2 down, Nat.pow 2 up⟩
    else
      let halved := x.scale up (down + 1)
      ⟨roundDiv halved.num halved.den * Nat.pow 2 (down + 1), Nat.pow 2 up⟩

/-- The nearest number with some decimal places, written out. -/
def toFixed (places : Nat) (x : Quotient) : String :=
  let unit := Nat.pow 10 places
  let n := roundDiv (unit * x.num) x.den
  let digits := (Nat.toDigits 10 (n % unit))
  s!"{n / unit}." ++ String.ofList (List.replicate (places - digits.length) '0' ++ digits)

end Quotient

end TokenAtlas.Measure
