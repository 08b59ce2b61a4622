import TokenAtlas.Limits
import TokenAtlas.Measure.Rounding

/-! Sizes and throughput for readers. A size in bytes is written in the largest unit that leaves
at least one whole unit. Throughput is how many tokens are read in a millisecond, with every step
of the calculation rounded to 53 significant bits. -/

namespace TokenAtlas

/-- Whether a dump of this size counts as large. -/
def isLargeSize (size : Nat) : Bool := Limits.largeFileSize < size

namespace Measure

/-- Divide by 1024 while a larger unit is left. -/
def largestUnit (x : Quotient) (unit : String) : List String → Quotient × String
  | [] => (x, unit)
  | larger :: rest =>
    if 1024 * x.den ≤ x.num then largestUnit ⟨x.num, 1024 * x.den⟩ larger rest else (x, unit)

/-- The text of a size. Sizes beyond 53 bits are rounded before they are divided. -/
def sizeText (bytes : Nat) : String :=
  match largestUnit (Quotient.ofNat bytes).rounded "B" ["KB", "MB", "GB"] with
  | (_, "B") => s!"{bytes} B"
  | (x, unit) => s!"{x.toFixed 2} {unit}"

/-- A duration in milliseconds, by way of seconds. -/
def milliseconds (nanos : Nat) : Quotient :=
  let whole := (Quotient.ofNat (nanos / 1000000000)).rounded
  let part := Quotient.rounded ⟨nanos % 1000000000, 1000000000⟩
  let seconds := (whole.add part).rounded
  (seconds.mul (Quotient.ofNat 1000)).rounded

/-- Tokens per millisecond, zero for an empty duration. -/
def rate (tokens nanos : Nat) : Quotient :=
  let ms := milliseconds nanos
  if ms.num = 0 then Quotient.ofNat 0
  else ((Quotient.ofNat tokens).rounded.div ms).rounded

end Measure

end TokenAtlas
