import TokenAtlas.Text.Blank

/-! Moments in time, in the proleptic Gregorian calendar. A text of a moment names a
date, a time of day and a distance from universal time; it is kept and written in
universal time. -/

namespace TokenAtlas

/-- A day counted from 1970-01-01, a second of the day, and nanoseconds. A second that
was inserted at the end of a minute counts as nanoseconds beyond a full second. -/
structure Moment where
  day : Int
  second : Nat
  nanos : Nat
deriving Repr, DecidableEq

namespace Moment

/-- The day counted from 1970-01-01 of a date. Years begin in March, so that the day
that some years have more comes last. -/
def dayOfDate (year : Int) (month day : Nat) : Int :=
  let y := if month ≤ 2 then year - 1 else year
  let era := y.fdiv 400
  let yearOfEra := y - era * 400
  let monthFromMarch := (month + 9) % 12
  let dayOfYear : Int := (153 * monthFromMarch + 2) / 5 + day - 1
  let dayOfEra := yearOfEra * 365 + yearOfEra / 4 - yearOfEra / 100 + dayOfYear
  era * 146097 + dayOfEra - 719468

/-- The year, the month and the day of the month of a day. -/
def dateOfDay (n : Int) : Int × Nat × Nat :=
  let z := n + 719468
  let era := z.fdiv 146097
  let dayOfEra := z - era * 146097
  let yearOfEra :=
    (dayOfEra - dayOfEra / 1460 + dayOfEra / 36524 - dayOfEra / 146096) / 365
  let dayOfYear := dayOfEra - (365 * yearOfEra + yearOfEra / 4 - yearOfEra / 100)
  let monthFromMarch := (5 * dayOfYear + 2) / 153
  let day := dayOfYear - (153 * monthFromMarch + 2) / 5 + 1
  let month := if monthFromMarch < 10 then monthFromMarch + 3 else monthFromMarch - 9
  let year := yearOfEra + era * 400
  (if month ≤ 2 then year + 1 else year, month.toNat, day.toNat)

/-- A number in at least `width` digits. -/
def padded (width n : Nat) : String :=
  let digits := Nat.toDigits 10 n
  String.ofList (List.replicate (width - digits.length) '0' ++ digits)

/-- Years of other than four digits carry a sign. -/
def yearText (year : Int) : String :=
  if 0 ≤ year && year ≤ 9999 then padded 4 year.toNat
  else if year < 0 then "-" ++ padded 4 year.natAbs
  else "+" ++ toString year

/-- Fractions of a second, in as many groups of three digits as they need. -/
def fractionText (nanos : Nat) : String :=
  if nanos = 0 then ""
  else if nanos % 1000000 = 0 then "." ++ padded 3 (nanos / 1000000)
  else if nanos % 1000 = 0 then "." ++ padded 6 (nanos / 1000)
  else "." ++ padded 9 nanos

/-- The moment to the second, with a text for the fraction behind it. -/
def textWith (m : Moment) (fraction : Nat → String) : String :=
  let (year, month, day) := dateOfDay m.day
  let second := m.second % 60 + m.nanos / 1000000000
  let date := s!"{yearText year}-{padded 2 month}-{padded 2 day}"
  let time := s!"{padded 2 (m.second / 3600)}:{padded 2 (m.second / 60 % 60)}:{padded 2 second}"
  s!"{date}T{time}{fraction (m.nanos % 1000000000)}Z"

def toText (m : Moment) : String := m.textWith fractionText

/-- The moment in whole milliseconds. -/
def toMillisText (m : Moment) : String :=
  m.textWith fun nanos => "." ++ padded 3 (nanos / 1000000)

/-- A moment counted from the start of 1970. -/
def ofUnix (seconds : Int) (nanos : Nat) : Moment :=
  ⟨seconds.fdiv 86400, (seconds.fmod 86400).toNat, nanos⟩

def isLeapYear (year : Int) : Bool := year % 4 = 0 && (year % 100 ≠ 0 || year % 400 = 0)

def daysInMonth (year : Int) (month : Nat) : Nat :=
  if month = 2 then (if isLeapYear year then 29 else 28)
  else if month ∈ [4, 6, 9, 11] then 30
  else 31

/-- Years that are not kept. -/
def isKeptYear (year : Int) : Bool := -262143 ≤ year && year ≤ 262142

/-- The number spelled by the digits at the front, at most `width` of them and at least
one, and what follows. -/
def cutNumber (width : Nat) (cs : List Char) : Option (Nat × List Char) :=
  let digits := (cs.take width).takeWhile Char.isDigit
  if digits.isEmpty then none
  else some (digits.foldl (fun n c => 10 * n + (c.toNat - '0'.toNat)) 0, cs.drop digits.length)

/-- As `cutNumber`, behind blanks. -/
def cutField (cs : List Char) : Option (Nat × List Char) := cutNumber 2 (Text.trimStart cs)

/-- A year has at most four digits, or a sign and any number of them. -/
def cutYear (cs : List Char) : Option (Int × List Char) :=
  match Text.trimStart cs with
  | '-' :: rest => (cutNumber rest.length rest).map fun found => (-(found.1 : Int), found.2)
  | '+' :: rest => (cutNumber rest.length rest).map fun found => ((found.1 : Int), found.2)
  | cs => (cutNumber 4 cs).map fun found => ((found.1 : Int), found.2)

/-- Blanks and a given character. -/
def cutMark (mark : Char) (cs : List Char) : Option (List Char) :=
  match Text.trimStart cs with
  | c :: rest => if c = mark then some rest else none
  | [] => none

/-- A fraction of a second. Digits beyond the ninth do not count. -/
def cutFraction (cs : List Char) : Option (Nat × List Char) :=
  match cs with
  | '.' :: rest => do
    let (n, behind) ← cutNumber 9 rest
    let places := rest.length - behind.length
    return (n * Nat.pow 10 (9 - places), behind.dropWhile Char.isDigit)
  | cs => some (0, cs)

/-- A distance from universal time in seconds. -/
def cutOffset (cs : List Char) : Option (Int × List Char) :=
  match cs with
  | 'Z' :: rest | 'z' :: rest => some (0, rest)
  | '+' :: rest => (distance rest).map fun found => ((found.1 : Int), found.2)
  | '-' :: rest | '−' :: rest => (distance rest).map fun found => (-(found.1 : Int), found.2)
  | _ => none
where
  /-- Two digits of hours and two of minutes. -/
  distance (cs : List Char) : Option (Nat × List Char) := do
    let (hours, rest) ← twoDigits cs
    let (minutes, rest) ← twoDigits (rest.dropWhile fun c => c = ':' || Text.isBlank c)
    if minutes < 60 then some (hours * 3600 + minutes * 60, rest) else none
  twoDigits : List Char → Option (Nat × List Char)
    | a :: b :: rest => if a.isDigit && b.isDigit then cutNumber 2 (a :: b :: rest) else none
    | _ => none

/-- The zone behind the time of day: the letters of universal time or a distance. -/
def cutZone (cs : List Char) : Option (Int × List Char) :=
  match cs with
  | a :: b :: c :: rest =>
    if [a.toLower, b.toLower, c.toLower] = ['u', 't', 'c'] then some (0, rest)
    else cutOffset (a :: b :: c :: rest)
  | cs => cutOffset cs

/-- The moment of a date, a time of day and a distance from universal time, if there is
such a date and time. -/
def ofParts? (year : Int) (month day hour minute second nanos : Nat) (offset : Int) :
    Option Moment :=
  if isKeptYear year && 1 ≤ month && month ≤ 12 && 1 ≤ day && day ≤ daysInMonth year month &&
      hour < 24 && minute < 60 && second ≤ 60 && offset.natAbs < 86400 then
    let inserted := second / 60
    let instant := (hour * 3600 + minute * 60 + (second - inserted) : Nat)
    let moment := ofUnix (dayOfDate year month day * 86400 + instant - offset)
      (nanos + inserted * 1000000000)
    if isKeptYear (dateOfDay moment.day).1 then some moment else none
  else none

/-- The moment that a text names. -/
def ofText? (s : String) : Option Moment := do
  let (year, rest) ← cutYear s.toList
  let (month, rest) ← cutMark '-' rest >>= cutField
  let (day, rest) ← cutMark '-' rest >>= cutField
  let rest ← match rest with
    | 't' :: rest | 'T' :: rest | ' ' :: rest => some rest
    | _ => none
  let (hour, rest) ← cutField rest
  let (minute, rest) ← cutMark ':' rest >>= cutField
  let (second, rest) ← cutMark ':' rest >>= cutField
  let (nanos, rest) ← cutFraction rest
  let (offset, rest) ← cutZone (Text.trimStart rest)
  if (Text.trimStart rest).isEmpty then ofParts? year month day hour minute second nanos offset
  else none

end Moment

end TokenAtlas
