/-!
# Times in the manifest

A time as fourteen digits of date and time of day in between their marks. The clock counts seconds from the start of 1970; days are
turned into dates by counting in cycles of four hundred years that start in March, so that a leap day is the last of its year.
-/

namespace BootDisk

/-- A day: year, month and day of the month. -/
structure Date where
  year : Nat
  month : Nat
  day : Nat
  deriving DecidableEq, Repr, Inhabited

namespace Date

/-- The days before the cycle's month `m`, where month 0 is March: five months have 153 days. -/
def daysBefore (m : Nat) : Nat :=
  (153 * m + 2) / 5

/-- The date that is so many days after the first of January 1970. -/
def ofDays (days : Nat) : Date :=
  let z := days + 719468
  let cycle := z / 146097
  let dayOfCycle := z % 146097
  let yearOfCycle := (dayOfCycle - dayOfCycle / 1460 + dayOfCycle / 36524 - dayOfCycle / 146096) / 365
  let dayOfYear := dayOfCycle - (365 * yearOfCycle + yearOfCycle / 4 - yearOfCycle / 100)
  let m := (5 * dayOfYear + 2) / 153
  let month := if m < 10 then m + 3 else m - 9
  ⟨yearOfCycle + 400 * cycle + (if month ≤ 2 then 1 else 0), month, dayOfYear - daysBefore m + 1⟩

end Date

/-- A number with at least so many digits. -/
def padded (width n : Nat) : List Char :=
  let digits := Nat.toDigits 10 n
  List.replicate (width - digits.length) '0' ++ digits

/-- A time, in seconds since the start of 1970, as date and time of day. -/
def timestamp (seconds : Nat) : String :=
  let d := Date.ofDays (seconds / 86400)
  let s := seconds % 86400
  String.ofList (padded 4 d.year ++ padded 2 d.month ++ padded 2 d.day ++ ['T'] ++
    padded 2 (s / 3600) ++ padded 2 (s / 60 % 60) ++ padded 2 (s % 60) ++ ['Z'])

end BootDisk
