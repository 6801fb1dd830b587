/-!
# Timestamps

A time as seventeen digits: year, month, day, hour, minute, second and milliseconds, of which only
the year may need more digits than it is given. Times are counted in milliseconds from the
beginning of the year 1970.
-/

namespace RepairSearch.Timestamp

def padded (width n : Nat) : String :=
  let digits := toString n
  String.ofList (List.replicate (width - digits.length) '0') ++ digits

/-- The year, month and day of a day that is counted from the beginning of 1970. The count is
taken in years that begin in March, so that a leap day ends a year. -/
def date (day : Nat) : Nat × Nat × Nat :=
  let shifted := day + 719468
  let era := shifted / 146097
  let ofEra := shifted % 146097
  let yearOfEra := (ofEra - ofEra / 1460 + ofEra / 36524 - ofEra / 146096) / 365
  let ofYear := ofEra - (365 * yearOfEra + yearOfEra / 4 - yearOfEra / 100)
  let march := (5 * ofYear + 2) / 153
  let month := if march < 10 then march + 3 else march - 9
  (era * 400 + yearOfEra + (if month ≤ 2 then 1 else 0), month,
    ofYear - (153 * march + 2) / 5 + 1)

def ofMilliseconds (ms : Nat) : String :=
  let seconds := ms / 1000
  let (year, month, day) := date (seconds / 86400)
  padded 4 year ++ padded 2 month ++ padded 2 day ++ padded 2 (seconds / 3600 % 24)
    ++ padded 2 (seconds / 60 % 60) ++ padded 2 (seconds % 60) ++ padded 3 (ms % 1000)

end RepairSearch.Timestamp
