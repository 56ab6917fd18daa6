import RpcDaemon.Text.Numeral

/-!
# Dates of replies

The civil date and time of a number of seconds since the first of January 1970, in the form of
RFC 1123. The count of days is cut into eras of 400 years, which start in March so that leap days
come last.
-/

namespace RpcDaemon

namespace Http

/-- A date of the Gregorian calendar. -/
structure CivilDate where
  /-- The year. -/
  year : Nat
  /-- The month, from 1 to 12. -/
  month : Nat
  /-- The day of the month, from 1. -/
  day : Nat
deriving DecidableEq

namespace CivilDate

/-- The days of an era of 400 years. -/
def eraDays : Nat := 146097

/-- The year of an era, counted from March, that the day `doe` of the era falls in. -/
def yearOfEra (doe : Nat) : Nat :=
  (doe - doe / 1460 + doe / 36524 - doe / 146096) / 365

/-- The day of the year, counted from the first of March. -/
def dayOfYear (doe : Nat) : Nat :=
  let yoe := yearOfEra doe
  doe - (365 * yoe + yoe / 4 - yoe / 100)

/-- The month, counted from March as zero, of a day of the year. -/
def monthFromMarch (doy : Nat) : Nat :=
  (5 * doy + 2) / 153

/-- The date that lies `days` days after the first of January 1970. -/
def ofDays (days : Nat) : CivilDate :=
  let z := days + 719468
  let era := z / eraDays
  let doe := z % eraDays
  let doy := dayOfYear doe
  let mp := monthFromMarch doy
  let month := if mp < 10 then mp + 3 else mp - 9
  { year := yearOfEra doe + era * 400 + (if month ≤ 2 then 1 else 0)
    month := month
    day := doy - (153 * mp + 2) / 5 + 1 }

end CivilDate

/-- The seconds of a day. -/
def daySeconds : Nat := 86400

/-- The days of the week, from the day of the first of January 1970. -/
def weekdays : List String := ["Thu", "Fri", "Sat", "Sun", "Mon", "Tue", "Wed"]

/-- The months of the year. -/
def months : List String :=
  ["Jan", "Feb", "Mar", "Apr", "May", "Jun", "Jul", "Aug", "Sep", "Oct", "Nov", "Dec"]

/-- The date of a reply written `secs` seconds after the start of 1970. -/
def dateChars (secs : Nat) : List Char :=
  let days := secs / daySeconds
  let rem := secs % daySeconds
  let date := CivilDate.ofDays days
  (weekdays.getD (days % 7) "").toList ++ [',', ' '] ++ Numeral.padded 2 date.day ++ [' ']
    ++ (months.getD (date.month - 1) "").toList ++ [' '] ++ Numeral.ofNat date.year ++ [' ']
    ++ Numeral.padded 2 (rem / 3600) ++ [':'] ++ Numeral.padded 2 (rem % 3600 / 60) ++ [':']
    ++ Numeral.padded 2 (rem % 60) ++ " GMT".toList

/-- The date of a moment that may lie before 1970, which counts as the start of 1970. -/
def date (secs : Int) : String :=
  String.ofList (dateChars secs.toNat)

end Http

end RpcDaemon
