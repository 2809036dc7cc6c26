/-!
# Dates

A moment is a number of seconds since the start of 1970.  `Time.text` writes it in the format of
RFC 3339, the year with a sign where it does not have four digits.
-/

namespace SessionGuard.Time

/-- A day of the Gregorian calendar. -/
structure Date where
  year : Int
  month : Nat
  day : Nat
  deriving DecidableEq

/-- The day a number of days after the start of 1970.  Years are counted from March on, in eras of
400 years. -/
def dateOf (days : Int) : Date :=
  let shifted := days + 719468
  let era := Int.fdiv shifted 146097
  let dayOfEra := (Int.fmod shifted 146097).toNat
  let yearOfEra := (dayOfEra - dayOfEra / 1460 + dayOfEra / 36524 - dayOfEra / 146096) / 365
  let dayOfYear := dayOfEra - (365 * yearOfEra + yearOfEra / 4 - yearOfEra / 100)
  let marchMonth := (5 * dayOfYear + 2) / 153
  let day := dayOfYear - (153 * marchMonth + 2) / 5 + 1
  let month := if marchMonth < 10 then marchMonth + 3 else marchMonth - 9
  let year := (yearOfEra : Int) + era * 400
  ⟨if month ≤ 2 then year + 1 else year, month, day⟩

example : dateOf 0 = ⟨1970, 1, 1⟩ := by decide

example : dateOf 19782 = ⟨2024, 2, 29⟩ := by decide

/-- The digits of a number, with zeros in front up to a width. -/
def padded (width n : Nat) : List Char :=
  let digits := Nat.toDigits 10 n
  List.replicate (width - digits.length) '0' ++ digits

/-- The year of a date. -/
def yearText (year : Int) : List Char :=
  if 0 ≤ year && year ≤ 9999 then padded 4 year.toNat
  else (if year < 0 then '-' else '+') :: padded 4 year.natAbs

/-- A moment as text, to the second. -/
def text (seconds : Int) : String :=
  let date := dateOf (Int.fdiv seconds 86400)
  let clock := (Int.fmod seconds 86400).toNat
  String.ofList <|
    yearText date.year ++ '-' :: padded 2 date.month ++ '-' :: padded 2 date.day ++ 'T'
      :: padded 2 (clock / 3600) ++ ':' :: padded 2 (clock / 60 % 60) ++ ':'
      :: padded 2 (clock % 60) ++ ['Z']

/-- The first second that has a date: the calendar covers the years from -262143 to 262142. -/
def first : Int := -8334601228800

/-- The last second that has a date. -/
def last : Int := 8210266876799

example : text first = "-262143-01-01T00:00:00Z" := by decide

example : text last = "+262142-12-31T23:59:59Z" := by decide

end SessionGuard.Time
