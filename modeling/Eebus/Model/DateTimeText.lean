import Eebus.Model.Calendar
import Eebus.Model.DurationReading

/-! The absolute half of a time element: `xs:dateTime` as it is read and written. -/

namespace Eebus.Model

open Eebus.Library.Gregorian

def takeFixedDigits (s : List Char) (count : Nat) : Option (Nat × List Char) :=
  if (s.take count).length = count ∧ (s.take count).all Char.isDigit = true then
    some (numberOf (s.take count), s.drop count)
  else none

def stripPrefix (c : Char) : List Char → Option (List Char)
  | [] => none
  | c' :: rest => if c' = c then some rest else none

def stripSign (s : List Char) : Bool × List Char :=
  match stripPrefix '-' s with
  | some rest => (true, rest)
  | none => (false, s)

def splitOnce (c : Char) (s : List Char) : Option (List Char × List Char) :=
  match s.dropWhile (· ≠ c) with
  | [] => none
  | _ :: rest => some (s.takeWhile (· ≠ c), rest)

def parseFraction (digits : List Char) : Nat :=
  (List.range 9).foldl (fun nanos i => nanos * 10 + (digits[i]?.map fun c => c.toNat - '0'.toNat).getD 0) 0

def parseOffset (s : List Char) : Option (Option Int) :=
  if s.isEmpty then some none
  else if s = ['Z'] then some (some 0)
  else do
    let (sign, rest) ← match s with
      | '+' :: rest => some ((1 : Int), rest)
      | '-' :: rest => some (-1, rest)
      | _ => none
    let (hours, rest) ← takeFixedDigits rest 2
    let rest ← stripPrefix ':' rest
    let (minutes, rest) ← takeFixedDigits rest 2
    if !rest.isEmpty || minutes > 59 then none
    else if hours * 60 + minutes > 14 * 60 then none
    else some (some (sign * (hours * 60 + minutes : Nat)))

def parseYear (yearText : List Char) : Option Nat :=
  if yearText.length < 4 || !yearText.all Char.isDigit then none
  else if yearText.length > 4 && yearText.head? == some '0' then none
  else if numberOf yearText < 2 ^ 31 then some (numberOf yearText)
  else none

def parseNanosecond (s : List Char) : Option (Nat × List Char) :=
  match stripPrefix '.' s with
  | some rest =>
    let digits := rest.takeWhile Char.isDigit
    if digits.length = 0 then none else some (parseFraction digits, rest.drop digits.length)
  | none => some (0, s)

def parseXsDateTime (text : String) : Option DateTime := do
  let (negativeYear, rest) := stripSign text.toList
  let (yearText, rest) ← splitOnce '-' rest
  let year ← parseYear yearText
  let year : Int := if negativeYear then -year else year
  let (month, rest) ← takeFixedDigits rest 2
  let rest ← stripPrefix '-' rest
  let (day, rest) ← takeFixedDigits rest 2
  let rest ← stripPrefix 'T' rest
  let (hour, rest) ← takeFixedDigits rest 2
  let rest ← stripPrefix ':' rest
  let (minute, rest) ← takeFixedDigits rest 2
  let rest ← stripPrefix ':' rest
  let (second, rest) ← takeFixedDigits rest 2
  let (nanosecond, rest) ← parseNanosecond rest
  let offsetMinutes ← parseOffset rest
  if !(1 ≤ month && month ≤ 12) || day < 1 || day > daysInMonth year month then none
  else if minute > 59 || second > 59 then none
  else if hour ≤ 23 then
    some { year, month, day, hour, minute, second, nanosecond, offsetMinutes }
  else if hour = 24 && minute == 0 && second == 0 && nanosecond == 0 then
    -- Midnight ending the day is the start of the following one.
    let (year, month, day) := civilFromDays (daysFromCivil year month day + 1)
    some { year, month, day, hour := 0, minute, second, nanosecond, offsetMinutes }
  else none

def formatOffset : Option Int → List Char
  | none => []
  | some 0 => ['Z']
  | some offset =>
    (if offset < 0 then '-' else '+') :: (padded 2 (offset.natAbs / 60) ++
      ':' :: padded 2 (offset.natAbs % 60))

def DateTime.format (stamp : DateTime) : String :=
  String.ofList <|
    (if stamp.year < 0 then '-' :: padded 4 stamp.year.natAbs else padded 4 stamp.year.natAbs) ++
      '-' :: (padded 2 stamp.month ++ '-' :: (padded 2 stamp.day ++
        'T' :: (padded 2 stamp.hour ++ ':' :: (padded 2 stamp.minute ++ ':' :: (padded 2 stamp.second ++
          ((if stamp.nanosecond > 0 then '.' :: fraction stamp.nanosecond else []) ++
            formatOffset stamp.offsetMinutes))))))

example : (parseXsDateTime "2026-12-31T24:00:00Z").map DateTime.format = some "2027-01-01T00:00:00Z" := by
  decide

end Eebus.Model
