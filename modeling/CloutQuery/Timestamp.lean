import CloutQuery.Number.Basic
import CloutQuery.Text.Character

namespace CloutQuery

open Text

structure Timestamp where
  /-- Minutes since the start of the first of March of the year 0. -/
  minutes : Int
  /-- 60 in a leap second. -/
  second : Nat
  nanosecond : Nat
deriving DecidableEq

namespace Timestamp

structure Date where
  year : Int
  month : Nat
  day : Nat
deriving DecidableEq

/-- Years begin in March here, so that the leap day is the last one of its year. -/
def Date.toDays (d : Date) : Int :=
  let year := if d.month ≤ 2 then d.year - 1 else d.year
  let era := year / 400
  let yearOfEra := year % 400
  let dayOfYear : Int := (153 * ((d.month + 9) % 12) + 2) / 5 + d.day - 1
  era * 146097 + yearOfEra * 365 + yearOfEra / 4 - yearOfEra / 100 + dayOfYear

def Date.ofDays (days : Int) : Date :=
  let era := days / 146097
  let dayOfEra := days % 146097
  let yearOfEra := (dayOfEra - dayOfEra / 1460 + dayOfEra / 36524 - dayOfEra / 146096) / 365
  let dayOfYear := dayOfEra - (365 * yearOfEra + yearOfEra / 4 - yearOfEra / 100)
  let month := (5 * dayOfYear + 2) / 153
  let year := yearOfEra + era * 400
  let day := (dayOfYear - (153 * month + 2) / 5 + 1).toNat
  if month < 10 then ⟨year, (month + 3).toNat, day⟩ else ⟨year + 1, (month - 9).toNat, day⟩

def isLeapYear (year : Int) : Bool := year % 4 = 0 && (year % 100 ≠ 0 || year % 400 = 0)

def daysInMonth (year : Int) (month : Nat) : Nat :=
  if month = 2 then (if isLeapYear year then 29 else 28)
  else if month = 4 ∨ month = 6 ∨ month = 9 ∨ month = 11 then 30
  else 31

def yearInRange (year : Int) : Bool := -262143 ≤ year && year ≤ 262142

def Date.isValid (d : Date) : Bool :=
  yearInRange d.year && 1 ≤ d.month && d.month ≤ 12 && 1 ≤ d.day &&
    d.day ≤ daysInMonth d.year d.month

def leadingNumber? (width : Nat) (cs : List Char) : Option (Nat × List Char) :=
  let digits := (cs.take width).takeWhile Char.isDigit
  if digits.isEmpty then none else some (digitsValue digits, cs.drop digits.length)

def twoDigits? (cs : List Char) : Option (Nat × List Char) := leadingNumber? 2 (trimStart cs)

def expect? (c : Char) (cs : List Char) : Option (List Char) :=
  match trimStart cs with
  | x :: rest => if x = c then some rest else none
  | [] => none

/-- Four digits at most, or any number of them behind a sign. -/
def readYear? (cs : List Char) : Option (Int × List Char) :=
  match trimStart cs with
  | '-' :: rest => (leadingNumber? rest.length rest).map fun (n, r) ↦ (-(n : Int), r)
  | '+' :: rest => (leadingNumber? rest.length rest).map fun (n, r) ↦ ((n : Int), r)
  | cs => (leadingNumber? 4 cs).map fun (n, r) ↦ ((n : Int), r)

def readDate? (cs : List Char) : Option (Date × List Char) := do
  let (year, cs) ← readYear? cs
  let (month, cs) ← twoDigits? (← expect? '-' cs)
  let (day, cs) ← twoDigits? (← expect? '-' cs)
  some (⟨year, month, day⟩, cs)

/-- A point and one digit or more, of which the first nine count. -/
def readFraction? (cs : List Char) : Option (Nat × List Char) :=
  match cs with
  | '.' :: rest =>
    (leadingNumber? 9 rest).map fun (n, r) ↦
      (n * Nat.pow 10 (9 - (rest.length - r.length)), r.dropWhile Char.isDigit)
  | cs => some (0, cs)

def readOffsetMinutes? (cs : List Char) : Option (Int × List Char) :=
  match cs with
  | a :: b :: rest =>
    match rest.dropWhile (fun c ↦ c = ':' || isBlank c) with
    | c :: d :: rest =>
      if [a, b, c, d].all Char.isDigit && c < '6' then
        some (60 * digitsValue [a, b] + digitsValue [c, d], rest)
      else none
    | _ => none
  | _ => none

/-- `UTC`, `Z` or a signed offset, in minutes and less than a day. -/
def readOffset? (cs : List Char) : Option (Int × List Char) := do
  if (cs.take 3).map Char.toUpper = ['U', 'T', 'C'] then some (0, cs.drop 3)
  else
    match cs with
    | [] => none
    | c :: rest =>
      if c = 'Z' ∨ c = 'z' then some (0, rest)
      else
        let (minutes, rest) ← readOffsetMinutes? rest
        if 1440 ≤ minutes then none
        else if c = '+' then some (minutes, rest)
        else if c = '-' ∨ c = '\u2212' then some (-minutes, rest)
        else none

def isDateEnd (c : Char) : Bool := c = 'T' || c = 't' || c = ' '

def dayMinutes : Int := 1440

def ofChars? (cs : List Char) : Option Timestamp := do
  let (date, cs) ← readDate? cs
  let cs ← match cs with
    | c :: rest => if isDateEnd c then some rest else none
    | [] => none
  let (hour, cs) ← twoDigits? cs
  let (minute, cs) ← twoDigits? (← expect? ':' cs)
  let (second, cs) ← twoDigits? (← expect? ':' cs)
  let (nanosecond, cs) ← readFraction? cs
  let (offset, cs) ← readOffset? (trimStart cs)
  if ¬ (trimStart cs).isEmpty ∨ ¬ date.isValid ∨ 24 ≤ hour ∨ 60 ≤ minute ∨ 60 < second then none
  else
    let minutes := date.toDays * dayMinutes + 60 * hour + minute - offset
    if yearInRange (Date.ofDays (minutes / dayMinutes)).year then some ⟨minutes, second, nanosecond⟩
    else none

def parse (text : String) : Option Timestamp := ofChars? text.toList

def padded (width n : Nat) : String :=
  let digits := natText n
  String.ofList (List.replicate (width - digits.length) '0' ++ digits)

/-- Years beyond four digits or below zero carry a sign. -/
def yearText (year : Int) : String :=
  if 0 ≤ year ∧ year ≤ 9999 then padded 4 year.toNat
  else (if year < 0 then "-" else "+") ++ padded 4 year.natAbs

/-- No digits, three, six or nine, as few as are exact. -/
def fractionText (nanosecond : Nat) : String :=
  if nanosecond = 0 then ""
  else if nanosecond % 1000000 = 0 then "." ++ padded 3 (nanosecond / 1000000)
  else if nanosecond % 1000 = 0 then "." ++ padded 6 (nanosecond / 1000)
  else "." ++ padded 9 nanosecond

def render (t : Timestamp) : String :=
  let date := Date.ofDays (t.minutes / dayMinutes)
  let minute := (t.minutes % dayMinutes).toNat
  yearText date.year ++ "-" ++ padded 2 date.month ++ "-" ++ padded 2 date.day ++ "T" ++
    padded 2 (minute / 60) ++ ":" ++ padded 2 (minute % 60) ++ ":" ++ padded 2 t.second ++
    fractionText t.nanosecond ++ "Z"

end Timestamp

end CloutQuery
