import PeerTransfer.Toml.Token

/-!
# Dates and times in TOML

A moment is a date, a time of day, or both, and then perhaps the offset from universal time. Every
date must be one of the Gregorian calendar; a minute may have a leap second.
-/

namespace PeerTransfer.Toml

/-- Reads a number of exactly `width` digits. -/
def readFixed (width : Nat) (cs : List Char) : Option (Nat × List Char) :=
  let digits := cs.take width
  if digits.length = width && digits.all Char.isDigit then some (decimal digits, cs.drop width)
  else none

/-- Reads one given character. -/
def readChar (c : Char) : List Char → Option (List Char)
  | d :: rest => if d = c then some rest else none
  | [] => none

/-- The days that a month of a year has. -/
def daysIn (year month : Nat) : Nat :=
  if month = 2 then
    if year % 4 = 0 && (year % 100 ≠ 0 || year % 400 = 0) then 29 else 28
  else if month = 4 || month = 6 || month = 9 || month = 11 then 30
  else 31

/-- Reads a date. -/
def readDate (cs : List Char) : Option (List Char) := do
  let (year, rest) ← readFixed 4 cs
  let (month, rest) ← readFixed 2 (← readChar '-' rest)
  let (day, rest) ← readFixed 2 (← readChar '-' rest)
  if 1 ≤ month && month ≤ 12 && 1 ≤ day && day ≤ daysIn year month then some rest else none

/-- Reads an hour and a minute. -/
def readHourMinute (cs : List Char) : Option (List Char) := do
  let (hour, rest) ← readFixed 2 cs
  let (minute, rest) ← readFixed 2 (← readChar ':' rest)
  if hour ≤ 23 && minute ≤ 59 then some rest else none

/-- Drops the fraction of a second, if there is one. -/
def skipFraction : List Char → List Char
  | '.' :: c :: rest => if c.isDigit then rest.dropWhile Char.isDigit else '.' :: c :: rest
  | cs => cs

/-- Reads a time of day. -/
def readTime (cs : List Char) : Option (List Char) := do
  let (second, rest) ← readFixed 2 (← readChar ':' (← readHourMinute cs))
  if second ≤ 60 then some (skipFraction rest) else none

/-- Drops the offset from universal time, if there is one. -/
def skipOffset : List Char → List Char
  | [] => []
  | c :: rest =>
    if c = 'Z' || c = 'z' then rest
    else if c = '+' || c = '-' then (readHourMinute rest).getD (c :: rest)
    else c :: rest

/-- Drops the time that follows a date, if there is one. -/
def skipTime : List Char → List Char
  | [] => []
  | c :: rest =>
    if c = 'T' || c = 't' || c = ' ' then
      match readTime rest with
      | some rest => skipOffset rest
      | none => c :: rest
    else c :: rest

/-- Reads a moment; it is kept by its literal. -/
def readMoment (cs : List Char) : Option (List Char × List Char) :=
  match readDate cs with
  | some rest =>
    let rest := skipTime rest
    some (cs.take (cs.length - rest.length), rest)
  | none => (readTime cs).map fun rest => (cs.take (cs.length - rest.length), rest)

end PeerTransfer.Toml
