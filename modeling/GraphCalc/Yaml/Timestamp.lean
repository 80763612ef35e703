/-!
# Timestamps

A timestamp is a day, or a day and a time of day.  Between the two stands a
letter, and then a zone follows, or there are blanks and no zone.  All numbers but
the year and those of a zone have one or two digits.
-/

namespace GraphCalc.Yaml.Timestamp

/-- The number at the front of a text, with one or two digits, and what follows
it. -/
def number? : List Char → Option (Nat × List Char)
  | [] => none
  | first :: rest =>
      if !first.isDigit then
        none
      else
        let value := first.toNat - '0'.toNat
        match rest with
        | [] => some (value, [])
        | second :: others =>
            if second.isDigit then
              some (value * 10 + (second.toNat - '0'.toNat), others)
            else
              some (value, rest)

/-- The number at the front of a text, with two digits. -/
def pair? (text : List Char) : Option (Nat × List Char) :=
  if (text.take 2).length = 2 && (text.take 2).all Char.isDigit then number? text else none

/-- What follows a character at the front of a text. -/
def behind? (char : Char) : List Char → Option (List Char)
  | [] => none
  | first :: rest => if first = char then some rest else none

/-- Whether a year has a leap day. -/
def isLeap (year : Nat) : Bool :=
  year % 4 = 0 && (year % 100 ≠ 0 || year % 400 = 0)

/-- The number of days in a month. -/
def daysIn (year month : Nat) : Nat :=
  if month = 2 then
    if isLeap year then 29 else 28
  else if [4, 6, 9, 11].contains month then
    30
  else
    31

/-- What follows a day at the front of a text.  The year has four digits. -/
def behindDay? (text : List Char) : Option (List Char) := do
  let (century, text) ← pair? text
  let (rest, text) ← pair? text
  let (month, text) ← number? (← behind? '-' text)
  let (day, text) ← number? (← behind? '-' text)
  if 1 ≤ month && month ≤ 12 && 1 ≤ day && day ≤ daysIn (century * 100 + rest) month then
    some text
  else
    none

/-- What follows a fraction of a second, if there is one. -/
def behindFraction : List Char → List Char
  | [] => []
  | point :: rest =>
      if (point = '.' || point = ',') && rest.head?.any Char.isDigit then
        rest.dropWhile Char.isDigit
      else
        point :: rest

/-- What follows a time of day at the front of a text. -/
def behindTime? (text : List Char) : Option (List Char) := do
  let (hour, text) ← number? text
  let (minute, text) ← number? (← behind? ':' text)
  let (second, text) ← number? (← behind? ':' text)
  if hour < 24 && minute < 60 && second < 60 then some (behindFraction text) else none

/-- Whether a text is a zone: the letter for no offset, or an offset of at most
24 hours and 60 minutes. -/
def isZone : List Char → Bool
  | [] => false
  | first :: rest =>
      if first = 'Z' then
        rest.isEmpty
      else
        (first = '+' || first = '-') &&
          (do
            let (hours, text) ← pair? rest
            let (minutes, text) ← pair? (← behind? ':' text)
            some (hours ≤ 24 && minutes ≤ 60 && text.isEmpty)).getD false

/-- Whether what follows a day makes it a timestamp. -/
def isRest : List Char → Bool
  | [] => true
  | first :: rest =>
      if first = 'T' || first = 't' then
        (behindTime? rest).any isZone
      else if first = ' ' then
        (behindTime? (rest.dropWhile (· = ' '))).any List.isEmpty
      else
        false

end GraphCalc.Yaml.Timestamp

namespace GraphCalc.Yaml

/-- Whether a text is a timestamp. -/
def isTimestamp (text : List Char) : Bool :=
  (Timestamp.behindDay? text).any Timestamp.isRest

end GraphCalc.Yaml
