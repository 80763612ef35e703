/-!
# Positions and spans

A position counts characters: its offset from the start of the text, its line
and its column, the latter two from one.  Diagnostics may carry positions that
no text has, so the counts are integers.  A span runs from one position up to
another in a named file.
-/

namespace GraphCalc

/-- A place between two characters of a text. -/
structure Position where
  offset : Int
  line : Int
  column : Int
deriving DecidableEq, Repr, Inhabited

namespace Position

/-- The place before the first character of a text. -/
def start : Position :=
  ⟨0, 1, 1⟩

/-- The place just past a character. -/
def step (place : Position) (char : Char) : Position :=
  if char = '\n' then
    ⟨place.offset + 1, place.line + 1, 1⟩
  else
    ⟨place.offset + 1, place.line, place.column + 1⟩

/-- The place just past a text. -/
def advance (place : Position) (text : List Char) : Position :=
  text.foldl step place

/-- The place some columns further on the same line. -/
def right (place : Position) (width : Nat) : Position :=
  ⟨place.offset + width, place.line, place.column + width⟩

end Position

/-- A region of a file, from a position up to another. -/
structure Span where
  file : String
  start : Position
  stop : Position
deriving DecidableEq, Repr, Inhabited

namespace Span

/-- The span of nothing: no file and no place. -/
def nowhere : Span :=
  ⟨"", ⟨0, 0, 0⟩, ⟨0, 0, 0⟩⟩

/-- From the start of one span to the stop of another, in the first one's
file. -/
def join (first last : Span) : Span :=
  ⟨first.file, first.start, last.stop⟩

/-- How a diagnostic names the span: file, line and column of its start.  A
nameless file is left out. -/
def text (span : Span) : String :=
  let place := toString span.start.line ++ ":" ++ toString span.start.column
  if span.file = "" then place else span.file ++ ":" ++ place

end Span

end GraphCalc
