import GraphCalc.Output.Formula
import GraphCalc.Text.Quoted

/-!
# Outlines of formulas

An outline shows the structure of formulas for inspection: every part on lines
of its own, indented under what it belongs to.  Parts that hold nothing (an
empty text, a false mark, the first operator of its kind) are left out, while
an empty sequence is shown.
-/

namespace GraphCalc

/-- An outline, as lines. -/
abbrev Outline := List String

namespace Outline

/-- Put a label before the first line. -/
def label (name : String) : Outline → Outline
  | [] => []
  | first :: rest => (name ++ ": " ++ first) :: rest

/-- Put a comma behind the last line. -/
def close : Outline → Outline
  | [] => []
  | [last] => [last ++ ","]
  | first :: rest => first :: close rest

/-- Several outlines under a heading. -/
def block (heading : String) (entries : List Outline) : Outline :=
  if entries.isEmpty then
    [heading ++ "\x7b\x7d"]
  else
    (heading ++ "\x7b") ::
      entries.flatMap (fun entry => entry.close.map fun line => "  " ++ line) ++
      ["\x7d"]

/-- A labelled text, left out if it is empty. -/
def textField (name text : String) : List Outline :=
  if text = "" then [] else [label name [Text.quote text]]

/-- A labelled code, left out if it is zero. -/
def codeField (name : String) (code : Int) : List Outline :=
  if code = 0 then [] else [label name [toString code]]

/-- A labelled mark, left out if it is not set. -/
def markField (name : String) (mark : Bool) : List Outline :=
  if mark then [label name ["true"]] else []

/-- A labelled part, left out if there are no lines for it. -/
def partField (name : String) (part : Outline) : List Outline :=
  if part.isEmpty then [] else [label name part]

end Outline

open Outline

mutual

/-- The outline of a formula; a missing formula has none. -/
def Formula.outline : Formula → Outline
  | .number value => block "&Num" (textField "Value" value)
  | .var name => block "&Variable" (textField "Name" name)
  | .binary op left right =>
      block "&BinaryExpression"
        (partField "Left" left.outline ++ codeField "Operator" op.code ++
          partField "Right" right.outline)
  | .factorial operand => block "&UnaryExpression" (partField "Operand" operand.outline)
  | .call callee builtin args =>
      block "&Call"
        (textField "Func" callee ++ markField "IsBuiltin" builtin ++
          partField "Args" (block "[]Node" (Formula.outlineAll args)))
  | .list items =>
      block "&List" (partField "Items" (block "[]Node" (Formula.outlineAll items)))
  | .assign left right =>
      block "&Assignment"
        (partField "Left" left.outline ++ partField "Right" right.outline)
  | .define name params body =>
      block "&FuncDef"
        (textField "Name" name ++
          partField "Args" (block "[]string" (params.map fun param => [Text.quote param])) ++
          partField "Body" body.outline)
  | .piecewise first rest otherwise =>
      block "&Piecewise"
        (partField "First" (Clause.outline first) ++
          partField "Rest" (block "[]*Cond" (Clause.outlineAll rest)) ++
          partField "Default" otherwise.outline)
  | .missing => []

/-- The outlines of several formulas. -/
def Formula.outlineAll : List Formula → List Outline
  | [] => []
  | first :: rest => first.outline :: Formula.outlineAll rest

/-- The outline of one conditional part. -/
def Clause.outline : Clause Formula → Outline
  | ⟨left, comparison, right, result⟩ =>
      block "&Cond"
        (partField "Left" left.outline ++ codeField "Op" comparison.code ++
          partField "Right" right.outline ++ partField "Result" result.outline)

/-- The outlines of several conditional parts. -/
def Clause.outlineAll : List (Clause Formula) → List Outline
  | [] => []
  | first :: rest => Clause.outline first :: Clause.outlineAll rest

end

/-- The outline of the formulas of a program, as text. -/
def Formula.outlineText (formulas : List Formula) : String :=
  String.join ((block "[]Node" (Formula.outlineAll formulas)).map fun line => line ++ "\n")

end GraphCalc
