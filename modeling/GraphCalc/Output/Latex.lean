import GraphCalc.Output.Formula
import GraphCalc.Text.Utf8

/-!
# The text of a formula

Formulas are written in the LaTeX dialect of the calculator.  Products are
written side by side, with a dot only where the two sides would run together;
a sum is put in parentheses as a factor or as the right side of a difference,
and an operation is put in parentheses before a factorial mark.

The text is a byte sequence, because a name is split behind its first byte.
A formula that lacks a part or holds an unknown operator has no text; the
fault that is met first, from left to right, is given instead.
-/

namespace GraphCalc

open Text (Bytes utf8)

/-- Why a formula has no text. -/
inductive RenderFault
  | missingPart
  | unknownOperator (code : Int)
  | unknownComparison (code : Int)
deriving DecidableEq, Repr

/-- The wording of a fault. -/
def RenderFault.message : RenderFault → String
  | missingPart => "cannot render node of type <nil>"
  | unknownOperator code => "unknown binary operator " ++ toString code
  | unknownComparison code => "unknown compare operator " ++ toString code

namespace Latex

/-- A name with everything behind its first byte as a subscript. -/
def identifier (name : String) : Bytes :=
  match utf8 name with
  | first :: second :: rest =>
      first :: utf8 "_\x7b" ++ (second :: rest) ++ utf8 "\x7d"
  | short => short

/-- A text in parentheses that grow with it. -/
def group (text : Bytes) : Bytes :=
  utf8 "\\left(" ++ text ++ utf8 "\\right)"

/-- A text in parentheses if the condition holds. -/
def groupIf (condition : Bool) (text : Bytes) : Bytes :=
  if condition then group text else text

/-- Texts separated by commas. -/
def commas (texts : List Bytes) : Bytes :=
  List.intercalate (utf8 ",") texts

/-- Whether a byte is a decimal digit. -/
def isDigit (byte : UInt8) : Bool :=
  0x30 ≤ byte && byte ≤ 0x39

/-- Whether two factors would be misread side by side: the right one starts
with a minus sign, or a digit meets a digit. -/
def needsDot (left right : Bytes) : Bool :=
  match left.getLast?, right.head? with
  | some last, some first => first = 0x2D || (isDigit last && isDigit first)
  | _, _ => false

/-- Two factors side by side. -/
def product (left right : Bytes) : Bytes :=
  if needsDot left right then left ++ utf8 "\\cdot " ++ right else left ++ right

/-- One text over another. -/
def fraction (upper lower : Bytes) : Bytes :=
  utf8 "\\frac\x7b" ++ upper ++ utf8 "\x7d\x7b" ++ lower ++ utf8 "\x7d"

/-- The sign of a comparison. -/
def comparison : Comparison → Except RenderFault Bytes
  | .equal => .ok (utf8 "=")
  | .greater => .ok (utf8 ">")
  | .less => .ok (utf8 "<")
  | .greaterEqual => .ok (utf8 "\\ge ")
  | .lessEqual => .ok (utf8 "\\le ")
  | .other code => .error (.unknownComparison code)

/-- A binary operation on two formulas with the given texts. -/
def operation (op : Arithmetic) (left right : Formula) (leftText rightText : Bytes) :
    Except RenderFault Bytes :=
  match op with
  | .add => .ok (leftText ++ utf8 "+" ++ rightText)
  | .subtract => .ok (leftText ++ utf8 "-" ++ groupIf right.isSum rightText)
  | .multiply =>
      .ok (product (groupIf left.isSum leftText) (groupIf right.isSum rightText))
  | .divide => .ok (fraction leftText rightText)
  | .other code => .error (.unknownOperator code)

/-- The name of a called function.  Builtin functions have control sequences
of their own. -/
def callee (name : String) (builtin : Bool) : Bytes :=
  if builtin then utf8 "\\" ++ utf8 name else identifier name

end Latex

open Latex

mutual

/-- The text of a formula. -/
def Formula.latex : Formula → Except RenderFault Bytes
  | .number value => .ok (utf8 value)
  | .var name => .ok (identifier name)
  | .binary op left right => do
      let leftText ← left.latex
      let rightText ← right.latex
      operation op left right leftText rightText
  | .factorial operand => do
      let text ← operand.latex
      return groupIf operand.isOperation text ++ utf8 "!"
  | .call name builtin args => do
      let texts ← Formula.latexAll args
      return callee name builtin ++ group (commas texts)
  | .list items => do
      let texts ← Formula.latexAll items
      return utf8 "\\left[" ++ commas texts ++ utf8 "\\right]"
  | .assign left right => do
      let leftText ← left.latex
      let rightText ← right.latex
      return leftText ++ utf8 "=" ++ rightText
  | .define name params body => do
      let text ← body.latex
      return identifier name ++ group (commas (params.map identifier)) ++ utf8 "=" ++ text
  | .piecewise first rest otherwise => do
      let firstText ← Clause.latex first
      let restTexts ← Clause.latexAll rest
      let otherwiseText ← otherwise.latex
      return utf8 "\\left\\\x7b" ++ commas (firstText :: restTexts ++ [otherwiseText]) ++
        utf8 "\\right\\\x7d"
  | .missing => .error .missingPart

/-- The texts of several formulas. -/
def Formula.latexAll : List Formula → Except RenderFault (List Bytes)
  | [] => .ok []
  | first :: rest => do
      let text ← first.latex
      let texts ← Formula.latexAll rest
      return text :: texts

/-- The text of one conditional part. -/
def Clause.latex : Clause Formula → Except RenderFault Bytes
  | ⟨left, sign, right, result⟩ => do
      let leftText ← left.latex
      let signText ← comparison sign
      let rightText ← right.latex
      let resultText ← result.latex
      return leftText ++ signText ++ rightText ++ utf8 ":" ++ resultText

/-- The texts of several conditional parts. -/
def Clause.latexAll : List (Clause Formula) → Except RenderFault (List Bytes)
  | [] => .ok []
  | first :: rest => do
      let text ← Clause.latex first
      let texts ← Clause.latexAll rest
      return text :: texts

end

/-- The text of several formulas, one line for each. -/
def Formula.latexLines : List Formula → Except RenderFault Bytes
  | [] => .ok []
  | first :: rest => do
      let text ← first.latex
      let lines ← Formula.latexLines rest
      return text ++ utf8 "\n" ++ lines

end GraphCalc
