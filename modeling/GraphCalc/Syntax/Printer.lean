import GraphCalc.Syntax.Basic

/-!
# Printing programs

The canonical text of a tree: every binary expression stands in parentheses,
list items and arguments are separated by a comma and a space, and every
statement takes one line.
-/

namespace GraphCalc

/-- Texts separated by a comma and a space. -/
def commaSeparated (texts : List String) : String :=
  String.intercalate ", " texts

mutual

/-- The text of an expression. -/
def Expr.text : Expr → String
  | .number _ value => value
  | .var _ name => name
  | .binary _ op left right =>
      "(" ++ left.text ++ " " ++ op.text ++ " " ++ right.text ++ ")"
  | .unary _ _ operand => operand.text ++ "!"
  | .call _ _ callee args => callee ++ "(" ++ commaSeparated (Expr.texts args) ++ ")"
  | .macroCall _ name args => name ++ "!(" ++ commaSeparated (Expr.texts args) ++ ")"
  | .list _ items => "[" ++ commaSeparated (Expr.texts items) ++ "]"
  | .piecewise _ first rest otherwise =>
      "\x7b" ++
        commaSeparated (Clause.exprText first :: Clause.exprTexts rest ++ [otherwise.text]) ++
        "\x7d"
  | .mapped _ inner => "map " ++ inner.text

/-- The texts of several expressions. -/
def Expr.texts : List Expr → List String
  | [] => []
  | first :: rest => first.text :: Expr.texts rest

/-- The text of one conditional part. -/
def Clause.exprText : Clause Expr → String
  | ⟨left, comparison, right, result⟩ =>
      left.text ++ " " ++ comparison.text ++ " " ++ right.text ++ ": " ++ result.text

/-- The texts of several conditional parts. -/
def Clause.exprTexts : List (Clause Expr) → List String
  | [] => []
  | first :: rest => Clause.exprText first :: Clause.exprTexts rest

end

/-- The text of a parameter. -/
def Param.text (param : Param) : String :=
  param.name ++ ": " ++ param.type.name

/-- The text of a statement. -/
def Stmt.text : Stmt → String
  | .expr _ value => value.text
  | .define _ name params returns body =>
      let returnText :=
        match returns with
        | some type => ": " ++ type.name
        | none => ""
      name ++ "(" ++ commaSeparated (params.map Param.text) ++ ")" ++ returnText ++
        " = " ++ body.text

/-- The text of a program, one line per statement. -/
def Program.text (program : Program) : String :=
  String.intercalate "\n" (program.map Stmt.text)

end GraphCalc
