import GraphCalc.Compile.Context
import GraphCalc.Compile.Logged
import GraphCalc.Output.Formula

/-!
# Compiling expressions

Compiling an expression checks its types and gives the formula it stands for.
Parts are compiled from left to right, the arguments of a call before its
function is looked up, and their number is checked before their types; the
first fault is the outcome.

Arithmetic takes numbers to numbers.  List items are not lists.  In a piecewise
expression the left sides of the conditions and the default value are numbers,
and so is the whole.  The mapping macro calls a function whose parameters that
are numbers may also be given lists.
-/

namespace GraphCalc

/-- A formula and the type of its value. -/
structure Typed where
  formula : Formula
  type : ValueType

/-- A compiled argument of a call and the span it was compiled from. -/
structure Argument where
  span : Span
  formula : Formula
  type : ValueType

namespace Compile

/-- The name of the mapping macro. -/
def mapName : String :=
  "map"

/-- The formula of a value that has to be a number. -/
def requireNumber (span : Span) (value : Typed) : Logged Formula :=
  if value.type = .number then
    pure value.formula
  else
    .fail (.mistake span (.typeMismatch value.type .number))

/-- The formula of a list item, which must not be a list. -/
def requireItem (span : Span) (value : Typed) : Logged Formula :=
  if value.type = .list then
    .fail (.mistake span .noNestedList)
  else
    pure value.formula

/-- The formula of a binary operation.  The remainder is a builtin function of
the calculator. -/
def operation (span : Span) (op : BinaryOp) (left right : Formula) : Logged Formula :=
  match op with
  | .add => pure (.binary .add left right)
  | .subtract => pure (.binary .subtract left right)
  | .multiply => pure (.binary .multiply left right)
  | .divide => pure (.binary .divide left right)
  | .modulo => pure (.call Builtin.moduloName true [left, right])
  | .other code => .fail (.broken span (.binaryOperator (.other code)))

/-- The comparison of a condition, which must be one of the calculator's. -/
def comparison (span : Span) (sign : Comparison) : Logged Comparison :=
  match sign with
  | .other code => .fail (.broken span (.comparison (.other code)))
  | known => pure known

/-- Whether an argument may be given for a parameter.  A mapped call is
repeated over the items of a list. -/
def accepts (mode : CallMode) (got expected : ValueType) : Bool :=
  got = expected || (mode = .mapped && got = .list && expected = .number)

/-- Check arguments against the types of the parameters, from left to right. -/
def checkArguments (mode : CallMode) : List Argument → List ValueType → Logged Unit
  | arg :: args, expected :: params =>
      if accepts mode arg.type expected then
        checkArguments mode args params
      else
        .fail (.mistake arg.span (.typeMismatch arg.type expected))
  | _, _ => pure ()

/-- The call of a function with compiled arguments. -/
def call (context : Context) (span : Span) (mode : CallMode) (callee : String)
    (args : List Argument) : Logged Typed :=
  match context.signature? callee with
  | none => .fail (.mistake span (.unknownFunction callee))
  | some signature =>
      if args.length ≠ signature.params.length then
        .fail (.mistake span (.wrongArgCount args.length signature.params.length))
      else do
        checkArguments mode args signature.params
        return ⟨.call callee signature.builtin (args.map Argument.formula), signature.result⟩

end Compile

open Compile

mutual

/-- The formula an expression stands for, and its type. -/
def Expr.compile (context : Context) : Expr → Logged Typed
  | .number _ value => pure ⟨.number value, .number⟩
  | .var span name =>
      match context.variableType? name with
      | some type => pure ⟨.var name, type⟩
      | none => .fail (.mistake span (.undefinedVariable name))
  | .binary span op left right => do
      let leftFormula ← requireNumber left.span (← left.compile context)
      let rightFormula ← requireNumber right.span (← right.compile context)
      return ⟨← operation span op leftFormula rightFormula, .number⟩
  | .unary span op operand => do
      let formula ← requireNumber operand.span (← operand.compile context)
      match op with
      | .factorial => return ⟨.factorial formula, .number⟩
      | .other code => .fail (.broken span (.unaryOperator (.other code)))
  | .call span mode callee args =>
      match mode with
      | .normal => do
          let compiled ← Expr.compileArguments context args
          call context span .normal callee compiled
      | _ => .fail (.broken span .mappedCall)
  | .macroCall span name args =>
      if name = mapName then
        match args with
        | first :: others =>
            if others.isEmpty then
              .fail (.mistake span .badMapMacro)
            else
              match first with
              | .var _ callee => do
                  let compiled ← Expr.compileArguments context others
                  Logged.note (.expanding callee compiled.length)
                  call context span .mapped callee compiled
              | _ => .fail (.mistake first.span .expectedFunction)
        | [] => .fail (.mistake span .badMapMacro)
      else
        .fail (.mistake span (.undefinedMacro name))
  | .list _ items => do
      return ⟨.list (← Expr.compileItems context items), .list⟩
  | .piecewise _ first rest otherwise => do
      let firstClause ← Clause.compile context first
      let restClauses ← Clause.compileAll context rest
      let otherwiseFormula ← requireNumber otherwise.span (← otherwise.compile context)
      return ⟨.piecewise firstClause restClauses otherwiseFormula, .number⟩
  | .mapped span _ => .fail (.broken span .mappedExpression)

/-- The arguments of a call. -/
def Expr.compileArguments (context : Context) : List Expr → Logged (List Argument)
  | [] => pure []
  | first :: rest => do
      let value ← first.compile context
      let args ← Expr.compileArguments context rest
      return ⟨first.span, value.formula, value.type⟩ :: args

/-- The items of a list. -/
def Expr.compileItems (context : Context) : List Expr → Logged (List Formula)
  | [] => pure []
  | first :: rest => do
      let item ← requireItem first.span (← first.compile context)
      let items ← Expr.compileItems context rest
      return item :: items

/-- One conditional part of a piecewise expression. -/
def Clause.compile (context : Context) : Clause Expr → Logged (Clause Formula)
  | ⟨left, sign, right, result⟩ => do
      let leftFormula ← requireNumber left.span (← left.compile context)
      let rightValue ← right.compile context
      let resultValue ← result.compile context
      let known ← comparison (left.span.join result.span) sign
      return ⟨leftFormula, known, rightValue.formula, resultValue.formula⟩

/-- Several conditional parts of a piecewise expression. -/
def Clause.compileAll (context : Context) :
    List (Clause Expr) → Logged (List (Clause Formula))
  | [] => pure []
  | first :: rest => do
      let clause ← Clause.compile context first
      let clauses ← Clause.compileAll context rest
      return clause :: clauses

end

end GraphCalc
