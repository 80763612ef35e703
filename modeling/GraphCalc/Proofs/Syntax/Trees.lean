import GraphCalc.Syntax.Basic
import Mathlib.Logic.Relation

/-!
# The parts and the spans of trees

An expression is made of other expressions.  The parts of an expression are those
that are reached from it by going from an expression to one it is made of.  All
spans of a tree can be changed at once; a tree of which every span is forgotten
shows what was written, but not where.
-/

namespace GraphCalc

/-! ## Parts -/

/-- The expressions of a conditional part, in the order of the text. -/
def Clause.parts (clause : Clause Expr) : List Expr :=
  [clause.left, clause.right, clause.result]

namespace Expr

/-- The expressions an expression is made of, in the order of the text. -/
def parts : Expr → List Expr
  | number _ _ => []
  | var _ _ => []
  | binary _ _ left right => [left, right]
  | unary _ _ operand => [operand]
  | call _ _ _ args => args
  | macroCall _ _ args => args
  | list _ items => items
  | piecewise _ first rest otherwise => (first :: rest).flatMap Clause.parts ++ [otherwise]
  | mapped _ inner => [inner]

/-- Whether an expression is a part of another one, or that one itself. -/
def Inside (part expr : Expr) : Prop :=
  Relation.ReflTransGen (fun whole part => part ∈ whole.parts) expr part

end Expr

/-! ## Changing spans -/

mutual

/-- An expression with all its spans changed. -/
def Expr.mapSpans (change : Span → Span) : Expr → Expr
  | .number span value => .number (change span) value
  | .var span name => .var (change span) name
  | .binary span op left right =>
      .binary (change span) op (left.mapSpans change) (right.mapSpans change)
  | .unary span op operand => .unary (change span) op (operand.mapSpans change)
  | .call span mode callee args =>
      .call (change span) mode callee (Expr.mapAllSpans change args)
  | .macroCall span name args => .macroCall (change span) name (Expr.mapAllSpans change args)
  | .list span items => .list (change span) (Expr.mapAllSpans change items)
  | .piecewise span first rest otherwise =>
      .piecewise (change span) (Clause.mapSpans change first) (Clause.mapAllSpans change rest)
        (otherwise.mapSpans change)
  | .mapped span inner => .mapped (change span) (inner.mapSpans change)

def Expr.mapAllSpans (change : Span → Span) : List Expr → List Expr
  | [] => []
  | first :: rest => first.mapSpans change :: Expr.mapAllSpans change rest

def Clause.mapSpans (change : Span → Span) : Clause Expr → Clause Expr
  | ⟨left, comparison, right, result⟩ =>
      ⟨left.mapSpans change, comparison, right.mapSpans change, result.mapSpans change⟩

def Clause.mapAllSpans (change : Span → Span) : List (Clause Expr) → List (Clause Expr)
  | [] => []
  | first :: rest => Clause.mapSpans change first :: Clause.mapAllSpans change rest

end

def Param.mapSpans (change : Span → Span) (param : Param) : Param :=
  { param with span := change param.span }

/-- A statement with all its spans changed. -/
def Stmt.mapSpans (change : Span → Span) : Stmt → Stmt
  | .expr span value => .expr (change span) (value.mapSpans change)
  | .define span name params returns body =>
      .define (change span) name (params.map (Param.mapSpans change)) returns
        (body.mapSpans change)

theorem Expr.span_mapSpans (change : Span → Span) (value : Expr) :
    (value.mapSpans change).span = change value.span := by
  cases value with
  | _ => simp [mapSpans, span]

mutual

theorem Expr.mapSpans_id : (value : Expr) → value.mapSpans id = value
  | .number .. => rfl
  | .var .. => rfl
  | .binary _ _ left right => by
      rw [Expr.mapSpans, left.mapSpans_id, right.mapSpans_id, id]
  | .unary _ _ operand => by
      rw [Expr.mapSpans, operand.mapSpans_id, id]
  | .call _ _ _ args => by
      rw [Expr.mapSpans, Expr.mapAllSpans_id args, id]
  | .macroCall _ _ args => by
      rw [Expr.mapSpans, Expr.mapAllSpans_id args, id]
  | .list _ items => by
      rw [Expr.mapSpans, Expr.mapAllSpans_id items, id]
  | .piecewise _ first rest otherwise => by
      rw [Expr.mapSpans, Clause.mapSpans_id first, Clause.mapAllSpans_id rest,
        otherwise.mapSpans_id, id]
  | .mapped _ inner => by
      rw [Expr.mapSpans, inner.mapSpans_id, id]

theorem Expr.mapAllSpans_id : (values : List Expr) → Expr.mapAllSpans id values = values
  | [] => rfl
  | first :: rest => by
      rw [Expr.mapAllSpans, first.mapSpans_id, Expr.mapAllSpans_id rest]

theorem Clause.mapSpans_id : (clause : Clause Expr) → Clause.mapSpans id clause = clause
  | ⟨left, _, right, result⟩ => by
      rw [Clause.mapSpans, left.mapSpans_id, right.mapSpans_id, result.mapSpans_id]

theorem Clause.mapAllSpans_id : (clauses : List (Clause Expr)) →
    Clause.mapAllSpans id clauses = clauses
  | [] => rfl
  | first :: rest => by
      rw [Clause.mapAllSpans, Clause.mapSpans_id first, Clause.mapAllSpans_id rest]

end

theorem Stmt.mapSpans_id (stmt : Stmt) : stmt.mapSpans id = stmt := by
  cases stmt with
  | expr span value => rw [mapSpans, value.mapSpans_id, id]
  | define span name params returns body =>
      have sameParams : params.map (Param.mapSpans id) = params := List.map_id params
      rw [mapSpans, body.mapSpans_id, sameParams, id]

/-! ## Forgetting spans -/

abbrev Span.forget (_ : Span) : Span :=
  .nowhere

/-- A program with all its spans forgotten.  Two programs are equal up to spans
if they are equal without them. -/
def Program.bare (program : Program) : Program :=
  program.map (Stmt.mapSpans Span.forget)

end GraphCalc
