import GraphCalc.Proofs.Compile.Typing

/-!
# The names in expressions and in their formulas

An expression mentions variables and functions; the remainder is a call in the
formula although the expression names no function.  Compiling keeps the mentions
in their order and replaces each by a name of the formula, so what a name of a
formula refers to can be read off the context and the mention it comes from.
-/

namespace GraphCalc

/-- What an expression refers to: a variable, a function with the number of
arguments it is given, or the remainder. -/
inductive Mention
  | var (name : String)
  | function (name : String) (arity : Nat)
  | remainder
deriving DecidableEq

/-- What an operator refers to. -/
def BinaryOp.mentions : BinaryOp → List Mention
  | modulo => [.remainder]
  | _ => []

mutual

/-- The mentions of an expression, a function before those of its arguments.  A
bare name in front of the arguments of a macro names a function. -/
def Expr.mentions : Expr → List Mention
  | .number _ _ => []
  | .var _ name => [.var name]
  | .binary _ op left right => op.mentions ++ (left.mentions ++ right.mentions)
  | .unary _ _ operand => operand.mentions
  | .call _ _ callee args => .function callee args.length :: Expr.mentionsAll args
  | .macroCall _ _ (.var _ callee :: args) =>
      .function callee args.length :: Expr.mentionsAll args
  | .macroCall _ _ args => Expr.mentionsAll args
  | .list _ items => Expr.mentionsAll items
  | .piecewise _ first rest otherwise =>
      Clause.mentions first ++ (Clause.mentionsAll rest ++ otherwise.mentions)
  | .mapped _ inner => inner.mentions

def Expr.mentionsAll : List Expr → List Mention
  | [] => []
  | first :: rest => first.mentions ++ Expr.mentionsAll rest

def Clause.mentions : Clause Expr → List Mention
  | ⟨left, _, right, result⟩ => left.mentions ++ (right.mentions ++ result.mentions)

def Clause.mentionsAll : List (Clause Expr) → List Mention
  | [] => []
  | first :: rest => Clause.mentions first ++ Clause.mentionsAll rest

end

/-- What a statement refers to: for a definition, what its body refers to. -/
def Stmt.mentions : Stmt → List Mention
  | .expr _ value => value.mentions
  | .define _ _ _ _ body => body.mentions

/-- A name in a formula: that of a variable, or that of a function that is
called, with the number of its arguments. -/
inductive Occurrence
  | var (name : String)
  | call (callee : String) (builtin : Bool) (arity : Nat)
deriving DecidableEq

mutual

/-- The names in a formula, that of a function before those in its arguments.
The name and the parameters that a definition introduces are not among them. -/
def Formula.occurrences : Formula → List Occurrence
  | .number _ | .missing => []
  | .var name => [.var name]
  | .binary _ left right | .assign left right => left.occurrences ++ right.occurrences
  | .factorial operand => operand.occurrences
  | .call callee builtin args =>
      .call callee builtin args.length :: Formula.occurrencesAll args
  | .list items => Formula.occurrencesAll items
  | .define _ _ body => body.occurrences
  | .piecewise first rest otherwise =>
      Clause.occurrences first ++ (Clause.occurrencesAll rest ++ otherwise.occurrences)

def Formula.occurrencesAll : List Formula → List Occurrence
  | [] => []
  | first :: rest => first.occurrences ++ Formula.occurrencesAll rest

def Clause.occurrences : Clause Formula → List Occurrence
  | ⟨left, _, right, result⟩ => left.occurrences ++ (right.occurrences ++ result.occurrences)

def Clause.occurrencesAll : List (Clause Formula) → List Occurrence
  | [] => []
  | first :: rest => Clause.occurrences first ++ Clause.occurrencesAll rest

end

/-- What a mention becomes in the formula: variables keep their names, functions
are resolved and have as many arguments as parameters, and the remainder is a
call of the calculator's function. -/
inductive Context.Yields (context : Context) : Mention → Occurrence → Prop
  | var {name : String} {type : ValueType} (known : context.variableType? name = some type) :
      Yields context (.var name) (.var name)
  | function {name : String} {signature : Signature}
      (resolved : context.Resolves name signature) :
      Yields context (.function name signature.params.length)
        (.call name signature.builtin signature.params.length)
  | remainder : Yields context .remainder (.call Builtin.moduloName true 2)

/-- Mentions and the names they become, position by position. -/
abbrev Context.AllYield (context : Context) : List Mention → List Occurrence → Prop :=
  List.Forall₂ context.Yields

theorem HaveTypes.length_eq {context : Context} {exprs : List Expr} {types : List ValueType}
    (typed : HaveTypes context exprs types) : exprs.length = types.length := by
  induction exprs generalizing types with
  | nil =>
      cases typed
      rfl
  | cons expr exprs ih =>
      cases typed with
      | cons _ restTyped => rw [List.length_cons, List.length_cons, ih restTyped]

theorem Expr.length_formulas (context : Context) (exprs : List Expr) :
    (Expr.formulas context exprs).length = exprs.length := by
  induction exprs with
  | nil => rfl
  | cons expr exprs ih => rw [Expr.formulas, List.length_cons, List.length_cons, ih]

namespace Context.AllYield

variable {context : Context}

theorem append {mentions others : List Mention} {occurrences otherOccurrences : List Occurrence}
    (first : context.AllYield mentions occurrences)
    (second : context.AllYield others otherOccurrences) :
    context.AllYield (mentions ++ others) (occurrences ++ otherOccurrences) :=
  List.rel_append first second

/-- The operands of an operation yield what they do by themselves, and the
remainder yields a call in front of them. -/
theorem operation {op : BinaryOp} {mentions : List Mention} {left right : Formula}
    (known : op ∈ BinaryOp.known)
    (operands : context.AllYield mentions (left.occurrences ++ right.occurrences)) :
    context.AllYield (op.mentions ++ mentions) (op.formula left right).occurrences := by
  cases op with
  | modulo =>
      refine .cons .remainder ?_
      simpa [Formula.occurrencesAll] using operands
  | other code => simp [BinaryOp.known] at known
  | _ => exact operands

/-- A call of either mode yields a call with as many arguments as parameters. -/
theorem call {callee : String} {signature : Signature} {args : List Expr}
    (resolved : context.Resolves callee signature)
    (length : args.length = signature.params.length)
    (inArgs : context.AllYield (Expr.mentionsAll args)
      (Formula.occurrencesAll (Expr.formulas context args))) :
    context.AllYield (.function callee args.length :: Expr.mentionsAll args)
      (Formula.call callee (context.callsBuiltin callee)
        (Expr.formulas context args)).occurrences := by
  rw [Formula.occurrences, Expr.length_formulas, length, ← resolved.builtin_eq]
  exact .cons (.function resolved) inArgs

end Context.AllYield

mutual

/-- The names in the formula of an expression that has a type come from the
mentions of the expression. -/
theorem Expr.allYield {context : Context} : (expr : Expr) → ∀ {type : ValueType},
    HasType context expr type → context.AllYield expr.mentions (expr.formula context).occurrences
  | .number _ _, _, _ => .nil
  | .var _ _, _, typed => .cons (.var typed.variableType?_eq) .nil
  | .binary _ _ left right, _, typed => by
      rw [Expr.mentions, Expr.formula]
      cases typed with
      | arithmetic _ known leftNumber rightNumber =>
          exact .operation known ((left.allYield leftNumber).append (right.allYield rightNumber))
  | .unary _ _ operand, _, typed => by
      cases typed with
      | factorial _ number => exact operand.allYield number
  | .call _ _ _ args, _, typed => by
      rw [Expr.mentions, Expr.formula]
      cases typed with
      | call _ resolved typed =>
          exact .call resolved typed.length_eq (Expr.allYield_all args typed)
  | .macroCall _ _ [], _, typed => by
      cases typed
  | .macroCall _ _ (_ :: args), _, typed => by
      cases typed with
      | map _ _ resolved _ typed accepted =>
          exact .call resolved (typed.length_eq.trans accepted.length_eq)
            (Expr.allYield_all args typed)
  | .list _ items, _, typed => by
      cases typed with
      | list _ typed _ => exact Expr.allYield_all items typed
  | .piecewise _ first rest otherwise, _, typed => by
      cases typed with
      | piecewise _ firstTyped restTyped number =>
          exact (Clause.allYield first firstTyped).append
            ((Clause.allYield_all rest restTyped).append (otherwise.allYield number))
  | .mapped _ _, _, typed => by
      cases typed

theorem Expr.allYield_all {context : Context} : (exprs : List Expr) →
    ∀ {types : List ValueType}, HaveTypes context exprs types →
      context.AllYield (Expr.mentionsAll exprs)
        (Formula.occurrencesAll (Expr.formulas context exprs))
  | [], _, _ => .nil
  | first :: rest, _, typed => by
      cases typed with
      | cons firstTyped restTyped =>
          exact (first.allYield firstTyped).append (Expr.allYield_all rest restTyped)

theorem Clause.allYield {context : Context} : (clause : Clause Expr) →
    ClauseTyped context clause →
      context.AllYield (Clause.mentions clause) (Clause.occurrences (Clause.formula context clause))
  | ⟨left, _, right, result⟩, typed => by
      cases typed with
      | mk _ leftNumber rightTyped resultTyped =>
          exact (left.allYield leftNumber).append
            ((right.allYield rightTyped).append (result.allYield resultTyped))

theorem Clause.allYield_all {context : Context} : (clauses : List (Clause Expr)) →
    ClausesTyped context clauses →
      context.AllYield (Clause.mentionsAll clauses)
        (Clause.occurrencesAll (Clause.formulas context clauses))
  | [], _ => .nil
  | first :: rest, typed => by
      cases typed with
      | cons firstTyped restTyped =>
          exact (Clause.allYield first firstTyped).append (Clause.allYield_all rest restTyped)

end

end GraphCalc
