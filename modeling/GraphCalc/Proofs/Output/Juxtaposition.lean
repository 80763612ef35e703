import GraphCalc.Proofs.Compile.Faultless
import GraphCalc.Proofs.Compile.Flatness
import GraphCalc.Proofs.Compile.Mentions
import GraphCalc.Proofs.Compile.Session
import GraphCalc.Proofs.Output.Factors

/-!
# Products and calls

A product and a call with the same text can be confused only if the name in them is
that of a number and at once that of a function of the program with one parameter.  If
the parameter is a number, there are a product and a call with the same text.
-/

namespace GraphCalc

/-! ## Types of operands and calls -/

section Types

variable {context : Context}

theorem Expr.exists_of_mem_formulas {exprs : List Expr} {formula : Formula}
    (isMember : formula ∈ Expr.formulas context exprs) :
    ∃ expr ∈ exprs, expr.formula context = formula := by
  induction exprs with
  | nil => cases isMember
  | cons first rest ih =>
      rcases List.mem_cons.1 isMember with rfl | isMember
      · exact ⟨first, List.mem_cons_self, rfl⟩
      · rcases ih isMember with ⟨expr, isExpr, formulaEq⟩
        exact ⟨expr, List.mem_cons_of_mem _ isExpr, formulaEq⟩

/-- Whether a formula is that of an expression with a type. -/
def Formula.OfTyped (context : Context) (formula : Formula) : Prop :=
  ∃ expr type, HasType context expr type ∧ expr.formula context = formula

theorem HaveTypes.ofTyped {exprs : List Expr} {types : List ValueType} {formula : Formula}
    (typed : HaveTypes context exprs types) (isMember : formula ∈ Expr.formulas context exprs) :
    formula.OfTyped context := by
  rcases Expr.exists_of_mem_formulas isMember with ⟨expr, isExpr, formulaEq⟩
  rcases typed.exists_of_mem isExpr with ⟨type, -, exprTyped⟩
  exact ⟨expr, type, exprTyped, formulaEq⟩

theorem ClausesTyped.ofTyped {clauses : List (Clause Expr)} {formula : Formula}
    (typed : ClausesTyped context clauses)
    (isMember : formula ∈ (Clause.formulas context clauses).flatMap Clause.children) :
    formula.OfTyped context := by
  induction clauses with
  | nil => cases isMember
  | cons clause rest ih =>
      rcases clause with ⟨left, comparison, right, result⟩
      cases typed with
      | cons firstTyped restTyped =>
          rcases List.mem_append.1 isMember with isPart | isMember
          · cases firstTyped with
            | mk _ leftNumber rightTyped resultTyped =>
                simp only [Clause.formula, Clause.children, List.mem_cons, List.not_mem_nil,
                  or_false] at isPart
                rcases isPart with rfl | rfl | rfl
                · exact ⟨left, _, leftNumber, rfl⟩
                · exact ⟨right, _, rightTyped, rfl⟩
                · exact ⟨result, _, resultTyped, rfl⟩
          · exact ih restTyped isMember

/-- What the formula of an expression with a type is made of are such formulas. -/
theorem HasType.ofTyped_child {expr : Expr} {type : ValueType} {child : Formula}
    (typed : HasType context expr type) (isChild : child ∈ (expr.formula context).children) :
    child.OfTyped context := by
  cases typed with
  | number | globalVariable | localVariable => cases isChild
  | @arithmetic span op left right known leftNumber rightNumber =>
      have isOperand : child ∈ [left.formula context, right.formula context] := by
        cases op with
        | other code => cases isChild
        | _ => exact isChild
      rcases List.mem_pair.1 isOperand with rfl | rfl
      · exact ⟨left, _, leftNumber, rfl⟩
      · exact ⟨right, _, rightNumber, rfl⟩
  | @factorial span operand number =>
      rcases List.mem_singleton.1 isChild with rfl
      exact ⟨operand, _, number, rfl⟩
  | call _ _ typed => exact typed.ofTyped isChild
  | map _ _ _ _ typed _ => exact typed.ofTyped isChild
  | list _ typed _ => exact typed.ofTyped isChild
  | @piecewise span first rest otherwise firstTyped restTyped number =>
      rcases List.mem_cons.1 isChild with rfl | isPart
      · exact ⟨otherwise, _, number, rfl⟩
      · exact (ClausesTyped.cons firstTyped restTyped).ofTyped isPart

theorem HasType.ofTyped_inside {expr : Expr} {type : ValueType} {part : Formula}
    (typed : HasType context expr type) (inside : part.Inside (expr.formula context)) :
    part.OfTyped context := by
  induction inside with
  | refl => exact ⟨expr, type, typed, rfl⟩
  | tail _ isChild ih =>
      rcases ih with ⟨inner, innerType, innerTyped, rfl⟩
      exact innerTyped.ofTyped_child isChild

/-- A name on its own is a variable. -/
theorem HasType.variableType?_of_formula {expr : Expr} {type : ValueType} {name : String}
    (typed : HasType context expr type) (formulaEq : expr.formula context = .var name) :
    context.variableType? name = some type := by
  cases typed with
  | globalVariable span found =>
      cases formulaEq
      exact (HasType.globalVariable span found).variableType?_eq
  | localVariable span absent found =>
      cases formulaEq
      exact (HasType.localVariable span absent found).variableType?_eq
  | @arithmetic span op left right known leftNumber rightNumber =>
      cases op
      all_goals cases formulaEq
  | _ => cases formulaEq

/-- The operands of an operation are numbers. -/
theorem HasType.number_of_hasOperand {expr : Expr} {type : ValueType} {name : String}
    (typed : HasType context expr type) (hasOperand : (expr.formula context).HasOperand name) :
    context.variableType? name = some .number := by
  rcases hasOperand with ⟨op, left, right, inside, isOperand⟩
  rcases typed.ofTyped_inside inside with ⟨inner, innerType, innerTyped, formulaEq⟩
  cases innerTyped with
  | @arithmetic span innerOp innerLeft innerRight known leftNumber rightNumber =>
      have operandsEq : innerLeft.formula context = left ∧ innerRight.formula context = right := by
        cases innerOp
        all_goals cases formulaEq
        all_goals exact ⟨rfl, rfl⟩
      rcases isOperand with rfl | rfl
      · exact leftNumber.variableType?_of_formula operandsEq.1
      · exact rightNumber.variableType?_of_formula operandsEq.2
  | _ => cases formulaEq

theorem Context.Resolves.found_of_own {name : String} {signature : Signature}
    (resolved : context.Resolves name signature) (own : context.callsBuiltin name = false) :
    context.functions[name]? = some signature := by
  cases resolved with
  | defined found => exact found
  | builtin absent _ =>
      rw [Context.callsBuiltin, absent] at own
      cases own

/-- A call of the program's function has as many arguments as the function has
parameters. -/
theorem HasType.arity_of_call {expr : Expr} {type : ValueType} {name : String}
    {args : List Formula} (typed : HasType context expr type)
    (isCall : (Formula.call name false args).Inside (expr.formula context)) :
    ∃ signature, context.functions[name]? = some signature ∧
      args.length = signature.params.length := by
  rcases typed.ofTyped_inside isCall with ⟨inner, innerType, innerTyped, formulaEq⟩
  cases innerTyped with
  | @arithmetic span op left right known leftNumber rightNumber =>
      cases op
      all_goals cases formulaEq
  | @call span callee signature innerArgs resolved argsTyped =>
      rcases Formula.call.inj formulaEq with ⟨rfl, own, rfl⟩
      refine ⟨signature, resolved.found_of_own own, ?_⟩
      rw [Expr.length_formulas, argsTyped.length_eq]
  | @map span nameSpan callee signature innerArgs types resolved notEmpty argsTyped accepted =>
      rcases Formula.call.inj formulaEq with ⟨rfl, own, rfl⟩
      refine ⟨signature, resolved.found_of_own own, ?_⟩
      rw [Expr.length_formulas, argsTyped.length_eq, accepted.length_eq]
  | _ => cases formulaEq

end Types

/-! ## Names without ambiguity -/

/-- Whether a name is that of a number and that of a function of the program with one
parameter. -/
def Context.Ambiguous (context : Context) (name : String) : Prop :=
  context.variableType? name = some .number ∧
    ∃ signature, context.functions[name]? = some signature ∧ signature.params.length = 1

/-- Where a name is not ambiguous, one of two expressions with the same text calls the
function of this name only if the other does. -/
theorem HasType.callsOwn_of_latex_eq {context : Context} {left right : Expr}
    {leftType rightType : ValueType} {name : String} (own : context.DefinesOwn)
    (leftShape : left.WellFormed) (rightShape : right.WellFormed)
    (leftTyped : HasType context left leftType) (rightTyped : HasType context right rightType)
    (latexEq : (left.formula context).latex = (right.formula context).latex)
    (clear : ¬context.Ambiguous name) (calls : (left.formula context).CallsOwn name) :
    (right.formula context).CallsOwn name := by
  rcases calls with ⟨args, isCall⟩
  have leftWellFormed := left.wellFormed_formula own leftShape leftTyped
  have rightWellFormed := right.wellFormed_formula own rightShape rightTyped
  rcases leftWellFormed.callsOwn_or_hasOperand rightWellFormed latexEq isCall with
    calls | ⟨hasOperand, oneArgument⟩
  · exact calls
  · rcases leftTyped.arity_of_call isCall with ⟨signature, found, arity⟩
    exact absurd ⟨rightTyped.number_of_hasOperand hasOperand, signature, found,
      arity.symm.trans oneArgument⟩ clear

/-! ## Ambiguous names -/

/-- A name in front of a sum is written like a call with the sum as its argument. -/
theorem Formula.latex_product_eq_latex_call (name : String) {sum : Formula}
    (isSum : sum.isSum = true) :
    (Formula.binary .multiply (.var name) sum).latex = (Formula.call name false [sum]).latex := by
  have noDot : ∀ left text, Latex.needsDot left (Latex.group text) = false := by
    intro left text
    have headEq : (Latex.group text).head? = some 0x5C := rfl
    unfold Latex.needsDot
    rw [headEq]
    cases left.getLast? with
    | none => rfl
    | some last => exact Bool.and_false (Latex.isDigit last)
  have notSum : (Formula.var name).isSum = false := rfl
  cases textEq : sum.latex with
  | error fault => simp [Formula.latex, Formula.latexAll, textEq, bind, Except.bind]
  | ok text =>
      simp [Formula.latex, Formula.latexAll, textEq, bind, Except.bind, pure, Except.pure,
        Latex.operation, Latex.product, Latex.groupIf, Latex.callee, Latex.commas, isSum, notSum,
        noDot]

theorem Formula.callsOwn_iff (name : String) (formula : Formula) :
    formula.CallsOwn name ↔ (∃ args, formula = .call name false args) ∨
      ∃ child ∈ formula.children, child.CallsOwn name := by
  constructor
  · rintro ⟨args, inside⟩
    rcases Relation.ReflTransGen.cases_head inside with formulaEq | ⟨child, isChild, inside⟩
    · exact .inl ⟨args, formulaEq⟩
    · exact .inr ⟨child, isChild, args, inside⟩
  · rintro (⟨args, rfl⟩ | ⟨child, isChild, args, inside⟩)
    · exact ⟨args, .refl⟩
    · exact ⟨args, .head isChild inside⟩

@[simp]
theorem Formula.not_callsOwn_number (name value : String) :
    ¬(Formula.number value).CallsOwn name := by
  rw [Formula.callsOwn_iff]
  simp [Formula.children]

@[simp]
theorem Formula.not_callsOwn_var (name other : String) : ¬(Formula.var other).CallsOwn name := by
  rw [Formula.callsOwn_iff]
  simp [Formula.children]

@[simp]
theorem Formula.callsOwn_binary (name : String) (op : Arithmetic) (left right : Formula) :
    (Formula.binary op left right).CallsOwn name ↔ left.CallsOwn name ∨ right.CallsOwn name := by
  rw [Formula.callsOwn_iff]
  simp [Formula.children]

/-- The name of a number and of a function of a number is ambiguous: a product and a
call have the same text. -/
theorem Context.exists_latex_eq {context : Context} {name : String} {signature : Signature}
    (isName : Lexeme.IsName name.toList) (isNumber : context.variableType? name = some .number)
    (found : context.functions[name]? = some signature) (ofNumber : signature.params = [.number])
    (own : signature.builtin = false) :
    ∃ (left right : Expr) (leftValue rightValue : Typed), left.WellFormed ∧ right.WellFormed ∧
      (left.compile context).outcome = .ok leftValue ∧
      (right.compile context).outcome = .ok rightValue ∧
      leftValue.formula.latex = rightValue.formula.latex ∧
      ¬leftValue.formula.CallsOwn name ∧ rightValue.formula.CallsOwn name := by
  let one : Expr := .number .nowhere "1"
  let sum : Expr := .binary .nowhere .add one one
  let product : Expr := .binary .nowhere .multiply (.var .nowhere name) sum
  let call : Expr := .call .nowhere .normal name [sum]
  have oneShape : one.WellFormed := .plain (.whole (by decide))
  have sumShape : sum.WellFormed := ⟨by decide, oneShape, oneShape⟩
  have productShape : product.WellFormed := ⟨by decide, isName, sumShape⟩
  have callShape : call.WellFormed := ⟨rfl, isName, sumShape, trivial⟩
  have oneTyped : HasType context one .number := .number .nowhere "1"
  have sumTyped : HasType context sum .number := .arithmetic .nowhere (by decide) oneTyped oneTyped
  have nameTyped : HasType context (.var .nowhere name) .number := by
    rcases (context.variableType?_eq_some_iff name .number).1 isNumber with
      isGlobal | ⟨absent, isLocal⟩
    · exact .globalVariable .nowhere isGlobal
    · exact .localVariable .nowhere absent isLocal
  have productTyped : HasType context product .number :=
    .arithmetic .nowhere (by decide) nameTyped sumTyped
  have callTyped : HasType context call signature.result := by
    refine .call .nowhere (.defined found) ?_
    rw [ofNumber]
    exact .cons sumTyped .nil
  have calleeOwn : context.callsBuiltin name = false := by
    rw [← (Context.Resolves.defined found).builtin_eq, own]
  have callFormula : call.formula context = .call name false [sum.formula context] := by
    have unfolded : call.formula context =
        .call name (context.callsBuiltin name) [sum.formula context] := rfl
    rw [unfolded, calleeOwn]
  refine ⟨product, call, _, _, productShape, callShape,
    (product.compilesByRules context _).2 ⟨_, productTyped, rfl⟩,
    (call.compilesByRules context _).2 ⟨_, callTyped, rfl⟩, ?_, ?_, ?_⟩
  · rw [callFormula]
    exact Formula.latex_product_eq_latex_call name rfl
  · simp [product, sum, one, Expr.formula, BinaryOp.formula]
  · rw [callFormula]
    exact ⟨_, .refl⟩

theorem Stmt.definesOwn_contextAfter {context : Context} (own : context.DefinesOwn) (stmt : Stmt) :
    (stmt.contextAfter context).DefinesOwn := by
  rcases stmt.compile_cases context with ⟨_, _, _, unchanged⟩ | ⟨formula, compiled, _⟩
  · rw [unchanged]
    exact own
  · cases stmt with
    | expr span value =>
        rw [Stmt.compile_expr, (value.compilesByRules context).bind_iff] at compiled
        rcases compiled with ⟨type, typed, result⟩
        rcases Prod.mk.inj (Except.ok.inj result) with ⟨-, afterEq⟩
        rw [← afterEq]
        exact own
    | define span name params returns body =>
        rw [Stmt.define_eq_ok_iff] at compiled
        rcases compiled with ⟨value, _, _, _, afterEq⟩
        rw [afterEq]
        exact own.define name rfl

theorem Program.definesOwn_compileEach {context : Context} (own : context.DefinesOwn)
    (program : Program) : (compileEach context program).2.DefinesOwn := by
  induction program generalizing context with
  | nil => exact own
  | cons stmt rest ih =>
      rw [compileEach_cons]
      exact ih (stmt.definesOwn_contextAfter own)

/-- A product is written as a call only where a name is ambiguous.  After any run, two
expressions with the same text both call the function that the program defined under a
name, or both do not, unless the name is that of a number and the function has one
parameter.  For the name of a number and of a function of a number, there are two
expressions with the same text of which only one calls the function. -/
theorem products_differ_from_calls (globals : NameMap ValueType) (program : Program)
    (name : String) :
    let context := (Program.compileEach (Context.ofGlobals globals) program).2
    (¬context.Ambiguous name →
      ∀ (left right : Expr) (leftValue rightValue : Typed), left.WellFormed → right.WellFormed →
        (left.compile context).outcome = .ok leftValue →
          (right.compile context).outcome = .ok rightValue →
            leftValue.formula.latex = rightValue.formula.latex →
              (leftValue.formula.CallsOwn name ↔ rightValue.formula.CallsOwn name)) ∧
    (Lexeme.IsName name.toList → context.variableType? name = some .number →
      (∃ signature, context.functions[name]? = some signature ∧ signature.params = [.number]) →
        ∃ (left right : Expr) (leftValue rightValue : Typed),
          left.WellFormed ∧ right.WellFormed ∧ (left.compile context).outcome = .ok leftValue ∧
            (right.compile context).outcome = .ok rightValue ∧
            leftValue.formula.latex = rightValue.formula.latex ∧
            ¬leftValue.formula.CallsOwn name ∧ rightValue.formula.CallsOwn name) := by
  intro context
  have own : context.DefinesOwn :=
    Program.definesOwn_compileEach (Context.definesOwn_ofGlobals globals) program
  refine ⟨?_, ?_⟩
  · intro clear left right leftValue rightValue leftShape rightShape leftCompiled rightCompiled
      latexEq
    rcases (left.compilesByRules context leftValue).1 leftCompiled with ⟨leftType, leftTyped, rfl⟩
    rcases (right.compilesByRules context rightValue).1 rightCompiled with
      ⟨rightType, rightTyped, rfl⟩
    constructor
    · exact leftTyped.callsOwn_of_latex_eq own leftShape rightShape rightTyped latexEq clear
    · exact rightTyped.callsOwn_of_latex_eq own rightShape leftShape leftTyped latexEq.symm clear
  · rintro isName isNumber ⟨signature, found, ofNumber⟩
    exact context.exists_latex_eq isName isNumber found ofNumber (own name signature found)

/-- A variable and a function with two parameters can share a name: in front of a sum
it is a factor. -/
theorem products_differ_from_calls_two_parameters :
    let place : Span := .nowhere
    let globals : NameMap ValueType := .insert ∅ "f" .number
    let program : Program := [.define place "f" [⟨place, "a", .number⟩, ⟨place, "b", .number⟩]
      none (.var place "a")]
    let context := (Program.compileEach (Context.ofGlobals globals) program).2
    let one : Expr := .number place "1"
    let sum : Expr := .binary place .add one one
    let call : Expr := .call place .normal "f" [one, sum]
    let left : Expr := .binary place .multiply (.binary place .multiply (.var place "f") sum) call
    let right : Expr := .binary place .multiply (.var place "f") (.binary place .multiply sum call)
    ¬context.Ambiguous "f" ∧ left.WellFormed ∧ right.WellFormed ∧
      ∃ leftValue rightValue : Typed, (left.compile context).outcome = .ok leftValue ∧
        (right.compile context).outcome = .ok rightValue ∧
        leftValue.formula.latex = rightValue.formula.latex ∧
        (leftValue.formula.CallsOwn "f" ↔ rightValue.formula.CallsOwn "f") := by
  intro place globals program context one sum call left right
  have found : context.functions["f"]? = some ⟨[.number, .number], .number, false⟩ := by
    decide +kernel
  have clear : ¬context.Ambiguous "f" := by
    rintro ⟨_, signature, isFound, oneParameter⟩
    rw [found] at isFound
    cases isFound
    cases oneParameter
  have isName : Lexeme.IsName "f".toList := by decide
  have oneShape : one.WellFormed := .plain (.whole (by decide))
  have sumShape : sum.WellFormed := ⟨by decide, oneShape, oneShape⟩
  have callShape : call.WellFormed := ⟨rfl, isName, oneShape, sumShape, trivial⟩
  have leftShape : left.WellFormed := ⟨by decide, ⟨by decide, isName, sumShape⟩, callShape⟩
  have rightShape : right.WellFormed := ⟨by decide, isName, by decide, sumShape, callShape⟩
  have isNumber : context.globals["f"]? = some .number := by decide +kernel
  have nameTyped : HasType context (.var place "f") .number := .globalVariable place isNumber
  have oneTyped : HasType context one .number := .number place "1"
  have sumTyped : HasType context sum .number := .arithmetic place (by decide) oneTyped oneTyped
  have callTyped : HasType context call .number :=
    .call place (.defined found) (.cons oneTyped (.cons sumTyped .nil))
  have leftTyped : HasType context left .number := .arithmetic place (by decide)
    (.arithmetic place (by decide) nameTyped sumTyped) callTyped
  have rightTyped : HasType context right .number := .arithmetic place (by decide) nameTyped
    (.arithmetic place (by decide) sumTyped callTyped)
  have leftCompiled := (left.compilesByRules context _).2 ⟨_, leftTyped, rfl⟩
  have rightCompiled := (right.compilesByRules context _).2 ⟨_, rightTyped, rfl⟩
  have latexEq : (left.formula context).latex = (right.formula context).latex := by
    simp only [left, right, call, sum, one, Expr.formula, Expr.formulas, BinaryOp.formula]
    cases context.callsBuiltin "f"
    all_goals rfl
  exact ⟨clear, leftShape, rightShape, _, _, leftCompiled, rightCompiled, latexEq,
    (products_differ_from_calls globals program "f").1 clear left right _ _ leftShape rightShape
      leftCompiled rightCompiled latexEq⟩

/-- Without a condition on names, a product is written as a call. -/
theorem product_written_as_call :
    let globals : NameMap ValueType := .insert ∅ "f" .number
    let parsed := Parsed.ofText "a.gt" "f(a: Number) = a\n".toList
    let context := (Program.compileEach (Context.ofGlobals globals) parsed.program).2
    ∃ (left right : Expr) (leftValue rightValue : Typed), left.WellFormed ∧ right.WellFormed ∧
      (left.compile context).outcome = .ok leftValue ∧
      (right.compile context).outcome = .ok rightValue ∧
      leftValue.formula.latex = rightValue.formula.latex ∧
      ¬leftValue.formula.CallsOwn "f" ∧ rightValue.formula.CallsOwn "f" := by
  intro globals parsed context
  have found : context.functions["f"]? = some ⟨[.number], .number, false⟩ := by decide +kernel
  have isNumber : context.variableType? "f" = some .number := by decide +kernel
  exact context.exists_latex_eq (by decide) isNumber found rfl rfl

end GraphCalc
