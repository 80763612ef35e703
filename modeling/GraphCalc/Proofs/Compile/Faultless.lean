import GraphCalc.Compile.Source
import GraphCalc.Proofs.Compile.Session
import GraphCalc.Proofs.Output.Readability
import GraphCalc.Proofs.Syntax.RoundTrip

/-!
# Texts reach no internal fault

Trees assembled by hand can hold parts that the compiler refuses as its own
fault, and formulas assembled by hand can have no text.  Neither is met on the
way from a text to its formulas: what is read from a text is well-formed,
compiling well-formed statements goes wrong only by mistakes of the program,
and every formula that results has a text.
-/

namespace GraphCalc

open Compile

/-! ## Mistakes are the only faults -/

/-- A computation that can only fail by a mistake of the program. -/
def Logged.Blameless {α : Type} (computation : Logged α) : Prop :=
  ∀ error : InternalError, computation.outcome ≠ .error (.internal error)

namespace Logged

variable {α β : Type}

theorem blameless_of_ok {computation : Logged α} {value : α}
    (succeeds : computation.outcome = .ok value) : computation.Blameless := by
  intro error failed
  rw [succeeds] at failed
  cases failed

theorem blameless_pure (value : α) : (pure value : Logged α).Blameless :=
  blameless_of_ok rfl

theorem blameless_mistake (span : Span) (cause : CompileError.Cause) :
    (fail (.mistake span cause) : Logged α).Blameless := by
  intro error failed
  cases failed

theorem Blameless.bind {first : Logged α} {next : α → Logged β} (firstBlameless : first.Blameless)
    (nextBlameless : ∀ value, (next value).Blameless) : (first >>= next).Blameless := by
  intro error failed
  rw [outcome_bind] at failed
  cases outcome : first.outcome with
  | error fault =>
      rw [outcome] at failed
      cases failed
      exact firstBlameless error outcome
  | ok value =>
      rw [outcome] at failed
      exact nextBlameless value error failed

end Logged

namespace Compile

open Logged

theorem blameless_requireNumber (span : Span) (value : Typed) :
    (requireNumber span value).Blameless := by
  unfold requireNumber
  split
  · exact blameless_pure _
  · exact blameless_mistake _ _

theorem blameless_requireItem (span : Span) (value : Typed) :
    (requireItem span value).Blameless := by
  unfold requireItem
  split
  · exact blameless_mistake _ _
  · exact blameless_pure _

theorem blameless_operation (span : Span) {op : BinaryOp} (left right : Formula)
    (known : op ∈ BinaryOp.known) : (operation span op left right).Blameless :=
  blameless_of_ok ((operation_eq_ok_iff span op left right _).2 ⟨known, rfl⟩)

theorem blameless_comparison (span : Span) {sign : Comparison} (known : sign ∈ Comparison.known) :
    (comparison span sign).Blameless :=
  blameless_of_ok ((comparison_eq_ok_iff span sign _).2 ⟨known, rfl⟩)

theorem blameless_checkArguments (mode : CallMode) (args : List Argument)
    (params : List ValueType) : (checkArguments mode args params).Blameless := by
  induction args generalizing params with
  | nil => exact blameless_pure _
  | cons arg args ih =>
      cases params with
      | nil => exact blameless_pure _
      | cons expected params =>
          unfold checkArguments
          split
          · exact ih params
          · exact blameless_mistake _ _

theorem blameless_call (context : Context) (span : Span) (mode : CallMode) (callee : String)
    (args : List Argument) : (call context span mode callee args).Blameless := by
  unfold call
  split
  · exact blameless_mistake _ _
  · split
    · exact blameless_mistake _ _
    · apply (blameless_checkArguments mode args _).bind
      intro _
      exact blameless_pure _

theorem blameless_checkReturn (span : Span) (returns : Option ValueType) (type : ValueType) :
    (checkReturn span returns type).Blameless := by
  unfold checkReturn
  split
  · exact blameless_pure _
  · split
    · exact blameless_pure _
    · exact blameless_mistake _ _

end Compile

open Logged

/-- A macro call is blameless if its arguments are: whatever is wrong with the
macro itself is a mistake. -/
theorem Expr.blameless_macroCall (context : Context) (span : Span) (name : String)
    {args : List Expr} (argsBlameless : (Expr.compileArguments context args.tail).Blameless) :
    ((Expr.macroCall span name args).compile context).Blameless := by
  by_cases isMap : name = mapName
  · subst isMap
    cases args with
    | nil => exact blameless_mistake _ _
    | cons first others =>
        cases others with
        | nil => exact blameless_mistake _ _
        | cons second others =>
            cases first with
            | var nameSpan callee =>
                rw [Expr.compile_map context span nameSpan callee (List.cons_ne_nil _ _)]
                apply argsBlameless.bind
                intro compiled
                apply Blameless.bind (blameless_of_ok rfl)
                intro _
                exact blameless_call context span .mapped callee compiled
            | _ => exact blameless_mistake _ _
  · rw [Expr.compile.eq_def]
    simp only [if_neg isMap]
    exact blameless_mistake _ _

/-- A value that has to be a number is compiled blamelessly if it is so by
itself. -/
theorem Logged.Blameless.bind_requireNumber {β : Type} {compiled : Logged Typed}
    {next : Formula → Logged β} (span : Span) (blameless : compiled.Blameless)
    (nextBlameless : ∀ formula, (next formula).Blameless) :
    (compiled >>= fun value => requireNumber span value >>= next).Blameless :=
  blameless.bind fun value => (blameless_requireNumber span value).bind nextBlameless

mutual

/-- Compiling a well-formed expression fails only by a mistake. -/
theorem Expr.blameless_compile (context : Context) : (expr : Expr) → expr.WellFormed →
    (expr.compile context).Blameless
  | .number _ _, _ => blameless_pure _
  | .var _ name, _ => by
      rw [Expr.compile]
      cases context.variableType? name with
      | none => exact blameless_mistake _ _
      | some type => exact blameless_pure _
  | .binary span op left right, ⟨known, leftShape, rightShape⟩ => by
      rw [Expr.compile]
      apply (left.blameless_compile context leftShape).bind_requireNumber
      intro leftFormula
      apply (right.blameless_compile context rightShape).bind_requireNumber
      intro rightFormula
      apply (blameless_operation span leftFormula rightFormula known).bind
      intro formula
      exact blameless_pure _
  | .unary span op operand, ⟨isFactorial, shape⟩ => by
      subst isFactorial
      rw [Expr.compile]
      apply (operand.blameless_compile context shape).bind_requireNumber
      intro formula
      exact blameless_pure _
  | .call span mode callee args, ⟨isNormal, _, shape⟩ => by
      subst isNormal
      rw [Expr.compile]
      apply (Expr.blameless_compileArguments context args shape).bind
      intro compiled
      exact blameless_call context span .normal callee compiled
  | .macroCall span name [], _ => Expr.blameless_macroCall context span name (blameless_pure _)
  | .macroCall span name (_ :: others), ⟨_, _, shape⟩ =>
      Expr.blameless_macroCall context span name
        (Expr.blameless_compileArguments context others shape)
  | .list _ items, shape => by
      rw [Expr.compile]
      apply (Expr.blameless_compileItems context items shape).bind
      intro formulas
      exact blameless_pure _
  | .piecewise _ first rest otherwise, ⟨firstShape, restShape, otherwiseShape⟩ => by
      rw [Expr.compile]
      apply (Clause.blameless_compile context first firstShape).bind
      intro firstClause
      apply (Clause.blameless_compileAll context rest restShape).bind
      intro restClauses
      apply (otherwise.blameless_compile context otherwiseShape).bind_requireNumber
      intro formula
      exact blameless_pure _

theorem Expr.blameless_compileArguments (context : Context) : (exprs : List Expr) →
    Expr.AllWellFormed exprs → (Expr.compileArguments context exprs).Blameless
  | [], _ => blameless_pure _
  | first :: rest, ⟨firstShape, restShape⟩ => by
      rw [Expr.compileArguments]
      apply (first.blameless_compile context firstShape).bind
      intro value
      apply (Expr.blameless_compileArguments context rest restShape).bind
      intro args
      exact blameless_pure _

theorem Expr.blameless_compileItems (context : Context) : (exprs : List Expr) →
    Expr.AllWellFormed exprs → (Expr.compileItems context exprs).Blameless
  | [], _ => blameless_pure _
  | first :: rest, ⟨firstShape, restShape⟩ => by
      rw [Expr.compileItems]
      apply (first.blameless_compile context firstShape).bind
      intro value
      apply (blameless_requireItem first.span value).bind
      intro item
      apply (Expr.blameless_compileItems context rest restShape).bind
      intro items
      exact blameless_pure _

theorem Clause.blameless_compile (context : Context) : (clause : Clause Expr) →
    Clause.WellFormed clause → (Clause.compile context clause).Blameless
  | ⟨left, sign, right, result⟩, ⟨known, leftShape, rightShape, resultShape⟩ => by
      rw [Clause.compile]
      apply (left.blameless_compile context leftShape).bind_requireNumber
      intro leftFormula
      apply (right.blameless_compile context rightShape).bind
      intro rightValue
      apply (result.blameless_compile context resultShape).bind
      intro resultValue
      apply (blameless_comparison _ known).bind
      intro knownSign
      exact blameless_pure _

theorem Clause.blameless_compileAll (context : Context) : (clauses : List (Clause Expr)) →
    Clause.AllWellFormed clauses → (Clause.compileAll context clauses).Blameless
  | [], _ => blameless_pure _
  | first :: rest, ⟨firstShape, restShape⟩ => by
      rw [Clause.compileAll]
      apply (Clause.blameless_compile context first firstShape).bind
      intro clause
      apply (Clause.blameless_compileAll context rest restShape).bind
      intro clauses
      exact blameless_pure _

end

theorem Stmt.blameless_compile (context : Context) {stmt : Stmt} (shape : stmt.WellFormed) :
    (Stmt.compile context stmt).Blameless := by
  cases stmt with
  | expr span value =>
      rw [Stmt.compile_expr]
      apply (value.blameless_compile context shape).bind
      intro compiled
      exact blameless_pure _
  | define span name params returns body =>
      rcases shape with ⟨_, _, _, bodyShape⟩
      rw [Stmt.compile_define]
      apply (body.blameless_compile (context.withParams params) bodyShape).bind
      intro compiled
      apply (blameless_checkReturn body.span returns compiled.type).bind
      intro _
      apply Blameless.bind (blameless_of_ok rfl)
      intro _
      exact blameless_pure _

/-! ## Formulas of well-formed expressions -/

/-- Whether every function that the program defined is marked as its own. -/
def Context.DefinesOwn (context : Context) : Prop :=
  ∀ (name : String) (signature : Signature), context.functions[name]? = some signature →
    signature.builtin = false

/-- A call that resolves to one of the calculator's functions has its name. -/
theorem Context.Resolves.mem_names {context : Context} {name : String} {signature : Signature}
    (own : context.DefinesOwn) (resolved : context.Resolves name signature)
    (builtin : context.callsBuiltin name = true) : name ∈ Builtin.names := by
  have marked := resolved.builtin_eq
  cases resolved with
  | defined found =>
      rw [own name signature found, builtin] at marked
      cases marked
  | builtin _ listed => exact List.mem_map.2 ⟨_, listed, rfl⟩

theorem Builtin.moduloName_mem_names : moduloName ∈ names :=
  List.mem_map.2 ⟨(moduloName, .onNumbers 2), by simp [functions], rfl⟩

theorem BinaryOp.wellFormed_formula {op : BinaryOp} {left right : Formula}
    (known : op ∈ BinaryOp.known) (leftShape : left.WellFormed) (rightShape : right.WellFormed) :
    (op.formula left right).WellFormed := by
  cases op with
  | modulo => exact ⟨Builtin.moduloName_mem_names, leftShape, rightShape, trivial⟩
  | other code => simp [BinaryOp.known] at known
  | _ => exact ⟨by decide, leftShape, rightShape⟩

theorem Formula.wellFormed_call {context : Context} {callee : String} {signature : Signature}
    {args : List Formula} (own : context.DefinesOwn) (resolved : context.Resolves callee signature)
    (isName : Lexeme.IsName callee.toList) (shape : Formula.AllWellFormed args) :
    (Formula.call callee (context.callsBuiltin callee) args).WellFormed := by
  cases builtin : context.callsBuiltin callee with
  | true => exact ⟨resolved.mem_names own builtin, shape⟩
  | false => exact ⟨isName, shape⟩

mutual

/-- The formula of a well-formed expression that has a type is well-formed. -/
theorem Expr.wellFormed_formula {context : Context} (own : context.DefinesOwn) : (expr : Expr) →
    expr.WellFormed → ∀ {type : ValueType}, HasType context expr type →
      (expr.formula context).WellFormed
  | .number _ _, shape, _, _ => shape
  | .var _ _, shape, _, _ => shape
  | .binary _ _ left right, ⟨known, leftShape, rightShape⟩, _, typed => by
      rw [Expr.formula]
      cases typed with
      | arithmetic _ _ leftNumber rightNumber =>
          exact BinaryOp.wellFormed_formula known
            (left.wellFormed_formula own leftShape leftNumber)
            (right.wellFormed_formula own rightShape rightNumber)
  | .unary _ _ operand, ⟨_, shape⟩, _, typed => by
      rw [Expr.formula]
      cases typed with
      | factorial _ number => exact operand.wellFormed_formula own shape number
  | .call _ _ _ args, ⟨_, isName, shape⟩, _, typed => by
      rw [Expr.formula]
      cases typed with
      | call _ resolved typed =>
          exact Formula.wellFormed_call own resolved isName
            (Expr.wellFormed_formulas own args shape typed)
  | .macroCall _ _ [], _, _, typed => by
      cases typed
  | .macroCall _ _ (_ :: args), ⟨_, nameShape, shape⟩, _, typed => by
      cases typed with
      | map _ _ resolved _ typed _ =>
          rw [Expr.formula]
          exact Formula.wellFormed_call own resolved nameShape
            (Expr.wellFormed_formulas own args shape typed)
  | .list _ items, shape, _, typed => by
      rw [Expr.formula]
      cases typed with
      | list _ typed _ => exact Expr.wellFormed_formulas own items shape typed
  | .piecewise _ first rest otherwise, ⟨firstShape, restShape, otherwiseShape⟩, _, typed => by
      rw [Expr.formula]
      cases typed with
      | piecewise _ firstTyped restTyped number =>
          exact ⟨Clause.wellFormed_formula own first firstShape firstTyped,
            Clause.wellFormed_formulas own rest restShape restTyped,
            otherwise.wellFormed_formula own otherwiseShape number⟩

theorem Expr.wellFormed_formulas {context : Context} (own : context.DefinesOwn) :
    (exprs : List Expr) → Expr.AllWellFormed exprs → ∀ {types : List ValueType},
      HaveTypes context exprs types → Formula.AllWellFormed (Expr.formulas context exprs)
  | [], _, _, _ => trivial
  | first :: rest, ⟨firstShape, restShape⟩, _, typed => by
      cases typed with
      | cons firstTyped restTyped =>
          exact ⟨first.wellFormed_formula own firstShape firstTyped,
            Expr.wellFormed_formulas own rest restShape restTyped⟩

theorem Clause.wellFormed_formula {context : Context} (own : context.DefinesOwn) :
    (clause : Clause Expr) → Clause.WellFormed clause → ClauseTyped context clause →
      Clause.FormulaWellFormed (Clause.formula context clause)
  | ⟨left, _, right, result⟩, ⟨known, leftShape, rightShape, resultShape⟩, typed => by
      cases typed with
      | mk _ leftNumber rightTyped resultTyped =>
          exact ⟨known, left.wellFormed_formula own leftShape leftNumber,
            right.wellFormed_formula own rightShape rightTyped,
            result.wellFormed_formula own resultShape resultTyped⟩

theorem Clause.wellFormed_formulas {context : Context} (own : context.DefinesOwn) :
    (clauses : List (Clause Expr)) → Clause.AllWellFormed clauses →
      ClausesTyped context clauses →
        Clause.AllFormulaWellFormed (Clause.formulas context clauses)
  | [], _, _ => trivial
  | first :: rest, ⟨firstShape, restShape⟩, typed => by
      cases typed with
      | cons firstTyped restTyped =>
          exact ⟨Clause.wellFormed_formula own first firstShape firstTyped,
            Clause.wellFormed_formulas own rest restShape restTyped⟩

end

/-! ## Lines -/

/-- Whether a formula can stand on a line of its own: a well-formed expression,
or the definition of a function by one. -/
def Formula.IsLine : Formula → Prop
  | .define name params body =>
      Lexeme.IsName name.toList ∧ (∀ param ∈ params, Lexeme.IsName param.toList) ∧ body.WellFormed
  | formula => formula.WellFormed

theorem Formula.WellFormed.isLine {formula : Formula} (shape : formula.WellFormed) :
    formula.IsLine := by
  cases formula with
  | define => exact shape.elim
  | _ => exact shape

theorem Formula.WellFormed.exists_latex {formula : Formula} (shape : formula.WellFormed) :
    ∃ text, formula.latex = .ok text := by
  rcases formula.exists_shows shape (List.Subset.refl _) with ⟨sum, shown⟩
  exact ⟨_, shown.latex⟩

/-- Every line has a text. -/
theorem Formula.IsLine.exists_latex {formula : Formula} (isLine : formula.IsLine) :
    ∃ text, formula.latex = .ok text := by
  cases formula with
  | define name params body =>
      rcases isLine with ⟨_, _, bodyShape⟩
      rcases bodyShape.exists_latex with ⟨text, latexEq⟩
      rw [Formula.latex, latexEq]
      exact ⟨_, rfl⟩
  | _ => exact Formula.WellFormed.exists_latex isLine

theorem Formula.exists_latexLines {formulas : List Formula}
    (areLines : ∀ formula ∈ formulas, formula.IsLine) :
    ∃ text, Formula.latexLines formulas = .ok text := by
  induction formulas with
  | nil => exact ⟨_, rfl⟩
  | cons first rest ih =>
      rw [List.forall_mem_cons] at areLines
      rcases areLines.1.exists_latex with ⟨firstText, firstEq⟩
      rcases ih areLines.2 with ⟨restText, restEq⟩
      rw [Formula.latexLines, firstEq, restEq]
      exact ⟨_, rfl⟩

/-! ## Programs -/

theorem Context.definesOwn_ofGlobals (globals : NameMap ValueType) :
    (Context.ofGlobals globals).DefinesOwn := by
  intro name signature found
  simp [Context.ofGlobals] at found

/-- Defining a function of the program adds no builtin one. -/
theorem Context.DefinesOwn.define {context : Context} (own : context.DefinesOwn) (name : String)
    {signature : Signature} (isOwn : signature.builtin = false) :
    (context.define name signature).DefinesOwn := by
  intro other found foundEq
  rw [Context.define, Std.ExtTreeMap.getElem?_insert] at foundEq
  split at foundEq
  · cases foundEq
    exact isOwn
  · exact own other found foundEq

theorem Context.DefinesOwn.withParams {context : Context} (own : context.DefinesOwn)
    (params : List Param) : (context.withParams params).DefinesOwn :=
  own

/-- A step of a program: a well-formed statement that is compiled gives a line,
and the functions known after it are still marked as the program's own. -/
theorem Stmt.isLine_of_compile {context after : Context} {stmt : Stmt} {formula : Formula}
    (own : context.DefinesOwn) (shape : stmt.WellFormed)
    (compiled : (Stmt.compile context stmt).outcome = .ok (formula, after)) :
    formula.IsLine ∧ after.DefinesOwn := by
  cases stmt with
  | expr span value =>
      rw [Stmt.compile_expr, (value.compilesByRules context).bind_iff] at compiled
      rcases compiled with ⟨type, typed, result⟩
      cases result
      exact ⟨(value.wellFormed_formula own shape typed).isLine, own⟩
  | define span name params returns body =>
      rcases shape with ⟨nameShape, paramShapes, _, bodyShape⟩
      rw [Stmt.define_eq_ok_iff] at compiled
      rcases compiled with ⟨value, bodyCompiled, _, rfl, rfl⟩
      rcases (body.compilesByRules (context.withParams params) value).1 bodyCompiled with
        ⟨type, typed, rfl⟩
      refine ⟨⟨nameShape.1, ?_, ?_⟩, own.define name rfl⟩
      · intro param isParam
        rcases List.mem_map.1 isParam with ⟨declared, isDeclared, rfl⟩
        exact (paramShapes declared isDeclared).1.1
      · exact body.wellFormed_formula (own.withParams params) bodyShape typed

/-- A run of a program: well-formed statements give lines, also those before a
fault, and the fault is a mistake. -/
theorem Program.isLine_of_compile {context : Context} {program : Program}
    (own : context.DefinesOwn) (shape : program.WellFormed) :
    (∀ formula ∈ (Program.compile context program).formulas, formula.IsLine) ∧
      ∀ fault ∈ (Program.compile context program).fault,
        ∃ error : CompileError, fault = .compile error := by
  induction program generalizing context with
  | nil => simp [Program.compile_nil]
  | cons stmt rest ih =>
      rcases List.forall_mem_cons.1 shape with ⟨stmtShape, restShape⟩
      cases outcome : (Stmt.compile context stmt).outcome with
      | error fault =>
          rw [Program.compile_cons_of_error rest outcome]
          refine ⟨List.forall_mem_nil _, ?_⟩
          rintro _ ⟨⟩
          cases fault with
          | compile error => exact ⟨error, rfl⟩
          | internal error =>
              exact absurd outcome (Stmt.blameless_compile context stmtShape error)
      | ok result =>
          rcases result with ⟨formula, after⟩
          rcases Stmt.isLine_of_compile own stmtShape outcome with ⟨isLine, afterOwn⟩
          rcases ih afterOwn restShape with ⟨areLines, mistakes⟩
          rw [Program.compile_cons_of_ok rest outcome]
          exact ⟨List.forall_mem_cons.2 ⟨isLine, areLines⟩, mistakes⟩

/-! ## Texts -/

theorem compileText_of_readable (globals : NameMap ValueType) {file : String} {text : List Char}
    (readable : (Parsed.ofText file text).errors = []) :
    ∃ compiled,
      compiled = Program.compile (Context.ofGlobals globals) (Parsed.ofText file text).program ∧
        compileText globals file text =
          ⟨compiled.formulas, compiled.notes, compiled.fault.map Failure.fault⟩ := by
  refine ⟨_, rfl, ?_⟩
  rw [compileText]
  exact if_pos (List.isEmpty_iff.2 readable)

theorem compileText_of_unreadable (globals : NameMap ValueType) {file : String}
    {text : List Char} (unreadable : (Parsed.ofText file text).errors ≠ []) :
    compileText globals file text =
      ⟨[], [], some (.unreadable (Parsed.ofText file text).errors)⟩ := by
  rw [compileText]
  exact if_neg (mt List.isEmpty_iff.1 unreadable)

/-- The formulas of a text are lines, whether or not a fault came behind
them. -/
theorem compileText_isLine (globals : NameMap ValueType) (file : String) (text : List Char) :
    ∀ formula ∈ (compileText globals file text).formulas, formula.IsLine := by
  by_cases readable : (Parsed.ofText file text).errors = []
  · rcases compileText_of_readable globals readable with ⟨compiled, rfl, compiledEq⟩
    rw [compiledEq]
    exact (Program.isLine_of_compile (Context.definesOwn_ofGlobals globals)
      (Parsed.wellFormed_program readable)).1
  · rw [compileText_of_unreadable globals readable]
    exact List.forall_mem_nil _

/-- A text compiles, or some of its lines cannot be read, or a statement is
mistaken. -/
theorem compileText_failure_cases (globals : NameMap ValueType) (file : String)
    (text : List Char) :
    (compileText globals file text).failure = none ∨
      ((Parsed.ofText file text).errors ≠ [] ∧
        (compileText globals file text).failure =
          some (.unreadable (Parsed.ofText file text).errors)) ∨
      ∃ error : CompileError,
        (compileText globals file text).failure = some (.fault (.compile error)) := by
  by_cases readable : (Parsed.ofText file text).errors = []
  · rcases compileText_of_readable globals readable with ⟨compiled, programEq, compiledEq⟩
    have mistakes := (Program.isLine_of_compile (Context.definesOwn_ofGlobals globals)
      (Parsed.wellFormed_program readable)).2
    rw [← programEq] at mistakes
    rw [compiledEq]
    cases faultEq : compiled.fault with
    | none => exact .inl rfl
    | some fault =>
        rcases mistakes fault faultEq with ⟨error, rfl⟩
        exact .inr (.inr ⟨error, rfl⟩)
  · rw [compileText_of_unreadable globals readable]
    exact .inr (.inl ⟨readable, rfl⟩)

/-- No text reaches an internal fault.  Whatever the globals are, compiling a
text succeeds, or reports the lines that cannot be read, or reports a mistake of
a statement, so the exit status is zero or one; and every formula that results
has a text, also the formulas in front of a mistake. -/
theorem compileText_reaches_no_internal_fault (globals : NameMap ValueType) (file : String)
    (text : List Char) :
    let compiled := compileText globals file text
    let errors := (Parsed.ofText file text).errors
    (compiled.failure = none ∨
      (errors ≠ [] ∧ compiled.failure = some (.unreadable errors)) ∨
      ∃ error : CompileError, compiled.failure = some (.fault (.compile error))) ∧
    (Failure.exitStatus? compiled.failure = 0 ∨ Failure.exitStatus? compiled.failure = 1) ∧
    (∀ formula ∈ compiled.formulas, ∃ latex, formula.latex = .ok latex) ∧
    ∃ lines, Formula.latexLines compiled.formulas = .ok lines := by
  intro compiled errors
  have outcomes := compileText_failure_cases globals file text
  have areLines := compileText_isLine globals file text
  refine ⟨outcomes, ?_, ?_, Formula.exists_latexLines areLines⟩
  · rcases outcomes with succeeded | ⟨_, unreadable⟩ | ⟨error, mistaken⟩
    · rw [succeeded]
      exact .inl rfl
    · rw [unreadable]
      exact .inr rfl
    · rw [mistaken]
      exact .inr rfl
  · intro formula isFormula
    exact (areLines formula isFormula).exists_latex

end GraphCalc
