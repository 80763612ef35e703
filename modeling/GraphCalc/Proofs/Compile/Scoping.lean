import GraphCalc.Proofs.Compile.Mentions
import GraphCalc.Proofs.Compile.Session

/-!
# What the names of a compiled program refer to

Along a program the functions of the context are those that the formulas given
out so far define, each with the number of parameters of its last definition.
So every name in a formula refers to something: a variable to a global or a
parameter, a call to an earlier definition, or else to a function of the
calculator that no earlier formula defines anew.  The remainder alone is called
whatever has been defined.
-/

namespace GraphCalc

/-! ## Definitions among formulas -/

namespace Formula

/-- The parameters of a definition. -/
def params : Formula → List String
  | define _ params _ => params
  | _ => []

/-- The name that a formula defines. -/
def definedName? : Formula → Option String
  | define name _ _ => some name
  | _ => none

theorem params_of_none {formula : Formula} (definesNothing : formula.definedName? = none) :
    formula.params = [] := by
  cases formula with
  | define => cases definesNothing
  | _ => rfl

/-- The names that formulas define, repeated if they are defined again. -/
def definedNames (formulas : List Formula) : List String :=
  formulas.filterMap definedName?

theorem definedNames_append (formulas others : List Formula) :
    definedNames (formulas ++ others) = definedNames formulas ++ definedNames others :=
  List.filterMap_append

/-- Whether the last definition of a name among some formulas has the given
parameters. -/
def LastDefinition (formulas : List Formula) (name : String) (params : List String) : Prop :=
  ∃ before body after, formulas = before ++ define name params body :: after ∧
    name ∉ definedNames after

namespace LastDefinition

variable {formulas : List Formula} {name : String}

/-- A definition behind all others is the last one. -/
theorem concat (formulas : List Formula) (name : String) (params : List String) (body : Formula) :
    LastDefinition (formulas ++ [define name params body]) name params :=
  ⟨formulas, body, [], rfl, List.not_mem_nil⟩

/-- A formula that does not define the name leaves its last definition. -/
theorem append_of_ne {params : List String} (last : LastDefinition formulas name params)
    {formula : Formula} (other : formula.definedName? ≠ some name) :
    LastDefinition (formulas ++ [formula]) name params := by
  rcases last with ⟨before, body, after, rfl, absent⟩
  refine ⟨before, body, after ++ [formula], by rw [List.append_assoc, List.cons_append], ?_⟩
  rw [definedNames_append, List.mem_append, not_or]
  refine ⟨absent, ?_⟩
  intro isDefined
  rcases List.mem_filterMap.1 isDefined with ⟨found, isFound, defines⟩
  rw [List.mem_singleton.1 isFound] at defines
  exact other defines

theorem mem_definedNames {params : List String} (last : LastDefinition formulas name params) :
    name ∈ definedNames formulas := by
  rcases last with ⟨before, body, after, rfl, -⟩
  rw [definedNames_append, List.mem_append]
  exact .inr List.mem_cons_self

end LastDefinition

end Formula

open Formula

/-! ## Names that refer to something -/

/-- Whether a mention and the name it became refer to something, given the
global variables, the formulas given out before and the parameters in scope.

* A variable is a global or a parameter.
* A call of a function of the program has as many arguments as the last earlier
  definition of that name has parameters.
* A call of a function of the calculator has as many arguments as the table says,
  and no earlier formula defines the name.
* The remainder is a call of one of the calculator's functions, whatever earlier
  formulas define. -/
inductive InScope (globals : NameMap ValueType) (earlier : List Formula)
    (params : List String) : Mention → Occurrence → Prop
  | var {name : String} (known : name ∈ globals ∨ name ∈ params) :
      InScope globals earlier params (.var name) (.var name)
  | own {callee : String} {defined : List String}
      (last : LastDefinition earlier callee defined) :
      InScope globals earlier params (.function callee defined.length)
        (.call callee false defined.length)
  | builtin {callee : String} {signature : Signature}
      (listed : (callee, signature) ∈ Builtin.functions)
      (undefined : callee ∉ definedNames earlier) :
      InScope globals earlier params (.function callee signature.params.length)
        (.call callee true signature.params.length)
  | remainder {signature : Signature}
      (listed : (Builtin.moduloName, signature) ∈ Builtin.functions) :
      InScope globals earlier params .remainder
        (.call Builtin.moduloName true signature.params.length)

/-! ## The functions of the context -/

/-- Whether a context between two statements is that of the formulas given out
before: no variable is local, and the functions are those that the formulas
define, with as many parameters as their last definitions. -/
structure Context.Records (globals : NameMap ValueType) (earlier : List Formula)
    (context : Context) : Prop where
  globals_eq : context.globals = globals
  locals_eq : context.locals = ∅
  defined : ∀ (name : String) (signature : Signature),
    context.functions[name]? = some signature →
      signature.builtin = false ∧
        ∃ params, LastDefinition earlier name params ∧ params.length = signature.params.length
  undefined : ∀ name : String, context.functions[name]? = none → name ∉ definedNames earlier

namespace Context

theorem records_ofGlobals (globals : NameMap ValueType) :
    (Context.ofGlobals globals).Records globals [] where
  globals_eq := rfl
  locals_eq := rfl
  defined := by
    intro name signature found
    simp [Context.ofGlobals] at found
  undefined _ _ := List.not_mem_nil

/-- The local variables in the body of a definition are those around it and its
parameters. -/
theorem mem_locals_withParams_iff (context : Context) (params : List Param) (name : String) :
    name ∈ (context.withParams params).locals ↔
      name ∈ context.locals ∨ name ∈ params.map Param.name := by
  have inserted : ∀ locals : NameMap ValueType,
      name ∈ params.foldl (fun locals param => locals.insert param.name param.type) locals ↔
        name ∈ locals ∨ name ∈ params.map Param.name := by
    induction params with
    | nil => simp
    | cons param params ih =>
        intro locals
        rw [List.foldl_cons, ih, Std.ExtTreeMap.mem_insert, Std.compare_eq_iff_eq, List.map_cons,
          List.mem_cons, eq_comm, or_assoc, or_left_comm]
  exact inserted context.locals

/-- Parameters are the only local variables in the body of a definition of a
program. -/
theorem mem_locals_withParams {context : Context} (noLocals : context.locals = ∅)
    (params : List Param) (name : String) :
    name ∈ (context.withParams params).locals ↔ name ∈ params.map Param.name := by
  rw [mem_locals_withParams_iff, noLocals]
  exact or_iff_right Std.ExtTreeMap.not_mem_empty

theorem functions_define (context : Context) (name other : String) (signature : Signature) :
    (context.define name signature).functions[other]? =
      if name = other then some signature else context.functions[other]? := by
  simp only [Context.define, Std.ExtTreeMap.getElem?_insert, Std.compare_eq_iff_eq]

/-- A variable that is known is a global or a local one. -/
theorem mem_of_variableType? {context : Context} {name : String} {type : ValueType}
    (known : context.variableType? name = some type) :
    name ∈ context.globals ∨ name ∈ context.locals := by
  rw [Std.ExtTreeMap.mem_iff_isSome_getElem?, Std.ExtTreeMap.mem_iff_isSome_getElem?]
  rcases (context.variableType?_eq_some_iff name type).1 known with found | ⟨-, found⟩
  · exact .inl (Option.isSome_of_mem found)
  · exact .inr (Option.isSome_of_mem found)

namespace Records

variable {globals : NameMap ValueType} {earlier : List Formula} {context : Context}

/-- A formula that defines nothing changes nothing. -/
theorem append_of_none (records : context.Records globals earlier) {formula : Formula}
    (definesNothing : formula.definedName? = none) :
    context.Records globals (earlier ++ [formula]) where
  globals_eq := records.globals_eq
  locals_eq := records.locals_eq
  defined := by
    intro name signature found
    rcases records.defined name signature found with ⟨isOwn, params, last, length⟩
    have other : formula.definedName? ≠ some name := by
      rw [definesNothing]
      exact (Option.some_ne_none name).symm
    exact ⟨isOwn, params, last.append_of_ne other, length⟩
  undefined := by
    intro name absent
    rw [definedNames_append, definedNames, definedNames, List.filterMap_cons_none definesNothing,
      List.filterMap_nil, List.append_nil]
    exact records.undefined name absent

/-- A definition becomes the last one of its name. -/
theorem define (records : context.Records globals earlier) (name : String) (params : List Param)
    (body : Formula) (result : ValueType) :
    (context.define name ⟨params.map Param.type, result, false⟩).Records globals
      (earlier ++ [.define name (params.map Param.name) body]) where
  globals_eq := records.globals_eq
  locals_eq := records.locals_eq
  defined := by
    intro other signature found
    rw [functions_define] at found
    by_cases nameEq : name = other
    · subst nameEq
      rw [if_pos rfl, Option.some.injEq] at found
      subst found
      refine ⟨rfl, params.map Param.name, .concat earlier name _ body, ?_⟩
      rw [List.length_map, List.length_map]
    · rw [if_neg nameEq] at found
      rcases records.defined other signature found with ⟨isOwn, otherParams, last, length⟩
      have notThis : (Formula.define name (params.map Param.name) body).definedName? ≠
          some other := by
        intro defines
        exact nameEq (Option.some.inj defines)
      exact ⟨isOwn, otherParams, last.append_of_ne notThis, length⟩
  undefined := by
    intro other absent
    rw [functions_define] at absent
    by_cases nameEq : name = other
    · rw [if_pos nameEq] at absent
      cases absent
    · rw [if_neg nameEq] at absent
      rw [definedNames_append, List.mem_append, not_or]
      refine ⟨records.undefined other absent, ?_⟩
      intro isThis
      exact nameEq (List.mem_singleton.1 isThis).symm

/-- What the mentions of an expression become refers to something, with the
parameters of a definition in scope. -/
theorem inScope (records : context.Records globals earlier) (params : List Param)
    {mention : Mention} {occurrence : Occurrence}
    (yields : (context.withParams params).Yields mention occurrence) :
    InScope globals earlier (params.map Param.name) mention occurrence := by
  cases yields with
  | @var name type known =>
      apply InScope.var
      rcases mem_of_variableType? known with isGlobal | isLocal
      · rw [← records.globals_eq]
        exact .inl isGlobal
      · exact .inr ((mem_locals_withParams records.locals_eq params name).1 isLocal)
  | @function name signature resolved =>
      cases resolved with
      | defined found =>
          rcases records.defined name signature found with ⟨isOwn, defined, last, length⟩
          rw [isOwn, ← length]
          exact .own last
      | builtin absent listed =>
          have isBuiltin : signature.builtin = true := by
            rw [(Resolves.builtin absent listed).builtin_eq, callsBuiltin, absent]
          rw [isBuiltin]
          exact .builtin listed (records.undefined name absent)
  | remainder =>
      have listed : (Builtin.moduloName, Signature.onNumbers 2) ∈ Builtin.functions := by decide
      exact .remainder listed

/-- The functions of the context are exactly those that the formulas define. -/
theorem mem_functions_iff (records : context.Records globals earlier) (name : String) :
    name ∈ context.functions ↔ name ∈ definedNames earlier := by
  rw [Std.ExtTreeMap.mem_iff_isSome_getElem?]
  cases found : context.functions[name]? with
  | none => exact iff_of_false Bool.false_ne_true (records.undefined name found)
  | some signature =>
      rcases records.defined name signature found with ⟨-, params, last, -⟩
      exact iff_of_true rfl last.mem_definedNames

end Records

end Context

/-! ## Steps and runs -/

/-- No expression becomes a definition. -/
theorem Expr.definedName?_formula (context : Context) (expr : Expr) :
    (expr.formula context).definedName? = none := by
  cases expr with
  | binary span op left right =>
      cases op with
      | _ => rfl
  | macroCall span name args =>
      cases args with
      | nil => rfl
      | cons first others =>
          cases first with
          | _ => rfl
  | _ => rfl

/-- A step: a statement that is compiled gives a formula whose names refer to
something, and a context that records that formula as well. -/
theorem Stmt.inScope_compile {globals : NameMap ValueType} {earlier : List Formula}
    {context after : Context} {stmt : Stmt} {formula : Formula}
    (records : context.Records globals earlier)
    (compiled : (Stmt.compile context stmt).outcome = .ok (formula, after)) :
    List.Forall₂ (InScope globals earlier formula.params) stmt.mentions formula.occurrences ∧
      after.Records globals (earlier ++ [formula]) := by
  cases stmt with
  | expr span value =>
      rw [Stmt.compile_expr, (value.compilesByRules context).bind_iff] at compiled
      rcases compiled with ⟨type, typed, result⟩
      cases result
      have definesNothing := value.definedName?_formula context
      rw [params_of_none definesNothing]
      refine ⟨?_, records.append_of_none definesNothing⟩
      exact (value.allYield typed).imp fun _ _ => records.inScope []
  | define span name params returns body =>
      rw [Stmt.define_eq_ok_iff] at compiled
      rcases compiled with ⟨value, bodyCompiled, _, rfl, rfl⟩
      rcases (body.compilesByRules (context.withParams params) value).1 bodyCompiled with
        ⟨type, typed, rfl⟩
      refine ⟨?_, records.define name params _ _⟩
      exact (body.allYield typed).imp fun _ _ => records.inScope params

/-- A run: every formula has names that refer to something, given the formulas
before it, and the context at the end records all formulas. -/
theorem Program.inScope_compile {globals : NameMap ValueType} {earlier : List Formula}
    {context : Context} (records : context.Records globals earlier) (program : Program) :
    let compiled := Program.compile context program
    (∀ (k : Nat) (formula : Formula), compiled.formulas[k]? = some formula →
      ∃ stmt, program[k]? = some stmt ∧
        List.Forall₂ (InScope globals (earlier ++ compiled.formulas.take k) formula.params)
          stmt.mentions formula.occurrences) ∧
      compiled.context.Records globals (earlier ++ compiled.formulas) := by
  induction program generalizing earlier context with
  | nil =>
      constructor
      · intro k formula found
        cases found
      · rw [Program.compile_nil, List.append_nil]
        exact records
  | cons stmt rest ih =>
      cases outcome : (Stmt.compile context stmt).outcome with
      | error fault =>
          rw [Program.compile_cons_of_error rest outcome]
          constructor
          · intro k formula found
            cases found
          · rw [List.append_nil]
            exact records
      | ok result =>
          rcases result with ⟨formula, after⟩
          rcases Stmt.inScope_compile records outcome with ⟨stmtScoped, afterRecords⟩
          rcases ih afterRecords with ⟨restScoped, restRecords⟩
          rw [Program.compile_cons_of_ok rest outcome]
          rw [List.append_assoc] at restRecords
          refine ⟨?_, restRecords⟩
          intro k found isFound
          cases k with
          | zero =>
              cases isFound
              rw [List.take_zero, List.append_nil]
              exact ⟨stmt, rfl, stmtScoped⟩
          | succ k =>
              rcases restScoped k found isFound with ⟨origin, isOrigin, inScope⟩
              rw [List.append_assoc] at inScope
              exact ⟨origin, isOrigin, inScope⟩

/-- The names of a compiled program are in scope.  In the formula of each
statement every name refers to something: a variable to a global or a parameter,
a call to the last earlier definition of that name or else to one of the
calculator's functions, each with the right number of arguments.  At the end the
functions of the context are exactly those that the formulas define, each with
the number of parameters of its last definition. -/
theorem output_names_are_in_scope (globals : NameMap ValueType) (program : Program) :
    let compiled := Program.compile (Context.ofGlobals globals) program
    (∀ (k : Nat) (formula : Formula), compiled.formulas[k]? = some formula →
      ∃ stmt, program[k]? = some stmt ∧
        List.Forall₂ (InScope globals (compiled.formulas.take k) formula.params)
          stmt.mentions formula.occurrences) ∧
    (∀ name : String, name ∈ compiled.context.functions ↔
      name ∈ definedNames compiled.formulas) ∧
    ∀ (name : String) (signature : Signature),
      compiled.context.functions[name]? = some signature →
        signature.builtin = false ∧ ∃ params, LastDefinition compiled.formulas name params ∧
          params.length = signature.params.length := by
  intro compiled
  rcases Program.inScope_compile (Context.records_ofGlobals globals) program with
    ⟨inScope, records⟩
  exact ⟨inScope, records.mem_functions_iff, records.defined⟩

/-- A function is defined, by a remainder, and defined again by a call of itself
with fewer arguments; then it is called inside one of the calculator's
functions. -/
theorem output_names_are_in_scope_redefinition :
    let globals : NameMap ValueType := (∅ : NameMap ValueType).insert "x" .number
    let place : Span := .nowhere
    let a : Param := ⟨place, "a", .number⟩
    let b : Param := ⟨place, "b", .number⟩
    let program : Program :=
      [.define place "f" [a] none (.binary place .modulo (.var place "a") (.var place "x")),
        .define place "f" [a, b] none (.call place .normal "f" [.var place "b"]),
        .expr place (.call place .normal "sin"
          [.call place .normal "f" [.var place "x", .number place "1"]])]
    let formulas := (Program.compile (Context.ofGlobals globals) program).formulas
    let formula : Formula := .call "sin" true [.call "f" false [.var "x", .number "1"]]
    formulas[2]? = some formula ∧
      List.Forall₂ (InScope globals (formulas.take 2) [])
        [.function "sin" 1, .function "f" 2, .var "x"] formula.occurrences := by
  intro globals place a b program formulas formula
  have found : formulas[2]? = some formula := by
    dsimp only [formulas, program, globals, formula, a, b, place]
    rfl
  refine ⟨found, ?_⟩
  rcases (output_names_are_in_scope globals program).1 2 formula found with
    ⟨stmt, isStmt, inScope⟩
  cases isStmt
  exact inScope

end GraphCalc
