import GraphCalc.Compile.Expr
import GraphCalc.Proofs.Syntax.WellFormed
import Mathlib.Data.List.Forall2

/-!
# The typing rules

There are two types.  Which expressions have which type is given by rules, one
for each form of expression, and so is the formula an expression stands for.
Compiling succeeds exactly when the rules give a type, and then with that type
and that formula.
-/

namespace GraphCalc

/-! ## Rules -/

/-- What a name stands for in a call: the function the program defined, or else
the builtin one. -/
inductive Context.Resolves (context : Context) (name : String) : Signature → Prop
  | defined {signature : Signature} (found : context.functions[name]? = some signature) :
      Resolves context name signature
  | builtin {signature : Signature} (absent : context.functions[name]? = none)
      (listed : (name, signature) ∈ Builtin.functions) : Resolves context name signature

/-- Whether a value may be given for a parameter of a mapped call. -/
def ValueType.MayStandFor (got expected : ValueType) : Prop :=
  got = expected ∨ got = .list ∧ expected = .number

mutual

/-- `HasType context expr type` says that the expression has the type where the
context gives the meaning of names. -/
inductive HasType (context : Context) : Expr → ValueType → Prop
  | number (span : Span) (value : String) : HasType context (.number span value) .number
  | globalVariable (span : Span) {name : String} {type : ValueType}
      (found : context.globals[name]? = some type) : HasType context (.var span name) type
  | localVariable (span : Span) {name : String} {type : ValueType}
      (absent : context.globals[name]? = none) (found : context.locals[name]? = some type) :
      HasType context (.var span name) type
  | arithmetic (span : Span) {op : BinaryOp} {left right : Expr} (known : op ∈ BinaryOp.known)
      (leftNumber : HasType context left .number) (rightNumber : HasType context right .number) :
      HasType context (.binary span op left right) .number
  | factorial (span : Span) {operand : Expr} (number : HasType context operand .number) :
      HasType context (.unary span .factorial operand) .number
  | call (span : Span) {callee : String} {signature : Signature} {args : List Expr}
      (resolved : context.Resolves callee signature)
      (typed : HaveTypes context args signature.params) :
      HasType context (.call span .normal callee args) signature.result
  | map (span nameSpan : Span) {callee : String} {signature : Signature} {args : List Expr}
      {types : List ValueType} (resolved : context.Resolves callee signature)
      (notEmpty : args ≠ []) (typed : HaveTypes context args types)
      (accepted : List.Forall₂ ValueType.MayStandFor types signature.params) :
      HasType context (.macroCall span Compile.mapName (.var nameSpan callee :: args))
        signature.result
  | list (span : Span) {items : List Expr} {types : List ValueType}
      (typed : HaveTypes context items types) (flat : .list ∉ types) :
      HasType context (.list span items) .list
  | piecewise (span : Span) {first : Clause Expr} {rest : List (Clause Expr)} {otherwise : Expr}
      (firstTyped : ClauseTyped context first) (restTyped : ClausesTyped context rest)
      (number : HasType context otherwise .number) :
      HasType context (.piecewise span first rest otherwise) .number

/-- Expressions have the given types, position by position. -/
inductive HaveTypes (context : Context) : List Expr → List ValueType → Prop
  | nil : HaveTypes context [] []
  | cons {first : Expr} {rest : List Expr} {type : ValueType} {types : List ValueType}
      (firstTyped : HasType context first type) (restTyped : HaveTypes context rest types) :
      HaveTypes context (first :: rest) (type :: types)

/-- A conditional part compares a number with anything and results in
anything. -/
inductive ClauseTyped (context : Context) : Clause Expr → Prop
  | mk {left right result : Expr} {comparison : Comparison} {rightType resultType : ValueType}
      (known : comparison ∈ Comparison.known) (leftNumber : HasType context left .number)
      (rightTyped : HasType context right rightType)
      (resultTyped : HasType context result resultType) :
      ClauseTyped context ⟨left, comparison, right, result⟩

inductive ClausesTyped (context : Context) : List (Clause Expr) → Prop
  | nil : ClausesTyped context []
  | cons {first : Clause Expr} {rest : List (Clause Expr)}
      (firstTyped : ClauseTyped context first) (restTyped : ClausesTyped context rest) :
      ClausesTyped context (first :: rest)

end

/-- A variable has its global type, or else its local type. -/
theorem HasType.variable_cases {context : Context} {span : Span} {name : String}
    {type : ValueType} (typed : HasType context (.var span name) type) :
    context.globals[name]? = some type ∨
      context.globals[name]? = none ∧ context.locals[name]? = some type := by
  cases typed with
  | globalVariable _ found => exact .inl found
  | localVariable _ absent found => exact .inr ⟨absent, found⟩

/-! ## Formulas of expressions -/

/-- The formula of a binary operation. -/
def BinaryOp.formula (left right : Formula) : BinaryOp → Formula
  | add => .binary .add left right
  | subtract => .binary .subtract left right
  | multiply => .binary .multiply left right
  | divide => .binary .divide left right
  | modulo => .call Builtin.moduloName true [left, right]
  | other _ => .missing

/-- Whether a call is one of the calculator's functions.  A function that the
program did not define is. -/
def Context.callsBuiltin (context : Context) (name : String) : Bool :=
  match context.functions[name]? with
  | some signature => signature.builtin
  | none => true

mutual

/-- The formula of an expression: the same tree without spans, with the
remainder and the mapping macro as calls. -/
def Expr.formula (context : Context) : Expr → Formula
  | .number _ value => .number value
  | .var _ name => .var name
  | .binary _ op left right => op.formula (left.formula context) (right.formula context)
  | .unary _ _ operand => .factorial (operand.formula context)
  | .call _ _ callee args =>
      .call callee (context.callsBuiltin callee) (Expr.formulas context args)
  | .macroCall _ _ (.var _ callee :: args) =>
      .call callee (context.callsBuiltin callee) (Expr.formulas context args)
  | .macroCall _ _ _ => .missing
  | .list _ items => .list (Expr.formulas context items)
  | .piecewise _ first rest otherwise =>
      .piecewise (Clause.formula context first) (Clause.formulas context rest)
        (otherwise.formula context)
  | .mapped _ _ => .missing

def Expr.formulas (context : Context) : List Expr → List Formula
  | [] => []
  | first :: rest => first.formula context :: Expr.formulas context rest

def Clause.formula (context : Context) : Clause Expr → Clause Formula
  | ⟨left, comparison, right, result⟩ =>
      ⟨left.formula context, comparison, right.formula context, result.formula context⟩

def Clause.formulas (context : Context) : List (Clause Expr) → List (Clause Formula)
  | [] => []
  | first :: rest => Clause.formula context first :: Clause.formulas context rest

end

/-! ## Steps of the compiler -/

theorem Logged.bind_eq_ok_iff {α β : Type} (first : Logged α) (next : α → Logged β) (result : β) :
    (first >>= next).outcome = .ok result ↔
      ∃ value, first.outcome = .ok value ∧ (next value).outcome = .ok result := by
  rw [outcome_bind]
  cases first.outcome with
  | error fault =>
      constructor
      · intro failed
        cases failed
      · rintro ⟨value, succeeded, -⟩
        cases succeeded
  | ok value =>
      constructor
      · intro succeeded
        exact ⟨value, rfl, succeeded⟩
      · rintro ⟨_, ⟨⟩, succeeded⟩
        exact succeeded

theorem Logged.bind_eq_error_iff {α β : Type} (first : Logged α) (next : α → Logged β)
    (fault : Fault) :
    (first >>= next).outcome = .error fault ↔
      first.outcome = .error fault ∨
        ∃ value, first.outcome = .ok value ∧ (next value).outcome = .error fault := by
  rw [outcome_bind]
  cases first.outcome with
  | error firstFault =>
      constructor
      · intro failed
        cases failed
        exact .inl rfl
      · rintro (failed | ⟨value, succeeded, -⟩)
        · cases failed
          rfl
        · cases succeeded
  | ok value =>
      constructor
      · intro failed
        exact .inr ⟨value, rfl, failed⟩
      · rintro (failed | ⟨_, ⟨⟩, failed⟩)
        · cases failed
        · exact failed

theorem Logged.pure_eq_ok_iff {α : Type} (value result : α) :
    (pure value : Logged α).outcome = .ok result ↔ result = value := by
  rw [outcome_pure, Except.ok.injEq, eq_comm]

theorem Logged.fail_ne_ok {α : Type} (fault : Fault) (result : α) :
    (Logged.fail fault : Logged α).outcome ≠ .ok result := by
  rw [outcome_fail]
  exact nofun

/-- In a table without repeated names every entry is found. -/
theorem lookup_eq_some_iff_mem (entries : List (String × Signature))
    (distinct : (entries.map Prod.fst).Nodup) (name : String) (signature : Signature) :
    entries.lookup name = some signature ↔ (name, signature) ∈ entries := by
  induction entries with
  | nil => simp
  | cons entry entries ih =>
      rw [List.map_cons, List.nodup_cons] at distinct
      rcases entry with ⟨key, value⟩
      by_cases nameEq : name = key
      · subst nameEq
        have absent : (name, signature) ∉ entries := by
          intro listed
          exact distinct.1 (List.mem_map.2 ⟨_, listed, rfl⟩)
        simp [absent, eq_comm]
      · rw [List.mem_cons, ← ih distinct.2, List.lookup_cons, beq_eq_false_iff_ne.2 nameEq]
        simp [nameEq]

namespace Context

theorem signature?_eq_some_iff (context : Context) (name : String) (signature : Signature) :
    context.signature? name = some signature ↔ context.Resolves name signature := by
  have listed := lookup_eq_some_iff_mem Builtin.functions (by decide) name signature
  rw [Context.signature?]
  cases found : context.functions[name]? with
  | none =>
      change Builtin.functions.lookup name = some signature ↔ _
      rw [listed]
      constructor
      · intro isListed
        exact .builtin found isListed
      · intro resolved
        cases resolved with
        | defined conflict =>
            rw [found] at conflict
            cases conflict
        | builtin _ isListed => exact isListed
  | some defined =>
      change some defined = some signature ↔ _
      constructor
      · rintro ⟨⟩
        exact .defined found
      · intro resolved
        cases resolved with
        | defined found' => exact found.symm.trans found'
        | builtin absent _ =>
            rw [found] at absent
            cases absent

theorem Resolves.unique {context : Context} {name : String} {first second : Signature}
    (left : context.Resolves name first) (right : context.Resolves name second) :
    first = second := by
  rw [← signature?_eq_some_iff] at left right
  exact Option.some.inj (left.symm.trans right)

/-- The functions of the table are marked as the calculator's. -/
theorem Resolves.builtin_eq {context : Context} {name : String} {signature : Signature}
    (resolved : context.Resolves name signature) :
    signature.builtin = context.callsBuiltin name := by
  unfold callsBuiltin
  cases resolved with
  | defined found => rw [found]
  | builtin absent listed =>
      rw [absent]
      have allBuiltin : ∀ entry ∈ Builtin.functions, entry.2.builtin = true := by decide
      exact allBuiltin _ listed

theorem variableType?_eq_some_iff (context : Context) (name : String) (type : ValueType) :
    context.variableType? name = some type ↔
      context.globals[name]? = some type ∨
        context.globals[name]? = none ∧ context.locals[name]? = some type := by
  cases found : context.globals[name]? with
  | none =>
      cases foundLocal : context.locals[name]? with
      | none => simp [variableType?, variableLayers, Layer.find?, found, foundLocal]
      | some localType => simp [variableType?, variableLayers, Layer.find?, found, foundLocal]
  | some globalType => simp [variableType?, variableLayers, Layer.find?, found]

end Context

theorem HasType.variableType?_eq {context : Context} {span : Span} {name : String}
    {type : ValueType} (typed : HasType context (.var span name) type) :
    context.variableType? name = some type :=
  (context.variableType?_eq_some_iff name type).2 typed.variable_cases

namespace Compile

theorem requireNumber_eq_ok_iff (span : Span) (value : Typed) (formula : Formula) :
    (requireNumber span value).outcome = .ok formula ↔
      value.type = .number ∧ formula = value.formula := by
  unfold requireNumber
  by_cases isNumber : value.type = .number
  · rw [if_pos isNumber, Logged.pure_eq_ok_iff]
    exact (and_iff_right isNumber).symm
  · rw [if_neg isNumber]
    exact iff_of_false (Logged.fail_ne_ok _ _) fun typed => isNumber typed.1

theorem requireItem_eq_ok_iff (span : Span) (value : Typed) (formula : Formula) :
    (requireItem span value).outcome = .ok formula ↔
      value.type ≠ .list ∧ formula = value.formula := by
  unfold requireItem
  by_cases isList : value.type = .list
  · rw [if_pos isList]
    exact iff_of_false (Logged.fail_ne_ok _ _) fun typed => typed.1 isList
  · rw [if_neg isList, Logged.pure_eq_ok_iff]
    exact (and_iff_right isList).symm

theorem operation_eq_ok_iff (span : Span) (op : BinaryOp) (left right formula : Formula) :
    (operation span op left right).outcome = .ok formula ↔
      op ∈ BinaryOp.known ∧ formula = op.formula left right := by
  cases op with
  | other code =>
      refine iff_of_false (Logged.fail_ne_ok _ _) ?_
      rintro ⟨known, -⟩
      simp [BinaryOp.known] at known
  | _ =>
      rw [and_iff_right (by decide)]
      exact Logged.pure_eq_ok_iff _ _

theorem comparison_eq_ok_iff (span : Span) (sign result : Comparison) :
    (comparison span sign).outcome = .ok result ↔ sign ∈ Comparison.known ∧ result = sign := by
  cases sign with
  | other code =>
      refine iff_of_false (Logged.fail_ne_ok _ _) ?_
      rintro ⟨known, -⟩
      simp [Comparison.known] at known
  | _ =>
      rw [and_iff_right (by decide)]
      exact Logged.pure_eq_ok_iff _ _

theorem accepts_normal_iff (got expected : ValueType) :
    accepts .normal got expected = true ↔ got = expected := by
  simp [accepts]

theorem accepts_mapped_iff (got expected : ValueType) :
    accepts .mapped got expected = true ↔ got.MayStandFor expected := by
  simp [accepts, ValueType.MayStandFor]

/-- The types of arguments are checked position by position. -/
theorem checkArguments_eq_ok_iff (mode : CallMode) (args : List Argument)
    (params : List ValueType) (sameLength : args.length = params.length) :
    (checkArguments mode args params).outcome = .ok () ↔
      List.Forall₂ (fun got expected => accepts mode got expected = true)
        (args.map Argument.type) params := by
  induction args generalizing params with
  | nil =>
      rcases List.length_eq_zero_iff.1 sameLength.symm with rfl
      exact iff_of_true rfl .nil
  | cons arg args ih =>
      cases params with
      | nil => cases sameLength
      | cons expected params =>
          rw [checkArguments, List.map_cons, List.forall₂_cons,
            ← ih params (Nat.succ.inj sameLength)]
          by_cases accepted : accepts mode arg.type expected = true
          · rw [if_pos accepted]
            exact (and_iff_right accepted).symm
          · rw [if_neg accepted]
            exact iff_of_false (Logged.fail_ne_ok _ _) fun checked => accepted checked.1

theorem call_eq_ok_iff (context : Context) (span : Span) (mode : CallMode) (callee : String)
    (args : List Argument) (result : Typed) :
    (call context span mode callee args).outcome = .ok result ↔
      ∃ signature, context.Resolves callee signature ∧
        List.Forall₂ (fun got expected => accepts mode got expected = true)
          (args.map Argument.type) signature.params ∧
        result = ⟨.call callee (context.callsBuiltin callee) (args.map Argument.formula),
          signature.result⟩ := by
  unfold call
  cases found : context.signature? callee with
  | none =>
      refine iff_of_false (Logged.fail_ne_ok _ _) ?_
      rintro ⟨signature, resolved, -⟩
      rw [(context.signature?_eq_some_iff callee signature).2 resolved] at found
      cases found
  | some signature =>
      have resolved := (context.signature?_eq_some_iff callee signature).1 found
      constructor
      · intro succeeded
        by_cases sameLength : args.length = signature.params.length
        · simp only [ne_eq, sameLength, not_true_eq_false, if_false, Logged.bind_eq_ok_iff,
            Logged.pure_eq_ok_iff] at succeeded
          rcases succeeded with ⟨_, checked, rfl⟩
          refine ⟨signature, resolved, ?_, ?_⟩
          · exact (checkArguments_eq_ok_iff mode args _ sameLength).1 checked
          · rw [resolved.builtin_eq]
        · simp only [ne_eq, sameLength, not_false_eq_true, if_true] at succeeded
          exact absurd succeeded (Logged.fail_ne_ok _ _)
      · rintro ⟨signature', resolved', accepted, rfl⟩
        rcases resolved.unique resolved' with rfl
        have sameLength : args.length = signature.params.length := by
          rw [← accepted.length_eq, List.length_map]
        simp only [ne_eq, sameLength, not_true_eq_false, if_false, Logged.bind_eq_ok_iff,
          Logged.pure_eq_ok_iff]
        refine ⟨(), (checkArguments_eq_ok_iff mode args _ sameLength).2 accepted, ?_⟩
        rw [resolved.builtin_eq]

end Compile

/-! ## Compiling follows the rules -/

/-- The arguments of a call: what is compiled, with the given types. -/
def typedArguments (context : Context) : List Expr → List ValueType → List Argument
  | expr :: exprs, type :: types =>
      ⟨expr.span, expr.formula context, type⟩ :: typedArguments context exprs types
  | _, _ => []

namespace HaveTypes

variable {context : Context} {exprs : List Expr} {types : List ValueType}

theorem types_typedArguments (typed : HaveTypes context exprs types) :
    (typedArguments context exprs types).map Argument.type = types := by
  induction exprs generalizing types with
  | nil =>
      cases typed
      rfl
  | cons expr exprs ih =>
      cases typed with
      | cons _ restTyped => rw [typedArguments, List.map_cons, ih restTyped]

theorem formulas_typedArguments (typed : HaveTypes context exprs types) :
    (typedArguments context exprs types).map Argument.formula = Expr.formulas context exprs := by
  induction exprs generalizing types with
  | nil =>
      cases typed
      rfl
  | cons expr exprs ih =>
      cases typed with
      | cons _ restTyped => rw [typedArguments, List.map_cons, ih restTyped, Expr.formulas]

end HaveTypes

open Compile

/-- What compiling an expression may result in. -/
def Expr.CompilesByRules (context : Context) (expr : Expr) : Prop :=
  ∀ result, (expr.compile context).outcome = .ok result ↔
    ∃ type, HasType context expr type ∧ result = ⟨expr.formula context, type⟩

namespace Expr.CompilesByRules

variable {context : Context} {expr : Expr} {β : Type}

theorem bind_iff (byRules : expr.CompilesByRules context) (next : Typed → Logged β) (result : β) :
    (expr.compile context >>= next).outcome = .ok result ↔
      ∃ type, HasType context expr type ∧
        (next ⟨expr.formula context, type⟩).outcome = .ok result := by
  rw [Logged.bind_eq_ok_iff]
  constructor
  · rintro ⟨value, compiled, continued⟩
    rcases (byRules value).1 compiled with ⟨type, typed, rfl⟩
    exact ⟨type, typed, continued⟩
  · rintro ⟨type, typed, continued⟩
    exact ⟨_, (byRules _).2 ⟨type, typed, rfl⟩, continued⟩

/-- Where a number is required, the expression has that type. -/
theorem bind_requireNumber_iff (byRules : expr.CompilesByRules context) (span : Span)
    (next : Formula → Logged β) (result : β) :
    (expr.compile context >>= fun value => requireNumber span value >>= next).outcome =
        .ok result ↔
      HasType context expr .number ∧ (next (expr.formula context)).outcome = .ok result := by
  simp only [byRules.bind_iff, Logged.bind_eq_ok_iff, requireNumber_eq_ok_iff]
  constructor
  · rintro ⟨type, typed, formula, ⟨rfl, rfl⟩, continued⟩
    exact ⟨typed, continued⟩
  · rintro ⟨typed, continued⟩
    exact ⟨.number, typed, _, ⟨rfl, rfl⟩, continued⟩

/-- Where an item is required, the expression has another type than list. -/
theorem bind_requireItem_iff (byRules : expr.CompilesByRules context) (span : Span)
    (next : Formula → Logged β) (result : β) :
    (expr.compile context >>= fun value => requireItem span value >>= next).outcome =
        .ok result ↔
      ∃ type, HasType context expr type ∧ type ≠ .list ∧
        (next (expr.formula context)).outcome = .ok result := by
  simp only [byRules.bind_iff, Logged.bind_eq_ok_iff, requireItem_eq_ok_iff]
  constructor
  · rintro ⟨type, typed, formula, ⟨notList, rfl⟩, continued⟩
    exact ⟨type, typed, notList, continued⟩
  · rintro ⟨type, typed, notList, continued⟩
    exact ⟨type, typed, _, ⟨notList, rfl⟩, continued⟩

end Expr.CompilesByRules

/-- A call of either mode has the type of its function's results. -/
theorem call_typedArguments_iff (context : Context) (span : Span) (mode : CallMode)
    (callee : String) {args : List Expr} {types : List ValueType}
    (typed : HaveTypes context args types) (result : Typed) :
    (call context span mode callee (typedArguments context args types)).outcome = .ok result ↔
      ∃ signature, context.Resolves callee signature ∧
        List.Forall₂ (fun got expected => accepts mode got expected = true) types
          signature.params ∧
        result = ⟨.call callee (context.callsBuiltin callee) (Expr.formulas context args),
          signature.result⟩ := by
  rw [call_eq_ok_iff, typed.types_typedArguments, typed.formulas_typedArguments]

/-- The mapping macro calls the function that its first argument names. -/
theorem Expr.compile_map (context : Context) (span nameSpan : Span) (callee : String)
    {args : List Expr} (notEmpty : args ≠ []) :
    (Expr.macroCall span mapName (.var nameSpan callee :: args)).compile context =
      Expr.compileArguments context args >>= fun compiled =>
        Logged.note (.expanding callee compiled.length) >>= fun _ =>
          Compile.call context span .mapped callee compiled := by
  cases args with
  | nil => exact absurd rfl notEmpty
  | cons second others => rfl

/-- No other macro call is compiled. -/
theorem Expr.map_of_compile_macroCall {context : Context} {span : Span} {name : String}
    {args : List Expr} {result : Typed}
    (compiled : ((Expr.macroCall span name args).compile context).outcome = .ok result) :
    ∃ nameSpan callee others,
      name = mapName ∧ args = .var nameSpan callee :: others ∧ others ≠ [] := by
  by_cases nameEq : name = mapName
  · subst nameEq
    cases args with
    | nil => exact absurd compiled (Logged.fail_ne_ok _ _)
    | cons first others =>
        cases others with
        | nil => exact absurd compiled (Logged.fail_ne_ok _ _)
        | cons second others =>
            cases first with
            | var nameSpan callee =>
                exact ⟨nameSpan, callee, second :: others, rfl, rfl, List.cons_ne_nil _ _⟩
            | _ => exact absurd compiled (Logged.fail_ne_ok _ _)
  · rw [Expr.compile.eq_def] at compiled
    simp only [if_neg nameEq] at compiled
    exact absurd compiled (Logged.fail_ne_ok _ _)

/-- What compiling the arguments of a call may result in. -/
def Expr.ArgumentsByRules (context : Context) (exprs : List Expr) : Prop :=
  ∀ args, (Expr.compileArguments context exprs).outcome = .ok args ↔
    ∃ types, HaveTypes context exprs types ∧ args = typedArguments context exprs types

/-- What compiling the items of a list may result in. -/
def Expr.ItemsByRules (context : Context) (exprs : List Expr) : Prop :=
  ∀ formulas, (Expr.compileItems context exprs).outcome = .ok formulas ↔
    (∃ types, HaveTypes context exprs types ∧ .list ∉ types) ∧
      formulas = Expr.formulas context exprs

/-- What compiling a conditional part may result in. -/
def Clause.CompilesByRules (context : Context) (clause : Clause Expr) : Prop :=
  ∀ result, (Clause.compile context clause).outcome = .ok result ↔
    ClauseTyped context clause ∧ result = Clause.formula context clause

def Clause.AllByRules (context : Context) (clauses : List (Clause Expr)) : Prop :=
  ∀ results, (Clause.compileAll context clauses).outcome = .ok results ↔
    ClausesTyped context clauses ∧ results = Clause.formulas context clauses

section Rules

variable (context : Context) (span : Span)

theorem Expr.compilesByRules_var (name : String) :
    (Expr.var span name).CompilesByRules context := by
  intro result
  rw [Expr.compile, Expr.formula]
  cases found : context.variableType? name with
  | none =>
      refine iff_of_false (Logged.fail_ne_ok _ _) ?_
      rintro ⟨type, typed, -⟩
      have foundType := typed.variableType?_eq
      rw [found] at foundType
      cases foundType
  | some type =>
      rw [Logged.pure_eq_ok_iff]
      constructor
      · rintro rfl
        rcases (context.variableType?_eq_some_iff name type).1 found with
          foundGlobal | ⟨absent, foundLocal⟩
        · exact ⟨type, .globalVariable span foundGlobal, rfl⟩
        · exact ⟨type, .localVariable span absent foundLocal, rfl⟩
      · rintro ⟨type', typed, rfl⟩
        have foundType := typed.variableType?_eq
        rw [found] at foundType
        cases foundType
        rfl

variable {context}

/-- In an ordinary call the arguments have the very types of the parameters. -/
theorem Expr.ArgumentsByRules.call (mode : CallMode) (callee : String) {args : List Expr}
    (byRules : Expr.ArgumentsByRules context args) :
    (Expr.call span mode callee args).CompilesByRules context := by
  intro result
  cases mode with
  | normal =>
      rw [Expr.compile, Expr.formula, Logged.bind_eq_ok_iff]
      constructor
      · rintro ⟨compiledArgs, argsCompiled, called⟩
        rcases (byRules compiledArgs).1 argsCompiled with ⟨types, typed, rfl⟩
        rcases (call_typedArguments_iff context span .normal callee typed result).1 called with
          ⟨signature, resolved, accepted, rfl⟩
        simp only [accepts_normal_iff, List.forall₂_eq_eq_eq] at accepted
        subst accepted
        exact ⟨signature.result, .call span resolved typed, rfl⟩
      · rintro ⟨type, typed, rfl⟩
        cases typed with
        | @call _ _ signature _ resolved typed =>
            refine ⟨_, (byRules _).2 ⟨signature.params, typed, rfl⟩, ?_⟩
            refine (call_typedArguments_iff context span .normal callee typed _).2
              ⟨signature, resolved, ?_, rfl⟩
            simp only [accepts_normal_iff, List.forall₂_eq_eq_eq]
  | mapped | other =>
      refine iff_of_false (Logged.fail_ne_ok _ _) ?_
      rintro ⟨type, typed, -⟩
      cases typed

/-- The first argument of the mapping macro is a name and is not compiled. -/
theorem Expr.compilesByRules_macroCall (name : String) {args : List Expr}
    (byRules : Expr.ArgumentsByRules context args.tail) :
    (Expr.macroCall span name args).CompilesByRules context := by
  intro result
  constructor
  · intro compiled
    rcases Expr.map_of_compile_macroCall compiled with
      ⟨nameSpan, callee, others, rfl, rfl, notEmpty⟩
    rw [Expr.compile_map context span nameSpan callee notEmpty, Logged.bind_eq_ok_iff]
      at compiled
    rcases compiled with ⟨compiledArgs, argsCompiled, called⟩
    rw [Logged.bind_eq_ok_iff] at called
    rcases called with ⟨_, -, called⟩
    rcases (byRules compiledArgs).1 argsCompiled with ⟨types, typed, rfl⟩
    rcases (call_typedArguments_iff context span .mapped callee typed result).1 called with
      ⟨signature, resolved, accepted, rfl⟩
    simp only [accepts_mapped_iff] at accepted
    exact ⟨signature.result, .map span nameSpan resolved notEmpty typed accepted, rfl⟩
  · rintro ⟨type, typed, rfl⟩
    cases typed with
    | @map _ nameSpan callee signature others types resolved notEmpty typed accepted =>
        rw [Expr.compile_map context span nameSpan callee notEmpty, Logged.bind_eq_ok_iff]
        refine ⟨_, (byRules _).2 ⟨types, typed, rfl⟩, ?_⟩
        rw [Logged.bind_eq_ok_iff]
        refine ⟨(), rfl, ?_⟩
        refine (call_typedArguments_iff context span .mapped callee typed _).2
          ⟨signature, resolved, ?_, rfl⟩
        simp only [accepts_mapped_iff]
        exact accepted

theorem Clause.CompilesByRules.piecewise {first : Clause Expr} {rest : List (Clause Expr)}
    {otherwise : Expr} (firstByRules : Clause.CompilesByRules context first)
    (restByRules : Clause.AllByRules context rest)
    (otherwiseByRules : otherwise.CompilesByRules context) :
    (Expr.piecewise span first rest otherwise).CompilesByRules context := by
  intro result
  rw [Expr.compile, Expr.formula, Logged.bind_eq_ok_iff]
  constructor
  · rintro ⟨firstClause, firstCompiled, others⟩
    rw [Logged.bind_eq_ok_iff] at others
    rcases others with ⟨restClauses, restCompiled, ending⟩
    rw [otherwiseByRules.bind_requireNumber_iff, Logged.pure_eq_ok_iff] at ending
    rcases (firstByRules _).1 firstCompiled with ⟨firstTyped, rfl⟩
    rcases (restByRules _).1 restCompiled with ⟨restTyped, rfl⟩
    rcases ending with ⟨number, rfl⟩
    exact ⟨.number, .piecewise span firstTyped restTyped number, rfl⟩
  · rintro ⟨type, typed, rfl⟩
    cases typed with
    | piecewise _ firstTyped restTyped number =>
        refine ⟨_, (firstByRules _).2 ⟨firstTyped, rfl⟩, ?_⟩
        rw [Logged.bind_eq_ok_iff]
        refine ⟨_, (restByRules _).2 ⟨restTyped, rfl⟩, ?_⟩
        rw [otherwiseByRules.bind_requireNumber_iff, Logged.pure_eq_ok_iff]
        exact ⟨number, rfl⟩

end Rules

mutual

/-- Compiling an expression gives a result exactly when the rules give the
expression a type. -/
theorem Expr.compilesByRules (context : Context) : (expr : Expr) → expr.CompilesByRules context
  | .number span value => by
      intro result
      rw [Expr.compile, Logged.pure_eq_ok_iff, Expr.formula]
      constructor
      · rintro rfl
        exact ⟨.number, .number span value, rfl⟩
      · rintro ⟨type, typed, rfl⟩
        cases typed
        rfl
  | .var span name => Expr.compilesByRules_var context span name
  | .binary span op left right => by
      intro result
      rw [Expr.compile, Expr.formula, (left.compilesByRules context).bind_requireNumber_iff,
        (right.compilesByRules context).bind_requireNumber_iff]
      simp only [Logged.bind_eq_ok_iff, Logged.pure_eq_ok_iff, operation_eq_ok_iff]
      constructor
      · rintro ⟨leftNumber, rightNumber, formula, ⟨known, rfl⟩, rfl⟩
        exact ⟨.number, .arithmetic span known leftNumber rightNumber, rfl⟩
      · rintro ⟨type, typed, rfl⟩
        cases typed with
        | arithmetic _ known leftNumber rightNumber =>
            exact ⟨leftNumber, rightNumber, _, ⟨known, rfl⟩, rfl⟩
  | .unary span op operand => by
      intro result
      rw [Expr.compile, Expr.formula, (operand.compilesByRules context).bind_requireNumber_iff]
      cases op with
      | factorial =>
          simp only [Logged.pure_eq_ok_iff]
          constructor
          · rintro ⟨number, rfl⟩
            exact ⟨.number, .factorial span number, rfl⟩
          · rintro ⟨type, typed, rfl⟩
            cases typed with
            | factorial _ number => exact ⟨number, rfl⟩
      | other code =>
          constructor
          · rintro ⟨-, failed⟩
            exact absurd failed (Logged.fail_ne_ok _ _)
          · rintro ⟨type, typed, -⟩
            cases typed
  | .call span mode callee args => (Expr.argumentsByRules context args).call span mode callee
  | .macroCall span name [] =>
      Expr.compilesByRules_macroCall span name (Expr.argumentsByRules context [])
  | .macroCall span name (_ :: others) =>
      Expr.compilesByRules_macroCall span name (Expr.argumentsByRules context others)
  | .list span items => by
      intro result
      rw [Expr.compile, Expr.formula]
      simp only [Logged.bind_eq_ok_iff, Logged.pure_eq_ok_iff, Expr.itemsByRules context items _]
      constructor
      · rintro ⟨_, ⟨⟨types, typed, flat⟩, rfl⟩, rfl⟩
        exact ⟨.list, .list span typed flat, rfl⟩
      · rintro ⟨type, typed, rfl⟩
        cases typed with
        | list _ typed flat => exact ⟨_, ⟨⟨_, typed, flat⟩, rfl⟩, rfl⟩
  | .piecewise span first rest otherwise =>
      (Clause.compilesByRules context first).piecewise span (Clause.allByRules context rest)
        (otherwise.compilesByRules context)
  | .mapped span inner => by
      intro result
      rw [Expr.compile, Expr.formula]
      refine iff_of_false (Logged.fail_ne_ok _ _) ?_
      rintro ⟨type, typed, -⟩
      cases typed

theorem Expr.argumentsByRules (context : Context) : (exprs : List Expr) →
    Expr.ArgumentsByRules context exprs
  | [] => by
      intro args
      rw [Expr.compileArguments, Logged.pure_eq_ok_iff]
      constructor
      · rintro rfl
        exact ⟨[], .nil, rfl⟩
      · rintro ⟨types, -, rfl⟩
        rfl
  | first :: rest => by
      intro args
      rw [Expr.compileArguments, (first.compilesByRules context).bind_iff]
      simp only [Logged.bind_eq_ok_iff, Logged.pure_eq_ok_iff,
        Expr.argumentsByRules context rest _]
      constructor
      · rintro ⟨type, typed, _, ⟨types, restTyped, rfl⟩, rfl⟩
        exact ⟨type :: types, .cons typed restTyped, rfl⟩
      · rintro ⟨types, typed, rfl⟩
        cases typed with
        | cons firstTyped restTyped => exact ⟨_, firstTyped, _, ⟨_, restTyped, rfl⟩, rfl⟩

theorem Expr.itemsByRules (context : Context) : (exprs : List Expr) →
    Expr.ItemsByRules context exprs
  | [] => by
      intro formulas
      rw [Expr.compileItems, Logged.pure_eq_ok_iff, Expr.formulas]
      exact (and_iff_right ⟨[], .nil, List.not_mem_nil⟩).symm
  | first :: rest => by
      intro formulas
      rw [Expr.compileItems, Expr.formulas,
        (first.compilesByRules context).bind_requireItem_iff]
      simp only [Logged.bind_eq_ok_iff, Logged.pure_eq_ok_iff, Expr.itemsByRules context rest _]
      constructor
      · rintro ⟨type, typed, notList, _, ⟨⟨types, restTyped, flat⟩, rfl⟩, rfl⟩
        refine ⟨⟨type :: types, .cons typed restTyped, ?_⟩, rfl⟩
        rw [List.mem_cons, not_or]
        exact ⟨notList.symm, flat⟩
      · rintro ⟨⟨types, typed, flat⟩, rfl⟩
        cases typed with
        | cons firstTyped restTyped =>
            rw [List.mem_cons, not_or] at flat
            exact ⟨_, firstTyped, Ne.symm flat.1, _, ⟨⟨_, restTyped, flat.2⟩, rfl⟩, rfl⟩

/-- Only the left side of a comparison has to be a number. -/
theorem Clause.compilesByRules (context : Context) : (clause : Clause Expr) →
    Clause.CompilesByRules context clause
  | ⟨left, sign, right, value⟩ => by
      intro result
      rw [Clause.compile, Clause.formula, (left.compilesByRules context).bind_requireNumber_iff,
        (right.compilesByRules context).bind_iff]
      simp only [(value.compilesByRules context).bind_iff]
      simp only [Logged.bind_eq_ok_iff, Logged.pure_eq_ok_iff, comparison_eq_ok_iff]
      constructor
      · rintro ⟨leftNumber, rightType, rightTyped, valueType, valueTyped, _, ⟨known, rfl⟩, rfl⟩
        exact ⟨.mk known leftNumber rightTyped valueTyped, rfl⟩
      · rintro ⟨typed, rfl⟩
        cases typed with
        | mk known leftNumber rightTyped valueTyped =>
            exact ⟨leftNumber, _, rightTyped, _, valueTyped, _, ⟨known, rfl⟩, rfl⟩

theorem Clause.allByRules (context : Context) : (clauses : List (Clause Expr)) →
    Clause.AllByRules context clauses
  | [] => by
      intro results
      rw [Clause.compileAll, Logged.pure_eq_ok_iff, Clause.formulas]
      exact (and_iff_right .nil).symm
  | first :: rest => by
      intro results
      rw [Clause.compileAll, Clause.formulas]
      simp only [Logged.bind_eq_ok_iff, Logged.pure_eq_ok_iff,
        Clause.compilesByRules context first _, Clause.allByRules context rest _]
      constructor
      · rintro ⟨_, ⟨firstTyped, rfl⟩, _, ⟨restTyped, rfl⟩, rfl⟩
        exact ⟨.cons firstTyped restTyped, rfl⟩
      · rintro ⟨typed, rfl⟩
        cases typed with
        | cons firstTyped restTyped => exact ⟨_, ⟨firstTyped, rfl⟩, _, ⟨restTyped, rfl⟩, rfl⟩

end

/-- Compiling an expression succeeds with a formula and a type exactly when the
rules give the expression that type, and the formula is the expression's. -/
theorem compiles_exactly_typed (context : Context) (expr : Expr) (formula : Formula)
    (type : ValueType) :
    (expr.compile context).outcome = .ok ⟨formula, type⟩ ↔
      HasType context expr type ∧ formula = expr.formula context := by
  rw [expr.compilesByRules context]
  constructor
  · rintro ⟨type', typed, resultEq⟩
    cases resultEq
    exact ⟨typed, rfl⟩
  · rintro ⟨typed, rfl⟩
    exact ⟨type, typed, rfl⟩

end GraphCalc
