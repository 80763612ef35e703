import GraphCalc.Proofs.Compile.Flatness

/-!
# The mapping macro and the plain call

Both forms of a call compile their arguments first, each on its own, and then
look at the same signature.  The mapping macro accepts more: a list may be given
where a number is expected.  So it agrees with the plain call wherever that
succeeds, and where only the macro succeeds, the plain call complains about the
first list that is given for a number.
-/

namespace GraphCalc

open Compile

/-! ## The arguments -/

/-- Whether expressions compile to the given values, each on its own. -/
def Expr.CompileTo (context : Context) : List Expr → List Typed → Prop :=
  List.Forall₂ fun expr value => (expr.compile context).outcome = .ok value

/-- Arguments that do not compile fail as the first of them does. -/
theorem Expr.exists_of_compileArguments_error {context : Context} {exprs : List Expr}
    {fault : Fault} (failed : (Expr.compileArguments context exprs).outcome = .error fault) :
    ∃ before expr after, exprs = before ++ expr :: after ∧
      (∀ earlier ∈ before, ∃ value, (earlier.compile context).outcome = .ok value) ∧
      (expr.compile context).outcome = .error fault := by
  induction exprs with
  | nil => cases failed
  | cons first rest ih =>
      rw [Expr.compileArguments, Logged.bind_eq_error_iff] at failed
      rcases failed with firstFailed | ⟨value, compiled, failed⟩
      · exact ⟨[], first, rest, rfl, List.forall_mem_nil _, firstFailed⟩
      · rw [Logged.bind_eq_error_iff] at failed
        rcases failed with restFailed | ⟨args, -, failed⟩
        · rcases ih restFailed with ⟨before, expr, after, rfl, succeeded, exprFailed⟩
          refine ⟨first :: before, expr, after, rfl, ?_, exprFailed⟩
          exact List.forall_mem_cons.2 ⟨⟨value, compiled⟩, succeeded⟩
        · cases failed

/-- Arguments that have types compile to their own formulas with these types. -/
theorem HaveTypes.compileTo {context : Context} {exprs : List Expr} {types : List ValueType}
    (typed : HaveTypes context exprs types) :
    ∃ values, Expr.CompileTo context exprs values ∧
      values.map Typed.formula = Expr.formulas context exprs := by
  induction exprs generalizing types with
  | nil => exact ⟨[], .nil, rfl⟩
  | cons first rest ih =>
      cases typed with
      | @cons _ _ type _ firstTyped restTyped =>
          rcases ih restTyped with ⟨values, restCompiled, formulasEq⟩
          have firstCompiled := (first.compilesByRules context _).2 ⟨type, firstTyped, rfl⟩
          refine ⟨_ :: values, .cons firstCompiled restCompiled, ?_⟩
          rw [List.map_cons, formulasEq, Expr.formulas]

/-! ## The two modes of a call -/

/-- Whether the argument at an index is a list although the parameter there is a
number. -/
def Expr.ListForNumber (context : Context) (args : List Expr) (params : List ValueType)
    (i : Nat) : Prop :=
  ∃ arg formula, args[i]? = some arg ∧
    (arg.compile context).outcome = .ok ⟨formula, .list⟩ ∧ params[i]? = some .number

/-- What a plain call accepts, the macro accepts with the same result. -/
theorem Compile.call_mapped_of_normal {context : Context} {callee : String}
    {args : List Argument} {result : Typed} (span span' : Span)
    (called : (call context span .normal callee args).outcome = .ok result) :
    (call context span' .mapped callee args).outcome = .ok result := by
  rw [call_eq_ok_iff] at called ⊢
  rcases called with ⟨signature, resolved, accepted, resultEq⟩
  refine ⟨signature, resolved, accepted.imp ?_, resultEq⟩
  intro got expected same
  rw [accepts_normal_iff] at same
  rw [accepts_mapped_iff]
  exact .inl same

/-- Checked as in a plain call, arguments that the macro accepts pass, or the first
list that is given for a number does not. -/
theorem HaveTypes.checkArguments_normal_cases {context : Context} {args : List Expr}
    {types params : List ValueType} (typed : HaveTypes context args types)
    (accepted : List.Forall₂ ValueType.MayStandFor types params) :
    (checkArguments .normal (typedArguments context args types) params).outcome = .ok () ∨
      ∃ (i : Nat) (arg : Expr), args[i]? = some arg ∧ Expr.ListForNumber context args params i ∧
        (∀ j < i, ¬ Expr.ListForNumber context args params j) ∧
        (checkArguments .normal (typedArguments context args types) params).outcome =
          .error (.mistake arg.span (.typeMismatch .list .number)) := by
  induction args generalizing types params with
  | nil =>
      cases typed
      exact .inl rfl
  | cons arg args ih =>
      cases typed with
      | @cons _ _ type types argTyped restTyped =>
          cases accepted with
          | @cons _ expected _ params standsFor restAccepted =>
              have compiled := (arg.compilesByRules context _).2 ⟨type, argTyped, rfl⟩
              rw [typedArguments, checkArguments]
              by_cases same : type = expected
              · have notHere :
                    ¬ Expr.ListForNumber context (arg :: args) (expected :: params) 0 := by
                  rintro ⟨first, formula, ⟨⟩, isList, isNumber⟩
                  rw [compiled] at isList
                  cases isList
                  rw [← same] at isNumber
                  cases isNumber
                rw [if_pos ((accepts_normal_iff _ _).2 same)]
                rcases ih restTyped restAccepted with
                  passes | ⟨i, found, isArg, isList, notBefore, failed⟩
                · exact .inl passes
                · refine .inr ⟨i + 1, found, isArg, isList, ?_, failed⟩
                  intro j before
                  cases j with
                  | zero => exact notHere
                  | succ j => exact notBefore j (Nat.lt_of_succ_lt_succ before)
              · rw [if_neg (mt (accepts_normal_iff _ _).1 same)]
                rcases standsFor with same' | ⟨rfl, rfl⟩
                · exact absurd same' same
                · refine .inr ⟨0, arg, rfl, ⟨arg, _, rfl, compiled, rfl⟩, ?_, rfl⟩
                  intro j before
                  exact absurd before (Nat.not_lt_zero j)

/-- Where the macro succeeds, a plain call does too, with the same result, or fails
at the first list that is given for a number. -/
theorem HaveTypes.call_normal_cases {context : Context} {callee : String} {args : List Expr}
    {types : List ValueType} {result : Typed} (typed : HaveTypes context args types)
    (span span' : Span)
    (called : (call context span' .mapped callee
      (typedArguments context args types)).outcome = .ok result) :
    (call context span .normal callee (typedArguments context args types)).outcome =
        .ok result ∨
      ∃ (signature : Signature) (i : Nat) (arg : Expr), context.Resolves callee signature ∧
        args[i]? = some arg ∧ Expr.ListForNumber context args signature.params i ∧
        (∀ j < i, ¬ Expr.ListForNumber context args signature.params j) ∧
        (call context span .normal callee (typedArguments context args types)).outcome =
          .error (.mistake arg.span (.typeMismatch .list .number)) := by
  rw [call_typedArguments_iff context span' .mapped callee typed] at called
  rcases called with ⟨signature, resolved, accepted, rfl⟩
  have sameLength : (typedArguments context args types).length = signature.params.length := by
    rw [← accepted.length_eq, ← typed.types_typedArguments, List.length_map,
      typed.types_typedArguments]
  simp only [accepts_mapped_iff] at accepted
  have found := (context.signature?_eq_some_iff callee signature).2 resolved
  unfold call
  simp only [found, sameLength, ne_eq, not_true_eq_false, if_false, Logged.outcome_bind]
  rcases typed.checkArguments_normal_cases accepted with
    passes | ⟨i, arg, isArg, isList, notBefore, failed⟩
  · left
    rw [passes, typed.formulas_typedArguments, ← resolved.builtin_eq]
    rfl
  · right
    refine ⟨signature, i, arg, resolved, isArg, isList, notBefore, ?_⟩
    rw [failed]
    rfl

/-! ## Agreement -/

/-- A plain call compiles its arguments, and then checks them. -/
theorem Expr.outcome_call (context : Context) (span : Span) (callee : String) (args : List Expr) :
    ((Expr.call span .normal callee args).compile context).outcome =
      (Expr.compileArguments context args).outcome.bind fun compiled =>
        (Compile.call context span .normal callee compiled).outcome := by
  simp only [Expr.compile, Logged.outcome_bind]

/-- So does the macro, which checks them in another mode. -/
theorem Expr.outcome_map (context : Context) (span nameSpan : Span) (callee : String)
    {args : List Expr} (notEmpty : args ≠ []) :
    ((Expr.macroCall span mapName (.var nameSpan callee :: args)).compile context).outcome =
      (Expr.compileArguments context args).outcome.bind fun compiled =>
        (Compile.call context span .mapped callee compiled).outcome := by
  simp only [Expr.compile_map context span nameSpan callee notEmpty, Logged.outcome_bind,
    Logged.outcome_note]
  rfl

/-- The mapping macro is a conservative extension of the plain call.

* Where the plain call compiles, the macro compiles to the same formula and type.
* Where the macro compiles, the plain call compiles to the same formula and type, or
  fails with a type mismatch at the first list that is given for a number.
* Where the arguments do not all compile, both fail as the first of them does.
* The arguments of the macro compile to what they compile to on their own. -/
theorem map_extends_call (context : Context) (callSpan mapSpan nameSpan : Span) (callee : String)
    (args : List Expr) (notEmpty : args ≠ []) :
    let plain := ((Expr.call callSpan .normal callee args).compile context).outcome
    let mapped :=
      ((Expr.macroCall mapSpan mapName (.var nameSpan callee :: args)).compile context).outcome
    (∀ result, plain = .ok result → mapped = .ok result) ∧
    (∀ result, mapped = .ok result →
      plain = .ok result ∨
        ∃ (signature : Signature) (i : Nat) (arg : Expr), context.Resolves callee signature ∧
          args[i]? = some arg ∧ Expr.ListForNumber context args signature.params i ∧
          (∀ j < i, ¬ Expr.ListForNumber context args signature.params j) ∧
          plain = .error (.mistake arg.span (.typeMismatch .list .number))) ∧
    ((∃ arg ∈ args, ∀ value, (arg.compile context).outcome ≠ .ok value) →
      ∃ before arg after fault, args = before ++ arg :: after ∧
        (∀ earlier ∈ before, ∃ value, (earlier.compile context).outcome = .ok value) ∧
        (arg.compile context).outcome = .error fault ∧
        plain = .error fault ∧ mapped = .error fault) ∧
    ∀ result, mapped = .ok result →
      ∃ values builtin, Expr.CompileTo context args values ∧
        result.formula = .call callee builtin (values.map Typed.formula) := by
  intro plain mapped
  have plainEq : plain = _ := Expr.outcome_call context callSpan callee args
  have mappedEq : mapped = _ := Expr.outcome_map context mapSpan nameSpan callee notEmpty
  cases outcome : (Expr.compileArguments context args).outcome with
  | error fault =>
      rw [outcome] at plainEq mappedEq
      rw [plainEq, mappedEq]
      refine ⟨?_, ?_, ?_, ?_⟩
      · intro result called
        cases called
      · intro result called
        cases called
      · intro _
        rcases Expr.exists_of_compileArguments_error outcome with
          ⟨before, arg, after, argsEq, succeeded, failed⟩
        exact ⟨before, arg, after, fault, argsEq, succeeded, failed, rfl, rfl⟩
      · intro result called
        cases called
  | ok compiled =>
      rcases (Expr.argumentsByRules context args compiled).1 outcome with ⟨types, typed, rfl⟩
      rw [outcome] at plainEq mappedEq
      rw [plainEq, mappedEq]
      refine ⟨?_, ?_, ?_, ?_⟩
      · intro result called
        exact call_mapped_of_normal callSpan mapSpan called
      · intro result called
        exact typed.call_normal_cases callSpan mapSpan called
      · rintro ⟨arg, isArg, failed⟩
        rcases typed.exists_of_mem isArg with ⟨type, -, argTyped⟩
        exact absurd ((arg.compilesByRules context _).2 ⟨type, argTyped, rfl⟩) (failed _)
      · intro result called
        rcases (call_typedArguments_iff context mapSpan .mapped callee typed result).1 called with
          ⟨signature, _, _, rfl⟩
        rcases typed.compileTo with ⟨values, compileTo, formulasEq⟩
        refine ⟨values, context.callsBuiltin callee, compileTo, ?_⟩
        rw [formulasEq]

/-- In `map!(max, 1, xs)` the second argument is a list; `max(1, xs)` is refused
there. -/
theorem map_extends_call_list :
    let place : Span := .nowhere
    let context := Context.ofGlobals ((∅ : NameMap ValueType).insert "xs" .list)
    let args : List Expr := [.number place "1", .var ⟨"", ⟨7, 1, 8⟩, ⟨9, 1, 10⟩⟩ "xs"]
    let plain := ((Expr.call place .normal "max" args).compile context).outcome
    let mapped :=
      ((Expr.macroCall place mapName (.var place "max" :: args)).compile context).outcome
    let result : Typed := ⟨.call "max" true [.number "1", .var "xs"], .number⟩
    args ≠ [] ∧ mapped = .ok result ∧ plain ≠ .ok result ∧
      ∃ (signature : Signature) (i : Nat) (arg : Expr), context.Resolves "max" signature ∧
        args[i]? = some arg ∧ Expr.ListForNumber context args signature.params i ∧
        (∀ j < i, ¬ Expr.ListForNumber context args signature.params j) ∧
        plain = .error (.mistake arg.span (.typeMismatch .list .number)) := by
  intro place context args plain mapped result
  have notEmpty : args ≠ [] := List.cons_ne_nil _ _
  have mappedOk : mapped = .ok result := by
    dsimp only [mapped, result, args, context, place]
    rfl
  have plainFails : plain ≠ .ok result := by
    intro succeeded
    dsimp only [plain, result, args, context, place] at succeeded
    cases succeeded
  have agreement := map_extends_call context place place place "max" args notEmpty
  rcases agreement.2.1 result mappedOk with succeeded | failed
  · exact absurd succeeded plainFails
  · exact ⟨notEmpty, mappedOk, plainFails, failed⟩

end GraphCalc
