import GraphCalc.Proofs.Compile.Flatness
import GraphCalc.Proofs.Compile.Mentions

/-!
# The stages of compiling

Compiling an expression goes through stages: it compiles the parts, from left to
right, and makes checks in between.  Arguments come before the function that is
called, their number comes before their types, and an element of a list is
checked before the next one is looked at.  The stages of an expression are listed
here without compiling it, and compiling is shown to go through them: it succeeds
if all of them do, and else fails with the error of the first that does not.
-/

namespace GraphCalc

open Compile

/-! ## Stages -/

/-- A stage of compiling an expression. -/
inductive Stage
  /-- A part is compiled. -/
  | compiled (part : Expr)
  /-- A variable has a type. -/
  | var (span : Span) (name : String)
  /-- A part is a number. -/
  | number (part : Expr)
  /-- An element of a list is not a list. -/
  | item (part : Expr)
  /-- A macro call has a wrong form. -/
  | form (error : CompileError)
  /-- The function of a call is known. -/
  | callee (span : Span) (name : String) (args : List Expr)
  /-- A call has as many arguments as the function has parameters. -/
  | arity (span : Span) (name : String) (args : List Expr)
  /-- The argument at an index has a type that the parameter there accepts. -/
  | argument (mode : CallMode) (name : String) (i : Nat) (arg : Expr)

namespace Stage

/-- The types of the arguments are checked in turn. -/
def arguments (mode : CallMode) (name : String) : Nat → List Expr → List Stage
  | _, [] => []
  | i, arg :: args => .argument mode name i arg :: arguments mode name (i + 1) args

/-- What is checked in a call once the arguments are compiled. -/
def call (span : Span) (mode : CallMode) (name : String) (args : List Expr) : List Stage :=
  .callee span name args :: .arity span name args :: arguments mode name 0 args

/-- Whether a stage succeeds. -/
def Passes (context : Context) : Stage → Prop
  | compiled part => ∃ value, (part.compile context).outcome = .ok value
  | var _ name => ∃ type, context.variableType? name = some type
  | number part => ∃ formula, (part.compile context).outcome = .ok ⟨formula, .number⟩
  | item part => ∃ value, (part.compile context).outcome = .ok value ∧ value.type ≠ .list
  | form _ => False
  | callee _ name _ => ∃ signature, context.Resolves name signature
  | arity _ name args =>
      ∃ signature, context.Resolves name signature ∧ args.length = signature.params.length
  | argument mode name i arg =>
      ∃ signature expected value, context.Resolves name signature ∧
        signature.params[i]? = some expected ∧ (arg.compile context).outcome = .ok value ∧
        accepts mode value.type expected = true

/-- `stage.Fails context error` says that the stage goes wrong, and with which
error.  That a part does not compile is reported by a stage of the part. -/
inductive Fails (context : Context) : Stage → CompileError → Prop
  | var {span : Span} {name : String} (unknown : context.variableType? name = none) :
      Fails context (.var span name) ⟨span, .undefinedVariable name⟩
  | number {part : Expr} {value : Typed}
      (compiled : (part.compile context).outcome = .ok value) (notNumber : value.type ≠ .number) :
      Fails context (.number part) ⟨part.span, .typeMismatch value.type .number⟩
  | item {part : Expr} {value : Typed} (compiled : (part.compile context).outcome = .ok value)
      (isList : value.type = .list) : Fails context (.item part) ⟨part.span, .noNestedList⟩
  | form (error : CompileError) : Fails context (.form error) error
  | callee {span : Span} {name : String} {args : List Expr}
      (compiled : ∀ arg ∈ args, ∃ value, (arg.compile context).outcome = .ok value)
      (unknown : context.signature? name = none) :
      Fails context (.callee span name args) ⟨span, .unknownFunction name⟩
  | arity {span : Span} {name : String} {args : List Expr} {signature : Signature}
      (compiled : ∀ arg ∈ args, ∃ value, (arg.compile context).outcome = .ok value)
      (resolved : context.Resolves name signature)
      (differs : args.length ≠ signature.params.length) :
      Fails context (.arity span name args)
        ⟨span, .wrongArgCount args.length signature.params.length⟩
  | argument {mode : CallMode} {name : String} {i : Nat} {arg : Expr} {signature : Signature}
      {expected : ValueType} {value : Typed} (resolved : context.Resolves name signature)
      (isParam : signature.params[i]? = some expected)
      (compiled : (arg.compile context).outcome = .ok value)
      (refused : accepts mode value.type expected = false) :
      Fails context (.argument mode name i arg) ⟨arg.span, .typeMismatch value.type expected⟩

end Stage

mutual

/-- The stages of compiling an expression, in order. -/
def Expr.stages : Expr → List Stage
  | .number _ _ => []
  | .var span name => [.var span name]
  | .binary _ _ left right =>
      left.stages ++ .compiled left :: .number left ::
        (right.stages ++ [.compiled right, .number right])
  | .unary _ _ operand => operand.stages ++ [.compiled operand, .number operand]
  | .call span mode callee args => Expr.argumentStages args ++ Stage.call span mode callee args
  | .macroCall span name args =>
      if name = mapName then Expr.mapStages span args
      else [.form ⟨span, .undefinedMacro name⟩]
  | .list _ items => Expr.itemStages items
  | .piecewise _ first rest otherwise =>
      Clause.stages first ++ (Clause.allStages rest ++
        (otherwise.stages ++ [.compiled otherwise, .number otherwise]))
  | .mapped _ _ => []

/-- The arguments of a call are all compiled before anything else is done. -/
def Expr.argumentStages : List Expr → List Stage
  | [] => []
  | first :: rest => first.stages ++ .compiled first :: Expr.argumentStages rest

/-- The mapping macro takes a bare name and at least one argument. -/
def Expr.mapStages (span : Span) : List Expr → List Stage
  | [] | [_] => [.form ⟨span, .badMapMacro⟩]
  | .var _ callee :: args => Expr.argumentStages args ++ Stage.call span .mapped callee args
  | first :: _ => [.form ⟨first.span, .expectedFunction⟩]

/-- The elements of a list are compiled and checked one by one. -/
def Expr.itemStages : List Expr → List Stage
  | [] => []
  | first :: rest => first.stages ++ .compiled first :: .item first :: Expr.itemStages rest

def Clause.stages : Clause Expr → List Stage
  | ⟨left, _, right, result⟩ =>
      left.stages ++ .compiled left :: .number left ::
        (right.stages ++ .compiled right :: (result.stages ++ [.compiled result]))

def Clause.allStages : List (Clause Expr) → List Stage
  | [] => []
  | first :: rest => Clause.stages first ++ Clause.allStages rest

end

/-! ## Failing stages -/

namespace Stage

variable {context : Context} {stage : Stage} {error error' : CompileError}

/-- A stage that succeeds does not fail. -/
theorem Passes.not_fails (passes : stage.Passes context) : ¬ stage.Fails context error := by
  intro fails
  cases fails with
  | var unknown =>
      rcases passes with ⟨type, found⟩
      rw [unknown] at found
      cases found
  | number compiled notNumber =>
      rcases passes with ⟨formula, isNumber⟩
      rw [compiled] at isNumber
      cases isNumber
      exact notNumber rfl
  | item compiled isList =>
      rcases passes with ⟨value, compiled', notList⟩
      rw [compiled] at compiled'
      cases compiled'
      exact notList isList
  | form => exact passes
  | callee _ unknown =>
      rcases passes with ⟨signature, resolved⟩
      rw [(context.signature?_eq_some_iff _ signature).2 resolved] at unknown
      cases unknown
  | arity _ resolved differs =>
      rcases passes with ⟨signature, resolved', same⟩
      rw [resolved.unique resolved'] at differs
      exact differs same
  | argument resolved isParam compiled refused =>
      rcases passes with ⟨signature, expected, value, resolved', isParam', compiled', accepted⟩
      rw [resolved.unique resolved', isParam'] at isParam
      rw [compiled'] at compiled
      cases isParam
      cases compiled
      rw [accepted] at refused
      cases refused

/-- A stage fails with one error only. -/
theorem Fails.unique (fails : stage.Fails context error) (fails' : stage.Fails context error') :
    error = error' := by
  cases fails with
  | var => cases fails'; rfl
  | number compiled =>
      cases fails' with
      | number compiled' =>
          rw [compiled] at compiled'
          cases compiled'
          rfl
  | item => cases fails'; rfl
  | form => cases fails'; rfl
  | callee => cases fails'; rfl
  | arity _ resolved =>
      cases fails' with
      | arity _ resolved' => rw [resolved.unique resolved']
  | argument resolved isParam compiled =>
      cases fails' with
      | argument resolved' isParam' compiled' =>
          rw [resolved.unique resolved', isParam'] at isParam
          rw [compiled'] at compiled
          cases isParam
          cases compiled
          rfl

/-- Whether the first stage that does not succeed fails with the error. -/
def FirstFailure (context : Context) (stages : List Stage) (error : CompileError) : Prop :=
  ∃ before stage after, stages = before ++ stage :: after ∧
    (∀ earlier ∈ before, earlier.Passes context) ∧ stage.Fails context error

variable {stages later : List Stage}

theorem FirstFailure.of_fails (fails : stage.Fails context error) (later : List Stage) :
    FirstFailure context (stage :: later) error :=
  ⟨[], stage, later, rfl, List.forall_mem_nil _, fails⟩

theorem FirstFailure.append_right (failure : FirstFailure context stages error)
    (later : List Stage) : FirstFailure context (stages ++ later) error := by
  rcases failure with ⟨before, stage, after, rfl, passed, fails⟩
  refine ⟨before, stage, after ++ later, ?_, passed, fails⟩
  rw [List.append_assoc, List.cons_append]

theorem FirstFailure.append_left (passed : ∀ stage ∈ stages, stage.Passes context)
    (failure : FirstFailure context later error) :
    FirstFailure context (stages ++ later) error := by
  rcases failure with ⟨before, stage, after, rfl, passedLater, fails⟩
  refine ⟨stages ++ before, stage, after, ?_, ?_, fails⟩
  · rw [List.append_assoc]
  · exact List.forall_mem_append.2 ⟨passed, passedLater⟩

end Stage

/-! ## Computations that go through stages -/

namespace Logged

variable {α β : Type} {context : Context} {stages later : List Stage}

/-- Whether a computation succeeds only if all stages do, and fails with the error
of the first stage that does not. -/
structure Follows (context : Context) (stages : List Stage) (computation : Logged α) : Prop where
  passed : ∀ value, computation.outcome = .ok value → ∀ stage ∈ stages, stage.Passes context
  failed : ∀ fault, computation.outcome = .error fault →
    ∃ error, fault = .compile error ∧ Stage.FirstFailure context stages error

namespace Follows

variable {computation : Logged α} {next : α → Logged β}

theorem of_ok {value : α} (succeeds : computation.outcome = .ok value) :
    Follows context [] computation where
  passed _ _ := List.forall_mem_nil _
  failed := by
    intro fault failed
    rw [succeeds] at failed
    cases failed

/-- A stage that succeeds can stand in front. -/
theorem cons {stage : Stage} (passes : stage.Passes context)
    (followed : Follows context later computation) :
    Follows context (stage :: later) computation where
  passed := by
    intro value succeeded
    exact List.forall_mem_cons.2 ⟨passes, followed.passed value succeeded⟩
  failed := by
    intro fault failed
    rcases followed.failed fault failed with ⟨error, faultEq, failure⟩
    exact ⟨error, faultEq, failure.append_left (List.forall_mem_singleton.2 passes)⟩

/-- Nothing is done behind a stage that fails. -/
theorem mistake {stage : Stage} {span : Span} {cause : CompileError.Cause}
    (fails : stage.Fails context ⟨span, cause⟩) (later : List Stage) :
    Follows context (stage :: later) (fail (.mistake span cause) : Logged α) where
  passed := by
    intro value succeeded
    exact absurd succeeded (fail_ne_ok _ _)
  failed := by
    intro fault failed
    cases failed
    exact ⟨_, rfl, .of_fails fails later⟩

/-- The stages of two computations in turn. -/
theorem bind (first : Follows context stages computation)
    (second : ∀ value, computation.outcome = .ok value → Follows context later (next value)) :
    Follows context (stages ++ later) (computation >>= next) where
  passed := by
    intro result succeeded
    rcases (bind_eq_ok_iff computation next result).1 succeeded with ⟨value, firstOk, secondOk⟩
    rw [List.forall_mem_append]
    exact ⟨first.passed value firstOk, (second value firstOk).passed result secondOk⟩
  failed := by
    intro fault failed
    rcases (bind_eq_error_iff computation next fault).1 failed with
      firstFailed | ⟨value, firstOk, secondFailed⟩
    · rcases first.failed fault firstFailed with ⟨error, faultEq, failure⟩
      exact ⟨error, faultEq, failure.append_right later⟩
    · rcases (second value firstOk).failed fault secondFailed with ⟨error, faultEq, failure⟩
      exact ⟨error, faultEq, failure.append_left (first.passed value firstOk)⟩

/-- What a computation does to its value at the end is no stage. -/
theorem bind_pure (first : Follows context stages computation) (finish : α → β) :
    Follows context stages (computation >>= fun value => pure (finish value)) := by
  rw [← List.append_nil stages]
  exact first.bind fun value _ => of_ok rfl

end Follows

end Logged

open Logged

section Steps

variable {β : Type} {context : Context} {expr : Expr} {later : List Stage}

/-- A part is compiled before anything is done with its value. -/
theorem Logged.Follows.bind_value (followed : Follows context expr.stages (expr.compile context))
    {next : Typed → Logged β}
    (continued : ∀ value, (expr.compile context).outcome = .ok value →
      Follows context later (next value)) :
    Follows context (expr.stages ++ .compiled expr :: later) (expr.compile context >>= next) := by
  apply followed.bind
  intro value compiled
  exact (continued value compiled).cons ⟨value, compiled⟩

theorem Compile.follows_requireNumber {value : Typed}
    (compiled : (expr.compile context).outcome = .ok value) :
    Follows context [.number expr] (requireNumber expr.span value) := by
  unfold requireNumber
  by_cases isNumber : value.type = .number
  · rw [if_pos isNumber]
    rcases value with ⟨formula, type⟩
    subst isNumber
    exact (Follows.of_ok rfl).cons ⟨formula, compiled⟩
  · rw [if_neg isNumber]
    exact .mistake (.number compiled isNumber) []

theorem Compile.follows_requireItem {value : Typed}
    (compiled : (expr.compile context).outcome = .ok value) :
    Follows context [.item expr] (requireItem expr.span value) := by
  unfold requireItem
  by_cases isList : value.type = .list
  · rw [if_pos isList]
    exact .mistake (.item compiled isList) []
  · rw [if_neg isList]
    exact (Follows.of_ok rfl).cons ⟨value, compiled, isList⟩

/-- A part that has to be a number is checked as soon as it is compiled. -/
theorem Logged.Follows.bind_number (followed : Follows context expr.stages (expr.compile context))
    {next : Formula → Logged β} (continued : ∀ formula, Follows context later (next formula)) :
    Follows context (expr.stages ++ .compiled expr :: .number expr :: later)
      (expr.compile context >>= fun value => requireNumber expr.span value >>= next) :=
  followed.bind_value fun _ compiled =>
    (follows_requireNumber compiled).bind fun formula _ => continued formula

theorem Logged.Follows.bind_item (followed : Follows context expr.stages (expr.compile context))
    {next : Formula → Logged β} (continued : ∀ formula, Follows context later (next formula)) :
    Follows context (expr.stages ++ .compiled expr :: .item expr :: later)
      (expr.compile context >>= fun value => requireItem expr.span value >>= next) :=
  followed.bind_value fun _ compiled =>
    (follows_requireItem compiled).bind fun formula _ => continued formula

end Steps

/-! ## Calls -/

section Calls

variable {context : Context} {args : List Expr} {types : List ValueType}

/-- The types of arguments are checked from left to right.  The parameters are
those of the signature from some index on. -/
theorem HaveTypes.follows_checkArguments (typed : HaveTypes context args types) (mode : CallMode)
    {name : String} {signature : Signature} (resolved : context.Resolves name signature)
    (before params : List ValueType) (paramsEq : signature.params = before ++ params)
    (sameLength : args.length = params.length) :
    Follows context (Stage.arguments mode name before.length args)
      (checkArguments mode (typedArguments context args types) params) := by
  induction args generalizing types before params with
  | nil =>
      rcases List.length_eq_zero_iff.1 sameLength.symm with rfl
      cases typed
      exact Follows.of_ok rfl
  | cons arg args ih =>
      cases typed with
      | @cons _ _ type types argTyped restTyped =>
          cases params with
          | nil => cases sameLength
          | cons expected params =>
              have compiled := (arg.compilesByRules context _).2 ⟨type, argTyped, rfl⟩
              have isParam : signature.params[before.length]? = some expected := by
                rw [paramsEq, List.getElem?_append_right (Nat.le_refl _), Nat.sub_self]
                rfl
              have rest := ih restTyped (before ++ [expected]) params
                (by rw [paramsEq, List.append_assoc]; rfl) (Nat.succ.inj sameLength)
              rw [List.length_append, List.length_singleton] at rest
              rw [typedArguments, checkArguments, Stage.arguments]
              cases accepted : accepts mode type expected with
              | true =>
                  exact rest.cons ⟨signature, expected, _, resolved, isParam, compiled, accepted⟩
              | false => exact .mistake (.argument resolved isParam compiled accepted) _

/-- In a call the function is looked up first, then the number of arguments is
compared, then their types. -/
theorem HaveTypes.follows_call (typed : HaveTypes context args types) (span : Span)
    (mode : CallMode) (callee : String) :
    Follows context (Stage.call span mode callee args)
      (call context span mode callee (typedArguments context args types)) := by
  have argsCompiled : ∀ arg ∈ args, ∃ value, (arg.compile context).outcome = .ok value := by
    intro arg isArg
    rcases typed.exists_of_mem isArg with ⟨type, -, argTyped⟩
    exact ⟨_, (arg.compilesByRules context _).2 ⟨type, argTyped, rfl⟩⟩
  have lengthEq : (typedArguments context args types).length = args.length := by
    rw [← Expr.length_formulas context args, ← typed.formulas_typedArguments, List.length_map]
  unfold call Stage.call
  cases found : context.signature? callee with
  | none => exact .mistake (.callee argsCompiled found) _
  | some signature =>
      have resolved := (context.signature?_eq_some_iff callee signature).1 found
      have isKnown : (Stage.callee span callee args).Passes context := ⟨signature, resolved⟩
      apply Follows.cons isKnown
      simp only [lengthEq]
      by_cases sameLength : args.length = signature.params.length
      · rw [if_neg (not_not.2 sameLength)]
        have fits : (Stage.arity span callee args).Passes context :=
          ⟨signature, resolved, sameLength⟩
        apply Follows.cons fits
        apply Follows.bind_pure
        exact typed.follows_checkArguments mode resolved [] signature.params rfl sameLength
      · rw [if_pos sameLength]
        exact .mistake (.arity argsCompiled resolved sameLength) _

end Calls

/-! ## Compiling follows the stages -/

/-- The mapping macro compiles its arguments and then calls the function that its
first argument names; any other form is refused. -/
theorem Expr.follows_macroCall {context : Context} (span : Span) (name : String)
    {args : List Expr}
    (argsFollow : Follows context (Expr.argumentStages args.tail)
      (Expr.compileArguments context args.tail)) :
    Follows context (Expr.macroCall span name args).stages
      ((Expr.macroCall span name args).compile context) := by
  rw [Expr.stages]
  by_cases isMap : name = mapName
  · rw [if_pos isMap]
    subst isMap
    cases args with
    | nil => exact .mistake (.form _) []
    | cons first others =>
        cases others with
        | nil => exact .mistake (.form _) []
        | cons second others =>
            cases first with
            | var nameSpan callee =>
                rw [Expr.compile_map context span nameSpan callee (List.cons_ne_nil _ _)]
                apply argsFollow.bind
                intro compiled argsCompiled
                rcases (Expr.argumentsByRules context _ compiled).1 argsCompiled with
                  ⟨types, typed, rfl⟩
                exact (Follows.of_ok rfl).bind fun _ _ => typed.follows_call span .mapped callee
            | _ => exact .mistake (.form _) []
  · rw [if_neg isMap, Expr.compile.eq_def]
    simp only [if_neg isMap]
    exact .mistake (.form _) []

mutual

/-- Compiling a well-formed expression goes through its stages. -/
theorem Expr.follows (context : Context) : (expr : Expr) → expr.WellFormed →
    Follows context expr.stages (expr.compile context)
  | .number _ _, _ => Follows.of_ok rfl
  | .var span name, _ => by
      rw [Expr.stages, Expr.compile]
      cases found : context.variableType? name with
      | none => exact .mistake (.var found) []
      | some type => exact (Follows.of_ok rfl).cons ⟨type, found⟩
  | .binary span op left right, ⟨known, leftShape, rightShape⟩ => by
      rw [Expr.stages, Expr.compile]
      apply (left.follows context leftShape).bind_number
      intro leftFormula
      apply (right.follows context rightShape).bind_number
      intro rightFormula
      apply Follows.bind_pure
      exact .of_ok ((operation_eq_ok_iff span op leftFormula rightFormula _).2 ⟨known, rfl⟩)
  | .unary span op operand, ⟨isFactorial, shape⟩ => by
      subst isFactorial
      rw [Expr.stages, Expr.compile]
      apply (operand.follows context shape).bind_number
      intro formula
      exact .of_ok rfl
  | .call span mode callee args, ⟨isNormal, _, shape⟩ => by
      subst isNormal
      rw [Expr.stages, Expr.compile]
      apply (Expr.follows_arguments context args shape).bind
      intro compiled argsCompiled
      rcases (Expr.argumentsByRules context args compiled).1 argsCompiled with ⟨types, typed, rfl⟩
      exact typed.follows_call span .normal callee
  | .macroCall span name [], _ => Expr.follows_macroCall span name (.of_ok rfl)
  | .macroCall span name (_ :: others), ⟨_, _, shape⟩ =>
      Expr.follows_macroCall span name (Expr.follows_arguments context others shape)
  | .list _ items, shape => by
      rw [Expr.stages, Expr.compile]
      exact (Expr.follows_items context items shape).bind_pure _
  | .piecewise _ first rest otherwise, ⟨firstShape, restShape, otherwiseShape⟩ => by
      rw [Expr.stages, Expr.compile]
      apply (Clause.follows context first firstShape).bind
      intro firstClause _
      apply (Clause.follows_all context rest restShape).bind
      intro restClauses _
      apply (otherwise.follows context otherwiseShape).bind_number
      intro formula
      exact .of_ok rfl

theorem Expr.follows_arguments (context : Context) : (exprs : List Expr) →
    Expr.AllWellFormed exprs →
      Follows context (Expr.argumentStages exprs) (Expr.compileArguments context exprs)
  | [], _ => Follows.of_ok rfl
  | first :: rest, ⟨firstShape, restShape⟩ => by
      rw [Expr.argumentStages, Expr.compileArguments]
      apply (first.follows context firstShape).bind_value
      intro value _
      exact (Expr.follows_arguments context rest restShape).bind_pure _

theorem Expr.follows_items (context : Context) : (exprs : List Expr) →
    Expr.AllWellFormed exprs →
      Follows context (Expr.itemStages exprs) (Expr.compileItems context exprs)
  | [], _ => Follows.of_ok rfl
  | first :: rest, ⟨firstShape, restShape⟩ => by
      rw [Expr.itemStages, Expr.compileItems]
      apply (first.follows context firstShape).bind_item
      intro item
      exact (Expr.follows_items context rest restShape).bind_pure _

theorem Clause.follows (context : Context) : (clause : Clause Expr) →
    Clause.WellFormed clause →
      Follows context (Clause.stages clause) (Clause.compile context clause)
  | ⟨left, sign, right, result⟩, ⟨known, leftShape, rightShape, resultShape⟩ => by
      rw [Clause.stages, Clause.compile]
      apply (left.follows context leftShape).bind_number
      intro leftFormula
      apply (right.follows context rightShape).bind_value
      intro rightValue _
      apply (result.follows context resultShape).bind_value
      intro resultValue _
      apply Follows.bind_pure
      exact .of_ok ((comparison_eq_ok_iff _ sign _).2 ⟨known, rfl⟩)

theorem Clause.follows_all (context : Context) : (clauses : List (Clause Expr)) →
    Clause.AllWellFormed clauses →
      Follows context (Clause.allStages clauses) (Clause.compileAll context clauses)
  | [], _ => Follows.of_ok rfl
  | first :: rest, ⟨firstShape, restShape⟩ => by
      rw [Clause.allStages, Clause.compileAll]
      apply (Clause.follows context first firstShape).bind
      intro clause _
      exact (Clause.follows_all context rest restShape).bind_pure _

end

end GraphCalc
