import GraphCalc.Proofs.Compile.Stages

/-!
# The first fault is blamed

An error points at a part of the expression and says what is wrong with it.  The
error of a stage is true of the part it points at.  So the error of an expression
that does not compile is true, everything before it is in order, and nothing behind
it matters.
-/

namespace GraphCalc

open Compile

/-! ## What errors say -/

namespace Expr

/-- Whether an expression calls a function with the given arguments, in either
mode. -/
inductive Calls : Expr → CallMode → String → List Expr → Prop
  | plain (span : Span) (callee : String) (args : List Expr) :
      Calls (.call span .normal callee args) .normal callee args
  | mapped (span nameSpan : Span) (callee : String) (args : List Expr) :
      Calls (.macroCall span mapName (.var nameSpan callee :: args)) .mapped callee args

/-- `whole.Demands context part mode expected` says that the place of the part in
the expression demands a type.  The mode says which other types it accepts. -/
inductive Demands (context : Context) : Expr → Expr → CallMode → ValueType → Prop
  | left (span : Span) (op : BinaryOp) (left right : Expr) :
      Demands context (.binary span op left right) left .normal .number
  | right (span : Span) (op : BinaryOp) (left right : Expr) :
      Demands context (.binary span op left right) right .normal .number
  | operand (span : Span) (op : UnaryOp) (operand : Expr) :
      Demands context (.unary span op operand) operand .normal .number
  | compared (span : Span) {first clause : Clause Expr} {rest : List (Clause Expr)}
      (isClause : clause ∈ first :: rest) (otherwise : Expr) :
      Demands context (.piecewise span first rest otherwise) clause.left .normal .number
  | otherwise (span : Span) (first : Clause Expr) (rest : List (Clause Expr))
      (otherwise : Expr) :
      Demands context (.piecewise span first rest otherwise) otherwise .normal .number
  | argument {whole part : Expr} {mode : CallMode} {callee : String} {args : List Expr}
      {signature : Signature} {expected : ValueType} {i : Nat}
      (calls : whole.Calls mode callee args) (resolved : context.Resolves callee signature)
      (isArg : args[i]? = some part) (isParam : signature.params[i]? = some expected) :
      Demands context whole part mode expected

/-- `whole.Blames context error` says that the span of the error is that of a part
of the expression, or of the expression itself, and that the error is true of that
part.

* An undefined variable has no type.
* The arguments of a call of an unknown function compile, and so do those of a call
  with a wrong number of arguments.
* What has a wrong type compiles to that type, and its place demands another one.
* A list inside a list compiles to a list.
* A macro is unknown, or the mapping macro has fewer than two arguments, or it has
  enough of them and the first one is not a bare name. -/
inductive Blames (context : Context) (whole : Expr) : CompileError → Prop
  | undefinedVariable {span : Span} {name : String} (inside : (Expr.var span name).Inside whole)
      (unknown : context.variableType? name = none) :
      Blames context whole ⟨span, .undefinedVariable name⟩
  | unknownFunction {part : Expr} {mode : CallMode} {callee : String} {args : List Expr}
      (inside : part.Inside whole) (calls : part.Calls mode callee args)
      (compiled : ∀ arg ∈ args, ∃ value, (arg.compile context).outcome = .ok value)
      (unknown : context.signature? callee = none) :
      Blames context whole ⟨part.span, .unknownFunction callee⟩
  | wrongArgCount {part : Expr} {mode : CallMode} {callee : String} {args : List Expr}
      {signature : Signature} (inside : part.Inside whole) (calls : part.Calls mode callee args)
      (compiled : ∀ arg ∈ args, ∃ value, (arg.compile context).outcome = .ok value)
      (resolved : context.Resolves callee signature)
      (differs : args.length ≠ signature.params.length) :
      Blames context whole ⟨part.span, .wrongArgCount args.length signature.params.length⟩
  | typeMismatch {place part : Expr} {mode : CallMode} {expected : ValueType} {value : Typed}
      (inside : place.Inside whole) (demands : place.Demands context part mode expected)
      (compiled : (part.compile context).outcome = .ok value)
      (refused : accepts mode value.type expected = false) :
      Blames context whole ⟨part.span, .typeMismatch value.type expected⟩
  | noNestedList {span : Span} {items : List Expr} {item : Expr} {value : Typed}
      (inside : (Expr.list span items).Inside whole) (isItem : item ∈ items)
      (compiled : (item.compile context).outcome = .ok value) (isList : value.type = .list) :
      Blames context whole ⟨item.span, .noNestedList⟩
  | undefinedMacro {span : Span} {name : String} {args : List Expr}
      (inside : (Expr.macroCall span name args).Inside whole) (unknown : name ≠ mapName) :
      Blames context whole ⟨span, .undefinedMacro name⟩
  | badMapMacro {span : Span} {args : List Expr}
      (inside : (Expr.macroCall span mapName args).Inside whole) (tooFew : args.length < 2) :
      Blames context whole ⟨span, .badMapMacro⟩
  | expectedFunction {span : Span} {first : Expr} {others : List Expr}
      (inside : (Expr.macroCall span mapName (first :: others)).Inside whole)
      (enough : others ≠ []) (notBare : ∀ nameSpan name, first ≠ .var nameSpan name) :
      Blames context whole ⟨first.span, .expectedFunction⟩

end Expr

/-! ## The errors of stages are true -/

section Truth

variable {context : Context} {stage : Stage} {error : CompileError}

/-- What is true of a part of an expression is true of a part of the whole. -/
theorem Expr.Blames.of_part {whole part : Expr} (isPart : part ∈ whole.parts)
    (blames : part.Blames context error) : whole.Blames context error := by
  cases blames with
  | undefinedVariable inside unknown => exact .undefinedVariable (inside.head isPart) unknown
  | unknownFunction inside calls compiled unknown =>
      exact .unknownFunction (inside.head isPart) calls compiled unknown
  | wrongArgCount inside calls compiled resolved differs =>
      exact .wrongArgCount (inside.head isPart) calls compiled resolved differs
  | typeMismatch inside demands compiled refused =>
      exact .typeMismatch (inside.head isPart) demands compiled refused
  | noNestedList inside isItem compiled isList =>
      exact .noNestedList (inside.head isPart) isItem compiled isList
  | undefinedMacro inside unknown => exact .undefinedMacro (inside.head isPart) unknown
  | badMapMacro inside tooFew => exact .badMapMacro (inside.head isPart) tooFew
  | expectedFunction inside enough notBare =>
      exact .expectedFunction (inside.head isPart) enough notBare

/-- Where a number is demanded, a part of another type is blamed. -/
theorem Expr.Demands.blames {whole part : Expr}
    (demands : whole.Demands context part .normal .number)
    (fails : (Stage.number part).Fails context error) : whole.Blames context error := by
  cases fails with
  | @number _ value compiled notNumber =>
      refine .typeMismatch .refl demands compiled ?_
      rw [Bool.eq_false_iff, ne_eq, accepts_normal_iff]
      exact notNumber

theorem Stage.exists_of_mem_arguments {mode : CallMode} {name : String} {i : Nat}
    {args : List Expr} (isStage : stage ∈ Stage.arguments mode name i args) :
    ∃ j arg, args[j]? = some arg ∧ stage = .argument mode name (i + j) arg := by
  induction args generalizing i with
  | nil => cases isStage
  | cons arg args ih =>
      rcases List.mem_cons.1 isStage with rfl | isLater
      · exact ⟨0, arg, rfl, rfl⟩
      · rcases ih isLater with ⟨j, found, isArg, rfl⟩
        refine ⟨j + 1, found, isArg, ?_⟩
        rw [Nat.add_assoc, Nat.add_comm 1 j]

/-- What is wrong with a call once its arguments are compiled. -/
theorem Expr.Calls.blames {whole : Expr} {mode : CallMode} {callee : String} {args : List Expr}
    (calls : whole.Calls mode callee args)
    (isStage : stage ∈ Stage.call whole.span mode callee args)
    (fails : stage.Fails context error) : whole.Blames context error := by
  rcases List.mem_cons.1 isStage with rfl | isLater
  · cases fails with
    | callee compiled unknown => exact .unknownFunction .refl calls compiled unknown
  · rcases List.mem_cons.1 isLater with rfl | isArgument
    · cases fails with
      | arity compiled resolved differs =>
          exact .wrongArgCount .refl calls compiled resolved differs
    · rcases Stage.exists_of_mem_arguments isArgument with ⟨i, arg, isArg, rfl⟩
      cases fails with
      | argument resolved isParam compiled refused =>
          rw [Nat.zero_add] at isParam
          exact .typeMismatch .refl (.argument calls resolved isArg isParam) compiled refused

/-- A stage that fails is not that a part is compiled. -/
theorem Stage.Fails.mem_value {stages later : List Stage} {part : Expr}
    (fails : stage.Fails context error)
    (isStage : stage ∈ stages ++ .compiled part :: later) : stage ∈ stages ∨ stage ∈ later := by
  rcases List.mem_append.1 isStage with isPart | isLater
  · exact .inl isPart
  · rcases List.mem_cons.1 isLater with rfl | isLater
    · cases fails
    · exact .inr isLater

theorem Stage.Fails.mem_checked {stages later : List Stage} {part : Expr} {check : Stage}
    (fails : stage.Fails context error)
    (isStage : stage ∈ stages ++ .compiled part :: check :: later) :
    stage ∈ stages ∨ stage = check ∨ stage ∈ later := by
  rw [← List.mem_cons]
  exact fails.mem_value isStage

/-- Whether one of some parts is blamed. -/
def Expr.SomeBlames (context : Context) (parts : List Expr) (error : CompileError) : Prop :=
  ∃ part ∈ parts, part.Blames context error

theorem Expr.SomeBlames.mono {parts others : List Expr}
    (blames : Expr.SomeBlames context parts error) (subset : parts ⊆ others) :
    Expr.SomeBlames context others error := by
  rcases blames with ⟨part, isPart, partBlames⟩
  exact ⟨part, subset isPart, partBlames⟩

theorem Expr.SomeBlames.whole {whole : Expr} {parts : List Expr}
    (blames : Expr.SomeBlames context parts error) (subset : parts ⊆ whole.parts) :
    whole.Blames context error := by
  rcases blames.mono subset with ⟨part, isPart, partBlames⟩
  exact partBlames.of_part isPart

/-- The error of a macro call is that of its form, of an argument, or of the call
that it stands for. -/
theorem Expr.blames_macroCall (fails : stage.Fails context error) (span : Span) (name : String)
    {args : List Expr}
    (inArgs : stage ∈ Expr.argumentStages args.tail → Expr.SomeBlames context args.tail error)
    (isStage : stage ∈ (Expr.macroCall span name args).stages) :
    (Expr.macroCall span name args).Blames context error := by
  rw [Expr.stages] at isStage
  by_cases isMap : name = mapName
  · rw [if_pos isMap] at isStage
    subst isMap
    cases args with
    | nil =>
        rcases List.mem_singleton.1 isStage with rfl
        cases fails
        exact .badMapMacro .refl (by decide)
    | cons first others =>
        cases others with
        | nil =>
            rcases List.mem_singleton.1 isStage with rfl
            cases fails
            exact .badMapMacro .refl Nat.one_lt_two
        | cons second others =>
            cases first with
            | var nameSpan callee =>
                rcases List.mem_append.1 isStage with isArgument | isCall
                · exact (inArgs isArgument).whole (List.subset_cons_self _ _)
                · exact (Expr.Calls.mapped span nameSpan callee _).blames isCall fails
            | _ =>
                rcases List.mem_singleton.1 isStage with rfl
                cases fails
                exact .expectedFunction .refl (List.cons_ne_nil _ _) fun _ _ => Expr.noConfusion
  · rw [if_neg isMap] at isStage
    rcases List.mem_singleton.1 isStage with rfl
    cases fails
    exact .undefinedMacro .refl isMap

/-- The error of a conditional part is that of one of its sides or of its result,
or its left side is not a number. -/
theorem Expr.blames_clause (fails : stage.Fails context error) (span : Span)
    {first clause : Clause Expr} {rest : List (Clause Expr)} (otherwise : Expr)
    (isClause : clause ∈ first :: rest)
    (blames : Expr.SomeBlames context clause.parts error ∨ stage = .number clause.left) :
    (Expr.piecewise span first rest otherwise).Blames context error := by
  rcases blames with inParts | rfl
  · apply inParts.whole
    intro part isPart
    exact List.mem_append_left _ (List.mem_flatMap.2 ⟨clause, isClause, isPart⟩)
  · exact (Expr.Demands.compared span isClause otherwise).blames fails

mutual

/-- The error of a stage of an expression is true of a part of it. -/
theorem Expr.blames_of_fails (fails : stage.Fails context error) : (expr : Expr) →
    expr.WellFormed → stage ∈ expr.stages → expr.Blames context error
  | .number _ _, _, isStage => by cases isStage
  | .var span name, _, isStage => by
      rcases List.mem_singleton.1 isStage with rfl
      cases fails with
      | var unknown => exact .undefinedVariable .refl unknown
  | .binary span op left right, ⟨_, leftShape, rightShape⟩, isStage => by
      rcases fails.mem_checked isStage with inLeft | rfl | isLater
      · exact (left.blames_of_fails fails leftShape inLeft).of_part (.head _)
      · exact (Expr.Demands.left span op left right).blames fails
      · rcases fails.mem_checked isLater with inRight | rfl | isLater
        · exact (right.blames_of_fails fails rightShape inRight).of_part (.tail _ (.head _))
        · exact (Expr.Demands.right span op left right).blames fails
        · cases isLater
  | .unary span op operand, ⟨_, shape⟩, isStage => by
      rcases fails.mem_checked isStage with inOperand | rfl | isLater
      · exact (operand.blames_of_fails fails shape inOperand).of_part (.head _)
      · exact (Expr.Demands.operand span op operand).blames fails
      · cases isLater
  | .call span mode callee args, ⟨isNormal, _, shape⟩, isStage => by
      subst isNormal
      rcases List.mem_append.1 isStage with isArgument | isCall
      · exact (Expr.someBlames_of_arguments fails args shape isArgument).whole (List.Subset.refl _)
      · exact (Expr.Calls.plain span callee args).blames isCall fails
  | .macroCall span name [], _, isStage =>
      Expr.blames_macroCall fails span name (fun isArgument => by cases isArgument) isStage
  | .macroCall span name (_ :: others), ⟨_, _, shape⟩, isStage =>
      Expr.blames_macroCall fails span name (Expr.someBlames_of_arguments fails others shape)
        isStage
  | .list span items, shape, isStage => by
      rcases Expr.blames_of_items fails items shape isStage with inItems | ⟨item, isItem, rfl⟩
      · exact inItems.whole (List.Subset.refl _)
      · cases fails with
        | item compiled isList => exact .noNestedList .refl isItem compiled isList
  | .piecewise span first rest otherwise, ⟨firstShape, restShape, otherwiseShape⟩, isStage => by
      rcases List.mem_append.1 isStage with inFirst | isLater
      · exact Expr.blames_clause fails span otherwise (.head _)
          (Clause.blames_of_fails fails first firstShape inFirst)
      · rcases List.mem_append.1 isLater with inRest | isLater
        · rcases Clause.exists_blames_of_fails fails rest restShape inRest with
            ⟨clause, isClause, blames⟩
          exact Expr.blames_clause fails span otherwise (.tail _ isClause) blames
        · rcases fails.mem_checked isLater with inOtherwise | rfl | isLater
          · exact (otherwise.blames_of_fails fails otherwiseShape inOtherwise).of_part
              (List.mem_append_right _ (.head _))
          · exact (Expr.Demands.otherwise span first rest otherwise).blames fails
          · cases isLater

theorem Expr.someBlames_of_arguments (fails : stage.Fails context error) : (exprs : List Expr) →
    Expr.AllWellFormed exprs → stage ∈ Expr.argumentStages exprs →
      Expr.SomeBlames context exprs error
  | [], _, isStage => by cases isStage
  | first :: rest, ⟨firstShape, restShape⟩, isStage => by
      rcases fails.mem_value isStage with inFirst | inRest
      · exact ⟨first, .head _, first.blames_of_fails fails firstShape inFirst⟩
      · exact (Expr.someBlames_of_arguments fails rest restShape inRest).mono
          (List.subset_cons_self _ _)

theorem Expr.blames_of_items (fails : stage.Fails context error) : (exprs : List Expr) →
    Expr.AllWellFormed exprs → stage ∈ Expr.itemStages exprs →
      Expr.SomeBlames context exprs error ∨ ∃ item ∈ exprs, stage = .item item
  | [], _, isStage => by cases isStage
  | first :: rest, ⟨firstShape, restShape⟩, isStage => by
      rcases fails.mem_checked isStage with inFirst | rfl | inRest
      · exact .inl ⟨first, .head _, first.blames_of_fails fails firstShape inFirst⟩
      · exact .inr ⟨first, .head _, rfl⟩
      · rcases Expr.blames_of_items fails rest restShape inRest with
          inItems | ⟨item, isItem, isCheck⟩
        · exact .inl (inItems.mono (List.subset_cons_self _ _))
        · exact .inr ⟨item, .tail _ isItem, isCheck⟩

theorem Clause.blames_of_fails (fails : stage.Fails context error) : (clause : Clause Expr) →
    Clause.WellFormed clause → stage ∈ Clause.stages clause →
      Expr.SomeBlames context clause.parts error ∨ stage = .number clause.left
  | ⟨left, _, right, result⟩, ⟨_, leftShape, rightShape, resultShape⟩, isStage => by
      rcases fails.mem_checked isStage with inLeft | isCheck | isLater
      · exact .inl ⟨left, .head _, left.blames_of_fails fails leftShape inLeft⟩
      · exact .inr isCheck
      · rcases fails.mem_value isLater with inRight | isLater
        · exact .inl ⟨right, .tail _ (.head _), right.blames_of_fails fails rightShape inRight⟩
        · rcases fails.mem_value isLater with inResult | isLater
          · exact .inl ⟨result, .tail _ (.tail _ (.head _)),
              result.blames_of_fails fails resultShape inResult⟩
          · cases isLater

theorem Clause.exists_blames_of_fails (fails : stage.Fails context error) :
    (clauses : List (Clause Expr)) → Clause.AllWellFormed clauses →
      stage ∈ Clause.allStages clauses →
        ∃ clause ∈ clauses,
          Expr.SomeBlames context clause.parts error ∨ stage = .number clause.left
  | [], _, isStage => by cases isStage
  | first :: rest, ⟨firstShape, restShape⟩, isStage => by
      rcases List.mem_append.1 isStage with inFirst | inRest
      · exact ⟨first, .head _, Clause.blames_of_fails fails first firstShape inFirst⟩
      · rcases Clause.exists_blames_of_fails fails rest restShape inRest with
          ⟨clause, isClause, blames⟩
        exact ⟨clause, .tail _ isClause, blames⟩

end

end Truth

/-! ## The first fault -/

theorem Stage.FirstFailure.cases_cons {context : Context} {stage : Stage} {stages : List Stage}
    {error : CompileError} (failure : Stage.FirstFailure context (stage :: stages) error) :
    stage.Fails context error ∨
      stage.Passes context ∧ Stage.FirstFailure context stages error := by
  rcases failure with ⟨before, failing, after, stagesEq, passed, fails⟩
  cases before with
  | nil =>
      cases stagesEq
      exact .inl fails
  | cons first before =>
      cases stagesEq
      rw [List.forall_mem_cons] at passed
      exact .inr ⟨passed.1, before, failing, after, rfl, passed.2, fails⟩

/-- Stages that begin with successful ones and then one that fails have no other
first failure. -/
theorem Stage.FirstFailure.eq_of_prefix {context : Context} {before stages : List Stage}
    {stage : Stage} {error error' : CompileError}
    (passed : ∀ earlier ∈ before, earlier.Passes context) (fails : stage.Fails context error)
    (isPrefix : before ++ [stage] <+: stages)
    (failure : Stage.FirstFailure context stages error') : error' = error := by
  rcases isPrefix with ⟨after, rfl⟩
  induction before with
  | nil =>
      rcases failure.cases_cons with fails' | ⟨passes, -⟩
      · exact fails'.unique fails
      · exact absurd fails passes.not_fails
  | cons first before ih =>
      rw [List.forall_mem_cons] at passed
      rcases failure.cases_cons with fails' | ⟨-, later⟩
      · exact absurd fails' passed.1.not_fails
      · exact ih passed.2 later

/-- Compile errors blame the first fault.  If a well-formed expression does not
compile, the error is true of the part it points at, and it is the error of the
first stage that does not succeed.  Every expression with the same stages up to that
one fails with the same error, whatever its later stages are. -/
theorem compile_blames_first_fault (context : Context) (expr : Expr) (shape : expr.WellFormed)
    (fault : Fault) (rejected : (expr.compile context).outcome = .error fault) :
    ∃ error before stage after, fault = .compile error ∧ expr.Blames context error ∧
      expr.stages = before ++ stage :: after ∧
      (∀ earlier ∈ before, earlier.Passes context) ∧ stage.Fails context error ∧
      ∀ other : Expr, other.WellFormed → before ++ [stage] <+: other.stages →
        (other.compile context).outcome = .error fault := by
  rcases (expr.follows context shape).failed fault rejected with
    ⟨error, rfl, before, stage, after, stagesEq, passed, fails⟩
  have isStage : stage ∈ expr.stages := by
    rw [stagesEq]
    exact List.mem_append_cons_self
  refine ⟨error, before, stage, after, rfl, expr.blames_of_fails fails shape isStage, stagesEq,
    passed, fails, ?_⟩
  intro other otherShape isPrefix
  have follows := other.follows context otherShape
  cases outcome : (other.compile context).outcome with
  | ok value =>
      have isOtherStage : stage ∈ other.stages :=
        isPrefix.subset (List.mem_append_right before (.head _))
      exact absurd fails (follows.passed value outcome stage isOtherStage).not_fails
  | error otherFault =>
      rcases follows.failed otherFault outcome with ⟨otherError, rfl, failure⟩
      rw [failure.eq_of_prefix passed fails isPrefix]

/-- In `max(1 + xs, y)` the list is blamed, which comes before the unknown variable
and before the function. -/
theorem compile_blames_first_fault_operand :
    let place (first last : Int) : Span := ⟨"", ⟨first, 1, first + 1⟩, ⟨last, 1, last + 1⟩⟩
    let context := Context.ofGlobals ((∅ : NameMap ValueType).insert "xs" .list)
    let sum : Expr :=
      .binary (place 4 10) .add (.number (place 4 5) "1") (.var (place 8 10) "xs")
    let expr : Expr := .call (place 0 14) .normal "max" [sum, .var (place 12 13) "y"]
    let fault : Fault := .mistake (place 8 10) (.typeMismatch .list .number)
    expr.WellFormed ∧ (expr.compile context).outcome = .error fault ∧
      ∃ error before stage after, fault = .compile error ∧ expr.Blames context error ∧
        expr.stages = before ++ stage :: after ∧
        (∀ earlier ∈ before, earlier.Passes context) ∧ stage.Fails context error ∧
        ∀ other : Expr, other.WellFormed → before ++ [stage] <+: other.stages →
          (other.compile context).outcome = .error fault := by
  intro place context sum expr fault
  have nameShape : ∀ name ∈ ["max", "xs", "y"], Lexeme.IsName name.toList := by decide
  have oneShape : Lexeme.IsSignedNumeral "1".toList := .plain (.whole (by decide))
  have sumShape : sum.WellFormed := ⟨by decide, oneShape, nameShape "xs" (by decide)⟩
  have shape : expr.WellFormed :=
    ⟨rfl, nameShape "max" (by decide), sumShape, nameShape "y" (by decide), trivial⟩
  have rejected : (expr.compile context).outcome = .error fault := by
    dsimp only [expr, sum, fault, context, place]
    rfl
  exact ⟨shape, rejected, compile_blames_first_fault context expr shape fault rejected⟩

end GraphCalc
