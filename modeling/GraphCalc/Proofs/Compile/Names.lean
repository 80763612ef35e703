import GraphCalc.Proofs.Compile.Typing

/-!
# The names that an expression reads

Compiling an expression looks up the variables that occur in it and the functions
that it calls, and nothing else of the context.  How a variable is called matters
only to the formula: if its name is changed, and the new name has the type that the
old one had, then the formula has the new name and all else is as before.
-/

namespace GraphCalc

open Compile

/-! ## What is read -/

/-- The function that a call of the mapping macro names in front of its
arguments. -/
def Compile.mappedCallees (macroName : String) : List Expr → List String
  | .var _ callee :: _ => if macroName = mapName then [callee] else []
  | _ => []

/-- Whether the first argument of a macro call names a function: a bare name does,
if the macro is the mapping macro. -/
def Compile.namesFunction (macroName : String) : Expr → Bool
  | .var _ _ => macroName = mapName
  | _ => false

mutual

/-- The functions that an expression calls, by a call or through the mapping
macro. -/
def Expr.callees : Expr → List String
  | .number _ _ => []
  | .var _ _ => []
  | .binary _ _ left right => left.callees ++ right.callees
  | .unary _ _ operand => operand.callees
  | .call _ _ callee args => callee :: Expr.calleesAll args
  | .macroCall _ name args => mappedCallees name args ++ Expr.calleesAll args
  | .list _ items => Expr.calleesAll items
  | .piecewise _ first rest otherwise =>
      Clause.callees first ++ (Clause.calleesAll rest ++ otherwise.callees)
  | .mapped _ inner => inner.callees

def Expr.calleesAll : List Expr → List String
  | [] => []
  | first :: rest => first.callees ++ Expr.calleesAll rest

def Clause.callees : Clause Expr → List String
  | ⟨left, _, right, result⟩ => left.callees ++ (right.callees ++ result.callees)

def Clause.calleesAll : List (Clause Expr) → List String
  | [] => []
  | first :: rest => Clause.callees first ++ Clause.calleesAll rest

end

mutual

/-- The variables that occur in an expression.  The name of a mapped function is
none of them. -/
def Expr.variableNames : Expr → List String
  | .number _ _ => []
  | .var _ name => [name]
  | .binary _ _ left right => left.variableNames ++ right.variableNames
  | .unary _ _ operand => operand.variableNames
  | .call _ _ _ args => Expr.variableNamesAll args
  | .macroCall _ _ [] => []
  | .macroCall _ name (first :: others) =>
      (if namesFunction name first then [] else first.variableNames) ++ Expr.variableNamesAll others
  | .list _ items => Expr.variableNamesAll items
  | .piecewise _ first rest otherwise =>
      Clause.variableNames first ++ (Clause.variableNamesAll rest ++ otherwise.variableNames)
  | .mapped _ inner => inner.variableNames

def Expr.variableNamesAll : List Expr → List String
  | [] => []
  | first :: rest => first.variableNames ++ Expr.variableNamesAll rest

def Clause.variableNames : Clause Expr → List String
  | ⟨left, _, right, result⟩ => left.variableNames ++ (right.variableNames ++ result.variableNames)

def Clause.variableNamesAll : List (Clause Expr) → List String
  | [] => []
  | first :: rest => Clause.variableNames first ++ Clause.variableNamesAll rest

end

/-! ## Changing the names of variables -/

mutual

/-- An expression with the names of its variables changed.  The name of a mapped
function stays. -/
def Expr.rename (change : String → String) : Expr → Expr
  | .number span value => .number span value
  | .var span name => .var span (change name)
  | .binary span op left right => .binary span op (left.rename change) (right.rename change)
  | .unary span op operand => .unary span op (operand.rename change)
  | .call span mode callee args => .call span mode callee (Expr.renameAll change args)
  | .macroCall span name [] => .macroCall span name []
  | .macroCall span name (first :: others) =>
      .macroCall span name ((if namesFunction name first then first else first.rename change) ::
        Expr.renameAll change others)
  | .list span items => .list span (Expr.renameAll change items)
  | .piecewise span first rest otherwise =>
      .piecewise span (Clause.rename change first) (Clause.renameAll change rest)
        (otherwise.rename change)
  | .mapped span inner => .mapped span (inner.rename change)

def Expr.renameAll (change : String → String) : List Expr → List Expr
  | [] => []
  | first :: rest => first.rename change :: Expr.renameAll change rest

def Clause.rename (change : String → String) : Clause Expr → Clause Expr
  | ⟨left, sign, right, result⟩ =>
      ⟨left.rename change, sign, right.rename change, result.rename change⟩

def Clause.renameAll (change : String → String) : List (Clause Expr) → List (Clause Expr)
  | [] => []
  | first :: rest => Clause.rename change first :: Clause.renameAll change rest

end

mutual

/-- A formula with the names of its variables changed, and those of the parameters
that it defines.  The names of functions stay. -/
def Formula.rename (change : String → String) : Formula → Formula
  | .number value => .number value
  | .var name => .var (change name)
  | .binary op left right => .binary op (left.rename change) (right.rename change)
  | .factorial operand => .factorial (operand.rename change)
  | .call callee builtin args => .call callee builtin (Formula.renameAll change args)
  | .list items => .list (Formula.renameAll change items)
  | .assign left right => .assign (left.rename change) (right.rename change)
  | .define name params body => .define name (params.map change) (body.rename change)
  | .piecewise first rest otherwise =>
      .piecewise (Clause.renameFormula change first) (Clause.renameFormulas change rest)
        (otherwise.rename change)
  | .missing => .missing

def Formula.renameAll (change : String → String) : List Formula → List Formula
  | [] => []
  | first :: rest => first.rename change :: Formula.renameAll change rest

def Clause.renameFormula (change : String → String) : Clause Formula → Clause Formula
  | ⟨left, sign, right, result⟩ =>
      ⟨left.rename change, sign, right.rename change, result.rename change⟩

def Clause.renameFormulas (change : String → String) :
    List (Clause Formula) → List (Clause Formula)
  | [] => []
  | first :: rest => Clause.renameFormula change first :: Clause.renameFormulas change rest

end

theorem Expr.span_rename (change : String → String) (expr : Expr) :
    (expr.rename change).span = expr.span := by
  cases expr with
  | macroCall span name args =>
      cases args with
      | nil => rfl
      | cons first others => rfl
  | _ => rfl

def Typed.rename (change : String → String) (value : Typed) : Typed :=
  { value with formula := value.formula.rename change }

def Argument.rename (change : String → String) (arg : Argument) : Argument :=
  { arg with formula := arg.formula.rename change }

/-! ### Nothing is changed -/

mutual

theorem Expr.rename_id : (expr : Expr) → expr.rename id = expr
  | .number _ _ => rfl
  | .var _ _ => rfl
  | .binary _ _ left right => by rw [Expr.rename, left.rename_id, right.rename_id]
  | .unary _ _ operand => by rw [Expr.rename, operand.rename_id]
  | .call _ _ _ args => by rw [Expr.rename, Expr.renameAll_id args]
  | .macroCall _ _ [] => rfl
  | .macroCall _ _ (first :: others) => by
      rw [Expr.rename, first.rename_id, Expr.renameAll_id others, ite_self]
  | .list _ items => by rw [Expr.rename, Expr.renameAll_id items]
  | .piecewise _ first rest otherwise => by
      rw [Expr.rename, Clause.rename_id first, Clause.renameAll_id rest, otherwise.rename_id]
  | .mapped _ inner => by rw [Expr.rename, inner.rename_id]

theorem Expr.renameAll_id : (exprs : List Expr) → Expr.renameAll id exprs = exprs
  | [] => rfl
  | first :: rest => by rw [Expr.renameAll, first.rename_id, Expr.renameAll_id rest]

theorem Clause.rename_id : (clause : Clause Expr) → Clause.rename id clause = clause
  | ⟨left, _, right, result⟩ => by
      rw [Clause.rename, left.rename_id, right.rename_id, result.rename_id]

theorem Clause.renameAll_id : (clauses : List (Clause Expr)) →
    Clause.renameAll id clauses = clauses
  | [] => rfl
  | first :: rest => by rw [Clause.renameAll, Clause.rename_id first, Clause.renameAll_id rest]

end

mutual

theorem Formula.rename_id : (formula : Formula) → formula.rename id = formula
  | .number _ => rfl
  | .var _ => rfl
  | .binary _ left right => by rw [Formula.rename, left.rename_id, right.rename_id]
  | .factorial operand => by rw [Formula.rename, operand.rename_id]
  | .call _ _ args => by rw [Formula.rename, Formula.renameAll_id args]
  | .list items => by rw [Formula.rename, Formula.renameAll_id items]
  | .assign left right => by rw [Formula.rename, left.rename_id, right.rename_id]
  | .define _ _ body => by rw [Formula.rename, List.map_id, body.rename_id]
  | .piecewise first rest otherwise => by
      rw [Formula.rename, Clause.renameFormula_id first, Clause.renameFormulas_id rest,
        otherwise.rename_id]
  | .missing => rfl

theorem Formula.renameAll_id : (formulas : List Formula) →
    Formula.renameAll id formulas = formulas
  | [] => rfl
  | first :: rest => by rw [Formula.renameAll, first.rename_id, Formula.renameAll_id rest]

theorem Clause.renameFormula_id : (clause : Clause Formula) →
    Clause.renameFormula id clause = clause
  | ⟨left, _, right, result⟩ => by
      rw [Clause.renameFormula, left.rename_id, right.rename_id, result.rename_id]

theorem Clause.renameFormulas_id : (clauses : List (Clause Formula)) →
    Clause.renameFormulas id clauses = clauses
  | [] => rfl
  | first :: rest => by
      rw [Clause.renameFormulas, Clause.renameFormula_id first, Clause.renameFormulas_id rest]

end

/-! ## Steps of the compiler -/

namespace Logged

variable {α β γ δ : Type}

/-- A computation with its value converted. -/
def map (convert : α → β) (computation : Logged α) : Logged β :=
  ⟨computation.notes, computation.outcome.map convert⟩

/-- Converting step by step. -/
theorem map_bind {convert : α → β} {convertNext : γ → δ} (first : Logged α)
    {next : α → Logged γ} {changedNext : β → Logged δ}
    (changes : ∀ value, changedNext (convert value) = (next value).map convertNext) :
    first.map convert >>= changedNext = (first >>= next).map convertNext := by
  rcases first with ⟨notes, outcome⟩
  cases outcome with
  | error fault => rfl
  | ok value =>
      simp only [bind, map, Except.map]
      rw [changes]
      rfl

theorem map_of_forall_eq {convert : α → α} (same : ∀ value, convert value = value)
    (computation : Logged α) : computation.map convert = computation := by
  rcases computation with ⟨notes, outcome⟩
  cases outcome with
  | error fault => rfl
  | ok value => rw [map, Except.map, same]

end Logged

section

variable {change : String → String}

theorem Compile.requireNumber_rename (span : Span) (value : Typed) :
    requireNumber span (value.rename change) =
      (requireNumber span value).map (Formula.rename change) := by
  unfold requireNumber
  by_cases isNumber : value.type = .number
  · rw [if_pos isNumber]
    exact if_pos isNumber
  · rw [if_neg isNumber]
    exact if_neg isNumber

theorem Compile.requireItem_rename (span : Span) (value : Typed) :
    requireItem span (value.rename change) =
      (requireItem span value).map (Formula.rename change) := by
  unfold requireItem
  by_cases isList : value.type = .list
  · rw [if_pos isList]
    exact if_pos isList
  · rw [if_neg isList]
    exact if_neg isList

theorem Compile.operation_rename (span : Span) (op : BinaryOp) (left right : Formula) :
    operation span op (left.rename change) (right.rename change) =
      (operation span op left right).map (Formula.rename change) := by
  cases op with
  | _ => rfl

/-- The types of arguments are checked, not their formulas. -/
theorem Compile.checkArguments_rename (mode : CallMode) (args : List Argument)
    (params : List ValueType) :
    checkArguments mode (args.map (Argument.rename change)) params =
      checkArguments mode args params := by
  induction args generalizing params with
  | nil => rfl
  | cons arg args ih =>
      cases params with
      | nil => rfl
      | cons expected params =>
          rw [List.map_cons, checkArguments, checkArguments, ih]
          rfl

theorem Formula.renameAll_eq_map (formulas : List Formula) :
    Formula.renameAll change formulas = formulas.map (Formula.rename change) := by
  induction formulas with
  | nil => rfl
  | cons first rest ih => rw [Formula.renameAll, ih, List.map_cons]

/-- A call looks up the function it names, and nothing else of the context. -/
theorem Compile.call_rename {context other : Context} {callee : String}
    (sameSignature : other.signature? callee = context.signature? callee) (span : Span)
    (mode : CallMode) (args : List Argument) :
    call other span mode callee (args.map (Argument.rename change)) =
      (call context span mode callee args).map (Typed.rename change) := by
  have formulas : (args.map (Argument.rename change)).map Argument.formula =
      Formula.renameAll change (args.map Argument.formula) := by
    rw [Formula.renameAll_eq_map, List.map_map, List.map_map]
    rfl
  unfold call
  rw [sameSignature, formulas, List.length_map]
  cases context.signature? callee with
  | none => rfl
  | some signature =>
      simp only [checkArguments_rename]
      split
      · rfl
      · rcases checkArguments mode args signature.params with ⟨notes, fault | done⟩
        · rfl
        · rfl

/-- Where a number is required, its formula is handed on. -/
theorem Logged.map_requireNumber {β γ : Type} {convert : β → γ} (compiled : Logged Typed)
    (span : Span) {next : Formula → Logged β} {changedNext : Formula → Logged γ}
    (changes : ∀ formula,
      changedNext (formula.rename change) = (next formula).map convert) :
    (compiled.map (Typed.rename change) >>= fun value =>
        requireNumber span value >>= changedNext) =
      (compiled >>= fun value => requireNumber span value >>= next).map convert := by
  apply Logged.map_bind
  intro value
  rw [requireNumber_rename]
  apply Logged.map_bind
  exact changes

end

/-! ## Compiling with other names -/

/-- Whether a context gives to changed variables the types that another one gives to
the variables themselves, and the same signatures to functions.  The name of a
variable without a type is not changed, for it is shown in the fault. -/
structure Context.Matches (change : String → String) (names callees : List String)
    (context other : Context) : Prop where
  types : ∀ name ∈ names, other.variableType? (change name) = context.variableType? name
  unknown : ∀ name ∈ names, context.variableType? name = none → change name = name
  signatures : ∀ name ∈ callees, other.signature? name = context.signature? name

namespace Context.Matches

variable {change : String → String} {names someNames callees someCallees : List String}
  {context other : Context}

theorem mono (agree : Matches change names callees context other)
    (fewerNames : someNames ⊆ names) (fewerCallees : someCallees ⊆ callees) :
    Matches change someNames someCallees context other where
  types name occurs := agree.types name (fewerNames occurs)
  unknown name occurs := agree.unknown name (fewerNames occurs)
  signatures name isCalled := agree.signatures name (fewerCallees isCalled)

theorem left (agree : Matches change (names ++ someNames) (callees ++ someCallees)
    context other) : Matches change names callees context other :=
  agree.mono (List.subset_append_left _ _) (List.subset_append_left _ _)

theorem right (agree : Matches change (names ++ someNames) (callees ++ someCallees)
    context other) : Matches change someNames someCallees context other :=
  agree.mono (List.subset_append_right _ _) (List.subset_append_right _ _)

end Context.Matches

section

variable {change : String → String} {context other : Context}

/-- The mapping macro refuses a first argument that is no bare name. -/
theorem Expr.compile_map_of_no_name (context : Context) (span : Span) {first : Expr}
    (noName : namesFunction mapName first = false) {others : List Expr} (notEmpty : others ≠ []) :
    (Expr.macroCall span mapName (first :: others)).compile context =
      .fail (.mistake first.span .expectedFunction) := by
  cases others with
  | nil => exact absurd rfl notEmpty
  | cons second others =>
      cases first with
      | var => simp [namesFunction] at noName
      | _ => rfl

theorem Compile.namesFunction_rename (change : String → String) (macroName : String)
    (expr : Expr) :
    namesFunction macroName (expr.rename change) = namesFunction macroName expr := by
  cases expr with
  | macroCall span name args =>
      cases args with
      | nil => rfl
      | cons first others => rfl
  | _ => rfl

/-- A macro call compiles the arguments behind the first, and calls the function
that it maps. -/
theorem Expr.compile_rename_macroCall (span : Span) (name : String) (first : Expr)
    {others : List Expr}
    (signatures : ∀ callee ∈ mappedCallees name (first :: others),
      other.signature? callee = context.signature? callee)
    (argsEq : Expr.compileArguments other (Expr.renameAll change others) =
      (Expr.compileArguments context others).map (List.map (Argument.rename change))) :
    ((Expr.macroCall span name (first :: others)).rename change).compile other =
      ((Expr.macroCall span name (first :: others)).compile context).map
        (Typed.rename change) := by
  rw [Expr.rename]
  by_cases isMap : name = mapName
  · subst isMap
    cases others with
    | nil => rfl
    | cons second others =>
        have notEmpty : second :: others ≠ [] := List.cons_ne_nil _ _
        have renamedNotEmpty : Expr.renameAll change (second :: others) ≠ [] :=
          List.cons_ne_nil _ _
        cases isName : namesFunction mapName first with
        | false =>
            have renamedNoName := (namesFunction_rename change mapName first).trans isName
            simp only [Bool.false_eq_true, if_false]
            rw [Expr.compile_map_of_no_name other span renamedNoName renamedNotEmpty,
              Expr.compile_map_of_no_name context span isName notEmpty, Expr.span_rename]
            rfl
        | true =>
            cases first with
            | var nameSpan callee =>
                have isCallee : callee ∈ mappedCallees mapName
                    (.var nameSpan callee :: second :: others) := by
                  simp [mappedCallees]
                simp only [if_true]
                rw [Expr.compile_map context span nameSpan callee notEmpty,
                  Expr.compile_map other span nameSpan callee renamedNotEmpty, argsEq]
                apply Logged.map_bind
                intro compiled
                rw [List.length_map]
                change (Logged.note _).map id >>= _ = _
                apply Logged.map_bind
                intro _
                exact call_rename (signatures callee isCallee) span .mapped compiled
            | _ => simp [namesFunction] at isName
  · rw [Expr.compile.eq_def, Expr.compile.eq_def]
    simp only [if_neg isMap]
    rfl

mutual

/-- Changing the names of variables changes the formula in the same way, if the new
names have the types of the old ones. -/
theorem Expr.compile_rename : (expr : Expr) →
    Context.Matches change expr.variableNames expr.callees context other →
      (expr.rename change).compile other = (expr.compile context).map (Typed.rename change)
  | .number _ _, _ => rfl
  | .var span name, agree => by
      have sameType := agree.types name List.mem_cons_self
      have unknown := agree.unknown name List.mem_cons_self
      rw [Expr.rename, Expr.compile, Expr.compile, sameType]
      cases found : context.variableType? name with
      | none =>
          rw [unknown found]
          rfl
      | some type => rfl
  | .binary span op left right, agree => by
      rw [Expr.variableNames, Expr.callees] at agree
      simp only [Expr.rename, Expr.compile, Expr.span_rename, left.compile_rename agree.left,
        right.compile_rename agree.right]
      apply Logged.map_requireNumber
      intro leftFormula
      apply Logged.map_requireNumber
      intro rightFormula
      rw [operation_rename]
      apply Logged.map_bind
      intro formula
      rfl
  | .unary span op operand, agree => by
      simp only [Expr.rename, Expr.compile, Expr.span_rename, operand.compile_rename agree]
      apply Logged.map_requireNumber
      intro formula
      cases op with
      | _ => rfl
  | .call span mode callee args, agree => by
      rw [Expr.callees] at agree
      cases mode with
      | normal =>
          have argsAgree := agree.mono (List.Subset.refl _) (List.subset_cons_self callee _)
          simp only [Expr.rename, Expr.compile, Expr.compileArguments_rename args argsAgree]
          apply Logged.map_bind
          intro compiled
          exact call_rename (agree.signatures callee List.mem_cons_self) span .normal compiled
      | _ => rfl
  | .macroCall span name [], _ => by
      rw [Expr.rename]
      by_cases isMap : name = mapName
      · subst isMap
        rfl
      · rw [Expr.compile.eq_def, Expr.compile.eq_def]
        simp only [if_neg isMap]
        rfl
  | .macroCall span name (first :: others), agree => by
      rw [Expr.variableNames, Expr.callees, Expr.calleesAll] at agree
      exact Expr.compile_rename_macroCall span name first
        (fun callee isCallee => agree.signatures callee (List.mem_append_left _ isCallee))
        (Expr.compileArguments_rename others (agree.right.mono (List.Subset.refl _)
          (List.subset_append_right _ _)))
  | .list _ items, agree => by
      simp only [Expr.rename, Expr.compile, Expr.compileItems_rename items agree]
      apply Logged.map_bind
      intro formulas
      rfl
  | .piecewise _ first rest otherwise, agree => by
      rw [Expr.variableNames, Expr.callees] at agree
      simp only [Expr.rename, Expr.compile, Expr.span_rename,
        Clause.compile_rename first agree.left, Clause.compileAll_rename rest agree.right.left,
        otherwise.compile_rename agree.right.right]
      apply Logged.map_bind
      intro firstClause
      apply Logged.map_bind
      intro restClauses
      apply Logged.map_requireNumber
      intro formula
      rfl
  | .mapped _ _, _ => rfl

theorem Expr.compileArguments_rename : (exprs : List Expr) →
    Context.Matches change (Expr.variableNamesAll exprs) (Expr.calleesAll exprs) context other →
      Expr.compileArguments other (Expr.renameAll change exprs) =
        (Expr.compileArguments context exprs).map (List.map (Argument.rename change))
  | [], _ => rfl
  | first :: rest, agree => by
      rw [Expr.variableNamesAll, Expr.calleesAll] at agree
      simp only [Expr.renameAll, Expr.compileArguments, Expr.span_rename,
        first.compile_rename agree.left, Expr.compileArguments_rename rest agree.right]
      apply Logged.map_bind
      intro value
      apply Logged.map_bind
      intro args
      rfl

theorem Expr.compileItems_rename : (exprs : List Expr) →
    Context.Matches change (Expr.variableNamesAll exprs) (Expr.calleesAll exprs) context other →
      Expr.compileItems other (Expr.renameAll change exprs) =
        (Expr.compileItems context exprs).map (Formula.renameAll change)
  | [], _ => rfl
  | first :: rest, agree => by
      rw [Expr.variableNamesAll, Expr.calleesAll] at agree
      simp only [Expr.renameAll, Expr.compileItems, Expr.span_rename,
        first.compile_rename agree.left, Expr.compileItems_rename rest agree.right]
      apply Logged.map_bind
      intro value
      rw [requireItem_rename]
      apply Logged.map_bind
      intro item
      apply Logged.map_bind
      intro items
      rfl

theorem Clause.compile_rename : (clause : Clause Expr) →
    Context.Matches change (Clause.variableNames clause) (Clause.callees clause) context other →
      Clause.compile other (Clause.rename change clause) =
        (Clause.compile context clause).map (Clause.renameFormula change)
  | ⟨left, sign, right, result⟩, agree => by
      rw [Clause.variableNames, Clause.callees] at agree
      simp only [Clause.rename, Clause.compile, Expr.span_rename, left.compile_rename agree.left,
        right.compile_rename agree.right.left, result.compile_rename agree.right.right]
      apply Logged.map_requireNumber
      intro leftFormula
      apply Logged.map_bind
      intro rightValue
      apply Logged.map_bind
      intro resultValue
      cases sign with
      | _ => rfl

theorem Clause.compileAll_rename : (clauses : List (Clause Expr)) →
    Context.Matches change (Clause.variableNamesAll clauses) (Clause.calleesAll clauses)
      context other →
      Clause.compileAll other (Clause.renameAll change clauses) =
        (Clause.compileAll context clauses).map (Clause.renameFormulas change)
  | [], _ => rfl
  | first :: rest, agree => by
      rw [Clause.variableNamesAll, Clause.calleesAll] at agree
      simp only [Clause.renameAll, Clause.compileAll, Clause.compile_rename first agree.left,
        Clause.compileAll_rename rest agree.right]
      apply Logged.map_bind
      intro clause
      apply Logged.map_bind
      intro clauses
      rfl

end

end

/-! ## Names that are not read -/

/-- Contexts that give the same types to the variables of an expression and the same
signatures to the functions that it calls give the same outcome and the same log. -/
theorem Expr.compile_eq_of_agree {context other : Context} (expr : Expr)
    (types : ∀ name ∈ expr.variableNames, other.variableType? name = context.variableType? name)
    (signatures : ∀ name ∈ expr.callees, other.signature? name = context.signature? name) :
    expr.compile other = expr.compile context := by
  have agree : Context.Matches id expr.variableNames expr.callees context other :=
    ⟨types, fun _ _ _ => rfl, signatures⟩
  have sameValue : ∀ value : Typed, value.rename id = value := by
    intro value
    rw [Typed.rename, Formula.rename_id]
  have renamed := expr.compile_rename agree
  rwa [Expr.rename_id, Logged.map_of_forall_eq sameValue] at renamed

namespace Context

/-- A variable is looked up among the globals, and then among the locals. -/
theorem variableType?_eq_or (context : Context) (name : String) :
    context.variableType? name = context.globals[name]?.or context.locals[name]? := by
  unfold variableType? variableLayers Layer.find?
  cases found : context.globals[name]? with
  | none =>
      cases foundLocal : context.locals[name]? with
      | none => simp [found, foundLocal]
      | some type => simp [found, foundLocal]
  | some type => simp [found]

/-- The context with another type for a global variable, or without it. -/
def withGlobal (context : Context) (name : String) (type : Option ValueType) : Context :=
  { context with globals := context.globals.alter name fun _ => type }

/-- The context with another type for a local variable, or without it. -/
def withLocal (context : Context) (name : String) (type : Option ValueType) : Context :=
  { context with locals := context.locals.alter name fun _ => type }

/-- The context with another signature for a function of the program, or without
it. -/
def withFunction (context : Context) (name : String) (signature : Option Signature) : Context :=
  { context with functions := context.functions.alter name fun _ => signature }

end Context

theorem NameMap.getElem?_alter_of_ne {α : Type} (map : NameMap α) {name other : String}
    (isOther : other ≠ name) (entry : Option α) :
    (map.alter name fun _ => entry)[other]? = map[other]? := by
  have notFound : compare name other ≠ .eq := mt Std.compare_eq_iff_eq.1 (Ne.symm isOther)
  rw [Std.ExtTreeMap.getElem?_alter, if_neg notFound]

/-- Only the names that an expression mentions matter.  In two contexts that give the
same types, or none, to the variables of the expression, and the same signatures, or
none, to the functions that it calls or maps, it has the same formula and type or the
same fault, and the same log.  So nothing changes if a global or local variable that
does not occur in it, or a function that it does not call, is added, removed or given
another type. -/
theorem only_mentioned_names_matter (expr : Expr) :
    (∀ context other : Context,
      (∀ name ∈ expr.variableNames, other.variableType? name = context.variableType? name) →
      (∀ name ∈ expr.callees, other.signature? name = context.signature? name) →
        expr.compile other = expr.compile context) ∧
    ∀ (context : Context) (name : String),
      (name ∉ expr.variableNames → ∀ type : Option ValueType,
        expr.compile (context.withGlobal name type) = expr.compile context ∧
          expr.compile (context.withLocal name type) = expr.compile context) ∧
      (name ∉ expr.callees → ∀ signature : Option Signature,
        expr.compile (context.withFunction name signature) = expr.compile context) := by
  refine ⟨fun _ _ => expr.compile_eq_of_agree, fun context name => ⟨?_, ?_⟩⟩
  · intro unmentioned type
    have isOther : ∀ occurring ∈ expr.variableNames, occurring ≠ name := by
      rintro occurring occurs rfl
      exact unmentioned occurs
    constructor
    · refine expr.compile_eq_of_agree ?_ fun _ _ => rfl
      intro occurring occurs
      rw [Context.variableType?_eq_or, Context.variableType?_eq_or, Context.withGlobal,
        NameMap.getElem?_alter_of_ne _ (isOther occurring occurs)]
    · refine expr.compile_eq_of_agree ?_ fun _ _ => rfl
      intro occurring occurs
      rw [Context.variableType?_eq_or, Context.variableType?_eq_or, Context.withLocal,
        NameMap.getElem?_alter_of_ne _ (isOther occurring occurs)]
  · intro unmentioned signature
    refine expr.compile_eq_of_agree (fun _ _ => rfl) ?_
    intro callee isCalled
    have isOther : callee ≠ name := by
      rintro rfl
      exact unmentioned isCalled
    rw [Context.signature?, Context.signature?, Context.withFunction,
      NameMap.getElem?_alter_of_ne _ isOther]

/-- In `map!(f, x)` the name `f` is that of a function and `x` that of a variable.  A
global variable `f` and a function `x` do not matter, not even for the fault where
there is no function `f`. -/
theorem only_mentioned_names_matter_mapped :
    let place : Span := .nowhere
    let expr : Expr := .macroCall place mapName [.var place "f", .var place "x"]
    let context := Context.ofGlobals ((∅ : NameMap ValueType).insert "x" .list)
    let other := (context.withGlobal "f" (some .number)).withFunction "x"
      (some ⟨[.number], .number, false⟩)
    expr.variableNames = ["x"] ∧ expr.callees = ["f"] ∧
      (expr.compile context).outcome = .error (.mistake place (.unknownFunction "f")) ∧
      expr.compile other = expr.compile context ∧
      expr.compile (context.withGlobal "f" (some .list)) = expr.compile context ∧
      expr.compile (context.withFunction "x" none) = expr.compile context := by
  intro place expr context other
  have matter := only_mentioned_names_matter expr
  have notVariable : "f" ∉ expr.variableNames := by decide
  have notCallee : "x" ∉ expr.callees := by decide
  have sameTypes : ∀ name ∈ expr.variableNames,
      other.variableType? name = context.variableType? name := by
    decide
  have sameSignatures : ∀ name ∈ expr.callees,
      other.signature? name = context.signature? name := by
    decide
  exact ⟨rfl, rfl, rfl, matter.1 context other sameTypes sameSignatures,
    ((matter.2 context "f").1 notVariable (some .list)).1,
    (matter.2 context "x").2 notCallee none⟩

end GraphCalc
