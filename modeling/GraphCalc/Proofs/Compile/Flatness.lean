import GraphCalc.Proofs.Compile.Typing
import GraphCalc.Proofs.Syntax.Trees

/-!
# Lists inside of lists

A list should not hold another list, and the operands of an operator should be
numbers.  What is checked is the type: a list, a variable of type list or a call of
a function with a list as its result never stands in such a place.  The calculator,
however, also gives a list for a mapped call of a number function over a list and
for a piecewise expression with a list as a result.  Neither has the type of lists,
and the type is all that is checked, so a list may hold lists after all.
-/

namespace GraphCalc

/-! ## Expressions with lists as values -/

namespace Expr

/-- The operands of an operator. -/
def operands : Expr → List Expr
  | binary _ _ left right => [left, right]
  | unary _ _ operand => [operand]
  | _ => []

/-- The elements of a list. -/
def elements : Expr → List Expr
  | list _ items => items
  | _ => []

/-- Whether an expression is a list, a variable of type list, or a call of a
function with a list as its result. -/
def GivesList (context : Context) : Expr → Prop
  | list _ _ => True
  | var _ name => context.variableType? name = some .list
  | call _ _ callee _ => ∃ signature, context.Resolves callee signature ∧ signature.result = .list
  | macroCall _ _ (var _ callee :: _) =>
      ∃ signature, context.Resolves callee signature ∧ signature.result = .list
  | _ => False

/-- Whether the calculator gives a list for an expression.  It applies a mapped
function to each number of a list that is given for a number, and the value of a
piecewise expression may be any of its results. -/
inductive ListValued (context : Context) : Expr → Prop
  | plain {expr : Expr} (givesList : expr.GivesList context) : ListValued context expr
  | broadcast (span nameSpan : Span) {callee : String} {signature : Signature}
      {args : List Expr} {arg : Expr} {i : Nat} (resolved : context.Resolves callee signature)
      (isArg : args[i]? = some arg) (atNumber : signature.params[i]? = some .number)
      (listValued : ListValued context arg) :
      ListValued context (.macroCall span Compile.mapName (.var nameSpan callee :: args))
  | result (span : Span) {first : Clause Expr} {rest : List (Clause Expr)}
      {otherwise value : Expr} (isResult : value ∈ otherwise :: (first :: rest).map Clause.result)
      (listValued : ListValued context value) :
      ListValued context (.piecewise span first rest otherwise)

/-- Whether an expression maps a function over a list that is given for a number.
The type is that of the function's results. -/
def MapsOverList (context : Context) (type : ValueType) (expr : Expr) : Prop :=
  ∃ (span nameSpan : Span) (callee : String) (signature : Signature) (args : List Expr),
    expr = .macroCall span Compile.mapName (.var nameSpan callee :: args) ∧
      context.Resolves callee signature ∧ signature.result = type ∧
      ∃ (i : Nat) (arg : Expr), args[i]? = some arg ∧ signature.params[i]? = some .number ∧
        arg.ListValued context

/-- Whether an expression is a piecewise one with a list as a result. -/
def ChoosesList (context : Context) (expr : Expr) : Prop :=
  ∃ (span : Span) (first : Clause Expr) (rest : List (Clause Expr)) (otherwise : Expr),
    expr = .piecewise span first rest otherwise ∧
      ∃ value ∈ otherwise :: (first :: rest).map Clause.result, value.ListValued context

/-- Whether an expression is accepted, with the given type. -/
def AcceptedWith (context : Context) (type : ValueType) (expr : Expr) : Prop :=
  ∃ formula, (expr.compile context).outcome = .ok ⟨formula, type⟩

end Expr

/-! ## Types of the parts -/

variable {context : Context}

theorem Expr.acceptedWith_iff {expr : Expr} {type : ValueType} :
    expr.AcceptedWith context type ↔ HasType context expr type := by
  simp only [AcceptedWith, Expr.compilesByRules context expr _, Typed.mk.injEq]
  constructor
  · rintro ⟨formula, _, typed, -, rfl⟩
    exact typed
  · intro typed
    exact ⟨_, type, typed, rfl, rfl⟩

theorem HaveTypes.exists_of_mem {exprs : List Expr} {types : List ValueType}
    (typed : HaveTypes context exprs types) {expr : Expr} (isMember : expr ∈ exprs) :
    ∃ type ∈ types, HasType context expr type := by
  induction exprs generalizing types with
  | nil => cases isMember
  | cons first rest ih =>
      cases typed with
      | cons firstTyped restTyped =>
          rcases List.mem_cons.1 isMember with rfl | isMember
          · exact ⟨_, List.mem_cons_self, firstTyped⟩
          · rcases ih restTyped isMember with ⟨type, isType, exprTyped⟩
            exact ⟨type, List.mem_cons_of_mem _ isType, exprTyped⟩

theorem ClausesTyped.of_mem {clauses : List (Clause Expr)} (typed : ClausesTyped context clauses)
    {clause : Clause Expr} (isMember : clause ∈ clauses) : ClauseTyped context clause := by
  induction clauses with
  | nil => cases isMember
  | cons first rest ih =>
      cases typed with
      | cons firstTyped restTyped =>
          rcases List.mem_cons.1 isMember with rfl | isMember
          · exact firstTyped
          · exact ih restTyped isMember

theorem ClauseTyped.exists_of_mem {clause : Clause Expr} (typed : ClauseTyped context clause)
    {expr : Expr} (isPart : expr ∈ clause.parts) :
    ∃ type, HasType context expr type := by
  cases typed with
  | mk _ leftNumber rightTyped resultTyped =>
      simp only [Clause.parts, List.mem_cons, List.not_mem_nil, or_false] at isPart
      rcases isPart with rfl | rfl | rfl
      · exact ⟨_, leftNumber⟩
      · exact ⟨_, rightTyped⟩
      · exact ⟨_, resultTyped⟩

/-- Whether an expression has a type or is a mere name.  The first argument of the
mapping macro names a function, and such a name need not have a type. -/
def Expr.Checked (context : Context) (expr : Expr) : Prop :=
  (∃ type, HasType context expr type) ∨ ∃ span name, expr = .var span name

theorem HasType.checked_part {expr part : Expr} {type : ValueType}
    (typed : HasType context expr type) (isPart : part ∈ expr.parts) : part.Checked context := by
  cases typed with
  | number => cases isPart
  | globalVariable => cases isPart
  | localVariable => cases isPart
  | arithmetic _ _ leftNumber rightNumber =>
      simp only [Expr.parts, List.mem_cons, List.not_mem_nil, or_false] at isPart
      rcases isPart with rfl | rfl
      · exact .inl ⟨_, leftNumber⟩
      · exact .inl ⟨_, rightNumber⟩
  | factorial _ number =>
      rcases List.mem_singleton.1 isPart with rfl
      exact .inl ⟨_, number⟩
  | call _ _ argsTyped =>
      rcases argsTyped.exists_of_mem isPart with ⟨type, -, partTyped⟩
      exact .inl ⟨type, partTyped⟩
  | map _ nameSpan _ _ argsTyped _ =>
      rcases List.mem_cons.1 isPart with rfl | isArg
      · exact .inr ⟨nameSpan, _, rfl⟩
      · rcases argsTyped.exists_of_mem isArg with ⟨type, -, partTyped⟩
        exact .inl ⟨type, partTyped⟩
  | list _ itemsTyped _ =>
      rcases itemsTyped.exists_of_mem isPart with ⟨type, -, partTyped⟩
      exact .inl ⟨type, partTyped⟩
  | piecewise _ firstTyped restTyped number =>
      rcases List.mem_append.1 isPart with inClause | isOtherwise
      · rcases List.mem_flatMap.1 inClause with ⟨clause, isClause, isPart⟩
        have clauseTyped := (ClausesTyped.cons firstTyped restTyped).of_mem isClause
        exact .inl (clauseTyped.exists_of_mem isPart)
      · rcases List.mem_singleton.1 isOtherwise with rfl
        exact .inl ⟨_, number⟩

/-- Every part of an expression with a type is checked. -/
theorem HasType.checked_of_inside {expr part : Expr} {type : ValueType}
    (typed : HasType context expr type) (inside : part.Inside expr) :
    part.Checked context := by
  induction inside with
  | refl => exact .inl ⟨type, typed⟩
  | tail _ isPart ih =>
      rcases ih with ⟨wholeType, wholeTyped⟩ | ⟨span, name, rfl⟩
      · exact wholeTyped.checked_part isPart
      · cases isPart

theorem HasType.operand {expr operand : Expr} {type : ValueType}
    (typed : HasType context expr type) (isOperand : operand ∈ expr.operands) :
    HasType context operand .number := by
  cases typed with
  | arithmetic _ _ leftNumber rightNumber =>
      simp only [Expr.operands, List.mem_cons, List.not_mem_nil, or_false] at isOperand
      rcases isOperand with rfl | rfl
      · exact leftNumber
      · exact rightNumber
  | factorial _ number =>
      rcases List.mem_singleton.1 isOperand with rfl
      exact number
  | _ => cases isOperand

theorem HasType.element {expr element : Expr} {type : ValueType}
    (typed : HasType context expr type) (isElement : element ∈ expr.elements) :
    ∃ elementType ≠ .list, HasType context element elementType := by
  cases typed with
  | list _ itemsTyped flat =>
      rcases itemsTyped.exists_of_mem isElement with ⟨itemType, isType, itemTyped⟩
      exact ⟨itemType, ne_of_mem_of_not_mem isType flat, itemTyped⟩
  | _ => cases isElement

theorem HasType.operand_or_element {expr place : Expr} {type : ValueType}
    (typed : HasType context expr type) (isPlace : place ∈ expr.operands ++ expr.elements) :
    ∃ placeType ≠ .list, HasType context place placeType ∧
      (place ∈ expr.operands → placeType = .number) := by
  by_cases isOperand : place ∈ expr.operands
  · exact ⟨.number, ValueType.noConfusion, typed.operand isOperand, fun _ => rfl⟩
  · have isElement := (List.mem_append.1 isPlace).resolve_left isOperand
    rcases typed.element isElement with ⟨placeType, notList, elementTyped⟩
    exact ⟨placeType, notList, elementTyped, fun operand => absurd operand isOperand⟩

/-- Items that each have a type other than that of lists are the elements of a
list. -/
theorem HaveTypes.exists_of_forall {exprs : List Expr}
    (typed : ∀ expr ∈ exprs, ∃ type ≠ .list, HasType context expr type) :
    ∃ types, HaveTypes context exprs types ∧ .list ∉ types := by
  induction exprs with
  | nil => exact ⟨[], .nil, List.not_mem_nil⟩
  | cons first rest ih =>
      rw [List.forall_mem_cons] at typed
      rcases typed.1 with ⟨type, notList, firstTyped⟩
      rcases ih typed.2 with ⟨types, restTyped, flat⟩
      exact ⟨type :: types, .cons firstTyped restTyped,
        List.not_mem_cons_of_ne_of_not_mem notList.symm flat⟩

theorem Context.Resolves.exists_list_iff {callee : String} {signature : Signature}
    (resolved : context.Resolves callee signature) :
    (∃ other, context.Resolves callee other ∧ other.result = .list) ↔
      signature.result = .list := by
  constructor
  · rintro ⟨other, resolvedOther, givesList⟩
    rw [resolved.unique resolvedOther]
    exact givesList
  · intro givesList
    exact ⟨signature, resolved, givesList⟩

/-- Among the expressions with a type, those that give a list are those of type
list. -/
theorem HasType.givesList_iff {expr : Expr} {type : ValueType}
    (typed : HasType context expr type) : expr.GivesList context ↔ type = .list := by
  cases typed with
  | globalVariable span found =>
      rw [Expr.GivesList, (HasType.globalVariable span found).variableType?_eq, Option.some.injEq]
  | localVariable span absent found =>
      rw [Expr.GivesList, (HasType.localVariable span absent found).variableType?_eq,
        Option.some.injEq]
  | call _ resolved _ => exact resolved.exists_list_iff
  | map _ _ resolved _ _ _ => exact resolved.exists_list_iff
  | list => exact iff_of_true trivial rfl
  | _ => exact iff_of_false not_false nofun

/-- An expression of another type than list has a list as its value only if it
maps a function over a list or is a piecewise one with a list as a result. -/
theorem HasType.maps_or_chooses {expr : Expr} {type : ValueType}
    (typed : HasType context expr type) (notList : type ≠ .list)
    (listValued : expr.ListValued context) :
    expr.MapsOverList context type ∨ expr.ChoosesList context ∧ type = .number := by
  cases listValued with
  | plain givesList => exact absurd (typed.givesList_iff.1 givesList) notList
  | @broadcast span nameSpan callee signature args arg i resolved isArg atNumber listValued =>
      cases typed with
      | map _ _ resolvedType _ _ _ =>
          rw [← resolved.unique resolvedType]
          exact .inl ⟨span, nameSpan, callee, signature, args, rfl, resolved, rfl, i, arg, isArg,
            atNumber, listValued⟩
  | @result span first rest otherwise value isResult listValued =>
      cases typed
      exact .inr ⟨⟨span, first, rest, otherwise, rfl, value, isResult, listValued⟩, rfl⟩

/-! ## What is accepted where -/

/-- Lists are flat as far as types tell, and no further.  In an accepted expression
every operand of an operator is accepted as a number and every element of a list
with a type other than that of lists, so neither is a list, a variable of type list
or a call of a function with a list as its result.  One that has a list as its value
nevertheless maps a function over a list given for a number, or is a piecewise
expression with a list as a result.  These are accepted there as anything else is:
a list is accepted if its elements are accepted with types other than that of
lists, an operation if its operands are accepted as numbers, a mapped call has the
type of its function's results whatever it is mapped over, and a piecewise
expression has the type of numbers whatever its results are. -/
theorem lists_are_flat_by_type (context : Context) :
    (∀ (expr part place : Expr) (type : ValueType), expr.AcceptedWith context type →
      part.Inside expr → place ∈ part.operands ++ part.elements →
        ∃ placeType ≠ .list, place.AcceptedWith context placeType ∧
          (place ∈ part.operands → placeType = .number) ∧ ¬ place.GivesList context ∧
          (place.ListValued context →
            place.MapsOverList context placeType ∨
              place.ChoosesList context ∧ placeType = .number)) ∧
    (∀ (span : Span) (items : List Expr), (Expr.list span items).AcceptedWith context .list ↔
      ∀ item ∈ items, ∃ type ≠ .list, item.AcceptedWith context type) ∧
    (∀ (span : Span) (op : BinaryOp) (left right : Expr),
      (Expr.binary span op left right).AcceptedWith context .number ↔
        op ∈ BinaryOp.known ∧ left.AcceptedWith context .number ∧
          right.AcceptedWith context .number) ∧
    (∀ (span : Span) (operand : Expr),
      (Expr.unary span .factorial operand).AcceptedWith context .number ↔
        operand.AcceptedWith context .number) ∧
    (∀ (span nameSpan : Span) (callee : String) (args : List Expr) (type : ValueType),
      (Expr.macroCall span Compile.mapName (.var nameSpan callee :: args)).AcceptedWith context
          type →
        ∃ signature, context.Resolves callee signature ∧ type = signature.result) ∧
    ∀ (span : Span) (first : Clause Expr) (rest : List (Clause Expr)) (otherwise : Expr)
      (type : ValueType),
      (Expr.piecewise span first rest otherwise).AcceptedWith context type → type = .number := by
  simp only [Expr.acceptedWith_iff]
  refine ⟨?_, ?_, ?_, ?_, ?_, ?_⟩
  · intro expr part place type typed inside isPlace
    rcases typed.checked_of_inside inside with ⟨partType, partTyped⟩ | ⟨span, name, rfl⟩
    · rcases partTyped.operand_or_element isPlace with
        ⟨placeType, notList, placeTyped, operandType⟩
      refine ⟨placeType, notList, placeTyped, operandType, ?_, placeTyped.maps_or_chooses notList⟩
      rw [placeTyped.givesList_iff]
      exact notList
    · cases isPlace
  · intro span items
    constructor
    · intro typed item isItem
      exact typed.element isItem
    · intro typed
      rcases HaveTypes.exists_of_forall typed with ⟨types, itemsTyped, flat⟩
      exact .list span itemsTyped flat
  · intro span op left right
    constructor
    · intro typed
      cases typed with
      | arithmetic _ known leftNumber rightNumber => exact ⟨known, leftNumber, rightNumber⟩
    · rintro ⟨known, leftNumber, rightNumber⟩
      exact .arithmetic span known leftNumber rightNumber
  · intro span operand
    exact ⟨fun typed => typed.operand (.head _), fun typed => .factorial span typed⟩
  · intro span nameSpan callee args type typed
    cases typed with
    | map _ _ resolved _ _ _ => exact ⟨_, resolved, rfl⟩
  · intro span first rest otherwise type typed
    cases typed
    rfl

/-- The element of the list in `map!(sin, [map!(sin, xs)])` has a list as its
value. -/
theorem lists_are_flat_by_type_mapped :
    let place : Span := .nowhere
    let context := Context.ofGlobals ((∅ : NameMap ValueType).insert "xs" .list)
    let mapped (arg : Expr) : Expr := .macroCall place Compile.mapName [.var place "sin", arg]
    let item : Expr := mapped (.var place "xs")
    let list : Expr := .list place [item]
    (mapped list).AcceptedWith context .number ∧ list.Inside (mapped list) ∧
      item ∈ list.operands ++ list.elements ∧ item.ListValued context ∧
      ∃ type ≠ .list, item.AcceptedWith context type ∧ ¬ item.GivesList context ∧
        (item.MapsOverList context type ∨ item.ChoosesList context ∧ type = .number) := by
  intro place context mapped item list
  have accepted : (mapped list).AcceptedWith context .number := by
    refine ⟨.call "sin" true [.list [.call "sin" true [.var "xs"]]], ?_⟩
    dsimp only [list, item, mapped, context, place]
    rfl
  have inside : list.Inside (mapped list) := .single (.tail _ (.head _))
  have isElement : item ∈ list.operands ++ list.elements := .head _
  have resolved : context.Resolves "sin" ⟨[.number], .number, true⟩ := by
    rw [← context.signature?_eq_some_iff]
    rfl
  have listValued : item.ListValued context :=
    .broadcast place place (i := 0) resolved rfl rfl (.plain rfl)
  rcases (lists_are_flat_by_type context).1 _ _ _ _ accepted inside isElement with
    ⟨type, notList, itemAccepted, -, givesNone, maps_or_chooses⟩
  exact ⟨accepted, inside, isElement, listValued, type, notList, itemAccepted, givesNone,
    maps_or_chooses listValued⟩

/-- A mapped call over a list and a piecewise expression with a list as a result
are accepted as the elements of a list and as the operands of a sum. -/
theorem lists_of_lists_are_accepted :
    let place : Span := .nowhere
    let context := Context.ofGlobals ((∅ : NameMap ValueType).insert "xs" .list)
    let xs : Expr := .var place "xs"
    let one : Expr := .number place "1"
    let mapped : Expr := .macroCall place Compile.mapName [.var place "sin", xs]
    let branches : Expr := .piecewise place ⟨one, .greater, one, xs⟩ [] one
    let list : Expr := .list place [mapped, branches]
    let sum : Expr := .binary place .add mapped branches
    list.AcceptedWith context .list ∧ sum.AcceptedWith context .number ∧
      list.elements = [mapped, branches] ∧ sum.operands = [mapped, branches] ∧
      mapped.ListValued context ∧ branches.ListValued context := by
  intro place context xs one mapped branches list sum
  have listValued : xs.ListValued context := .plain rfl
  have resolved : context.Resolves "sin" ⟨[.number], .number, true⟩ := by
    rw [← context.signature?_eq_some_iff]
    rfl
  have listAccepted : list.AcceptedWith context .list := by
    dsimp only [list, branches, mapped, one, xs, context, place]
    exact ⟨_, rfl⟩
  have sumAccepted : sum.AcceptedWith context .number := by
    dsimp only [sum, branches, mapped, one, xs, context, place]
    exact ⟨_, rfl⟩
  have broadcasts : mapped.ListValued context :=
    .broadcast place place (i := 0) resolved rfl rfl listValued
  have hasListResult : branches.ListValued context :=
    .result place (.tail _ (.head _)) listValued
  exact ⟨listAccepted, sumAccepted, rfl, rfl, broadcasts, hasListResult⟩

end GraphCalc
