import GraphCalc.Proofs.Compile.Names
import GraphCalc.Proofs.Compile.Scoping
import Mathlib.Data.List.FinRange

/-!
# Statements that do not depend on each other

A statement reads the variables of the context and the signatures of the
functions it calls, and it writes the signature of the function it defines.  Two
statements of which neither writes what the other reads or writes can change
places: both have the results they had, and the context behind them is the same.
So a program may be reordered in any way that keeps two statements in order
whenever one depends on the other.
-/

namespace GraphCalc

open Compile

/-! ## What is read -/

/-- The functions that a statement calls. -/
def Stmt.callees : Stmt → List String
  | .expr _ value => value.callees
  | .define _ _ _ _ body => body.callees

/-- Whether two contexts have the same variables and give the same signatures to
some functions. -/
structure Context.AgreeOn (names : List String) (context other : Context) : Prop where
  globals : context.globals = other.globals
  locals : context.locals = other.locals
  signatures : ∀ name ∈ names, context.signature? name = other.signature? name

namespace Context.AgreeOn

variable {names : List String} {context other : Context}

theorem refl (context : Context) : AgreeOn names context context :=
  ⟨rfl, rfl, fun _ _ => rfl⟩

theorem variableType?_eq (agree : AgreeOn names context other) (name : String) :
    context.variableType? name = other.variableType? name := by
  unfold Context.variableType? Context.variableLayers
  rw [agree.globals, agree.locals]

theorem withParams (agree : AgreeOn names context other) (params : List Param) :
    AgreeOn names (context.withParams params) (other.withParams params) where
  globals := agree.globals
  locals := by
    unfold Context.withParams
    rw [agree.locals]
  signatures := agree.signatures

end Context.AgreeOn

/-- Contexts that agree on the functions an expression calls give the same
outcome and the same log. -/
theorem Expr.compile_congr {context other : Context} (expr : Expr)
    (agree : Context.AgreeOn expr.callees context other) :
    expr.compile context = expr.compile other :=
  expr.compile_eq_of_agree (fun name _ => agree.variableType?_eq name) agree.signatures

/-! ## What is written -/

/-- The function that a statement defines. -/
def Stmt.definedName? : Stmt → Option String
  | .expr _ _ => none
  | .define _ name _ _ _ => some name

namespace Context

/-- Only the function that is entered gets another signature. -/
theorem agreeOn_enter (context : Context) {entry : Option (String × Signature)}
    {names : List String}
    (absent : ∀ name signature, entry = some (name, signature) → name ∉ names) :
    AgreeOn names context (context.enter entry) := by
  cases entry with
  | none => exact .refl context
  | some found =>
      rcases found with ⟨name, signature⟩
      refine ⟨rfl, rfl, ?_⟩
      intro other isName
      have isOther : name ≠ other := by
        rintro rfl
        exact absent name signature rfl isName
      rw [enter, signature?, signature?, functions_define, if_neg isOther]

/-- Two functions can be entered in either order. -/
theorem enter_comm (context : Context) {first second : Option (String × Signature)}
    (distinct : ∀ name signature, first = some (name, signature) →
      ∀ other otherSignature, second = some (other, otherSignature) → name ≠ other) :
    (context.enter first).enter second = (context.enter second).enter first := by
  cases first with
  | none => rfl
  | some firstEntry =>
      cases second with
      | none => rfl
      | some secondEntry =>
          have isOther := distinct _ _ rfl _ _ rfl
          have sameFunctions : (context.functions.insert firstEntry.1 firstEntry.2).insert
              secondEntry.1 secondEntry.2 =
                (context.functions.insert secondEntry.1 secondEntry.2).insert
                  firstEntry.1 firstEntry.2 := by
            apply Std.ExtTreeMap.ext_getElem?
            intro name
            simp only [Std.ExtTreeMap.getElem?_insert, Std.compare_eq_iff_eq]
            by_cases isFirst : firstEntry.1 = name
            · have notSecond : secondEntry.1 ≠ name := fun isSecond =>
                isOther (isFirst.trans isSecond.symm)
              rw [if_neg notSecond, if_pos isFirst, if_pos isFirst]
            · rw [if_neg isFirst, if_neg isFirst]
          exact congrArg (Context.mk context.globals context.locals) sameFunctions

end Context

namespace Stmt

/-- A draft reads the variables and the signatures of the functions that are
called. -/
theorem draft_congr {stmt : Stmt} {context other : Context}
    (agree : Context.AgreeOn stmt.callees context other) :
    stmt.draft context = stmt.draft other := by
  cases stmt with
  | expr span value =>
      rw [callees] at agree
      rw [draft, draft, value.compile_congr agree]
  | define span name params returns body =>
      rw [callees] at agree
      rw [draft, draft, body.compile_congr (agree.withParams params)]

/-- Only the function that a statement defines is entered. -/
theorem definedName?_of_entered {context : Context} {stmt : Stmt} {name : String}
    {signature : Signature} (entered : stmt.entry? context = some (name, signature)) :
    stmt.definedName? = some name := by
  unfold entry? at entered
  cases outcomeEq : (stmt.draft context).outcome with
  | error fault =>
      rw [outcomeEq] at entered
      cases entered
  | ok drafted =>
      rw [outcomeEq] at entered
      cases stmt with
      | expr span value =>
          simp only [draft, Logged.bind_eq_ok_iff, Logged.pure_eq_ok_iff] at outcomeEq
          rcases outcomeEq with ⟨_, _, rfl⟩
          cases entered
      | define span defined params returns body =>
          simp only [draft, Logged.bind_eq_ok_iff, Logged.pure_eq_ok_iff] at outcomeEq
          rcases outcomeEq with ⟨_, _, _, _, _, _, rfl⟩
          cases entered
          rfl

/-! ## Independence -/

/-- Whether a statement does not define a function that another one defines or
calls. -/
def Avoids (stmt other : Stmt) : Prop :=
  ∀ name ∈ stmt.definedName?, other.definedName? ≠ some name ∧ name ∉ other.callees

/-- Whether neither of two statements defines a function that the other one
defines or calls. -/
def Independent (first second : Stmt) : Prop :=
  first.Avoids second ∧ second.Avoids first

instance (first second : Stmt) : Decidable (first.Independent second) :=
  inferInstanceAs (Decidable ((∀ name ∈ first.definedName?, _) ∧ ∀ name ∈ second.definedName?, _))

/-- A statement drafts the same behind one that avoids it. -/
theorem Avoids.draft_eq {first second : Stmt} (avoids : first.Avoids second) (context : Context) :
    second.draft (first.contextAfter context) = second.draft context := by
  have agree : Context.AgreeOn second.callees context (first.contextAfter context) := by
    rw [contextAfter_eq_enter]
    apply context.agreeOn_enter
    intro name signature entered
    exact (avoids name (definedName?_of_entered entered)).2
  exact (draft_congr agree).symm

theorem Avoids.result_eq {first second : Stmt} (avoids : first.Avoids second) (context : Context) :
    second.result (first.contextAfter context) = second.result context := by
  rw [result_eq_draft, result_eq_draft, avoids.draft_eq context]

theorem Avoids.entry?_eq {first second : Stmt} (avoids : first.Avoids second) (context : Context) :
    second.entry? (first.contextAfter context) = second.entry? context := by
  unfold entry?
  rw [avoids.draft_eq context]

/-- Independent statements leave the same context behind in either order. -/
theorem Independent.contextAfter_comm {first second : Stmt}
    (independent : first.Independent second) (context : Context) :
    second.contextAfter (first.contextAfter context) =
      first.contextAfter (second.contextAfter context) := by
  rw [contextAfter_eq_enter (first.contextAfter context) second,
    contextAfter_eq_enter (second.contextAfter context) first,
    independent.1.entry?_eq context, independent.2.entry?_eq context,
    contextAfter_eq_enter context first, contextAfter_eq_enter context second]
  apply context.enter_comm
  rintro name signature entered _ otherSignature otherEntered rfl
  exact (independent.1 name (definedName?_of_entered entered)).1
    (definedName?_of_entered otherEntered)

end Stmt

/-! ## Reordering -/

namespace Program

/-- The results of statements that carry labels, with these labels. -/
def labelledResults {ι : Type} (context : Context) (stmts : List (ι × Stmt)) :
    List (ι × Logged Formula) :=
  (stmts.map Prod.fst).zip (compileEach context (stmts.map Prod.snd)).1

/-- Whether two lists of labelled statements give the same results to the same
labels and leave the same context behind. -/
structure SameRun {ι : Type} (context : Context) (stmts others : List (ι × Stmt)) : Prop where
  results : (labelledResults context stmts).Perm (labelledResults context others)
  after : (compileEach context (stmts.map Prod.snd)).2 =
    (compileEach context (others.map Prod.snd)).2

section

variable {ι : Type} {context : Context} {stmts others : List (ι × Stmt)}

theorem labelledResults_cons (context : Context) (stmt : ι × Stmt) (rest : List (ι × Stmt)) :
    labelledResults context (stmt :: rest) =
      (stmt.1, stmt.2.result context) ::
        labelledResults (stmt.2.contextAfter context) rest := by
  simp only [labelledResults, List.map_cons, compileEach_cons, List.zip_cons_cons]

namespace SameRun

theorem refl (context : Context) (stmts : List (ι × Stmt)) : SameRun context stmts stmts :=
  ⟨.refl _, rfl⟩

theorem trans {last : List (ι × Stmt)} (first : SameRun context stmts others)
    (second : SameRun context others last) : SameRun context stmts last :=
  ⟨first.results.trans second.results, first.after.trans second.after⟩

theorem cons {stmt : ι × Stmt} (rest : SameRun (stmt.2.contextAfter context) stmts others) :
    SameRun context (stmt :: stmts) (stmt :: others) where
  results := by
    rw [labelledResults_cons, labelledResults_cons]
    exact rest.results.cons _
  after := by
    simp only [List.map_cons, compileEach_cons]
    exact rest.after

/-- Independent statements next to each other can change places. -/
theorem swap {first second : ι × Stmt} (independent : first.2.Independent second.2)
    (context : Context) (rest : List (ι × Stmt)) :
    SameRun context (first :: second :: rest) (second :: first :: rest) where
  results := by
    simp only [labelledResults_cons]
    rw [independent.1.result_eq context, independent.2.result_eq context,
      independent.contextAfter_comm context]
    exact .swap _ _ _
  after := by
    simp only [List.map_cons, compileEach_cons]
    rw [independent.contextAfter_comm context]

/-- A statement can be moved to the front, past statements independent of it. -/
theorem move_to_front {stmt : ι × Stmt} {front : List (ι × Stmt)}
    (independent : ∀ other ∈ front, other.2.Independent stmt.2) (context : Context)
    (back : List (ι × Stmt)) :
    SameRun context (front ++ stmt :: back) (stmt :: (front ++ back)) := by
  induction front generalizing context with
  | nil => exact .refl context _
  | cons head front ih =>
      rw [List.forall_mem_cons] at independent
      have moved := ih independent.2 (head.2.contextAfter context)
      exact (SameRun.cons moved).trans (.swap independent.1 context (front ++ back))

/-- Statements in the order of their labels run as in any other order in which
only independent statements have changed places. -/
theorem of_inversions [LT ι] (context : Context)
    (sorted : stmts.Pairwise fun earlier later => earlier.1 < later.1)
    (perm : others.Perm stmts)
    (inversions : others.Pairwise fun earlier later =>
      later.1 < earlier.1 → earlier.2.Independent later.2) :
    SameRun context others stmts := by
  induction stmts generalizing context others with
  | nil =>
      rw [List.perm_nil.1 perm]
      exact .refl context []
  | cons stmt rest ih =>
      rcases List.append_of_mem (perm.mem_iff.2 List.mem_cons_self) with ⟨front, back, rfl⟩
      have restPerm : (front ++ back).Perm rest := (List.perm_middle.symm.trans perm).cons_inv
      rw [List.pairwise_cons] at sorted
      rw [List.pairwise_append, List.pairwise_cons] at inversions
      rcases inversions with ⟨inFront, ⟨_, inBack⟩, across⟩
      have independent : ∀ other ∈ front, other.2.Independent stmt.2 := by
        intro other isFront
        have isLater := sorted.1 other (restPerm.mem_iff.1 (List.mem_append_left back isFront))
        exact across other isFront stmt List.mem_cons_self isLater
      have restInversions : (front ++ back).Pairwise fun earlier later =>
          later.1 < earlier.1 → earlier.2.Independent later.2 := by
        rw [List.pairwise_append]
        refine ⟨inFront, inBack, ?_⟩
        intro earlier isFront later isBack
        exact across earlier isFront later (List.mem_cons_of_mem stmt isBack)
      exact (move_to_front independent context back).trans
        (.cons (ih (stmt.2.contextAfter context) sorted.2 restPerm restInversions))

end SameRun

end

/-- The labelled results of numbered statements. -/
theorem mem_labelledResults_ofFn {ι : Type} {n : Nat} (context : Context) (label : Fin n → ι)
    (stmt : Fin n → Stmt) (entry : ι × Logged Formula) :
    entry ∈ labelledResults context (List.ofFn fun i => (label i, stmt i)) ↔
      ∃ i : Fin n, label i = entry.1 ∧
        (compileEach context (List.ofFn stmt)).1[i.val]? = some entry.2 := by
  have labels : (List.ofFn fun i => (label i, stmt i)).map Prod.fst = List.ofFn label :=
    List.map_ofFn ..
  have stmts : (List.ofFn fun i => (label i, stmt i)).map Prod.snd = List.ofFn stmt :=
    List.map_ofFn ..
  rw [labelledResults, labels, stmts, List.mem_iff_getElem?]
  simp only [List.getElem?_zip_eq_some, List.getElem?_ofFn]
  constructor
  · rintro ⟨k, labelEq, found⟩
    split at labelEq
    · rename_i inRange
      exact ⟨⟨k, inRange⟩, Option.some.inj labelEq, found⟩
    · cases labelEq
  · rintro ⟨i, labelEq, found⟩
    refine ⟨i.val, ?_, found⟩
    rw [dif_pos i.isLt, ← labelEq]

/-- A program in another order: at each place stands the statement whose number
the order gives there. -/
def reordered (program : Program) (order : Equiv.Perm (Fin program.length)) : Program :=
  List.ofFn fun i => program.get (order i)

/-- Whether an order lets only independent statements change places. -/
def KeepsDependent (program : Program) (order : Equiv.Perm (Fin program.length)) : Prop :=
  ∀ i j, i < j → order j < order i →
    (program.get (order i)).Independent (program.get (order j))

theorem sameRun_reordered {program : Program} {order : Equiv.Perm (Fin program.length)}
    (keeps : program.KeepsDependent order) (context : Context) :
    SameRun context (List.ofFn fun i => (order i, program.get (order i)))
      (List.ofFn fun i => (id i, program.get i)) := by
  apply SameRun.of_inversions context
  · rw [List.pairwise_ofFn]
    exact fun _ _ isBefore => isBefore
  · exact order.ofFn_comp_perm fun i => (i, program.get i)
  · rw [List.pairwise_ofFn]
    exact keeps

/-- Every statement has the result in another order that it has in the first. -/
theorem exists_result_reordered {program : Program} {order : Equiv.Perm (Fin program.length)}
    (keeps : program.KeepsDependent order) (context : Context) (i : Fin program.length) :
    ∃ result, (compileEach context program).1[(order i).val]? = some result ∧
      (compileEach context (program.reordered order)).1[i.val]? = some result := by
  have inRange : i.val < (compileEach context (program.reordered order)).1.length := by
    rw [length_compileEach, reordered, List.length_ofFn]
    exact i.isLt
  have found := List.getElem?_eq_getElem inRange
  have isLabelled := (mem_labelledResults_ofFn context order (fun i => program.get (order i))
    (order i, _)).2 ⟨i, rfl, found⟩
  rw [(sameRun_reordered keeps context).results.mem_iff,
    mem_labelledResults_ofFn context id program.get] at isLabelled
  rcases isLabelled with ⟨_, rfl, foundFirst⟩
  rw [List.ofFn_get] at foundFirst
  exact ⟨_, foundFirst, found⟩

end Program

open Program

/-- Independent statements commute.  If neither of two statements defines a
function that the other defines or calls, then both have the same results in
either order and leave the same context behind.  Hence in any order of a program
that keeps two statements in order whenever they are not independent, every
statement has the same result, and the context at the end is the same. -/
theorem independent_statements_commute (context : Context) :
    (∀ first second : Stmt, first.Independent second →
      ∃ firstResult secondResult after,
        compileEach context [first, second] = ([firstResult, secondResult], after) ∧
        compileEach context [second, first] = ([secondResult, firstResult], after)) ∧
    ∀ (program : Program) (order : Equiv.Perm (Fin program.length)),
      program.KeepsDependent order →
        (∀ i : Fin program.length, ∃ result,
          (compileEach context program).1[(order i).val]? = some result ∧
          (compileEach context (program.reordered order)).1[i.val]? = some result) ∧
        (compileEach context (program.reordered order)).2 = (compileEach context program).2 := by
  constructor
  · intro first second independent
    refine ⟨first.result context, second.result context,
      second.contextAfter (first.contextAfter context), ?_, ?_⟩
    · rw [compileEach_cons, compileEach_cons, independent.1.result_eq context]
      rfl
    · rw [compileEach_cons, compileEach_cons, independent.2.result_eq context,
        independent.contextAfter_comm context]
      rfl
  · intro program order keeps
    constructor
    · exact exists_result_reordered keeps context
    · have after := (sameRun_reordered keeps context).after
      simp only [List.map_ofFn, Function.comp_def] at after
      rw [reordered, after, List.ofFn_get]

/-- A function, a mapped call of it, and another function.  The call has to stay
behind the first function; the other one may be moved to the front. -/
theorem independent_statements_commute_rotation :
    let place : Span := .nowhere
    let param : Param := ⟨place, "x", .number⟩
    let function : Stmt := .define place "f" [param] none (.var place "x")
    let use : Stmt :=
      .expr place (.macroCall place mapName [.var place "f", .list place [.number place "1"]])
    let other : Stmt := .define place "g" [param] none (.call place .normal "sin" [.var place "x"])
    let program : Program := [function, use, other]
    let order : Equiv.Perm (Fin 3) := (Equiv.swap 0 1).trans (Equiv.swap 1 2)
    let context := Context.ofGlobals ∅
    function.Independent other ∧ ¬ function.Independent use ∧
      (∃ functionResult otherResult after,
        compileEach context [function, other] = ([functionResult, otherResult], after) ∧
        compileEach context [other, function] = ([otherResult, functionResult], after)) ∧
      program.KeepsDependent order ∧ program.reordered order = [other, function, use] ∧
      (compileEach context [other, function, use]).2 = (compileEach context program).2 := by
  intro place param function use other program order context
  have independent : function.Independent other := by decide
  have dependent : ¬ function.Independent use := by decide
  have keeps : program.KeepsDependent order := by
    unfold KeepsDependent
    decide
  have moved : program.reordered order = [other, function, use] := rfl
  have commute := independent_statements_commute context
  have sameContext := (commute.2 program order keeps).2
  rw [moved] at sameContext
  exact ⟨independent, dependent, commute.1 function other independent, keeps, moved, sameContext⟩

end GraphCalc
