import GraphCalc.Proofs.Compile.Scoping
import Mathlib.Data.List.Chain

/-!
# Functions that call themselves

A definition is known to the statements behind it only, so a body calls functions
that are defined before it.  This excludes recursion as long as no function is
defined again.  A second definition, however, may call the function that it
replaces, and the formulas then define a function by itself.  On every cycle of calls
there is a function that is defined more than once.
-/

namespace GraphCalc

namespace Formula

/-- Whether a definition of a function calls a function of the program. -/
def Calls (formulas : List Formula) (caller callee : String) : Prop :=
  ∃ params body arity, define caller params body ∈ formulas ∧
    .call callee false arity ∈ body.occurrences

/-- Whether the formula with a given number defines a function. -/
def DefinedAt (formulas : List Formula) (name : String) (k : Nat) : Prop :=
  ∃ params body, formulas[k]? = some (define name params body)

/-- Whether a function is defined more than once. -/
def Redefined (formulas : List Formula) (name : String) : Prop :=
  ∃ i j, i < j ∧ DefinedAt formulas name i ∧ DefinedAt formulas name j

theorem Redefined.of_ne {formulas : List Formula} {name : String} {i j : Nat} (distinct : i ≠ j)
    (first : DefinedAt formulas name i) (second : DefinedAt formulas name j) :
    Redefined formulas name := by
  rcases Nat.lt_or_gt_of_ne distinct with before | after
  · exact ⟨i, j, before, first, second⟩
  · exact ⟨j, i, after, second, first⟩

/-- The last definition among the first formulas is at an earlier place. -/
theorem LastDefinition.exists_lt {formulas : List Formula} {k : Nat} {name : String}
    {params : List String} (last : LastDefinition (formulas.take k) name params) :
    ∃ j < k, DefinedAt formulas name j := by
  rcases last with ⟨before, body, after, taken, -⟩
  have found : (formulas.take k)[before.length]? = some (define name params body) := by
    rw [taken, List.getElem?_append_right (Nat.le_refl _), Nat.sub_self]
    rfl
  rw [List.getElem?_take] at found
  split at found
  · rename_i isBefore
    exact ⟨before.length, isBefore, params, body, found⟩
  · cases found

end Formula

open Formula

/-- Every name of a formula was checked against a mention. -/
theorem InScope.exists_of_mem {globals : NameMap ValueType} {earlier : List Formula}
    {params : List String} {mentions : List Mention} {occurrences : List Occurrence}
    (inScope : List.Forall₂ (InScope globals earlier params) mentions occurrences)
    {occurrence : Occurrence} (occurs : occurrence ∈ occurrences) :
    ∃ mention, InScope globals earlier params mention occurrence := by
  induction inScope with
  | nil => cases occurs
  | cons first _ ih =>
      rcases List.mem_cons.1 occurs with rfl | occurs
      · exact ⟨_, first⟩
      · exact ih occurs

/-- A body calls functions that are defined before it. -/
theorem Program.calls_earlier (globals : NameMap ValueType) (program : Program)
    {caller callee : String}
    (calls : Calls (Program.compile (Context.ofGlobals globals) program).formulas
      caller callee) :
    ∃ i j, j < i ∧
      DefinedAt (Program.compile (Context.ofGlobals globals) program).formulas caller i ∧
      DefinedAt (Program.compile (Context.ofGlobals globals) program).formulas callee j := by
  rcases calls with ⟨params, body, arity, isFormula, occurs⟩
  rcases List.getElem?_of_mem isFormula with ⟨i, found⟩
  have run := Program.inScope_compile (Context.records_ofGlobals globals) program
  rcases run.1 i _ found with ⟨stmt, -, inScope⟩
  rcases InScope.exists_of_mem inScope occurs with ⟨mention, checked⟩
  cases checked with
  | own last =>
      rcases last.exists_lt with ⟨j, isBefore, definedAt⟩
      exact ⟨i, j, isBefore, ⟨params, body, found⟩, definedAt⟩

open Relation

section

variable {formulas : List Formula}
  (earlier : ∀ caller callee, Calls formulas caller callee →
    ∃ i j, j < i ∧ DefinedAt formulas caller i ∧ DefinedAt formulas callee j)
include earlier

/-- Along calls of functions that are defined once, one gets to earlier definitions. -/
theorem Formula.exists_definedAt_of_isChain {first last : String} {rest : List String}
    (calls : (first :: rest ++ [last]).IsChain (Calls formulas))
    (once : ∀ name ∈ rest, ¬Redefined formulas name) :
    ∃ i j, j < i ∧ DefinedAt formulas first i ∧ DefinedAt formulas last j := by
  induction rest generalizing first with
  | nil =>
      rw [List.cons_append, List.nil_append, List.isChain_pair] at calls
      exact earlier first last calls
  | cons next rest ih =>
      rw [List.cons_append, List.cons_append, List.isChain_cons_cons] at calls
      rw [List.forall_mem_cons] at once
      rcases earlier first next calls.1 with ⟨i, j, isBefore, firstAt, nextAt⟩
      rcases ih calls.2 once.2 with ⟨nextIndex, k, lastBefore, nextAtIndex, lastAt⟩
      -- The function in between is defined at one place only, so the two places are the same.
      have sameIndex : j = nextIndex := by
        by_contra distinct
        exact once.1 (.of_ne distinct nextAt nextAtIndex)
      subst sameIndex
      exact ⟨i, k, Nat.lt_trans lastBefore isBefore, firstAt, lastAt⟩

/-- On a cycle of calls there is a function that is defined more than once. -/
theorem Formula.exists_redefined_of_cycle {first : String} {rest : List String}
    (cycle : (first :: rest ++ [first]).IsChain (Calls formulas)) :
    ∃ name ∈ first :: rest, Redefined formulas name := by
  by_contra noneRedefined
  have once : ∀ name ∈ first :: rest, ¬Redefined formulas name :=
    fun name onCycle redefined => noneRedefined ⟨name, onCycle, redefined⟩
  rw [List.forall_mem_cons] at once
  rcases exists_definedAt_of_isChain earlier cycle once.2 with ⟨i, j, isBefore, isFirst, again⟩
  exact once.1 ⟨j, i, isBefore, again, isFirst⟩

end

/-- What is reached from a function along calls is reached along a chain of them. -/
theorem Formula.exists_isChain_of_transGen {formulas : List Formula} {caller callee : String}
    (path : TransGen (Calls formulas) caller callee) :
    ∃ between, (caller :: between ++ [callee]).IsChain (Calls formulas) := by
  induction path with
  | single calls => exact ⟨[], .cons_cons calls (.singleton _)⟩
  | @tail middle callee _ calls ih =>
      rcases ih with ⟨between, chain⟩
      refine ⟨between ++ [middle], ?_⟩
      rw [List.cons_append, List.append_assoc, List.singleton_append,
        List.isChain_cons_append_cons_cons]
      exact ⟨chain, calls, .singleton callee⟩

/-- Recursion needs a redefinition.  In the formulas of a program a function whose body
calls the function itself is defined more than once; on every cycle of calls there is a
function that is defined more than once; and if no function is defined more than once,
no function is reached from itself along calls. -/
theorem recursion_needs_redefinition (globals : NameMap ValueType) (program : Program) :
    let formulas := (Program.compile (Context.ofGlobals globals) program).formulas
    (∀ name, Calls formulas name name → Redefined formulas name) ∧
      (∀ first rest, (first :: rest ++ [first]).IsChain (Calls formulas) →
        ∃ name ∈ first :: rest, Redefined formulas name) ∧
      ((∀ name, ¬Redefined formulas name) → ∀ name, ¬TransGen (Calls formulas) name name) := by
  intro formulas
  have earlier : ∀ caller callee, Calls formulas caller callee →
      ∃ i j, j < i ∧ DefinedAt formulas caller i ∧ DefinedAt formulas callee j :=
    fun _ _ => Program.calls_earlier globals program
  refine ⟨?_, fun _ _ cycle => exists_redefined_of_cycle earlier cycle, ?_⟩
  · intro name calls
    rcases earlier name name calls with ⟨i, j, isBefore, first, second⟩
    exact ⟨j, i, isBefore, second, first⟩
  · intro once name recursive
    rcases exists_isChain_of_transGen recursive with ⟨between, cycle⟩
    rcases exists_redefined_of_cycle earlier cycle with ⟨other, -, redefined⟩
    exact once other redefined

/-- Two functions that call each other: one is defined, called by the other, and
defined again by a call of the other. -/
theorem recursion_needs_redefinition_mutual :
    let place : Span := .nowhere
    let param : Param := ⟨place, "a", .number⟩
    let callOf (callee : String) : Expr := .call place .normal callee [.var place "a"]
    let program : Program :=
      [.define place "f" [param] none (.var place "a"),
        .define place "g" [param] none (callOf "f"), .define place "f" [param] none (callOf "g")]
    let formulas := (Program.compile (Context.ofGlobals ∅) program).formulas
    ["f", "g", "f"].IsChain (Calls formulas) ∧ ∃ name ∈ ["f", "g"], Redefined formulas name := by
  intro place param callOf program formulas
  have formulasEq : formulas =
      [.define "f" ["a"] (.var "a"), .define "g" ["a"] (.call "f" false [.var "a"]),
        .define "f" ["a"] (.call "g" false [.var "a"])] := by
    dsimp only [formulas, program, callOf, param, place]
    rfl
  have forth : Calls formulas "f" "g" := by
    rw [formulasEq]
    exact ⟨["a"], .call "g" false [.var "a"], 1, .tail _ (.tail _ (.head _)), .head _⟩
  have back : Calls formulas "g" "f" := by
    rw [formulasEq]
    exact ⟨["a"], .call "f" false [.var "a"], 1, .tail _ (.head _), .head _⟩
  have cycle : ["f", "g", "f"].IsChain (Calls formulas) :=
    .cons_cons forth (.cons_cons back (.singleton _))
  exact ⟨cycle, (recursion_needs_redefinition ∅ program).2.1 "f" ["g"] cycle⟩

/-- A program without a fault can define a function by a call of itself, namely
when it defines the function for a second time. -/
theorem redefinition_can_be_recursive :
    let place : Span := .nowhere
    let param : Param := ⟨place, "a", .number⟩
    let program : Program :=
      [.define place "f" [param] none (.var place "a"),
        .define place "f" [param] none (.call place .normal "f" [.var place "a"])]
    let compiled := Program.compile (Context.ofGlobals ∅) program
    compiled.fault = none ∧ Calls compiled.formulas "f" "f" ∧
      TransGen (Calls compiled.formulas) "f" "f" := by
  intro place param program compiled
  have accepted : compiled.fault = none := by
    dsimp only [compiled, program, param, place]
    rfl
  have formulasEq : compiled.formulas =
      [.define "f" ["a"] (.var "a"), .define "f" ["a"] (.call "f" false [.var "a"])] := by
    dsimp only [compiled, program, param, place]
    rfl
  have calls : Calls compiled.formulas "f" "f" := by
    rw [formulasEq]
    exact ⟨["a"], .call "f" false [.var "a"], 1, .tail _ (.head _), .head _⟩
  exact ⟨accepted, calls, .single calls⟩

end GraphCalc
