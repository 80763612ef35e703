import GraphCalc.Command.Run
import GraphCalc.Proofs.Compile.Session
import GraphCalc.Proofs.Files.Replacement

/-!
# All or nothing

A run that succeeds has written the lines of the formulas of all statements of
its input, and a run that fails has written no line of them.  Compiling hands on
the formulas in front of a fault together with the fault, and the host may refuse
each step of writing a file, so this is a statement about every way a run can end.
How arguments and globals documents are read does not matter.
-/

namespace GraphCalc

open Text (Bytes utf8)

namespace Program

/-- A run that stops has not stopped exactly if no statement fails when all of
them are compiled, and then it has the formulas of all. -/
theorem outcomes_eq_ok_iff (context : Context) (program : Program) (formulas : List Formula) :
    (compileEach context program).1.map Logged.outcome = formulas.map .ok ↔
      (compile context program).fault = none ∧
        (compile context program).formulas = formulas := by
  rcases exists_compile_eq context program with ⟨front, rest, rfl, frontOutcomes, _, ending⟩
  rcases ending with ⟨rfl, noFault⟩ | ⟨stmt, others, fault, rfl, failed, hasFault⟩
  · rw [List.append_nil] at frontOutcomes noFault ⊢
    rw [frontOutcomes, List.map_inj_right (fun _ _ => Except.ok.inj)]
    exact ⟨fun same => ⟨noFault, same⟩, fun both => both.2⟩
  · rw [hasFault]
    refine iff_of_false ?_ (fun both => nomatch both.1)
    intro allFormulas
    -- The statement that stops the run fails among all statements, too.
    have isFault : Except.error fault ∈ formulas.map Except.ok := by
      rw [← allFormulas, compileEach_append, compileEach_cons]
      simp [failed]
    simp at isFault

end Program

namespace Command

/-- The input of a run can be read, all of its lines are statements, none of them
fails, and `text` has a line for the formula of each. -/
def Renders (behavior : Behavior) (tree : FileTree) (options : Options)
    (globals : NameMap ValueType) (text : Bytes) : Prop :=
  ∃ source formulas,
    behavior.read tree options.input = .ok source ∧
      let parsed := Parsed.ofText options.input (Text.decode source)
      parsed.errors = [] ∧
        (Program.compileEach (Context.ofGlobals globals) parsed.program).1.map Logged.outcome =
          formulas.map .ok ∧
        Formula.latexLines formulas = .ok text

/-- A text compiles without failure exactly if it has no line that cannot be read
and no statement that fails. -/
theorem compileText_failure_eq_none_iff (globals : NameMap ValueType) (file : String)
    (text : List Char) (formulas : List Formula) :
    ((compileText globals file text).failure = none ∧
        (compileText globals file text).formulas = formulas) ↔
      (Parsed.ofText file text).errors = [] ∧
        (Program.compileEach (Context.ofGlobals globals)
          (Parsed.ofText file text).program).1.map Logged.outcome = formulas.map .ok := by
  rw [Program.outcomes_eq_ok_iff, compileText]
  by_cases readable : (Parsed.ofText file text).errors = []
  · simp [readable]
  · simp [readable]

/-- Compiling an input gives a text exactly if compiling has no failure and every
formula has a text. -/
theorem compileInput_eq_ok_iff (options : Options) (globals : NameMap ValueType)
    (source text : Bytes) :
    (∃ count, (compileInput options globals (.ok source)).result = .ok (text, count)) ↔
      (compileText globals options.input (Text.decode source)).failure = none ∧
        Formula.latexLines (compileText globals options.input (Text.decode source)).formulas =
          .ok text := by
  rw [compileInput]
  rcases compileText globals options.input (Text.decode source) with ⟨formulas, notes, failure⟩
  cases failure with
  | some failure => simp
  | none =>
      cases Formula.latexLines formulas with
      | error fault => simp
      | ok lines => simp

/-! ## Builds -/

section

variable {behavior : Behavior} {tree : FileTree} {options : Options}
variable {globals : NameMap ValueType}

/-- Compiling an input gives the text of all of it or none. -/
theorem exists_compileInput_eq_ok_iff (behavior : Behavior) (tree : FileTree) (options : Options)
    (globals : NameMap ValueType) (text : Bytes) :
    (∃ count, (compileInput options globals (behavior.read tree options.input)).result =
        .ok (text, count)) ↔
      Renders behavior tree options globals text := by
  unfold Renders
  cases readEq : behavior.read tree options.input with
  | error error => simp [compileInput]
  | ok source =>
      rw [compileInput_eq_ok_iff]
      constructor
      · rintro ⟨noFailure, linesEq⟩
        have compiled := (compileText_failure_eq_none_iff _ _ _ _).1 ⟨noFailure, rfl⟩
        exact ⟨source, _, rfl, compiled.1, compiled.2, linesEq⟩
      · rintro ⟨_, formulas, ⟨⟩, readable, outcomes, linesEq⟩
        rcases (compileText_failure_eq_none_iff _ _ _ _).2 ⟨readable, outcomes⟩ with
          ⟨noFailure, rfl⟩
        exact ⟨noFailure, linesEq⟩

theorem Renders.unique {first second : Bytes}
    (rendersFirst : Renders behavior tree options globals first)
    (rendersSecond : Renders behavior tree options globals second) : first = second := by
  rcases (exists_compileInput_eq_ok_iff _ _ _ _ first).2 rendersFirst with ⟨_, firstEq⟩
  rcases (exists_compileInput_eq_ok_iff _ _ _ _ second).2 rendersSecond with ⟨_, secondEq⟩
  cases firstEq.symm.trans secondEq
  rfl

/-- The ways a build can end: nothing to write, or written to standard output, or
written to the output file as far as that goes. -/
inductive Ends (behavior : Behavior) (tree : FileTree) (options : Options)
    (globals : NameMap ValueType) : Except Failure Unit → World → Prop
  | uncompiled (failure : Failure) (shown : String)
      (noText : ∀ text, ¬ Renders behavior tree options globals text) :
      Ends behavior tree options globals (.error failure) ⟨tree, [], shown⟩
  | printed {text : Bytes} (renders : Renders behavior tree options globals text)
      (noOutput : options.output = "") (shown : String) :
      Ends behavior tree options globals (.ok ()) ⟨tree, text, shown⟩
  | output {text : Bytes} (renders : Renders behavior tree options globals text)
      (toOutput : options.output ≠ "") {result : Except Failure Unit} {after : FileTree}
      (writes : behavior.Writes tree options.output text result after) (shown : String) :
      Ends behavior tree options globals result ⟨after, [], shown⟩

namespace Ends

variable {result : Except Failure Unit} {after : World}

theorem keeps (ends : Ends behavior tree options globals result after) {place : Location}
    {entry : Entry} (there : tree.entry? place = some entry)
    (notOutput : tree.locate options.output ≠ .ok place) :
    after.tree.entry? place = some entry := by
  cases ends with
  | uncompiled => exact there
  | printed => exact there
  | output renders toOutput writes => exact writes.keeps there notOutput

end Ends

/-! ## Runs -/

end

end Command

end GraphCalc
