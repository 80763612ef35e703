import GraphCalc.Compile.Expr
import GraphCalc.Compile.Session

/-!
# Compiling programs

Statements are compiled in order, in one session.  While the body of a definition is
compiled, its parameters are local variables; the local variables from before are put
back however the definition ends.  The function is entered behind its body, so the
first definition of a function cannot call the function itself; a later one calls
the function as it was defined before.
-/

namespace GraphCalc

/-- Check the type of a body against the type its definition announces. -/
def Compile.checkReturn (span : Span) (returns : Option ValueType) (type : ValueType) :
    Logged Unit :=
  match returns with
  | none => pure ()
  | some expected =>
      if expected = type then
        pure ()
      else
        .fail (.mistake span (.typeMismatch type expected))

namespace Stmt

open Compiling

/-- Compile a statement. -/
def step : Stmt → Compiling Formula
  | .expr _ value => do
      let compiled ← look fun context => value.compile context
      return compiled.formula
  | .define _ name params returns body => restoringLocals do
      change fun session => session.enter params
      let compiled ← look fun context => body.compile context
      look fun _ => Compile.checkReturn body.span returns compiled.type
      let signature : Signature := ⟨params.map Param.type, compiled.type, false⟩
      let names := params.map Param.name
      change fun session => session.define name signature
      look fun _ => Logged.note (.registered name names signature)
      return .define name names compiled.formula

/-- The formula of a statement, and the context after it. -/
def compile (context : Context) (stmt : Stmt) : Logged (Formula × Context) :=
  let (result, after) := stmt.step (.ofContext context)
  ⟨result.notes, result.outcome.map fun formula => (formula, after.context)⟩

end Stmt

namespace Session

/-- What compiling a program up to the first fault gives: the formulas of the
statements before it, the log, the fault if there is one, and the session behind. -/
structure Run where
  formulas : List Formula
  notes : List Note
  fault : Option Fault
  last : Session

/-- Compile statements in order, up to the first fault. -/
def compile (session : Session) : Program → Run
  | [] => ⟨[], [], none, session⟩
  | stmt :: rest =>
      let (result, after) := stmt.step session
      match result.outcome with
      | .error fault => ⟨[], result.notes, some fault, after⟩
      | .ok formula =>
          let others := compile after rest
          { others with
            formulas := formula :: others.formulas
            notes := result.notes ++ others.notes }

/-- Compile statements in order, going on after faults: the log and the formula
or the fault of every statement, and the session after the last. -/
def compileEach (session : Session) : Program → List (Logged Formula) × Session
  | [] => ([], session)
  | stmt :: rest =>
      let (result, after) := stmt.step session
      let (results, last) := compileEach after rest
      (result :: results, last)

end Session

/-- What compiling a program gives: the formulas of the statements before the
first fault, the context behind them, the log, and the fault if there is
one. -/
structure Compiled where
  formulas : List Formula
  context : Context
  notes : List Note
  fault : Option Fault

namespace Program

/-- Compile statements in order, up to the first fault. -/
def compile (context : Context) (program : Program) : Compiled :=
  let run := (Session.ofContext context).compile program
  ⟨run.formulas, run.last.context, run.notes, run.fault⟩

/-- Compile statements in order, going on after faults: the log and the formula
or the fault of every statement, and the context after the last. -/
def compileEach (context : Context) (program : Program) : List (Logged Formula) × Context :=
  let (results, last) := (Session.ofContext context).compileEach program
  (results, last.context)

end Program

end GraphCalc
