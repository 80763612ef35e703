import GraphCalc.Compile.Program
import GraphCalc.Proofs.Compile.Typing

/-!
# Statements one after another

A statement has a result, which is a formula or a fault, and leaves a session behind.
A definition changes the local variables before its body is compiled, and there are
three ways out of it: a fault of the body, a type that is not the announced one, and
success.  The local variables are put back on each of them, and the last one makes the
function known; nothing else remains of what was done on the way.  So a run of
statements that goes on after faults has the results it would have without the
statements that fail, and a run that stops at a fault is the run of the statements
before it.
-/

namespace GraphCalc

/-! ## Steps -/

namespace Compiling

variable {α β : Type} {first : Compiling α} {session : Session}

/-- What follows a computation that fails is not reached. -/
theorem bind_of_error {fault : Fault} (next : α → Compiling β)
    (failed : (first session).1.outcome = .error fault) :
    (first >>= next) session =
      (⟨(first session).1.notes, .error fault⟩, (first session).2) := by
  simp only [bind, failed]

/-- What follows a computation that succeeds goes on in the session that it leaves. -/
theorem bind_of_ok {value : α} (next : α → Compiling β)
    (succeeded : (first session).1.outcome = .ok value) :
    (first >>= next) session =
      (⟨(first session).1.notes ++ (next value (first session).2).1.notes,
        (next value (first session).2).1.outcome⟩, (next value (first session).2).2) := by
  simp only [bind, succeeded]

end Compiling

/-- A body agrees with its definition if that announces its type or none. -/
theorem Compile.checkReturn_eq_ok_iff (span : Span) (returns : Option ValueType)
    (type : ValueType) (done : Unit) :
    (checkReturn span returns type).outcome = .ok done ↔
      ∀ announced ∈ returns, announced = type := by
  cases returns with
  | none => exact iff_of_true rfl nofun
  | some announced =>
      rw [checkReturn]
      by_cases agrees : announced = type
      · simp [agrees]
      · simp [agrees]

/-- Make a function known, if there is one. -/
def Context.enter (context : Context) : Option (String × Signature) → Context
  | none => context
  | some (name, signature) => context.define name signature

namespace Session

/-- Make a function known, if there is one. -/
def register (session : Session) : Option (String × Signature) → Session
  | none => session
  | some (name, signature) => session.define name signature

theorem context_register (session : Session) (entry : Option (String × Signature)) :
    (session.register entry).context = session.context.enter entry := by
  cases entry with
  | none => rfl
  | some found => rfl

/-- Making a function known leaves the variables alone. -/
theorem variables_register (session : Session) (entry : Option (String × Signature)) :
    (session.register entry).globals = session.globals ∧
      (session.register entry).locals = session.locals := by
  cases entry with
  | none => exact ⟨rfl, rfl⟩
  | some found => exact ⟨rfl, rfl⟩

end Session

namespace Stmt

/-- The formula of a statement and the function that it makes known, with a context
that serves to look up names only. -/
def draft (context : Context) : Stmt → Logged (Formula × Option (String × Signature))
  | .expr _ value => do
      let compiled ← value.compile context
      return (compiled.formula, none)
  | .define _ name params returns body => do
      let compiled ← body.compile (context.withParams params)
      Compile.checkReturn body.span returns compiled.type
      let signature : Signature := ⟨params.map Param.type, compiled.type, false⟩
      let names := params.map Param.name
      Logged.note (.registered name names signature)
      return (.define name names compiled.formula, some (name, signature))

/-- The function that a statement makes known; one that fails makes none known. -/
def entry? (context : Context) (stmt : Stmt) : Option (String × Signature) :=
  match (stmt.draft context).outcome with
  | .error _ => none
  | .ok (_, entry) => entry

section

variable {session : Session} {span : Span} {name : String} {params : List Param}
variable {returns : Option ValueType} {body : Expr}

open Compiling

/-- The first way out of a definition: the body fails, while the parameters are local
variables. -/
theorem step_define_of_fault {fault : Fault}
    (failed : (body.compile (session.context.withParams params)).outcome = .error fault) :
    (Stmt.define span name params returns body).step session =
      (⟨(body.compile (session.context.withParams params)).notes, .error fault⟩, session) := by
  have atBody : ((look fun context => body.compile context) (session.enter params)).1.outcome =
      .error fault := failed
  rw [step, restoringLocals, bind_of_ok _ rfl, change, bind_of_error _ atBody]
  rfl

/-- The second way out: the body has a type that is not announced. -/
theorem step_define_of_mismatch {compiled : Typed} {fault : Fault}
    (bodyCompiled : (body.compile (session.context.withParams params)).outcome = .ok compiled)
    (failed : (Compile.checkReturn body.span returns compiled.type).outcome = .error fault) :
    (Stmt.define span name params returns body).step session =
      (⟨(body.compile (session.context.withParams params)).notes ++
        (Compile.checkReturn body.span returns compiled.type).notes, .error fault⟩, session) := by
  have atBody : ((look fun context => body.compile context) (session.enter params)).1.outcome =
      .ok compiled := bodyCompiled
  rw [step, restoringLocals, bind_of_ok _ rfl, change, bind_of_ok _ atBody, bind_of_error _ failed]
  rfl

/-- The third way out: the function is made known. -/
theorem step_define_of_ok {compiled : Typed} {done : Unit}
    (bodyCompiled : (body.compile (session.context.withParams params)).outcome = .ok compiled)
    (agrees : (Compile.checkReturn body.span returns compiled.type).outcome = .ok done) :
    let signature : Signature := ⟨params.map Param.type, compiled.type, false⟩
    (Stmt.define span name params returns body).step session =
      (⟨(body.compile (session.context.withParams params)).notes ++
        ((Compile.checkReturn body.span returns compiled.type).notes ++
          [.registered name (params.map Param.name) signature]),
        .ok (.define name (params.map Param.name) compiled.formula)⟩,
        session.define name signature) := by
  have atBody : ((look fun context => body.compile context) (session.enter params)).1.outcome =
      .ok compiled := bodyCompiled
  rw [step, restoringLocals, bind_of_ok _ rfl, change, bind_of_ok _ atBody, bind_of_ok _ agrees]
  rfl

end

/-- Compiling a statement comes to drafting it and making its function known, although
the local variables are changed on the way. -/
theorem step_eq_draft (session : Session) (stmt : Stmt) :
    stmt.step session =
      (⟨(stmt.draft session.context).notes, (stmt.draft session.context).outcome.map Prod.fst⟩,
        session.register (stmt.entry? session.context)) := by
  unfold entry?
  cases stmt with
  | expr span value =>
      rw [step, draft]
      cases outcomeEq : (value.compile session.context).outcome with
      | error fault =>
          rw [Compiling.bind_of_error _ outcomeEq]
          simp only [bind, outcomeEq]
          rfl
      | ok compiled =>
          rw [Compiling.bind_of_ok _ outcomeEq]
          simp only [bind, outcomeEq]
          rfl
  | define span name params returns body =>
      rw [draft]
      cases outcomeEq : (body.compile (session.context.withParams params)).outcome with
      | error fault =>
          rw [step_define_of_fault outcomeEq]
          simp only [bind, outcomeEq]
          rfl
      | ok compiled =>
          cases checkEq : (Compile.checkReturn body.span returns compiled.type).outcome with
          | error fault =>
              rw [step_define_of_mismatch outcomeEq checkEq]
              simp only [bind, outcomeEq, checkEq]
              rfl
          | ok done =>
              rw [step_define_of_ok outcomeEq checkEq]
              simp only [bind, outcomeEq, checkEq]
              rfl

/-- No statement changes the variables, whether it fails or not. -/
theorem variables_step (session : Session) (stmt : Stmt) :
    (stmt.step session).2.globals = session.globals ∧
      (stmt.step session).2.locals = session.locals := by
  rw [step_eq_draft]
  exact session.variables_register _

/-- A statement that fails leaves the session as it was. -/
theorem step_of_error {session : Session} {stmt : Stmt} {fault : Fault}
    (failed : (stmt.step session).1.outcome = .error fault) :
    (stmt.step session).2 = session := by
  rw [step_eq_draft] at failed ⊢
  unfold entry?
  cases outcomeEq : (stmt.draft session.context).outcome with
  | error fault => rfl
  | ok drafted =>
      rw [outcomeEq] at failed
      cases failed

/-- What a statement with a given outcome does to the functions of a session: a
definition that succeeds enters the types of its parameters and the type of its
body under its name, and nothing else changes any entry. -/
def Registers (before : Session) (stmt : Stmt) (outcome : Except Fault Formula)
    (after : Session) : Prop :=
  match stmt, outcome with
  | .define _ name params _ body, .ok _ =>
      ∃ compiled : Typed,
        (body.compile (before.context.withParams params)).outcome = .ok compiled ∧
          after.functions =
            before.functions.insert name ⟨params.map Param.type, compiled.type, false⟩
  | _, _ => after.functions = before.functions

theorem registers_step (session : Session) (stmt : Stmt) :
    stmt.Registers session (stmt.step session).1.outcome (stmt.step session).2 := by
  cases stmt with
  | expr span value =>
      rw [step_eq_draft, entry?, draft]
      rcases value.compile session.context with ⟨notes, fault | compiled⟩
      · rfl
      · rfl
  | define span name params returns body =>
      cases outcomeEq : (body.compile (session.context.withParams params)).outcome with
      | error fault =>
          rw [step_define_of_fault outcomeEq]
          rfl
      | ok compiled =>
          cases checkEq : (Compile.checkReturn body.span returns compiled.type).outcome with
          | error fault =>
              rw [step_define_of_mismatch outcomeEq checkEq]
              rfl
          | ok done =>
              rw [step_define_of_ok outcomeEq checkEq]
              exact ⟨compiled, outcomeEq, rfl⟩

/-! ## Contexts -/

/-- The log of a statement, and its formula or fault. -/
def result (context : Context) (stmt : Stmt) : Logged Formula :=
  (stmt.step (.ofContext context)).1

/-- The context that a statement leaves behind. -/
def contextAfter (context : Context) (stmt : Stmt) : Context :=
  (stmt.step (.ofContext context)).2.context

/-- A step depends on the meaning of names only. -/
theorem result_eq_step (session : Session) (stmt : Stmt) :
    (stmt.step session).1 = stmt.result session.context := by
  rw [result, step_eq_draft, step_eq_draft, Session.context_ofContext]

/-- Compiling a statement drafts it and makes its function known. -/
theorem compile_eq_draft (context : Context) (stmt : Stmt) :
    Stmt.compile context stmt =
      ⟨(stmt.draft context).notes,
        (stmt.draft context).outcome.map fun drafted => (drafted.1, context.enter drafted.2)⟩ := by
  rw [Stmt.compile, step_eq_draft, Session.context_ofContext]
  simp only [Session.context_register, Session.context_ofContext]
  unfold entry?
  cases (stmt.draft context).outcome with
  | error fault => rfl
  | ok drafted => rfl

theorem contextAfter_eq_enter (context : Context) (stmt : Stmt) :
    stmt.contextAfter context = context.enter (stmt.entry? context) := by
  rw [contextAfter, step_eq_draft, Session.context_register, Session.context_ofContext]

theorem result_eq_draft (context : Context) (stmt : Stmt) :
    stmt.result context =
      ⟨(stmt.draft context).notes, (stmt.draft context).outcome.map Prod.fst⟩ := by
  rw [result, step_eq_draft, Session.context_ofContext]

theorem compile_expr (context : Context) (span : Span) (value : Expr) :
    Stmt.compile context (.expr span value) = (do
      let compiled ← value.compile context
      return (compiled.formula, context)) := by
  rw [compile_eq_draft, draft]
  rcases value.compile context with ⟨notes, fault | compiled⟩
  · rfl
  · rfl

/-- Compiling a definition, without a word about the local variables outside. -/
theorem compile_define (context : Context) (span : Span) (name : String) (params : List Param)
    (returns : Option ValueType) (body : Expr) :
    Stmt.compile context (.define span name params returns body) = (do
      let compiled ← body.compile (context.withParams params)
      Compile.checkReturn body.span returns compiled.type
      let signature : Signature := ⟨params.map Param.type, compiled.type, false⟩
      let names := params.map Param.name
      Logged.note (.registered name names signature)
      return (.define name names compiled.formula, context.define name signature)) := by
  rw [compile_eq_draft, draft]
  rcases body.compile (context.withParams params) with ⟨notes, fault | compiled⟩
  · rfl
  · simp only [bind]
    rcases Compile.checkReturn body.span returns compiled.type with ⟨checkNotes, fault | _⟩
    · rfl
    · rfl

/-- The outcome of a statement, split into its result and its context. -/
theorem compile_cases (context : Context) (stmt : Stmt) :
    (∃ fault, (Stmt.compile context stmt).outcome = .error fault ∧
      (stmt.result context).outcome = .error fault ∧ stmt.contextAfter context = context) ∨
    ∃ formula, (Stmt.compile context stmt).outcome =
        .ok (formula, stmt.contextAfter context) ∧
      (stmt.result context).outcome = .ok formula := by
  rw [compile_eq_draft, result_eq_draft, contextAfter_eq_enter, entry?]
  cases (stmt.draft context).outcome with
  | error fault => exact .inl ⟨fault, rfl, rfl, rfl⟩
  | ok drafted => exact .inr ⟨drafted.1, rfl, rfl⟩

/-- A definition that succeeds has compiled its body with its parameters in
scope, and then enters its signature. -/
theorem define_eq_ok_iff (context after : Context) (span : Span) (name : String)
    (params : List Param) (returns : Option ValueType) (body : Expr) (formula : Formula) :
    (Stmt.compile context (.define span name params returns body)).outcome =
        .ok (formula, after) ↔
      ∃ compiled : Typed,
        (body.compile (context.withParams params)).outcome = .ok compiled ∧
          (∀ announced ∈ returns, announced = compiled.type) ∧
          formula = .define name (params.map Param.name) compiled.formula ∧
          after = context.define name ⟨params.map Param.type, compiled.type, false⟩ := by
  simp only [compile_define, Logged.bind_eq_ok_iff, Logged.pure_eq_ok_iff, Prod.mk.injEq,
    Compile.checkReturn_eq_ok_iff]
  constructor
  · rintro ⟨compiled, bodyCompiled, _, agrees, _, _, formulaEq, afterEq⟩
    exact ⟨compiled, bodyCompiled, agrees, formulaEq, afterEq⟩
  · rintro ⟨compiled, bodyCompiled, agrees, formulaEq, afterEq⟩
    exact ⟨compiled, bodyCompiled, (), agrees, (), rfl, formulaEq, afterEq⟩

/-- A session that starts from a context is at each point that of a context. -/
theorem step_ofContext (context : Context) (stmt : Stmt) :
    (stmt.step (.ofContext context)).2 = .ofContext (stmt.contextAfter context) := by
  rw [step_eq_draft, contextAfter_eq_enter, Session.context_ofContext]
  cases stmt.entry? context with
  | none => rfl
  | some entry => rfl

end Stmt

/-! ## Runs in a session -/

namespace Session

theorem compileEach_cons (session : Session) (stmt : Stmt) (rest : Program) :
    session.compileEach (stmt :: rest) =
      ((stmt.step session).1 :: ((stmt.step session).2.compileEach rest).1,
        ((stmt.step session).2.compileEach rest).2) :=
  rfl

/-- A run continues in the session that its first part leaves behind. -/
theorem compileEach_append (session : Session) (front rest : Program) :
    session.compileEach (front ++ rest) =
      ((session.compileEach front).1 ++ ((session.compileEach front).2.compileEach rest).1,
        ((session.compileEach front).2.compileEach rest).2) := by
  induction front generalizing session with
  | nil => rfl
  | cons stmt front ih =>
      rw [List.cons_append, compileEach_cons, compileEach_cons, ih]
      rfl

theorem length_compileEach (session : Session) (program : Program) :
    (session.compileEach program).1.length = program.length := by
  induction program generalizing session with
  | nil => rfl
  | cons stmt rest ih => rw [compileEach_cons, List.length_cons, ih, List.length_cons]

/-- No run changes the variables. -/
theorem variables_compileEach (session : Session) (program : Program) :
    (session.compileEach program).2.globals = session.globals ∧
      (session.compileEach program).2.locals = session.locals := by
  induction program generalizing session with
  | nil => exact ⟨rfl, rfl⟩
  | cons stmt rest ih =>
      rcases stmt.variables_step session with ⟨sameGlobals, sameLocals⟩
      rcases ih (stmt.step session).2 with ⟨restGlobals, restLocals⟩
      exact ⟨restGlobals.trans sameGlobals, restLocals.trans sameLocals⟩

/-- Statements of a run that fail can be left out. -/
theorem compileEach_filter (session : Session) (program : Program)
    (keep : Stmt × Logged Formula → Bool)
    (keepsFormulas : ∀ entry, entry.2.outcome.isOk → keep entry) :
    let kept := (program.zip (session.compileEach program).1).filter keep
    session.compileEach (kept.map Prod.fst) =
      (kept.map Prod.snd, (session.compileEach program).2) := by
  induction program generalizing session with
  | nil => rfl
  | cons stmt rest ih =>
      simp only [compileEach_cons, List.zip_cons_cons]
      by_cases isKept : keep (stmt, (stmt.step session).1)
      · rw [List.filter_cons_of_pos isKept, List.map_cons, compileEach_cons,
          ih (stmt.step session).2]
        rfl
      · -- A statement that is left out has failed, so the others start where it did.
        have unchanged : (stmt.step session).2 = session := by
          cases outcomeEq : (stmt.step session).1.outcome with
          | error fault => exact Stmt.step_of_error outcomeEq
          | ok formula =>
              apply absurd (keepsFormulas (stmt, (stmt.step session).1) _) isKept
              rw [outcomeEq]
              rfl
        rw [List.filter_cons_of_neg isKept, unchanged]
        exact ih session

/-! ## Runs that stop -/

theorem compile_cons_of_error {session : Session} {stmt : Stmt} {fault : Fault} (rest : Program)
    (failed : (stmt.step session).1.outcome = .error fault) :
    session.compile (stmt :: rest) =
      ⟨[], (stmt.step session).1.notes, some fault, (stmt.step session).2⟩ := by
  rw [compile]
  simp only [failed]

theorem compile_cons_of_ok {session : Session} {stmt : Stmt} {formula : Formula}
    (rest : Program) (compiled : (stmt.step session).1.outcome = .ok formula) :
    session.compile (stmt :: rest) =
      ⟨formula :: ((stmt.step session).2.compile rest).formulas,
        (stmt.step session).1.notes ++ ((stmt.step session).2.compile rest).notes,
        ((stmt.step session).2.compile rest).fault, ((stmt.step session).2.compile rest).last⟩ := by
  rw [compile]
  simp only [compiled]

/-- A run that stops gives the formulas and the session of a part in front that
has no fault, and the fault of the statement behind that part. -/
theorem exists_compile_eq (session : Session) (program : Program) :
    ∃ front rest, program = front ++ rest ∧
      (session.compileEach front).1.map Logged.outcome =
        (session.compile program).formulas.map .ok ∧
      (session.compileEach front).2 = (session.compile program).last ∧
      ((rest = [] ∧ (session.compile program).fault = none) ∨
        ∃ stmt others fault, rest = stmt :: others ∧
          (stmt.step (session.compileEach front).2).1.outcome = .error fault ∧
          (session.compile program).fault = some fault) := by
  induction program generalizing session with
  | nil => exact ⟨[], [], rfl, rfl, rfl, .inl ⟨rfl, rfl⟩⟩
  | cons stmt rest ih =>
      cases outcomeEq : (stmt.step session).1.outcome with
      | error fault =>
          rw [compile_cons_of_error rest outcomeEq]
          exact ⟨[], stmt :: rest, rfl, rfl, (Stmt.step_of_error outcomeEq).symm,
            .inr ⟨stmt, rest, fault, rfl, outcomeEq, rfl⟩⟩
      | ok formula =>
          rw [compile_cons_of_ok rest outcomeEq]
          rcases ih (stmt.step session).2 with ⟨front, behind, rfl, formulas, afterFront, ending⟩
          refine ⟨stmt :: front, behind, rfl, ?_, afterFront, ending⟩
          rw [compileEach_cons, List.map_cons, outcomeEq, formulas, List.map_cons]

end Session

/-! ## Runs from a context -/

namespace Program

open Stmt

theorem compileEach_cons (context : Context) (stmt : Stmt) (rest : Program) :
    compileEach context (stmt :: rest) =
      (stmt.result context :: (compileEach (stmt.contextAfter context) rest).1,
        (compileEach (stmt.contextAfter context) rest).2) := by
  rw [compileEach, Session.compileEach_cons, step_ofContext]
  rfl

/-- A run continues in the context that its first part leaves behind. -/
theorem compileEach_append (context : Context) (front rest : Program) :
    compileEach context (front ++ rest) =
      ((compileEach context front).1 ++ (compileEach (compileEach context front).2 rest).1,
        (compileEach (compileEach context front).2 rest).2) := by
  induction front generalizing context with
  | nil => rfl
  | cons stmt front ih =>
      rw [List.cons_append, compileEach_cons, compileEach_cons, ih]
      rfl

theorem length_compileEach (context : Context) (program : Program) :
    (compileEach context program).1.length = program.length :=
  (Session.ofContext context).length_compileEach program

theorem compile_nil (context : Context) : compile context [] = ⟨[], context, [], none⟩ :=
  rfl

theorem compile_cons_of_error {context : Context} {stmt : Stmt} {fault : Fault} (rest : Program)
    (failed : (Stmt.compile context stmt).outcome = .error fault) :
    compile context (stmt :: rest) =
      ⟨[], context, (Stmt.compile context stmt).notes, some fault⟩ := by
  rcases compile_cases context stmt with ⟨_, failedEq, resultEq, unchanged⟩ | ⟨_, compiled, -⟩
  · cases failedEq.symm.trans failed
    rw [compile, Session.compile_cons_of_error rest resultEq, step_ofContext, unchanged]
    rfl
  · rw [failed] at compiled
    cases compiled

theorem compile_cons_of_ok {context after : Context} {stmt : Stmt} {formula : Formula}
    (rest : Program) (compiled : (Stmt.compile context stmt).outcome = .ok (formula, after)) :
    compile context (stmt :: rest) =
      ⟨formula :: (compile after rest).formulas, (compile after rest).context,
        (Stmt.compile context stmt).notes ++ (compile after rest).notes,
        (compile after rest).fault⟩ := by
  rcases compile_cases context stmt with ⟨_, failed, -, -⟩ | ⟨_, compiledEq, resultEq⟩
  · rw [failed] at compiled
    cases compiled
  · cases compiledEq.symm.trans compiled
    rw [compile, Session.compile_cons_of_ok rest resultEq, step_ofContext]
    rfl

/-- A run that stops gives the formulas and the context of a part in front that
has no fault, and the fault of the statement behind that part. -/
theorem exists_compile_eq (context : Context) (program : Program) :
    ∃ front rest, program = front ++ rest ∧
      (compileEach context front).1.map Logged.outcome =
        (compile context program).formulas.map .ok ∧
      (compileEach context front).2 = (compile context program).context ∧
      ((rest = [] ∧ (compile context program).fault = none) ∨
        ∃ stmt others fault, rest = stmt :: others ∧
          (stmt.result (compileEach context front).2).outcome = .error fault ∧
          (compile context program).fault = some fault) := by
  rcases (Session.ofContext context).exists_compile_eq program with
    ⟨front, rest, programEq, formulas, afterFront, ending⟩
  refine ⟨front, rest, programEq, formulas, congrArg Session.context afterFront, ?_⟩
  rcases ending with atEnd | ⟨stmt, others, fault, restEq, failed, hasFault⟩
  · exact .inl atEnd
  · rw [result_eq_step] at failed
    exact .inr ⟨stmt, others, fault, restEq, failed, hasFault⟩

end Program

/-- Failing statements leave no trace.  Whatever a session knows, and also if it has no
map of local variables, after each step of a run that goes on after faults the
variables are those before the run, and the functions have changed only if the step
was a definition that succeeded, by its signature.  Hence a run without statements
that fail, all of them or some, has the same results for the statements that remain
and the same session at its end; and a run that stops has the formulas and the session
of the longest part in front without a fault, with the fault of the statement behind
it. -/
theorem failing_statements_leave_no_trace (session : Session) (program : Program) :
    (∀ front stmt rest, program = front ++ stmt :: rest →
      let before := (session.compileEach front).2
      let after := (session.compileEach (front ++ [stmt])).2
      after.globals = session.globals ∧ after.locals = session.locals ∧
        ∃ result, (session.compileEach program).1[front.length]? = some result ∧
          stmt.Registers before result.outcome after) ∧
    (∀ keep : Stmt × Logged Formula → Bool,
      (∀ entry, entry.2.outcome.isOk → keep entry) →
        let kept := (program.zip (session.compileEach program).1).filter keep
        session.compileEach (kept.map Prod.fst) =
          (kept.map Prod.snd, (session.compileEach program).2)) ∧
    ∃ front rest, program = front ++ rest ∧
      (session.compileEach front).1.map Logged.outcome =
        (session.compile program).formulas.map .ok ∧
      (session.compileEach front).2 = (session.compile program).last ∧
      ((rest = [] ∧ (session.compile program).fault = none) ∨
        ∃ stmt others fault, rest = stmt :: others ∧
          (stmt.step (session.compileEach front).2).1.outcome = .error fault ∧
          (session.compile program).fault = some fault) := by
  refine ⟨?_, session.compileEach_filter program, session.exists_compile_eq program⟩
  rintro front stmt rest rfl before after
  rcases session.variables_compileEach (front ++ [stmt]) with ⟨sameGlobals, sameLocals⟩
  refine ⟨sameGlobals, sameLocals, (stmt.step before).1, ?_, ?_⟩
  · rw [session.compileEach_append, ← session.length_compileEach front,
      List.getElem?_append_right (Nat.le_refl _), Nat.sub_self]
    rfl
  · have afterEq : after = (stmt.step before).2 := by
      simp only [after, session.compileEach_append]
      rfl
    rw [afterEq]
    exact stmt.registers_step before

/-- Between a definition and a call of the defined function, a definition that fails in
its body and one that fails at its announced type, in a session without a map of local
variables: that session has none at any point, and without the two definitions that
fail the other statements have the same results and leave the same session. -/
theorem failing_statements_leave_no_trace_definitions :
    let place : Span := .nowhere
    let session : Session := ⟨∅, none, ∅⟩
    let param : Param := ⟨place, "x", .number⟩
    let defined : Stmt := .define place "f" [param] none (.var place "x")
    let inBody : Stmt := .define place "f" [param] none (.var place "y")
    let atType : Stmt := .define place "f" [param] (some .list) (.var place "x")
    let use : Stmt := .expr place (.call place .normal "f" [.number place "1"])
    let program : Program := [defined, inBody, atType, use]
    let results := (session.compileEach program).1
    results.map (fun result => result.outcome.isOk) = [true, false, false, true] ∧
      (session.compileEach [defined, inBody]).2.locals = none ∧
      (session.compileEach [defined, inBody, atType]).2.locals = none ∧
      session.compileEach [defined, use] =
        (results.take 1 ++ results.drop 3, (session.compileEach program).2) := by
  intro place session param defined inBody atType use program results
  have traces := failing_statements_leave_no_trace session program
  have afterBody := traces.1 [defined] inBody [atType, use] rfl
  have afterType := traces.1 [defined, inBody] atType [use] rfl
  have outcomes : results.map (fun result => result.outcome.isOk) = [true, false, false, true] := by
    dsimp only [results, program, use, atType, inBody, defined, param, session, place]
    rfl
  refine ⟨outcomes, afterBody.2.1, afterType.2.1, ?_⟩
  have remaining := traces.2.1 (fun entry => entry.2.outcome.isOk) fun _ => id
  dsimp only [results, program, use, atType, inBody, defined, param, session, place] at remaining ⊢
  exact remaining

end GraphCalc
