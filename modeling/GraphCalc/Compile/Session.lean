import GraphCalc.Compile.Context
import GraphCalc.Compile.Logged

/-!
# Sessions

A session is what the compiler knows, and it is changed in place while statements
are compiled.  A computation that fails leaves the session as it is at that point:
what was changed before the failure stays changed unless it is put back on the
way out.
-/

namespace GraphCalc

/-- What the compiler knows.  The map of the local variables may be missing, which
counts as having none. -/
structure Session where
  globals : NameMap ValueType
  locals : Option (NameMap ValueType)
  functions : NameMap Signature

namespace Session

/-- The meaning of names in a session. -/
def context (session : Session) : Context :=
  ⟨session.globals, session.locals.getD ∅, session.functions⟩

/-- The session in which names have a given meaning. -/
def ofContext (context : Context) : Session :=
  ⟨context.globals, some context.locals, context.functions⟩

/-- Go inside a function: a copy of the local variables with the parameters added
takes their place. -/
def enter (session : Session) (params : List Param) : Session :=
  { session with locals := some (session.context.withParams params).locals }

/-- Make a function known. -/
def define (session : Session) (name : String) (signature : Signature) : Session :=
  { session with functions := session.functions.insert name signature }

theorem context_ofContext (context : Context) : (ofContext context).context = context :=
  rfl

theorem context_enter (session : Session) (params : List Param) :
    (session.enter params).context = session.context.withParams params :=
  rfl

end Session

/-- A computation in a session: its log and its outcome, and the session that it
leaves behind whether or not it fails. -/
def Compiling (α : Type) : Type :=
  Session → Logged α × Session

namespace Compiling

variable {α β : Type}

instance : Monad Compiling where
  pure value session := (pure value, session)
  bind first next session :=
    let (result, middle) := first session
    match result.outcome with
    | .error fault => (⟨result.notes, .error fault⟩, middle)
    | .ok value =>
        let (others, after) := next value middle
        (⟨result.notes ++ others.notes, others.outcome⟩, after)

/-- Look at the meaning of names, and change nothing. -/
def look (view : Context → Logged α) : Compiling α :=
  fun session => (view session.context, session)

/-- Change the session. -/
def change (update : Session → Session) : Compiling Unit :=
  fun session => (pure (), update session)

/-- Put the local variables back in the end, on every way out. -/
def restoringLocals (body : Compiling α) : Compiling α :=
  fun session =>
    let (result, after) := body session
    (result, { after with locals := session.locals })

end Compiling

end GraphCalc
