import GraphCalc.Compile.Error
import GraphCalc.Compile.Signature

/-!
# Computations with a log

Compiling notes some of its decisions.  A computation has a log and an
outcome; when it fails, the notes made before the failure remain.  The outcome
never depends on the log.
-/

namespace GraphCalc

/-- A decision worth noting. -/
inductive Note
  | registered (name : String) (params : List String) (signature : Signature)
  | expanding (callee : String) (count : Nat)
deriving DecidableEq, Repr

/-- The wording of a note. -/
def Note.message : Note → String
  | registered name params signature =>
      "registered function " ++ name ++ "(" ++ String.intercalate ", " params ++ ") " ++
        signature.text
  | expanding callee count =>
      "expanding map!(" ++ callee ++ ") over " ++ toString count ++ " argument(s)"

/-- A log, and a value or the fault that prevented it. -/
structure Logged (α : Type) where
  notes : List Note
  outcome : Except Fault α

namespace Logged

variable {α β : Type}

/-- A computation that notes nothing and fails. -/
def fail (fault : Fault) : Logged α :=
  ⟨[], .error fault⟩

/-- A computation that makes one note. -/
def note (entry : Note) : Logged Unit :=
  ⟨[entry], .ok ()⟩

instance : Monad Logged where
  pure value := ⟨[], .ok value⟩
  bind first next :=
    match first.outcome with
    | .error fault => ⟨first.notes, .error fault⟩
    | .ok value => ⟨first.notes ++ (next value).notes, (next value).outcome⟩

@[simp]
theorem outcome_pure (value : α) : (pure value : Logged α).outcome = .ok value :=
  rfl

@[simp]
theorem outcome_fail (fault : Fault) : (fail fault : Logged α).outcome = .error fault :=
  rfl

@[simp]
theorem outcome_note (entry : Note) : (note entry).outcome = .ok () :=
  rfl

/-- The outcome of two computations in turn does not depend on their logs. -/
@[simp]
theorem outcome_bind (first : Logged α) (next : α → Logged β) :
    (first >>= next).outcome = first.outcome.bind fun value => (next value).outcome := by
  obtain ⟨notes, outcome⟩ := first
  cases outcome <;> rfl

end Logged

end GraphCalc
