import WriteXorExecute.Mode
import WriteXorExecute.Text.Display
/-!
# Errors

What a check of a thread's mode and an operation on a code buffer can answer instead of a result.
-/
namespace WriteXorExecute

/-- Why a thread is not in the mode that a caller requires. -/
inductive ModeError where
  /-- The thread has not been given a mode yet. -/
  | notInitialized
  /-- The thread is in the other mode. -/
  | unexpectedMode (expected actual : Mode)
  deriving DecidableEq, Repr

namespace ModeError

def message : ModeError → String
  | notInitialized => "W^X state not initialized"
  | unexpectedMode expected actual =>
    "expected W^X mode " ++ expected.name ++ ", thread is in " ++ actual.name

def display : ModeError → String
  | notInitialized => "NotInitialized"
  | unexpectedMode expected actual =>
    Text.Display.record "UnexpectedMode" [("expected", expected.label), ("actual", actual.label)]

end ModeError

/-- A thread whose mode is `actual`, or that has none yet, is in the mode `expected`. -/
def requireMode (expected : Mode) : (actual : Option Mode) → Except ModeError Unit
  | none => .error .notInitialized
  | some actual => if actual = expected then .ok () else .error (.unexpectedMode expected actual)

theorem requireMode_eq_ok_iff {expected : Mode} {actual : Option Mode} :
    requireMode expected actual = .ok () ↔ actual = some expected := by
  cases actual <;> simp [requireMode]

/-- Why an operation on a code buffer is refused. -/
inductive CodeError where
  /-- The code would outgrow the buffer's limit. -/
  | exceedsMaxSize
  /-- A patch does not lie within the emitted code. -/
  | outOfBounds
  /-- The buffer has been freed. -/
  | regionFreed
  /-- There is no code to run. -/
  | empty
  deriving DecidableEq, Repr

namespace CodeError

def message : CodeError → String
  | exceedsMaxSize => "code buffer size limit exceeded"
  | outOfBounds => "patch outside emitted code"
  | regionFreed => "code buffer freed"
  | empty => "code buffer empty"

def label : CodeError → String
  | exceedsMaxSize => "ExceedsMaxSize"
  | outOfBounds => "OutOfBounds"
  | regionFreed => "RegionFreed"
  | empty => "Empty"

def all : List CodeError :=
  [exceedsMaxSize, outOfBounds, regionFreed, empty]

end CodeError

end WriteXorExecute
