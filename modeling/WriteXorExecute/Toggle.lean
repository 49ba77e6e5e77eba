import WriteXorExecute.Procedure
import WriteXorExecute.Mode
/-!
# Toggles

A toggle is anything that can be asked for a mode in place of a thread. It need not tell the truth:
what it answers can be written down call by call, and so can the calls that fail.
-/
namespace WriteXorExecute

/-- A switch of modes whose answers and failures are written down. -/
structure Toggle where
  mode : Mode
  /-- The answer to each call; where none is given, the truth. -/
  answers : List (Option Mode) := []
  /-- The numbers of the calls that fail. Calls are counted from 0. -/
  failures : List Nat := []
  /-- How many calls have begun. -/
  calls : Nat := 0
  deriving DecidableEq, Repr

namespace Toggle

/-- A toggle was asked for a mode, and had an answer ready. -/
structure Event where
  asked : Mode
  answer : Mode
  deriving DecidableEq, Repr

structure Fault where
  call : Nat
  deriving DecidableEq, Repr

abbrev Step (α : Type) : Type :=
  Procedure Toggle Event Fault α

def nextAnswer (t : Toggle) : Mode :=
  (t.answers[t.calls]?.join).getD t.mode

open Procedure in
/-- Asks for a mode. The call is counted and the mode taken before the call can fail, and it does
not fail while a failure is on its way already. -/
def enable (failing : Bool) (mode : Mode) : Step Mode := do
  let t ← get
  modify fun t => { t with mode := mode, calls := t.calls + 1 }
  note ⟨mode, t.nextAnswer⟩
  if !failing && t.failures.contains t.calls then
    fail ⟨t.calls⟩
  return t.nextAnswer

end Toggle

end WriteXorExecute
