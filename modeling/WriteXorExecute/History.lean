import WriteXorExecute.Panic
import WriteXorExecute.Program
import WriteXorExecute.Table
/-!
# What a program answers and leaves behind

A run of a program is known by its history: everything that happened, in order. Some of it can be
seen from outside as an event; the rest marks the points between which a guard is held, an operation
is complete, or a call of a backend is open. Marks tell the state of every object at that point.
-/
namespace WriteXorExecute

inductive Reply where
  | nothing
  /-- What was named is not there. -/
  | gone
  /-- The buffer's code is running. -/
  | busy
  | mode (mode : Mode)
  | status (status : Thread.Status)
  | checked (result : Except ModeError Unit)
  | config (config : Config)
  | emitted (result : Except CodeError UInt64)
  | patched (result : Except CodeError Unit)
  | executed (result : Except CodeError UInt32)
  | code (result : Except CodeError ByteArray)
  | bytes (bytes : ByteArray)
  | limit (size : UInt64)
  /-- How much code a buffer holds, whether it holds none, and how much it may hold. -/
  | extent (size : Nat) (isEmpty : Bool) (maxSize : UInt64)
  | text (text : String)
  /-- What a value is called in a sentence and in a structured display. -/
  | names (sentence display : String)
  | namesOfAll (names : List (String × String))
  | strategies (active : List (String × Bool))
  | same (equal : Bool)
  /-- The system's answer, and how often it was asked. -/
  | support (supported : Bool) (asked : Nat)
  | finding (f : SelfCheck.Finding)
  | findings (fs : List SelfCheck.Finding)
  | panicked (cause : Panic)
  | slot (name : String)

/-- What has been completed when a reply is given. -/
inductive Label where
  | operation (op : Operation)
  /-- A scope has been entered. -/
  | entered
  /-- A scope has been left. -/
  | left
  /-- Code is about to run. -/
  | started
  /-- Code has run, or was refused. -/
  | executed
  /-- A tried body has ended. -/
  | tried
  /-- The program has been broken off. -/
  | uncaught
  /-- A guard that outlived the program has been ended. -/
  | ended

/-- What is seen of every object: of a thread its status, of a toggle its mode and how often it was
called, of a buffer how much code it holds. -/
structure Snapshot where
  threads : Table Thread.Status
  toggles : Table (Mode × Nat)
  buffers : Table Nat

/-- Where a guard lives: around a body, or in a slot. -/
inductive Holder where
  | scope
  | slot (name : String)
  deriving DecidableEq, Repr

inductive Mark where
  /-- A guard has been made. -/
  | opened (holder : Holder) (guard : Guard)
  /-- A guard has been ended. -/
  | closed (holder : Holder) (guard : Guard)
  /-- A guard has been lost. -/
  | forgotten (slot : String) (guard : Guard)
  /-- The code of a buffer has been changed, as this line of the log says. -/
  | changed (buffer : String) (r : Record)
  /-- A reply is given. -/
  | completed (label : Label) (reply : Reply)

inductive Happening where
  | thread (name : String) (event : Thread.Event)
  | toggle (name : String) (event : Toggle.Event)
  | barrier (barrier : Barrier)
  /-- A line of the log from within a self-check. -/
  | selfCheck (r : Record)
  /-- A point of the run was reached, when `now` was to be seen. -/
  | mark (mark : Mark) (now : Snapshot)

namespace Happening

/-- The line of the log, if this is one. -/
def record? : Happening → Option Record
  | thread _ (.record r) | selfCheck r | mark (.changed _ r) _ => some r
  | _ => none

end Happening

end WriteXorExecute
