import WriteXorExecute.Code.Buffer
import WriteXorExecute.Guard.Basic
import WriteXorExecute.SelfCheck.Basic
import WriteXorExecute.Thread.Basic
import WriteXorExecute.Toggle
/-!
# Programs

A program uses threads, toggles, guards and code buffers under names. Its operations follow one
another; some of them hold a guard around a body of operations, and a body can be tried, so that a
panic ends the body and not the program.
-/
namespace WriteXorExecute

/-- What is asked without touching anything. -/
inductive Question where
  /-- What a thread tells about itself. -/
  | status (thread : String)
  /-- Whether a thread is in a mode. -/
  | check (thread : String) (mode : Mode)
  /-- Whether a thread may enter the program's own code. -/
  | sync (thread : String)
  | config (thread : String)
  /-- What the guard in a slot tells about itself. -/
  | guard (slot : String)
  | code (buffer : String)
  | extent (buffer : String)
  /-- A buffer in a structured display. -/
  | display (buffer : String)
  /-- The strategy of the platform's own guard. -/
  | strategy
  /-- Whether the system honours the switch of each thread. -/
  | support
  /-- The limit of a buffer that asks for none. -/
  | defaultMaxSize
  | modeTexts (mode : Mode)
  | modeErrorTexts (e : ModeError)
  | codeErrorTexts
  | strategyTexts
  | sameError (a b : ModeError)
  | finding (f : SelfCheck.Finding)

/-- One step of a program, without a body. -/
inductive Operation where
  | ask (question : Question)
  /-- Makes a thread. What its configuration does not say is the standard. -/
  | newThread (name : String) (backend : Backend) (initialMode : Option Mode)
    (checkAtSync : Option Bool)
  | newToggle (name : String) (toggle : Toggle)
  /-- Makes a buffer, with the default limit if none is given. -/
  | newBuffer (name : String) (maxSize : Option UInt64)
  | init (thread : String)
  /-- Asks a thread or a toggle for a mode. -/
  | enable (name : String) (mode : Mode)
  /-- Requires a thread to be in a mode, where misuse is checked. -/
  | assertMode (thread : String) (mode : Mode)
  /-- Makes a guard and keeps it in a slot. -/
  | hold (slot : String) (kind : Guard.Kind) (mode : Mode) (thread : Option String)
  /-- Ends the guard in a slot. -/
  | drop (slot : String)
  /-- Loses the guard in a slot, so that it never gives anything back. -/
  | forget (slot : String)
  | emit (buffer : String) (thread : Option String) (data : ByteArray)
  | patch (buffer : String) (thread : Option String) (offset : UInt64) (data : ByteArray)
  | free (buffer : String)
  /-- Issues the processor's barrier, then makes and ends a guard that does so. -/
  | fence (mode : Mode)
  /-- Runs one self-check, or all of them. -/
  | selfCheck (check : Option SelfCheck)
  | panic (message : String)

/-- How a mode is held around a body. -/
inductive Scope.Style where
  /-- By a guard that the body can ask. -/
  | guarded (kind : Guard.Kind)
  /-- By the platform's own guard, unseen. -/
  | closure
  deriving DecidableEq, Repr

structure Scope where
  style : Scope.Style
  mode : Mode
  thread : Option String
  deriving DecidableEq, Repr

def Scope.kind (s : Scope) : Guard.Kind :=
  match s.style with
  | .guarded kind => kind
  | .closure => .active

/-- Operations and bodies in their order. -/
inductive Program where
  | done
  | step (op : Operation) (rest : Program)
  /-- Holds a mode around a body. -/
  | scope (scope : Scope) (body rest : Program)
  /-- Runs a body that may panic. -/
  | attempt (body rest : Program)
  /-- Runs the code of a buffer, and a body while it runs. -/
  | execute (buffer : String) (thread : Option String) (body rest : Program)

end WriteXorExecute
