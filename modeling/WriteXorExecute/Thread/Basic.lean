import WriteXorExecute.Procedure
import WriteXorExecute.Error
import WriteXorExecute.Platform
import WriteXorExecute.Record
/-!
# Threads

A thread owns its mode. It has none until it is initialised, and it passes each change on to its
backend, the part of the system that makes code writable or executable for it.

A backend need not be well behaved. A scripted one says for each of its calls what happens inside
it: it may fail, and it may call back into the thread that it serves, and go on if this fails.
-/
namespace WriteXorExecute

structure Config where
  /-- The mode that the thread takes when it is initialised. -/
  initialMode : Mode := .write
  /-- Whether the thread has to be in `write` where it enters the program's own code. -/
  checkAtSync : Bool
  deriving DecidableEq, Repr

namespace Config

/-- The setting of a thread that asks for none: checked where the platform checks for misuse. -/
def standard (p : Platform) : Config :=
  { checkAtSync := p.checks }

/-- The setting of a new thread: the standard, except for what is asked for. -/
def requested (p : Platform) (initialMode : Option Mode) (checkAtSync : Option Bool) : Config where
  initialMode := initialMode.getD (standard p).initialMode
  checkAtSync := checkAtSync.getD (standard p).checkAtSync

def display (c : Config) : String :=
  Text.Display.record "WxConfig"
    [("initial_mode", c.initialMode.label), ("assert_at_thread_sync", toString c.checkAtSync)]

end Config

namespace Backend

/-- What happens inside a call of a scripted backend. -/
inductive Reaction where
  /-- The call fails. -/
  | fail
  /-- The thread is initialised. -/
  | init
  /-- The thread is asked for a mode. -/
  | enable (mode : Mode)
  /-- This happens, and the call goes on even if it fails. -/
  | caught (reaction : Reaction)
  deriving DecidableEq, Repr

/-- Whether the call goes on whatever becomes of this. -/
def Reaction.isCaught : Reaction → Bool
  | caught _ => true
  | _ => false

/-- A reaction and the number of the call in which it happens. Calls are counted from 0. -/
structure Hook where
  call : Nat
  reaction : Reaction
  deriving DecidableEq, Repr

/-- What a call of a backend reaches. -/
inductive Outlet where
  /-- Nothing. -/
  | inert
  /-- The system's switch for the calling thread. -/
  | system
  /-- A script. -/
  | script
  deriving DecidableEq, Repr

end Backend

/-- What a thread passes its changes of mode to. -/
inductive Backend where
  /-- Nothing is behind it. -/
  | null
  /-- The system's switch for the calling thread, left alone where it is not supported. -/
  | system
  /-- Every call is shown, and what happens inside it is written down. `whileFailing` is set if it
  also happens inside calls that are made while a failure is on its way. -/
  | scripted (script : List Backend.Hook) (whileFailing : Bool := false)
  deriving DecidableEq, Repr

namespace Backend

/-- What a call of the backend reaches on a platform. -/
def outlet (p : Platform) : Backend → Outlet
  | null => .inert
  | system => if p.switchSupported then .system else .inert
  | scripted .. => .script

/-- What is written down for the calls of the backend. -/
def script : Backend → List Hook
  | null | system => []
  | scripted script _ => script

/-- Whether something may happen inside calls that are made while a failure is on its way. -/
def whileFailing : Backend → Bool
  | null | system => false
  | scripted script whileFailing => whileFailing && !script.isEmpty

/-- What is written down for a call, in order. -/
def reactions (b : Backend) (call : Nat) : List Reaction :=
  (b.script.filter fun h => h.call = call).map (·.reaction)

/-- What happens inside a call, in order. While a failure is on its way, a second one that left the
call would end everything; so what happens then is caught. -/
def occurring (b : Backend) (failing : Bool) (call : Nat) : List Reaction :=
  if failing then
    if b.whileFailing then (b.reactions call).map .caught else []
  else b.reactions call

theorem exists_of_occurring {b : Backend} {failing : Bool} {call : Nat} {r : Reaction}
    (h : r ∈ b.occurring failing call) : ∃ r' ∈ b.reactions call, r = r' ∨ r = .caught r' := by
  unfold occurring at h
  split at h
  · split at h
    · obtain ⟨r', hr', rfl⟩ := List.mem_map.1 h
      exact ⟨r', hr', .inr rfl⟩
    · cases h
  · exact ⟨r, h, .inl rfl⟩

theorem isCaught_of_occurring {b : Backend} {failing : Bool} {call : Nat} {r : Reaction}
    (h : r ∈ b.occurring failing call) (hfailing : failing = true) : r.isCaught = true := by
  simp only [occurring, if_pos hfailing] at h
  split at h
  · obtain ⟨r', -, rfl⟩ := List.mem_map.1 h
    rfl
  · cases h

theorem occurring_eq_nil {b : Backend} {call : Nat} (h : b.reactions call = []) (failing : Bool) :
    b.occurring failing call = [] := by
  simp [occurring, h]

end Backend

/-- The access mode of one thread, and what it takes to change it. -/
structure Thread where
  backend : Backend
  config : Config
  /-- Absent until the thread is initialised. -/
  mode : Option Mode := none
  /-- How many calls of the backend have come back. -/
  transitions : UInt64 := 0
  /-- How many calls of the backend have begun. -/
  calls : Nat := 0
  deriving DecidableEq, Repr

namespace Thread

/-- A thread that keeps track of its mode and changes nothing. -/
def untracked (p : Platform) : Thread :=
  { backend := .null, config := .standard p }

structure Status where
  mode : Option Mode
  transitions : UInt64
  deriving DecidableEq, Repr

def Status.isInitialized (s : Status) : Bool :=
  s.mode.isSome

def status (t : Thread) : Status :=
  ⟨t.mode, t.transitions⟩

def check (t : Thread) (expected : Mode) : Except ModeError Unit :=
  requireMode expected t.mode

/-- The check where the thread enters the program's own code. -/
def sync (t : Thread) : Except ModeError Unit :=
  if t.config.checkAtSync then t.check .write else .ok ()

inductive Fault where
  /-- The thread was initialised a second time. -/
  | secondInit
  /-- The thread was not in the mode that was asserted. -/
  | wrongMode (e : ModeError)
  /-- A call of the backend failed. -/
  | backend (call : Nat)
  deriving DecidableEq, Repr

inductive Event where
  /-- A line of the log. -/
  | record (r : Record)
  /-- A call of the backend begins. `seen` is what the thread tells of itself at this moment. -/
  | begins (outlet : Backend.Outlet) (mode : Mode) (seen : Status)
  /-- The call of the backend that began last, of those still open, comes back. -/
  | returns (mode : Mode)
  /-- The call of the backend that began last, of those still open, fails. -/
  | unwinds (mode : Mode)
  /-- Inside a call of the backend, the thread has been initialised. -/
  | reinitialized
  /-- Inside a call of the backend, the thread has been asked for `mode` when it was in
  `previous`. -/
  | reenabled (mode previous : Mode)
  /-- Inside a call of the backend, something has failed, and the call goes on. -/
  | caught (fault : Fault)
  deriving DecidableEq, Repr

abbrev Step (α : Type) : Type :=
  Procedure Thread Event Fault α

end Thread

end WriteXorExecute
