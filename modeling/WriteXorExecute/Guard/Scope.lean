import WriteXorExecute.World
/-!
# Holding a mode

`Guard.acquire` makes a guard and `Guard.release` ends it. `holding` does both around a body,
whether the body returns or panics; every scope, every change of a code buffer and every run of code
goes through it.
-/
namespace WriteXorExecute

open Procedure

variable {α : Type}

def issue (b : Barrier) : Step Unit :=
  note (.barrier b)

namespace Guard

/-- A guard that asks a thread. Without one it takes `write` for the mode that it found. -/
def acquireDelegated (p : Platform) (mode : Mode) : Option String → Step Guard
  | none => return .delegated mode none .write
  | some name => return .delegated mode name (← switch p false name mode)

/-- A guard that issues a barrier now if code is going to run. -/
def acquireBarrier (b : Barrier) (mode : Mode) : Step Guard := do
  if mode = .exec then
    issue b
  return .barrier b mode

def acquire (p : Platform) (kind : Kind) (mode : Mode) (thread : Option String) : Step Guard :=
  match kind with
  | .delegated => acquireDelegated p mode thread
  | .barrier => acquireBarrier .counted mode
  | .noop => return .noop
  | .active =>
    match p.strategy with
    | .delegated => acquireDelegated p mode thread
    | .barrierOnly => acquireBarrier .processor mode
    | .noop => return .noop

/-- Ends a guard: the thread is asked for the mode that was found, or a barrier is issued if code
has been written. -/
def release (p : Platform) (failing : Bool) : Guard → Step Unit
  | delegated _ (some name) previous => do
    let _ ← switch p failing name previous
  | delegated _ none _ => return ()
  | barrier b mode => do
    if mode = .write then
      issue b
  | noop => return ()

/-- Makes a guard for a holder. -/
def enter (p : Platform) (holder : Holder) (kind : Kind) (mode : Mode)
    (thread : Option String) : Step Guard := do
  let g ← acquire p kind mode thread
  mark (.opened holder g)
  return g

/-- Ends a holder's guard, which is closed even where ending it fails. -/
def leave (p : Platform) (holder : Holder) (failing : Bool) (g : Guard) : Step Unit := do
  let ending ← attempt (release p failing g)
  mark (.closed holder g)
  ofOutcome ending

end Guard

/-- Runs a body while a guard is held. -/
def holding (p : Platform) (kind : Guard.Kind) (mode : Mode) (thread : Option String)
    (body : Guard → Step α) : Step α :=
  bracket (Guard.enter p .scope kind mode thread) (Guard.leave p .scope) body

end WriteXorExecute
