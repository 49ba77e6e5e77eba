import WriteXorExecute.Thread.Basic
/-!
# Changing a thread's mode

A change is recorded in the thread first, then in the log, and then passed on to the backend; it is
counted when the backend comes back. So inside a call of the backend the thread already reports the
new mode, and a call that fails leaves the thread in it.

Asking for the mode that the thread is in passes nothing on. A thread that is asked for a mode
before it was initialised is initialised on the way.

A call of the backend may ask its own thread for modes, which makes calls inside that call. Only
the reactions of later calls can happen inside it, so calls are never nested deeper than the script
is long, and `send` leaves room for that many.
-/
namespace WriteXorExecute.Thread

open Procedure

/-- Passes the mode that the thread has taken on to its backend, whose call reacts by `react` to its
own number. -/
def passOn (p : Platform) (failing : Bool) (react : Nat → Backend.Reaction → Step Unit)
    (mode : Mode) : Step Unit := do
  note (.record (.modeChange mode))
  let t ← get
  note (.begins (t.backend.outlet p) mode t.status)
  modify fun t => { t with calls := t.calls + 1 }
  match ← attempt ((t.backend.occurring failing t.calls).forM (react t.calls)) with
  | .ok _ =>
    note (.returns mode)
    modify fun t => { t with transitions := t.transitions + 1 }
  | .error fault =>
    note (.unwinds mode)
    fail fault

/-- Takes a mode, which is then passed on by `send`. -/
def take (send : Mode → Step Unit) (mode : Mode) : Step Unit := do
  modify fun t => { t with mode := some mode }
  send mode

/-- Takes the initial mode. Where misuse is checked, a second time is a fault, found before
anything is done. -/
def initVia (p : Platform) (send : Mode → Step Unit) : Step Unit := do
  let t ← get
  if p.checks && t.status.isInitialized then
    fail .secondInit
  else
    note (.record (.initializing t.config.initialMode))
    take send t.config.initialMode

/-- Takes a mode and returns the one before it, which for a thread that had none is its initial
mode. -/
def enableVia (p : Platform) (send : Mode → Step Unit) (mode : Mode) : Step Mode := do
  let t ← get
  let previous ←
    match t.mode with
    | some previous => pure previous
    | none =>
      note (.record .lateInitialization)
      initVia p send
      pure t.config.initialMode
  if previous ≠ mode then
    take send mode
  return previous

def react (p : Platform) (send : Mode → Step Unit) (call : Nat) : Backend.Reaction → Step Unit
  | .fail => fail (.backend call)
  | .init => do
    initVia p send
    note .reinitialized
  | .enable mode => do
    let previous ← enableVia p send mode
    note (.reenabled mode previous)
  | .caught reaction => do
    match ← attempt (react p send call reaction) with
    | .ok _ => pure ()
    | .error fault => note (.caught fault)

/-- Passes a mode on, with room for `depth` calls inside the call. What happens inside while a
failure is on its way is caught, so calls inside the call may fail like any others. -/
def sendWithin (p : Platform) (failing : Bool) : (depth : Nat) → Mode → Step Unit
  | 0 => passOn p failing fun _ _ => pure ()
  | depth + 1 => passOn p failing (react p (sendWithin p false depth))

def send (p : Platform) (failing : Bool) (mode : Mode) : Step Unit := do
  let t ← get
  sendWithin p failing t.backend.script.length mode

def init (p : Platform) (failing : Bool) : Step Unit :=
  initVia p (send p failing)

/-- Asks the thread for a mode; returns the mode that it was in. -/
def enable (p : Platform) (failing : Bool) (mode : Mode) : Step Mode :=
  enableVia p (send p failing) mode

/-- Requires the thread to be in a mode, where misuse is checked. -/
def assertMode (p : Platform) (expected : Mode) : Step Unit := do
  if p.checks then
    match (← get).check expected with
    | .ok _ => pure ()
    | .error e => fail (.wrongMode e)

end WriteXorExecute.Thread
