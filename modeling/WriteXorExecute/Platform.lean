/-!
# Platforms and strategies

How a scope holds a mode is settled by the platform before any program runs: through the owning
thread where the system has a switch for each thread, by barriers alone where only stale
instructions are to be feared, and not at all elsewhere.
-/
namespace WriteXorExecute

inductive Target where
  | linux
  | macos
  /-- One of the BSD systems, on a processor that may fetch stale instructions. -/
  | bsd
  deriving DecidableEq, Repr

/-- How the guard of a platform holds a mode. -/
inductive Strategy where
  /-- The owning thread changes the access to code memory. -/
  | delegated
  /-- Nothing changes, but barriers stand at the boundaries where stale code could run. -/
  | barrierOnly
  /-- Nothing is done. -/
  | noop
  deriving DecidableEq, Repr

namespace Strategy

def label : Strategy → String
  | delegated => "Delegated"
  | barrierOnly => "BarrierOnly"
  | noop => "Noop"

def all : List Strategy :=
  [delegated, barrierOnly, noop]

end Strategy

/-- What is fixed before a program runs. -/
structure Platform where
  target : Target := .linux
  /-- The guard does nothing, whatever the target. -/
  forceNoop : Bool := false
  /-- The guard issues barriers on a target that would need none. -/
  forceBarriers : Bool := false
  /-- Misuse of a thread panics. -/
  checks : Bool := true
  /-- The system's answer when asked whether it honours the switch of each thread. -/
  switchSupported : Bool := true
  deriving DecidableEq, Repr

/-- The strategy of the platform's own guard. Doing nothing wins over all else, and the switch of
each thread wins over barriers. -/
def Platform.strategy (p : Platform) : Strategy :=
  if p.forceNoop then .noop
  else if p.target = .macos then .delegated
  else if p.forceBarriers || p.target = .bsd then .barrierOnly
  else .noop

end WriteXorExecute
