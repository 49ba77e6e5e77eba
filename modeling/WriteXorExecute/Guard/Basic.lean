import WriteXorExecute.Mode
import WriteXorExecute.Platform
/-!
# Guards

A guard holds a mode for as long as it lives. A delegated guard asks a thread for the mode and gives
back the one it found; a barrier guard makes new code visible at the two boundaries where stale code
could run, on entering `exec` and on leaving `write`; an idle guard does nothing.
-/
namespace WriteXorExecute

/-- What makes the stores of one core visible to the instructions fetched by all. -/
inductive Barrier where
  /-- A barrier that is counted. -/
  | counted
  /-- The processor's own barrier, which leaves nothing to be seen. -/
  | processor
  deriving DecidableEq, Repr

namespace Guard

inductive Kind where
  /-- The platform's own. -/
  | active
  | delegated
  /-- With counted barriers. -/
  | barrier
  | noop
  deriving DecidableEq, Repr

end Guard

inductive Guard where
  /-- Asked `thread` for `mode`, where it found `previous`. -/
  | delegated (mode : Mode) (thread : Option String) (previous : Mode)
  | barrier (barrier : Barrier) (mode : Mode)
  | noop
  deriving DecidableEq, Repr

namespace Guard

/-- What a guard tells about itself: a delegated guard the mode that it will give back, a barrier
guard the mode that it was made for, an idle guard nothing. -/
def query : Guard → Option Mode
  | delegated _ _ previous => some previous
  | barrier _ mode => some mode
  | noop => none

end Guard

end WriteXorExecute
