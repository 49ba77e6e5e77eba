import WriteXorExecute.Mode
import WriteXorExecute.Text.Hex
/-!
# The log

Records tell what was asked of threads and code buffers. They are values, so that what a line of
text says can be asked of the record itself.
-/
namespace WriteXorExecute

/-- How closely a record is to be followed. -/
inductive Level where
  | debug
  | trace
  deriving DecidableEq, Repr

def Level.name : Level → String
  | debug => "debug"
  | trace => "trace"

inductive Record where
  /-- A thread is about to take its initial mode. -/
  | initializing (mode : Mode)
  /-- A thread without a mode was asked for one. -/
  | lateInitialization
  /-- A thread changes its mode. -/
  | modeChange (mode : Mode)
  /-- `count` bytes were appended at `offset`. -/
  | emitted (count : Nat) (offset : UInt64)
  /-- `count` bytes were overwritten from `offset` on. -/
  | patched (count : Nat) (offset : UInt64)
  deriving DecidableEq, Repr

namespace Record

/-- What concerns the setting up of threads is for debugging; every change is traced. -/
def level : Record → Level
  | initializing _ | lateInitialization => .debug
  | modeChange _ | emitted .. | patched .. => .trace

/-- What the record says, after the name of the log. -/
def body : Record → String
  | initializing mode => "Initializing thread W^X state (" ++ mode.name ++ ")"
  | lateInitialization => "enable_wx before init_wx, initializing"
  | modeChange mode => "Thread mode -> " ++ mode.name
  | emitted count offset =>
    "Emitted " ++ toString count ++ " bytes at " ++ Text.Hex.numeral offset.toNat
  | patched count offset =>
    "Patched " ++ toString count ++ " bytes at " ++ Text.Hex.numeral offset.toNat

def text (r : Record) : String :=
  "[KPIO WX] " ++ r.body

end Record

end WriteXorExecute
