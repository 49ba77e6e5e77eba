import WriteXorExecute.Thread.Basic
import WriteXorExecute.Toggle
/-!
# Panics

A panic leaves every scope on its way out. It knows its cause, and the cause has one message.
-/
namespace WriteXorExecute

/-- Why a program's flow is broken off. -/
inductive Panic where
  /-- The program asked for it. -/
  | explicit (message : String)
  /-- What was done to the thread of this name failed. -/
  | thread (name : String) (fault : Thread.Fault)
  /-- A call of the toggle of this name failed. -/
  | toggle (name : String) (fault : Toggle.Fault)
  deriving DecidableEq, Repr

def Panic.message : Panic → String
  | explicit message => message
  | thread _ .secondInit => "second init_wx"
  | thread _ (.wrongMode e) => "[KPIO WX] " ++ e.message
  | thread name (.backend call) => "backend " ++ name ++ " call " ++ toString call
  | toggle name fault => "toggle " ++ name ++ " call " ++ toString fault.call

end WriteXorExecute
