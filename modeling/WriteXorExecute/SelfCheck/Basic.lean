import WriteXorExecute.Text.Display
/-!
# What is checked, and what was found

Each self-check puts one promise of the guards or the code buffers to the test and gives a verdict.
-/
namespace WriteXorExecute

/-- A promise that can be put to the test. -/
inductive SelfCheck where
  /-- A delegated guard restores every mode from every mode. -/
  | restore
  /-- Nested guards of the platform lead back to the outer mode. -/
  | nesting
  /-- A guard without a thread touches no thread. -/
  | untracked
  /-- Code is emitted, patched and run through a buffer. -/
  | code
  /-- Code behind a lock is run after its writer's scope has closed. -/
  | shared
  /-- One thread publishes code and another runs it. -/
  | publish
  deriving DecidableEq, Repr

namespace SelfCheck

def name : SelfCheck → String
  | restore => "wx_restore"
  | nesting => "wx_nesting"
  | untracked => "wx_untracked"
  | code => "code_buffer"
  | shared => "shared_code"
  | publish => "cross_thread_publish"

def all : List SelfCheck :=
  [restore, nesting, untracked, code, shared, publish]

inductive Verdict where
  | pass
  | fail (reason : String)
  deriving DecidableEq, Repr

namespace Verdict

def passed : Verdict → Bool
  | pass => true
  | fail _ => false

def display : Verdict → String
  | pass => "Pass"
  | fail reason => Text.Display.tagged "Fail" (Text.Display.quoted reason)

end Verdict

/-- A verdict under the name of what was checked. -/
structure Finding where
  name : String
  verdict : Verdict
  deriving DecidableEq, Repr

end SelfCheck

end WriteXorExecute
