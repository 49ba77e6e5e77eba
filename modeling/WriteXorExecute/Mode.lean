/-!
# Access modes

A thread sees code memory either as writable or as executable, never as both. Where the platform
enforces nothing the mode is only what a scope means to do.
-/
namespace WriteXorExecute

/-- How a thread may use code memory. -/
inductive Mode where
  /-- Code may be written and not run. -/
  | write
  /-- Code may be run and not written. -/
  | exec
  deriving DecidableEq, Repr, Inhabited

namespace Mode

def name : Mode → String
  | write => "write"
  | exec => "exec"

def label : Mode → String
  | write => "Write"
  | exec => "Exec"

/-- The mode that this one excludes. -/
def other : Mode → Mode
  | write => exec
  | exec => write

theorem eq_other_of_ne {a b : Mode} (h : a ≠ b) : a = b.other := by
  cases a <;> cases b <;> simp_all [other]

end Mode

end WriteXorExecute
