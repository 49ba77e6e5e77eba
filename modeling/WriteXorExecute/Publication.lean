import WriteXorExecute.Code.Change
/-!
# Publication of code from one thread to another

A writer emits code into a buffer behind a lock and then sets a flag; a reader waits for the flag
and then runs the code. Each agent takes one step at a time, and the steps of the two can follow one
another in any order: `State.step` is one step of one agent, and a schedule says whose turn it is.

The lock has one owner at a time, and a load of the flag that sees it set sees all that was done
before it was set.
-/
namespace WriteXorExecute.Publication

inductive Agent where
  | writer
  | reader
  deriving DecidableEq, Repr

inductive WriterPhase where
  | detached
  | attached
  | locked
  /-- Its `write` scope is open. -/
  | opened (g : Guard) (offset : UInt64)
  /-- The code has been stored. -/
  | stored (g : Guard) (offset : UInt64)
  /-- Its scope is closed, or the code was refused. -/
  | closed (result : Except CodeError UInt64)
  | unlocked (result : Except CodeError UInt64)
  /-- The flag is set. -/
  | finished (result : Except CodeError UInt64)
  | panicked

inductive ReaderPhase where
  | detached
  /-- Waits for the flag. -/
  | waiting
  /-- Has seen the flag. -/
  | released
  | locked
  /-- Its `exec` scope is open. -/
  | opened (g : Guard)
  /-- The code has been run over these bytes. -/
  | ran (g : Guard) (bytes : ByteArray)
  /-- Its scope is closed, or there was nothing to run. -/
  | closed (result : Except CodeError ByteArray)
  | finished (result : Except CodeError ByteArray)
  | panicked

/-- Both agents and what they share. The world holds the thread of each agent and the buffer. -/
structure State where
  world : World
  lock : Option Agent := none
  published : Bool := false
  writer : WriterPhase := .detached
  reader : ReaderPhase := .detached

def writerThread : String := "writer"

def readerThread : String := "reader"

def sharedCode : String := "code"

/-- An empty buffer with a limit, and a new thread for each agent. -/
def State.initial (p : Platform) (maxSize : UInt64) : State where
  world :=
    { threads := (Table.add ∅ writerThread (.untracked p)).add readerThread (.untracked p)
      buffers := Table.add ∅ sharedCode { maxSize := maxSize } }

namespace State

variable {α : Type}

/-- Acts in the world and goes on as the outcome says. -/
def act (s : State) (x : Step α) (next : α → State → State) (broken : State → State) : State :=
  let r := x s.world
  let s := { s with world := r.state }
  match r.outcome with
  | .ok a => next a s
  | .error _ => broken s

/-- The state after a panic of an agent, which gives up the lock if it holds it. -/
def unlockedBy (s : State) (agent : Agent) : State :=
  { s with lock := if s.lock = some agent then none else s.lock }

/-- One step of the writer; none while the lock is not free, or when it is done. -/
def stepWriter (p : Platform) (data : ByteArray) (s : State) : Option State :=
  let broken := fun s : State => { s.unlockedBy .writer with writer := .panicked }
  match s.writer with
  | .detached =>
    some (s.act (onThread writerThread (Thread.init p false))
      (fun _ s => { s with writer := .attached }) broken)
  | .attached =>
    if s.lock = none then some { s with lock := some .writer, writer := .locked } else none
  | .locked =>
    match (s.world.buffer sharedCode).admitEmit data.size with
    | .error e => some { s with writer := .closed (.error e) }
    | .ok offset =>
      some (s.act (Guard.enter p .scope .active .write (some writerThread))
        (fun g s => { s with writer := .opened g offset }) broken)
  | .opened g offset =>
    some (s.act (Code.store sharedCode offset data)
      (fun _ s => { s with writer := .stored g offset }) broken)
  | .stored g offset =>
    some (s.act (Guard.leave p .scope false g)
      (fun _ s => { s with writer := .closed (.ok offset) }) broken)
  | .closed result => some { s with lock := none, writer := .unlocked result }
  | .unlocked result => some { s with published := true, writer := .finished result }
  | .finished _ | .panicked => none

/-- One step of the reader; none while the lock is not free, or when it is done. Waiting for the
flag is a step that may lead nowhere. -/
def stepReader (p : Platform) (s : State) : Option State :=
  let broken := fun s : State => { s.unlockedBy .reader with reader := .panicked }
  match s.reader with
  | .detached =>
    some (s.act (onThread readerThread (Thread.init p false))
      (fun _ s => { s with reader := .waiting }) broken)
  | .waiting => some (if s.published then { s with reader := .released } else s)
  | .released =>
    if s.lock = none then some { s with lock := some .reader, reader := .locked } else none
  | .locked =>
    match (s.world.buffer sharedCode).admitRun with
    | .error e => some { s with reader := .closed (.error e) }
    | .ok _ =>
      some (s.act (Guard.enter p .scope .active .exec (some readerThread))
        (fun g s => { s with reader := .opened g }) broken)
  | .opened g => some { s with reader := .ran g (s.world.buffer sharedCode).bytes }
  | .ran g bytes =>
    some (s.act (Guard.leave p .scope false g)
      (fun _ s => { s with reader := .closed (.ok bytes) }) broken)
  | .closed result => some { s with lock := none, reader := .finished result }
  | .finished _ | .panicked => none

def step (p : Platform) (data : ByteArray) (s : State) : Agent → Option State
  | .writer => s.stepWriter p data
  | .reader => s.stepReader p

/-- The agents take their steps as the schedule says; one that cannot take its step loses its
turn. -/
def run (p : Platform) (data : ByteArray) (s : State) (schedule : List Agent) : State :=
  schedule.foldl (fun s agent => (s.step p data agent).getD s) s

end State

end WriteXorExecute.Publication
