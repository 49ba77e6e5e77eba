import WriteXorExecute.Publication
import WriteXorExecute.SelfCheck.Basic
/-!
# Running the self-checks

Each check works on threads and buffers of its own, of which only the log is heard outside.
-/
namespace WriteXorExecute.SelfCheck

open Procedure

variable {α : Type}

/-- Acts in a world of its own. Only lines of the log are heard outside. -/
def apart (x : Step α) : Step α :=
  fun w =>
    let r := x .empty
    ⟨r.outcome, w, r.trace.filterMap fun h => h.record?.map .selfCheck⟩

/-- Makes a thread that changes nothing, and initialises it. -/
def attach (p : Platform) (name : String) : Step Unit := do
  create name fun w => { w with threads := w.threads.add name (.untracked p) }
  let _ ← onThread name (Thread.init p false)

def status? (name : String) : Step (Option Thread.Status) :=
  return ((← get).threads.get? name).map (·.status)

def check (name : String) (mode : Mode) : Step Bool :=
  return ((← status? name).bind (·.mode)) = some mode

/-- The verdicts of several trials: the first failure, if there is one. -/
def allOf : List (Step Verdict) → Step Verdict
  | [] => return .pass
  | trial :: rest => do
    match ← trial with
    | .pass => allOf rest
    | .fail reason => return .fail reason

def displayMode : Option Mode → String
  | none => "None"
  | some mode => Text.Display.tagged "Some" mode.label

/-- A thread in `prior` goes through a delegated scope that asks for `requested`. -/
def restoreTrial (p : Platform) (prior requested : Mode) : Step Verdict := apart do
  let thread := "thread"
  attach p thread
  let _ ← switch p false thread prior
  let inside ← holding p .delegated requested (some thread) fun g => do
    let found := g.query.getD prior
    if found ≠ prior then
      return Verdict.fail
        ("previous mode " ++ found.name ++ " recorded, expected " ++ prior.name)
    if !(← check thread requested) then
      return .fail "Mode not entered"
    return .pass
  match inside with
  | .fail reason => return .fail reason
  | .pass =>
    if ← check thread prior then
      return .pass
    return .fail (prior.name ++ " -> " ++ requested.name ++ " scope left thread in "
      ++ displayMode ((← status? thread).bind (·.mode)))

/-- The modes of nested scopes alternate, and the outermost one is `exec`. -/
def nestedMode (level : Nat) : Mode :=
  if level % 2 = 0 then .exec else .write

/-- Opens scopes of the platform's guard from `level` on, one inside the other, and closes them. -/
def nest (p : Platform) (thread : String) (level : Nat) : (more : Nat) → Step Unit
  | 0 => return ()
  | more + 1 =>
    holding p .active (nestedMode level) (some thread) fun _ => nest p thread (level + 1) more

/-- Nests of up to eight scopes. -/
def nestingTrial (p : Platform) : Step Verdict := apart do
  let thread := "thread"
  attach p thread
  allOf <| (List.range 8).map fun n => do
    nest p thread 0 (n + 1)
    if ← check thread .write then
      return .pass
    return .fail ("Depth " ++ toString (n + 1) ++ " left thread in exec")

/-- Scopes of the platform's guard without a thread. -/
def untrackedTrial (p : Platform) : Step Verdict := apart do
  let thread := "thread"
  attach p thread
  let before ← status? thread
  holding p .active .write none fun _ => return ()
  holding p .active .exec none fun _ => return ()
  if (← status? thread).map (·.transitions) = before.map (·.transitions) then
    return .pass
  return .fail "Untracked guard changed thread"

/-- The word that four bytes write, the lowest byte first. -/
def wordAt (bytes : ByteArray) (offset : Nat) : Nat :=
  (bytes.extract offset (offset + 4)).toList.foldr (fun b n => n * 256 + b.toNat) 0

def displayResult (text : α → String) : Except CodeError α → String
  | .ok a => Text.Display.tagged "Ok" (text a)
  | .error e => Text.Display.tagged "Err" e.label

/-- Emits an instruction, patches its operand, and reads the operand back while running. -/
def codeTrial (p : Platform) : Step Verdict := apart do
  let thread := "thread"
  let buffer := "code"
  attach p thread
  create buffer fun w => { w with buffers := w.buffers.add buffer { maxSize := 256 } }
  match ← Code.emit p buffer (some thread) ⟨#[0xB8, 0, 0, 0, 0, 0xC3]⟩ with
  | .error e => return .fail ("emit: " ++ e.message)
  | .ok offset =>
    match ← Code.patch p buffer (some thread) (offset + 1) ⟨#[42, 0, 0, 0]⟩ with
    | .error e => return .fail ("patch: " ++ e.message)
    | .ok _ =>
      let operand ← Code.execute p buffer (some thread) fun bytes => return wordAt bytes 1
      if operand.toOption ≠ some 42 then
        return .fail ("Read back " ++ displayResult toString operand)
      if ← check thread .write then
        return .pass
      return .fail "Thread left in exec"

/-- One thread emits; another one runs what was emitted. -/
def sharedTrial (p : Platform) : Step Verdict := apart do
  let buffer := "code"
  let data : ByteArray := ⟨#[0x90, 0xC3]⟩
  create buffer fun w => { w with buffers := w.buffers.add buffer { maxSize := 64 } }
  attach p "writer"
  match ← Code.emit p buffer (some "writer") data with
  | .error _ => return .fail "emit failed"
  | .ok _ =>
    attach p "reader"
    let seen ← Code.execute p buffer (some "reader") fun bytes => return bytes
    if seen.toOption.map (·.data) = some data.data then
      return .pass
    return .fail ("Reader saw " ++ displayResult Text.Display.bytes seen)

/-- What a publication came to when both agents are done. -/
def publicationVerdict (data : ByteArray) (s : Publication.State) : Verdict :=
  match s.writer, s.reader with
  | .finished (.error e), _ => .fail ("writer: " ++ e.message)
  | _, .finished (.error e) => .fail ("reader: " ++ e.message)
  | .finished (.ok _), .finished (.ok bytes) =>
    if bytes.data = data.data then .pass else .fail ("Reader saw " ++ Text.Display.bytes bytes)
  | _, _ => .fail "thread panicked"

/-- A publication in which the writer comes first. -/
def publishTrial (p : Platform) : Step Verdict :=
  let data : ByteArray := ⟨#[0x31, 0xC0, 0xC3]⟩
  let schedule := List.replicate 7 .writer ++ List.replicate 7 .reader
  return publicationVerdict data ((Publication.State.initial p 64).run p data schedule)

def trials (p : Platform) : SelfCheck → List (Step Verdict)
  | restore =>
    [Mode.write, .exec].flatMap fun prior =>
      [Mode.write, .exec].map fun requested => restoreTrial p prior requested
  | nesting => [nestingTrial p]
  | untracked => [untrackedTrial p]
  | code => [codeTrial p]
  | shared => [sharedTrial p]
  | publish => [publishTrial p]

def run (p : Platform) (c : SelfCheck) : Step Finding :=
  return ⟨c.name, ← allOf (c.trials p)⟩

def runAll (p : Platform) : Step (List Finding) :=
  all.mapM (run p)

end WriteXorExecute.SelfCheck
