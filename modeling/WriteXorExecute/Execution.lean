import WriteXorExecute.Code.Digest
import WriteXorExecute.SelfCheck.Run
/-!
# Running programs

`perform` runs one operation, `run` a program, and `history` a whole program from an empty world to
the end of the last guard. A panic ends the body of the nearest `attempt`, or the program; every
scope on the way is closed.
-/
namespace WriteXorExecute

open Procedure

def Reply.ofGuard (g : Guard) : Reply :=
  g.query.elim .nothing .mode

namespace Question

/-- The answer to a question about a thread, if it is there. -/
def ofThread (w : World) (name : String) (answer : Thread → Reply) : Reply :=
  (w.threads.get? name).elim .gone answer

def answer (p : Platform) (w : World) : Question → Reply
  | status thread => ofThread w thread fun t => .status t.status
  | check thread mode => ofThread w thread fun t => .checked (t.check mode)
  | sync thread => ofThread w thread fun t => .checked t.sync
  | config thread => ofThread w thread fun t => .config t.config
  | guard slot => (w.guard? slot).elim .gone .ofGuard
  | code buffer => .code (w.buffer buffer).code
  | extent buffer =>
    let b := w.buffer buffer
    .extent b.bytes.size b.bytes.isEmpty b.maxSize
  | display buffer => .text (w.buffer buffer).display
  | strategy => .text p.strategy.label
  | support => .support p.switchSupported 1
  | defaultMaxSize => .limit CodeBuffer.defaultMaxSize
  | modeTexts mode => .names mode.name mode.label
  | modeErrorTexts e => .names e.message e.display
  | codeErrorTexts => .namesOfAll (CodeError.all.map fun e => (e.message, e.label))
  | strategyTexts => .strategies (Strategy.all.map fun s => (s.label, decide (s = p.strategy)))
  | sameError a b => .same (decide (a = b))
  | finding f => .finding f

end Question

/-- Runs one operation. Code that is running, of the buffers `running`, cannot be changed. -/
def perform (p : Platform) (running : List String) : Operation → Step Reply
  | .ask question => return question.answer p (← get)
  | .newThread name backend initialMode checkAtSync => do
    let t : Thread := { backend, config := .requested p initialMode checkAtSync }
    create name fun w => { w with threads := w.threads.add name t }
    return .nothing
  | .newToggle name toggle => do
    create name fun w => { w with toggles := w.toggles.add name toggle }
    return .nothing
  | .newBuffer name maxSize => do
    let b : CodeBuffer := { maxSize := maxSize.getD CodeBuffer.defaultMaxSize }
    create name fun w => { w with buffers := w.buffers.add name b }
    return .limit b.maxSize
  | .init thread =>
    return (← onThread thread (Thread.init p false)).elim .gone fun _ => .nothing
  | .enable name mode => return .mode (← switch p false name mode)
  | .assertMode thread mode =>
    return (← onThread thread (Thread.assertMode p mode)).elim .gone fun _ => .nothing
  | .hold slot kind mode thread => do
    let g ← Guard.enter p (.slot slot) kind mode thread
    modify fun w => w.keep slot g
    return .ofGuard g
  | .drop slot => do
    match (← get).guard? slot with
    | none => return .gone
    | some g =>
      modify fun w => w.discard slot
      Guard.leave p (.slot slot) false g
      return .nothing
  | .forget slot => do
    match (← get).guard? slot with
    | none => return .gone
    | some g =>
      modify fun w => w.discard slot
      mark (.forgotten slot g)
      return .nothing
  | .emit buffer thread data => do
    if buffer ∈ running then return .busy
    return .emitted (← Code.emit p buffer thread data)
  | .patch buffer thread offset data => do
    if buffer ∈ running then return .busy
    return .patched (← Code.patch p buffer thread offset data)
  | .free buffer => do
    if buffer ∈ running then return .busy
    onBuffer buffer fun b => b.free
    return .nothing
  | .fence mode => do
    issue .processor
    let g ← Guard.acquireBarrier .processor mode
    Guard.release p false g
    return .mode mode
  | .selfCheck none => return .findings (← SelfCheck.runAll p)
  | .selfCheck (some check) => return .finding (← check.run p)
  | .panic message => fail (.explicit message)

def Scope.entryReply (s : Scope) (g : Guard) : Reply :=
  match s.style with
  | .guarded _ => .ofGuard g
  | .closure => .nothing

def Scope.exitReply (s : Scope) (g : Guard) : Reply :=
  match s.style with
  | .guarded _ => .ofGuard g
  | .closure => .mode s.mode

/-- Runs a program while the code of the buffers `running` is running. -/
def run (p : Platform) : (running : List String) → Program → Step Unit
  | _, .done => return ()
  | running, .step op rest => do
    complete (.operation op) (← perform p running op)
    run p running rest
  | running, .scope s body rest => do
    let reply ← holding p s.kind s.mode s.thread fun g => do
      complete .entered (s.entryReply g)
      run p running body
      return s.exitReply g
    complete .left reply
    run p running rest
  | running, .attempt body rest => do
    match ← attempt (run p running body) with
    | .ok _ => complete .tried .nothing
    | .error cause => complete .tried (.panicked cause)
    run p running rest
  | running, .execute buffer thread body rest => do
    let result ← Code.execute p buffer thread fun bytes => do
      complete .started (.bytes bytes)
      run p (buffer :: running) body
      return Code.value bytes
    complete .executed (.executed result)
    run p running rest

/-- Ends the guards that outlived their program, each on its own. -/
def endGuards (p : Platform) : List (String × Guard) → Step Unit
  | [] => return ()
  | (slot, g) :: rest => do
    modify fun w => w.discard slot
    match ← attempt (Guard.leave p (.slot slot) false g) with
    | .ok _ => complete .ended (.slot slot)
    | .error cause => complete .ended (.panicked cause)
    endGuards p rest

/-- Runs a program to its end or to the panic that breaks it off, and then ends the guards that are
still in slots, the newest first. -/
def runToEnd (p : Platform) (program : Program) : Step Unit := do
  match ← attempt (run p [] program) with
  | .ok _ => pure ()
  | .error cause => complete .uncaught (.panicked cause)
  endGuards p (← get).slots

/-- All that happens in a program, from an empty world on. -/
def history (p : Platform) (program : Program) : List Happening :=
  (runToEnd p program .empty).trace

end WriteXorExecute
