import WriteXorExecute.SelfCheck.Run
import WriteXorExecute.Proofs.Access
import WriteXorExecute.Proofs.Contents
/-!
# Published code is complete

A writer emits code into a shared buffer and then publishes it, and a reader that has seen this runs
the code. Whatever the order of their steps, the reader is given all of the code, and both get done:
the writer with its seventh turn, the reader with its seventh turn after that at the latest.

- **The pieces** (`emit_in_turns`, `execute_in_turns`): with nothing in between, the turns that an
  agent takes while it has the lock are an emission or a run of code.
- **One turn** (`Consistent.turnWriter`, `Consistent.turnReader`): an agent can take its turn, and
  the lock, the flag, the threads and the buffer go on being what the phases of both agents say.
- **Any schedule** (`published_code_is_complete`).
-/
namespace WriteXorExecute.Publication

open Procedure

variable {α : Type} {p : Platform} {maxSize : UInt64} {data : ByteArray} {name other : String}
  {w w' : World} {s : State}

/-! ## Turns -/

namespace State

variable {x : Step α} {next next' : α → State → State} {broken broken' : State → State}

theorem act_of_ok {a : α} {trace : List Happening} (h : x s.world = ⟨.ok a, w', trace⟩) :
    s.act x next broken = next a { s with world := w' } := by
  simp only [act, h]

/-- What an act comes to depends on what is done in the world, and on what follows. -/
theorem act_congr {s' : State} {y : Step α} (hrun : x s.world = y s'.world)
    (hnext : ∀ a, (x s.world).outcome = .ok a →
      next a { s with world := (x s.world).state } = next' a { s' with world := (x s.world).state })
    (hbroken : broken { s with world := (x s.world).state }
      = broken' { s' with world := (x s.world).state }) :
    s.act x next broken = s'.act y next' broken' := by
  simp only [act, ← hrun]
  cases houtcome : (x s.world).outcome with
  | ok a => exact hnext a houtcome
  | error cause => exact hbroken

/-- What is done after an act is part of what follows. -/
theorem act_then (f : State → State) :
    f (s.act x next broken) = s.act x (fun a s => f (next a s)) fun s => f (broken s) := by
  simp only [act]
  split <;> rfl

theorem act_bind {β : Type} (f : α → Step β) {next : β → State → State} :
    s.act (x >>= f) next broken = s.act x (fun a s => s.act (f a) next broken) broken := by
  simp only [act, bind_apply]
  generalize x s.world = r
  obtain ⟨outcome, w, trace⟩ := r
  cases outcome <;> rfl

/-- The turn of an agent, which it loses if it cannot take its step. -/
def turn (p : Platform) (data : ByteArray) (s : State) (agent : Agent) : State :=
  (s.step p data agent).getD s

theorem run_cons (agent : Agent) (schedule : List Agent) :
    s.run p data (agent :: schedule) = (s.turn p data agent).run p data schedule := rfl

end State

/-! ## The pieces of an emission and of a run of code -/

/-- A scope whose body does not fail is opened and closed around it. -/
theorem holding_of_returns {kind : Guard.Kind} {mode : Mode} {thread : Option String}
    {body : Guard → Step α} (h : ∀ g w, (body g w).failed = false) :
    holding p kind mode thread body = (do
      let g ← Guard.enter p .scope kind mode thread
      let a ← body g
      Guard.leave p .scope false g
      return a) := by
  refine congrArg (Guard.enter p .scope kind mode thread >>= ·) (funext fun g => funext fun w => ?_)
  have hbody := h g w
  simp only [bind_apply, attempt_apply, Run.andThen_ok]
  generalize body g w = r at hbody
  obtain ⟨outcome, w', trace⟩ := r
  cases outcome with
  | ok a => rfl
  | error cause => cases hbody

def writerLost (s : State) : State :=
  { s.unlockedBy .writer with writer := .panicked }

def readerLost (s : State) : State :=
  { s.unlockedBy .reader with reader := .panicked }

/-- With nothing in between, the turns of the writer that has the lock are an emission. -/
theorem emit_in_turns (hlocked : s.writer = .locked) :
    ∃ count, s.run p data (List.replicate count .writer) =
      s.act (Code.emit p sharedCode (some writerThread) data)
        (fun result s => { s with writer := .closed result }) writerLost := by
  cases hadmitted : (s.world.buffer sharedCode).admitEmit data.size with
  | error e =>
    refine ⟨1, ?_⟩
    rw [State.act_of_ok (Code.emit_of_refused hadmitted)]
    simp only [List.replicate, State.run, List.foldl, State.step, State.stepWriter, hlocked,
      hadmitted, Option.getD_some]
  | ok offset =>
    refine ⟨3, ?_⟩
    have hemit : Code.emit p sharedCode (some writerThread) data s.world = (do
        let g ← Guard.enter p .scope .active .write (some writerThread)
        let _ ← Code.store sharedCode offset data
        Guard.leave p .scope false g
        return .ok offset : Step (Except CodeError UInt64)) s.world := by
      rw [Code.emit_of_admitted hadmitted, holding_of_returns fun _ _ => rfl, ← bind_apply]
      simp only [bind_assoc, pure_bind]
    let enter := Guard.enter p .scope .active .write (some writerThread)
    calc s.run p data [.writer, .writer, .writer]
      _ = (s.act enter (fun g s => { s with writer := .opened g offset }) writerLost).run p data
            [.writer, .writer] := by
        simp only [State.run_cons, State.turn, State.step, State.stepWriter, hlocked, hadmitted,
          Option.getD_some]
        rfl
      _ = s.act enter (fun g s => ({ s with writer := .opened g offset }).run p data
            [.writer, .writer]) writerLost := State.act_then (State.run p data · [.writer, .writer])
      _ = s.act enter (fun g s => s.act (Code.store sharedCode offset data)
            (fun _ s => s.act (Guard.leave p .scope false g)
              (fun _ s => { s with writer := .closed (.ok offset) }) writerLost) writerLost)
            writerLost := rfl
      _ = s.act (Code.emit p sharedCode (some writerThread) data)
            (fun result s => { s with writer := .closed result }) writerLost := by
        rw [State.act_congr hemit (fun _ _ => rfl) rfl]
        simp only [State.act_bind]
        rfl

/-- With nothing in between, the turns of the reader that has the lock are a run of code, which is
given its bytes. -/
theorem execute_in_turns (hlocked : s.reader = .locked) :
    ∃ count, s.run p data (List.replicate count .reader) =
      s.act (Code.execute p sharedCode (some readerThread) fun bytes => pure bytes)
        (fun result s => { s with reader := .closed result }) readerLost := by
  cases hadmitted : (s.world.buffer sharedCode).admitRun with
  | error e =>
    refine ⟨1, ?_⟩
    rw [State.act_of_ok (Code.execute_of_refused hadmitted)]
    simp only [List.replicate, State.run, List.foldl, State.step, State.stepReader, hlocked,
      hadmitted, Option.getD_some]
  | ok _ =>
    refine ⟨3, ?_⟩
    let bytes := (s.world.buffer sharedCode).bytes
    have hexecute : Code.execute p sharedCode (some readerThread) (fun bytes => pure bytes) s.world
        = (do
          let g ← Guard.enter p .scope .active .exec (some readerThread)
          Guard.leave p .scope false g
          return .ok bytes : Step (Except CodeError ByteArray)) s.world := by
      rw [Code.execute_of_admitted hadmitted, holding_of_returns fun _ _ => rfl, ← bind_apply]
      simp only [bind_assoc, pure_bind]
      rfl
    let enter := Guard.enter p .scope .active .exec (some readerThread)
    have hbytes : ((enter s.world).state.buffer sharedCode).bytes = bytes := by
      cases hb : s.world.buffers.get? sharedCode with
      | none =>
        have hrefused : CodeBuffer.released.admitRun = .error .regionFreed := rfl
        simp [World.buffer, hb, hrefused] at hadmitted
      | some b =>
        have haside : Obeys (Aside sharedCode) enter := .enter .scope .active .exec _
        simp only [bytes, World.buffer, hb, (haside s.world).kept b hb]
    calc s.run p data [.reader, .reader, .reader]
      _ = (s.act enter (fun g s => { s with reader := .opened g }) readerLost).run p data
            [.reader, .reader] := by
        simp only [State.run_cons, State.turn, State.step, State.stepReader, hlocked, hadmitted,
          Option.getD_some]
        rfl
      _ = s.act enter (fun g s => ({ s with reader := .opened g }).run p data [.reader, .reader])
            readerLost := State.act_then (State.run p data · [.reader, .reader])
      _ = s.act enter (fun g s => s.act (Guard.leave p .scope false g)
            (fun _ s => { s with reader := .closed (.ok bytes) }) readerLost) readerLost := by
        refine State.act_congr rfl (fun g _ => ?_) rfl
        rw [← hbytes]
        rfl
      _ = s.act (Code.execute p sharedCode (some readerThread) fun bytes => pure bytes)
            (fun result s => { s with reader := .closed result }) readerLost := by
        rw [State.act_congr hexecute (fun _ _ => rfl) rfl]
        simp only [State.act_bind]
        rfl

/-! ## What the phases say -/

/-- What an agent is to its thread. -/
inductive Stance where
  /-- The thread has not been initialised. -/
  | detached
  /-- The thread is in its initial mode. -/
  | idle
  /-- A guard is held, after which the thread is in its initial mode. -/
  | holding (g : Guard)
  /-- The agent has panicked. -/
  | lost

/-- Ended while the thread is in the mode `held`, the guard leaves it in `write`. -/
def Restores (name : String) (held : Mode) (g : Guard) : Prop :=
  (∃ asked, g = .delegated asked (some name) .write) ∨ (g.holds? = none ∧ held = .write)

/-- The thread of this name is as the stance says. Its initial mode is `write`. -/
def Stance.Fits (p : Platform) (name : String) (w : World) : Stance → Prop
  | detached => w.threads.get? name = some (.untracked p)
  | idle => ∃ t, Steady name .write t w
  | holding g => ∃ held t, Steady name held t w ∧ Restores name held g
  | lost => False

namespace WriterPhase

def stance : WriterPhase → Stance
  | detached => .detached
  | attached | locked | closed _ | unlocked _ | finished _ => .idle
  | opened g _ | stored g _ => .holding g
  | panicked => .lost

def locks : WriterPhase → Bool
  | locked | opened .. | stored .. | closed _ => true
  | detached | attached | unlocked _ | finished _ | panicked => false

def emitted (data : ByteArray) : WriterPhase → ByteArray
  | stored .. | closed _ | unlocked _ | finished _ => data
  | detached | attached | locked | opened .. | panicked => .empty

def hasPublished : WriterPhase → Bool
  | finished _ => true
  | detached | attached | locked | opened .. | stored .. | closed _ | unlocked _ | panicked => false

/-- How many turns the writer still needs. -/
def turnsLeft : WriterPhase → Nat
  | detached => 7
  | attached => 6
  | locked => 5
  | opened .. => 4
  | stored .. => 3
  | closed _ => 2
  | unlocked _ => 1
  | finished _ | panicked => 0

/-- The code starts where the buffer does, and has not been refused. -/
def Right : WriterPhase → Prop
  | opened _ offset | stored _ offset => offset = 0
  | closed result | unlocked result | finished result => result = .ok 0
  | detached | attached | locked | panicked => True

end WriterPhase

namespace ReaderPhase

def stance : ReaderPhase → Stance
  | detached => .detached
  | waiting | released | locked | closed _ | finished _ => .idle
  | opened g | ran g _ => .holding g
  | panicked => .lost

def locks : ReaderPhase → Bool
  | locked | opened _ | ran .. | closed _ => true
  | detached | waiting | released | finished _ | panicked => false

def hasSeen : ReaderPhase → Bool
  | released | locked | opened _ | ran .. | closed _ | finished _ => true
  | detached | waiting | panicked => false

/-- How many turns the reader still needs, once the flag is set. -/
def turnsLeft : ReaderPhase → Nat
  | detached => 7
  | waiting => 6
  | released => 5
  | locked => 4
  | opened _ => 3
  | ran .. => 2
  | closed _ => 1
  | finished _ | panicked => 0

def given? : ReaderPhase → Option ByteArray
  | ran _ bytes | closed (.ok bytes) | finished (.ok bytes) => some bytes
  | _ => none

/-- The reader has been given the data, and has not been refused. -/
def Right (data : ByteArray) : ReaderPhase → Prop
  | ran _ bytes => bytes = data
  | closed result | finished result => result = .ok data
  | detached | waiting | released | locked | opened _ | panicked => True

end ReaderPhase

/-- The agent that has the lock, to judge by the phases. -/
def State.holder (s : State) : Option Agent :=
  if s.writer.locks then some .writer else if s.reader.locks then some .reader else none

/-- The threads, the buffer, the lock and the flag are what the phases of the agents say, and the
reader has not seen what is not there. -/
structure Consistent (p : Platform) (maxSize : UInt64) (data : ByteArray) (s : State) : Prop where
  writer : s.writer.stance.Fits p writerThread s.world
  reader : s.reader.stance.Fits p readerThread s.world
  code : s.world.buffers.get? sharedCode
    = some { bytes := s.writer.emitted data, maxSize := maxSize }
  lock : s.lock = s.holder
  published : s.published = s.writer.hasPublished
  seen : s.reader.hasSeen = true → s.published = true
  written : s.writer.Right
  read : s.reader.Right data

theorem Consistent.initial (p : Platform) (maxSize : UInt64) (data : ByteArray) :
    Consistent p maxSize data (.initial p maxSize) where
  writer := rfl
  reader := rfl
  code := rfl
  lock := rfl
  published := rfl
  seen := nofun
  written := True.intro
  read := True.intro

/-! ## What an agent does to its thread -/

/-- Between the two worlds, neither the thread of this name nor the shared buffer has changed. -/
structure Beside (name : String) (w w' : World) : Prop where
  thread : w'.threads.get? name = w.threads.get? name
  code : ∀ b, w.buffers.get? sharedCode = some b → w'.buffers.get? sharedCode = some b

theorem Beside.of_obeys {x : Step α} {r : Run World Happening Panic α}
    (h : Obeys (Untouched name) x) (h' : Obeys (Aside sharedCode) x) (hx : x w = r) :
    Beside name w r.state :=
  hx ▸ ⟨(h w).thread, (h' w).kept⟩

theorem Stance.Fits.of_thread {stance : Stance} (h : stance.Fits p name w)
    (hthread : w'.threads.get? name = w.threads.get? name) : stance.Fits p name w' := by
  cases stance with
  | detached => exact hthread.trans h
  | idle =>
    obtain ⟨t, ht⟩ := h
    exact ⟨t, hthread.trans ht.thread, ht.still, ht.mode⟩
  | holding g =>
    obtain ⟨held, t, ht, hg⟩ := h
    exact ⟨held, t, ⟨hthread.trans ht.thread, ht.still, ht.mode⟩, hg⟩
  | lost => exact h

section

variable (hne : name ≠ other)

include hne

/-- The thread is initialised, without a panic. -/
theorem attaches (h : Stance.detached.Fits p name w) :
    ∃ a w' trace, onThread name (Thread.init p false) w = ⟨.ok a, w', trace⟩ ∧
      Stance.idle.Fits p name w' ∧ Beside other w w' := by
  have ht : w.threads.get? name = some (.untracked p) := h
  have hstill : (Thread.untracked p).Still :=
    Thread.still_of_script (by simp [Thread.untracked, Backend.script])
  have hrun := onThread_of_some ht (Thread.init p false)
  rw [Thread.init_of_still hstill rfl] at hrun
  have haside : Obeys (Aside sharedCode) (onThread name (Thread.init p false)) :=
    .atThread Aside.law fun _ _ _ => .of_same (by simp [Happening.edit?]) rfl
  refine ⟨_, _, _, hrun, ⟨_, World.withThread_self ht _, ?_, rfl⟩, ?_⟩
  · exact hstill.onward (Thread.passed_onward _ _ [])
  · exact .of_obeys (Untouched.onThread hne _) haside hrun

/-- A guard is made, which will lead back to the initial mode: it has found it, or it has left the
thread alone. -/
theorem enters (h : Stance.idle.Fits p name w) (mode : Mode) :
    ∃ g w' trace, Guard.enter p .scope .active mode (some name) w = ⟨.ok g, w', trace⟩ ∧
      (Stance.holding g).Fits p name w' ∧ Beside other w w' := by
  obtain ⟨t, ht⟩ := h
  have huntouched : Obeys (Untouched other) (Guard.enter p .scope .active mode (some name)) :=
    .enter (fun _ hname => hne (Option.some.inj hname)) .scope
  have hbeside {r} (hrun : Guard.enter p .scope .active mode (some name) w = r) :
      Beside other w r.state := .of_obeys huntouched (.enter .scope .active mode _) hrun
  by_cases hasks : Guard.Kind.asks p .active
  · obtain ⟨w', t', trace, hrun, ht', -, -⟩ := enter_steady hasks ht.thread ht.still mode
    have hbase : t.baseMode = .write := by simp [Thread.baseMode, ht.mode]
    rw [hbase] at hrun
    exact ⟨_, w', trace, hrun, ⟨mode, t', ht', .inl ⟨mode, rfl⟩⟩, hbeside hrun⟩
  · have hnone : Guard.enter p .scope .active mode (some name)
        = Guard.enter p .scope .active mode none := by
      simp only [Guard.enter, Guard.acquire_of_not_asks hasks mode (some name) none]
    have hreturns : Succeeds (Steady name .write t) (Guard.enter p .scope .active mode none) :=
      .enter (fun _ hthread => by cases hthread) .scope .active mode
    obtain ⟨g, w', trace, hrun, ht'⟩ := hreturns.run_eq ht
    have hholds := Guard.enter_holds .scope .active mode none w g (congrArg Run.outcome hrun)
    rw [← hnone] at hrun
    exact ⟨g, w', trace, hrun, ⟨.write, t, ht', .inr ⟨by simpa using hholds, rfl⟩⟩, hbeside hrun⟩

/-- It leads back to the initial mode. -/
theorem leaves {g : Guard} (h : (Stance.holding g).Fits p name w) :
    ∃ w' trace, Guard.leave p .scope false g w = ⟨.ok (), w', trace⟩ ∧
      Stance.idle.Fits p name w' ∧ Beside other w w' := by
  obtain ⟨held, t, ht, hg⟩ := h
  have hother : g.holds? ≠ some other := by
    rcases hg with ⟨asked, rfl⟩ | ⟨hnone, -⟩
    · exact fun hname => hne (Option.some.inj hname)
    · simp [hnone]
  have hbeside {r} (hrun : Guard.leave p .scope false g w = r) : Beside other w r.state :=
    .of_obeys (.leave hother .scope false) (.leave .scope false g) hrun
  rcases hg with ⟨asked, rfl⟩ | ⟨hnone, rfl⟩
  · obtain ⟨w', t', closing, hrelease, ht', -, -⟩ := release_steady ht p false asked .write
    have hrun := Guard.leave_apply (p := p) .scope false (.delegated asked (some name) .write) w
    rw [hrelease] at hrun
    exact ⟨w', _, hrun, ⟨t', ht'⟩, hbeside hrun⟩
  · have hreturns : Succeeds (Steady name .write t) (Guard.leave p .scope false g) :=
      .leave (fun other hother => absurd hother (by simp [hnone])) .scope false
    obtain ⟨_, w', trace, hrun, ht'⟩ := hreturns.run_eq ht
    exact ⟨w', trace, hrun, ⟨t, ht'⟩, hbeside hrun⟩

end

/-! ## One turn -/

/-- The first emission is admitted. -/
theorem admitEmit_first (hfits : data.size ≤ maxSize.toNat) :
    CodeBuffer.admitEmit { bytes := .empty, maxSize := maxSize } data.size = .ok 0 := by
  have hsize : ¬maxSize < 0 + UInt64.ofNat data.size := by
    have hcount : data.size < UInt64.size := Nat.lt_of_le_of_lt hfits maxSize.toNat_lt
    rw [UInt64.zero_add, UInt64.lt_iff_toNat_lt, UInt64.toNat_ofNat_of_lt' hcount]
    omega
  rw [CodeBuffer.admitEmit_of_live rfl]
  exact if_neg hsize

/-- So is a run of what has been emitted. -/
theorem admitRun_of_some (hsome : 0 < data.size) :
    CodeBuffer.admitRun { bytes := data, maxSize := maxSize } = .ok () := by
  have hempty : data.isEmpty = false := by
    rw [ByteArray.isEmpty, beq_eq_false_iff_ne]
    omega
  rw [CodeBuffer.admitRun_of_live rfl, hempty]
  rfl

namespace Consistent

section

variable (h : Consistent p maxSize data s)

include h

theorem buffer :
    s.world.buffer sharedCode = { bytes := s.writer.emitted data, maxSize := maxSize } := by
  rw [World.buffer, h.code, Option.getD_some]

/-- The writer that has set the flag has emitted the code. -/
theorem writer_finished (hpublished : s.published = true) : s.writer = .finished (.ok 0) := by
  have hdone := h.published
  have hright := h.written
  rw [hpublished] at hdone
  generalize s.writer = phase at hdone hright
  cases phase with
  | finished result => exact congrArg WriterPhase.finished hright
  | _ => cases hdone

/-- Before that, the reader does not get to the lock. -/
theorem reader_unlocked (hpublished : s.published = false) : s.reader.locks = false := by
  have hseen : s.reader.hasSeen ≠ true := fun hseen => by simp [h.seen hseen] at hpublished
  generalize s.reader = phase at hseen
  cases phase <;> first | rfl | exact absurd rfl hseen

/-- The writer gets on with its own thread. -/
theorem aloneWriter {phase : WriterPhase} (hbeside : Beside readerThread s.world w')
    (hstance : phase.stance.Fits p writerThread w') (hlocks : phase.locks = s.writer.locks)
    (hemitted : phase.emitted data = s.writer.emitted data)
    (hpublished : phase.hasPublished = s.writer.hasPublished) (hright : phase.Right) :
    Consistent p maxSize data { s with world := w', writer := phase } where
  writer := hstance
  reader := h.reader.of_thread hbeside.thread
  code := by
    rw [hemitted]
    exact hbeside.code _ h.code
  lock := by
    rw [h.lock, State.holder, State.holder, hlocks]
  published := h.published.trans hpublished.symm
  seen := h.seen
  written := hright
  read := h.read

/-- So does the reader. -/
theorem aloneReader {phase : ReaderPhase} (hbeside : Beside writerThread s.world w')
    (hstance : phase.stance.Fits p readerThread w') (hlocks : phase.locks = s.reader.locks)
    (hseen : phase.hasSeen = s.reader.hasSeen) (hright : phase.Right data) :
    Consistent p maxSize data { s with world := w', reader := phase } where
  writer := h.writer.of_thread hbeside.thread
  reader := hstance
  code := hbeside.code _ h.code
  lock := by
    rw [h.lock, State.holder, State.holder, hlocks]
  published := h.published
  seen hphase := h.seen (hseen ▸ hphase)
  written := h.written
  read := hright

end

/-- **The writer's turn.** As long as it is not done, it can take its step. -/
theorem turnWriter (h : Consistent p maxSize data s) (hfits : data.size ≤ maxSize.toNat)
    (hleft : s.writer.turnsLeft ≠ 0) :
    ∃ s', s.stepWriter p data = some s' ∧ Consistent p maxSize data s' ∧
      s'.writer.turnsLeft + 1 = s.writer.turnsLeft ∧ s'.reader = s.reader := by
  obtain ⟨w, lock, published, writer, reader⟩ := s
  have hother : writerThread ≠ readerThread := by decide
  -- Once the phase is known, most of what has to hold afterwards is what held before.
  cases writer with
  | detached =>
    obtain ⟨_, w', trace, hrun, hstance, hbeside⟩ := attaches hother h.writer
    exact ⟨_, congrArg some (State.act_of_ok hrun),
      h.aloneWriter hbeside hstance rfl rfl rfl True.intro, rfl, rfl⟩
  | attached =>
    have hfree : lock = none := h.lock.trans (by
      simp [State.holder, WriterPhase.locks, h.reader_unlocked h.published])
    exact ⟨_, if_pos hfree,
      ⟨h.writer, h.reader, h.code, rfl, h.published, h.seen, True.intro, h.read⟩, rfl, rfl⟩
  | locked =>
    obtain ⟨g, w', trace, hrun, hstance, hbeside⟩ := enters hother h.writer .write
    have hadmitted : (w.buffer sharedCode).admitEmit data.size = .ok 0 := by
      rw [h.buffer]
      exact admitEmit_first hfits
    have hstep : (State.mk w lock published .locked reader).stepWriter p data
        = some { world := w', lock, published, writer := .opened g 0, reader } := by
      simp only [State.stepWriter, hadmitted, State.act_of_ok hrun]
    exact ⟨_, hstep, h.aloneWriter hbeside hstance rfl rfl rfl rfl, rfl, rfl⟩
  | opened g offset =>
    let w' := (Code.store sharedCode offset data w).state
    have hstored : w'.buffers.get? sharedCode = some { bytes := data, maxSize := maxSize } := by
      have hcode : w.buffers.get? sharedCode = some { bytes := .empty, maxSize := maxSize } :=
        h.code
      simp [w', Code.store, onBuffer, hcode, CodeBuffer.append]
    exact ⟨{ world := w', lock, published, writer := .stored g offset, reader }, rfl,
      ⟨h.writer.of_thread rfl, h.reader.of_thread rfl, hstored, h.lock, h.published, h.seen,
        h.written, h.read⟩, rfl, rfl⟩
  | stored g offset =>
    obtain ⟨w', trace, hrun, hstance, hbeside⟩ := leaves hother h.writer
    have hresult : (WriterPhase.closed (.ok offset)).Right := congrArg Except.ok h.written
    exact ⟨_, congrArg some (State.act_of_ok hrun),
      h.aloneWriter hbeside hstance rfl rfl rfl hresult, rfl, rfl⟩
  | closed result =>
    have hreader : reader.locks = false := h.reader_unlocked h.published
    have hfree : none
        = State.holder { world := w, published, writer := .unlocked result, reader } := by
      simp [State.holder, WriterPhase.locks, hreader]
    exact ⟨_, rfl, ⟨h.writer, h.reader, h.code, hfree, h.published, h.seen, h.written, h.read⟩,
      rfl, rfl⟩
  | unlocked result =>
    exact ⟨_, rfl, ⟨h.writer, h.reader, h.code, h.lock, rfl, fun _ => rfl, h.written, h.read⟩,
      rfl, rfl⟩
  | finished | panicked => exact absurd rfl hleft

/-- **The reader's turn.** As long as it is not done, it can take its step; it gets on unless it
waits for the flag. -/
theorem turnReader (h : Consistent p maxSize data s) (hsome : 0 < data.size)
    (hleft : s.reader.turnsLeft ≠ 0) :
    ∃ s', s.stepReader p = some s' ∧ Consistent p maxSize data s' ∧
      (s'.reader.turnsLeft + 1 = s.reader.turnsLeft ∨ s.published = false ∧ s' = s) ∧
      s'.writer = s.writer := by
  obtain ⟨w, lock, published, writer, reader⟩ := s
  have hother : readerThread ≠ writerThread := by decide
  cases reader with
  | detached =>
    obtain ⟨_, w', trace, hrun, hstance, hbeside⟩ := attaches hother h.reader
    exact ⟨_, congrArg some (State.act_of_ok hrun),
      h.aloneReader hbeside hstance rfl rfl True.intro, .inl rfl, rfl⟩
  | waiting =>
    cases published with
    | false => exact ⟨_, rfl, h, .inr ⟨rfl, rfl⟩, rfl⟩
    | true =>
      exact ⟨_, rfl, ⟨h.writer, h.reader, h.code, h.lock, h.published, fun _ => rfl, h.written,
        True.intro⟩, .inl rfl, rfl⟩
  | released =>
    obtain rfl : writer = .finished (.ok 0) := h.writer_finished (h.seen rfl)
    exact ⟨_, if_pos h.lock,
      ⟨h.writer, h.reader, h.code, rfl, h.published, h.seen, h.written, True.intro⟩, .inl rfl, rfl⟩
  | locked =>
    obtain ⟨g, w', trace, hrun, hstance, hbeside⟩ := enters hother h.reader .exec
    have hadmitted : (w.buffer sharedCode).admitRun = .ok () := by
      obtain rfl : writer = .finished (.ok 0) := h.writer_finished (h.seen rfl)
      rw [h.buffer]
      exact admitRun_of_some hsome
    have hstep : (State.mk w lock published writer .locked).stepReader p
        = some { world := w', lock, published, writer, reader := .opened g } := by
      simp only [State.stepReader, hadmitted, State.act_of_ok hrun]
    exact ⟨_, hstep, h.aloneReader hbeside hstance rfl rfl True.intro, .inl rfl, rfl⟩
  | opened g =>
    obtain rfl : writer = .finished (.ok 0) := h.writer_finished (h.seen rfl)
    have hbytes : (w.buffer sharedCode).bytes = data := congrArg CodeBuffer.bytes h.buffer
    exact ⟨_, rfl, ⟨h.writer, h.reader, h.code, h.lock, h.published, h.seen, h.written, hbytes⟩,
      .inl rfl, rfl⟩
  | ran g bytes =>
    obtain ⟨w', trace, hrun, hstance, hbeside⟩ := leaves hother h.reader
    have hresult : (ReaderPhase.closed (.ok bytes)).Right data := congrArg Except.ok h.read
    exact ⟨_, congrArg some (State.act_of_ok hrun),
      h.aloneReader hbeside hstance rfl rfl hresult, .inl rfl, rfl⟩
  | closed result =>
    obtain rfl : writer = .finished (.ok 0) := h.writer_finished (h.seen rfl)
    exact ⟨_, rfl, ⟨h.writer, h.reader, h.code, rfl, h.published, h.seen, h.written, h.read⟩,
      .inl rfl, rfl⟩
  | finished | panicked => exact absurd rfl hleft

/-- The flag is set exactly when the writer needs no more turns. -/
theorem published_iff (h : Consistent p maxSize data s) :
    s.published = true ↔ s.writer.turnsLeft = 0 := by
  have hstance := h.writer
  rw [h.published]
  generalize s.writer = phase at hstance
  cases phase with
  | finished => exact ⟨fun _ => rfl, fun _ => rfl⟩
  | panicked => exact hstance.elim
  | _ => exact ⟨nofun, nofun⟩

theorem reader_finished (h : Consistent p maxSize data s) (hleft : s.reader.turnsLeft = 0) :
    s.reader = .finished (.ok data) := by
  have hstance := h.reader
  have hright := h.read
  generalize s.reader = phase at hleft hstance hright
  cases phase with
  | finished result => exact congrArg ReaderPhase.finished hright
  | panicked => exact hstance.elim
  | _ => cases hleft

end Consistent

/-! ## Any schedule -/

/-- These turns have been taken between the two states. The writer gets on with each of its turns,
the reader once the flag is set. -/
structure GotOn (s : State) (turns : List Agent) (s' : State) : Prop where
  writer : s'.writer.turnsLeft = s.writer.turnsLeft - turns.count .writer
  reader : s'.reader.turnsLeft ≤ s.reader.turnsLeft
  published : s.published = true → s'.published = true ∧
    s'.reader.turnsLeft = s.reader.turnsLeft - turns.count .reader

theorem GotOn.trans {s₁ s₂ s₃ : State} {first second : List Agent} (h : GotOn s₁ first s₂)
    (h' : GotOn s₂ second s₃) : GotOn s₁ (first ++ second) s₃ where
  writer := by rw [h'.writer, h.writer, List.count_append, Nat.sub_sub]
  reader := Nat.le_trans h'.reader h.reader
  published hpublished := by
    obtain ⟨hpublished₂, hleft₂⟩ := h.published hpublished
    obtain ⟨hpublished₃, hleft₃⟩ := h'.published hpublished₂
    exact ⟨hpublished₃, by rw [hleft₃, hleft₂, List.count_append, Nat.sub_sub]⟩

section

variable (hsome : 0 < data.size) (hfits : data.size ≤ maxSize.toNat)

include hsome hfits

theorem Consistent.turn (h : Consistent p maxSize data s) (agent : Agent) :
    Consistent p maxSize data (s.turn p data agent) ∧ GotOn s [agent] (s.turn p data agent) := by
  have hlost (hnone : s.step p data agent = none) : s.turn p data agent = s := by
    rw [State.turn, hnone, Option.getD_none]
  have htaken {s' : State} (hstep : s.step p data agent = some s') : s.turn p data agent = s' := by
    rw [State.turn, hstep, Option.getD_some]
  cases agent with
  | writer =>
    by_cases hleft : s.writer.turnsLeft = 0
    · have hdone := h.writer_finished (h.published_iff.2 hleft)
      rw [hlost (by simp only [State.step, State.stepWriter, hdone])]
      exact ⟨h, by simp [hleft], Nat.le_refl _, fun hpublished => ⟨hpublished, by simp⟩⟩
    · obtain ⟨s', hstep, hs', hleft', hreader⟩ := h.turnWriter hfits hleft
      rw [htaken hstep]
      refine ⟨hs', ?_, Nat.le_of_eq (by rw [hreader]), fun hpublished => ?_⟩
      · rw [List.count_singleton_self]
        omega
      · exact absurd (h.published_iff.1 hpublished) hleft
  | reader =>
    by_cases hleft : s.reader.turnsLeft = 0
    · have hdone := h.reader_finished hleft
      rw [hlost (by simp only [State.step, State.stepReader, hdone])]
      exact ⟨h, by simp, Nat.le_refl _, fun hpublished => ⟨hpublished, by simp [hleft]⟩⟩
    · obtain ⟨s', hstep, hs', hleft', hwriter⟩ := h.turnReader hsome hleft
      rw [htaken hstep]
      rcases hleft' with hless | ⟨hunpublished, rfl⟩
      · refine ⟨hs', by simp [hwriter], by omega, fun hpublished => ⟨?_, ?_⟩⟩
        · rw [hs'.published_iff, hwriter]
          exact h.published_iff.1 hpublished
        · rw [List.count_singleton_self]
          omega
      · refine ⟨hs', by simp, Nat.le_refl _, fun hpublished => ?_⟩
        rw [hunpublished] at hpublished
        cases hpublished

/-- Whatever the schedule, the state stays consistent, and the agents get on. -/
theorem Consistent.run (h : Consistent p maxSize data s) (schedule : List Agent) :
    Consistent p maxSize data (s.run p data schedule) ∧
      GotOn s schedule (s.run p data schedule) := by
  induction schedule generalizing s with
  | nil => exact ⟨h, rfl, Nat.le_refl _, fun hpublished => ⟨hpublished, rfl⟩⟩
  | cons agent rest ih =>
    obtain ⟨hturn, hgotOn⟩ := h.turn hsome hfits agent
    obtain ⟨hrun, hgotOn'⟩ := ih hturn
    exact ⟨hrun, hgotOn.trans hgotOn'⟩

end

/-- What can be relied on in a state. -/
structure Reliable (p : Platform) (data : ByteArray) (s : State) : Prop where
  /-- What is published is complete, and the writer has closed its scope and given up the lock. -/
  published : s.published = true →
    (s.world.buffer sharedCode).bytes = data ∧ s.writer = .finished (.ok 0) ∧
      s.world.snapshot.modeOf? writerThread = some (Thread.untracked p).config.initialMode ∧
      s.lock ≠ some .writer
  /-- No other code is run. -/
  given : ∀ bytes, s.reader.given? = some bytes → bytes = data
  /-- A reader that has seen the flag does not find the lock held. -/
  free : s.reader = .released → s.lock = none
  /-- An agent can take its step until it is done. -/
  writer : s.writer ≠ .finished (.ok 0) → (s.step p data .writer).isSome
  reader : s.reader ≠ .finished (.ok data) → (s.step p data .reader).isSome

theorem Consistent.reliable (h : Consistent p maxSize data s) (hsome : 0 < data.size)
    (hfits : data.size ≤ maxSize.toNat) : Reliable p data s where
  published hpublished := by
    have hdone := h.writer_finished hpublished
    have hstance := h.writer
    have hbuffer := h.buffer
    rw [hdone] at hstance hbuffer
    obtain ⟨t, ht⟩ := hstance
    refine ⟨congrArg CodeBuffer.bytes hbuffer, hdone, ?_, ?_⟩
    · rw [modeOf?_of_thread ht.thread, ht.mode]
      rfl
    · rw [h.lock, State.holder, hdone, WriterPhase.locks, if_neg Bool.false_ne_true]
      split <;> nofun
  given bytes hbytes := by
    have hright := h.read
    generalize s.reader = phase at hbytes hright
    unfold ReaderPhase.given? at hbytes
    split at hbytes
    · exact (Option.some.inj hbytes) ▸ hright
    · exact (Option.some.inj hbytes) ▸ Except.ok.inj hright
    · exact (Option.some.inj hbytes) ▸ Except.ok.inj hright
    · cases hbytes
  free hphase := by
    have hdone := h.writer_finished (h.seen (by rw [hphase]; rfl))
    simp [h.lock, State.holder, hdone, hphase, WriterPhase.locks, ReaderPhase.locks]
  writer hphase := by
    have hleft : s.writer.turnsLeft ≠ 0 := fun hleft =>
      hphase (h.writer_finished (h.published_iff.2 hleft))
    obtain ⟨s', hstep, -⟩ := h.turnWriter hfits hleft
    exact Option.isSome_iff_exists.2 ⟨s', hstep⟩
  reader hphase := by
    obtain ⟨s', hstep, -⟩ := h.turnReader hsome fun hleft => hphase (h.reader_finished hleft)
    exact Option.isSome_iff_exists.2 ⟨s', hstep⟩

/-- **Published code is complete.** This can be relied on after any schedule. The flag is set as
soon as the writer has had its turns, and from then on the reader needs no more than its own. -/
theorem published_code_is_complete (p : Platform) (hsome : 0 < data.size)
    (hfits : data.size ≤ maxSize.toNat) (schedule : List Agent) :
    let s := (State.initial p maxSize).run p data schedule
    Reliable p data s ∧ (s.published = true ↔ 7 ≤ schedule.count .writer) ∧
      ∀ later, s.published = true → 7 ≤ later.count .reader →
        (s.run p data later).reader = .finished (.ok data) ∧
        SelfCheck.publicationVerdict data (s.run p data later) = .pass := by
  intro s
  obtain ⟨hs, hgotOn⟩ : Consistent p maxSize data s ∧ GotOn (.initial p maxSize) schedule s :=
    (Consistent.initial p maxSize data).run hsome hfits schedule
  refine ⟨hs.reliable hsome hfits, ?_, fun later hpublished hlater => ?_⟩
  · rw [hs.published_iff, hgotOn.writer]
    show 7 - schedule.count .writer = 0 ↔ _
    omega
  · obtain ⟨hlast, hgotOn'⟩ := hs.run hsome hfits later
    obtain ⟨hpublished', hleft⟩ := hgotOn'.published hpublished
    have hbound : s.reader.turnsLeft ≤ 7 := hgotOn.reader
    have hread := hlast.reader_finished (by omega)
    exact ⟨hread, by simp [SelfCheck.publicationVerdict, hlast.writer_finished hpublished', hread]⟩

/-- The reader looks at the flag three times before it is set. -/
def eagerSchedule : List Agent :=
  [.reader, .reader, .writer, .writer, .reader, .writer, .writer, .reader, .writer, .writer,
    .writer]

theorem published_code_is_complete_eager :
    let p : Platform := { target := .macos }
    let data : ByteArray := ⟨#[0x31, 0xC0, 0xC3]⟩
    let s := (State.initial p 64).run p data eagerSchedule
    s.published = true ∧ Reliable p data s ∧
      SelfCheck.publicationVerdict data (s.run p data (List.replicate 7 .reader)) = .pass := by
  intro p data s
  have hsome : 0 < data.size := by decide
  have hfits : data.size ≤ (64 : UInt64).toNat := by decide
  obtain ⟨hreliable, hpublished, hread⟩ := published_code_is_complete p hsome hfits eagerSchedule
  have hset : s.published = true := hpublished.2 (by decide)
  exact ⟨hset, hreliable, (hread (List.replicate 7 .reader) hset (by decide)).2⟩

end WriteXorExecute.Publication
