import WriteXorExecute.Proofs.Bookkeeping
import WriteXorExecute.Proofs.Restoration
/-!
# Access to code

Where the platform has a switch for each thread, code is changed while the thread that changes it is
in `write`, and run while the thread that runs it is in `exec`; and it is not only the thread that
says so, its backend was last told the same. This is for threads whose backend keeps still, in every
state that a program can bring them to: the guards on the thread may have been ended in any order,
or lost, and it may have been asked for modes directly.

What carries this is that the books of a thread are right at every position of a program
(`booked_at`): so it suffices to follow the mode that the thread keeps track of.
-/
namespace WriteXorExecute

open Procedure Thread

variable {α : Type} {p : Platform} {failing : Bool} {name : String} {mode : Mode} {t : Thread}
  {w : World} {before : List Happening}

/-! ## What a thread and its backend are in -/

/-- The thread of this name is in a mode, and so is its backend, to judge by the last call that the
trace tells of. -/
structure Switched (name : String) (mode : Mode) (trace : List Happening) (w : World) : Prop where
  tracked : w.snapshot.modeOf? name = some mode
  sent : (begun (threadEvents name trace)).getLast? = some mode

theorem modeOf?_of_thread (ht : w.threads.get? name = some t) :
    w.snapshot.modeOf? name = t.mode := by
  simp [Snapshot.modeOf?, World.snapshot, ht, Thread.status]

/-- What the thread tells of itself is what its backend was last told. -/
theorem Switched.of_booked (h : Follows Booked name .empty before w)
    (hmode : w.snapshot.modeOf? name = some mode) : Switched name mode before w := by
  refine ⟨hmode, ?_⟩
  have hthread := h.thread
  cases ht : w.threads.get? name with
  | none => simp [Snapshot.modeOf?, World.snapshot, ht] at hmode
  | some t =>
    rw [ht] at hthread
    obtain ⟨t₀, hfresh, hbooked⟩ := hthread
    rw [modeOf?_of_thread ht] at hmode
    have hstatus := congrArg Status.mode hbooked.status
    simpa [Thread.status, expected, hfresh.mode, hmode] using hstatus.symm

/-- The books of a thread are right at every position. -/
theorem booked_at {way : List Frame} {place : Place}
    (h : Leads p way { world := .empty } before place) (name : String) :
    Follows Booked name .empty before place.world := by
  have hlaw : StepwiseLaw p (fun _ => True) (Follows Booked name) :=
    (Follows.programLaw (useLaw_booked p)).stepwise fun running op _ =>
      Follows.perform (useLaw_booked p) running op
  exact h.obeys hlaw
    (fun kind mode thread => Follows.enter (useLaw_booked p) .scope kind mode thread)
    fun f _ => f.all_of_forall fun _ => True.intro

theorem booked_after {β : Type} {x : Step β} {r : Run World Happening Panic β}
    (h : Follows Booked name .empty before w) (hx : Obeys (Follows Booked name) x)
    (hr : x w = r) : Follows Booked name .empty (before ++ r.trace) r.state :=
  (Follows.law Booked.law).trans h (hr ▸ hx w)

/-! ## What a thread is told -/

/-- The call that initialises the thread, if it has no mode yet. -/
def Thread.firstCall (t : Thread) : List Mode :=
  if t.mode = none then [t.config.initialMode] else []

/-- Asked for a mode, a thread whose backend keeps still answers, and tells the backend of the mode
if it is another one. -/
theorem Thread.enable_calls (h : t.Still) (p : Platform) (failing : Bool) (mode : Mode) :
    ∃ t' events, enable p failing mode t = ⟨.ok t.baseMode, t', events⟩ ∧ t'.Still ∧
      t'.mode = some mode ∧
      begun events = t.firstCall ++ if t.baseMode = mode then [] else [mode] := by
  have hpassed (t : Thread) (h : t.Still) (mode : Mode) : (t.passed mode).Still :=
    h.onward (passed_onward t mode [])
  cases hm : t.mode with
  | some found =>
    have hbase : t.baseMode = found := by simp [baseMode, hm]
    rw [enable_of_still h hm, hbase]
    by_cases hsame : found = mode
    · rw [if_pos hsame]
      exact ⟨t, [], rfl, h, hsame ▸ hm, by simp [firstCall, hm, hsame, begun]⟩
    · rw [if_neg hsame]
      refine ⟨t.passed mode, _, rfl, hpassed t h mode, rfl, ?_⟩
      simp [firstCall, hm, hsame, begun, callEvents]
  | none =>
    have hbase : t.baseMode = t.config.initialMode := by simp [baseMode, hm]
    rw [enable_of_still_of_none h hm, hbase]
    dsimp only
    by_cases hsame : t.config.initialMode = mode
    · rw [if_pos hsame]
      refine ⟨_, _, rfl, hpassed t h _, congrArg some hsame, ?_⟩
      simp [firstCall, hm, hsame, begun, callEvents]
    · rw [if_neg hsame]
      refine ⟨_, _, rfl, hpassed _ (hpassed t h _) mode, rfl, ?_⟩
      simp [firstCall, hm, hsame, begun, callEvents]

/-- A thread that has a mode is not initialised. -/
theorem Thread.firstCall_of_some {found : Mode} (h : t.mode = some found) : t.firstCall = [] := by
  simp [firstCall, h]

/-! ## Guards on such a thread -/

/-- The thread has a mode in this world, and its backend keeps still. -/
structure Steady (name : String) (mode : Mode) (t : Thread) (w : World) : Prop where
  thread : w.threads.get? name = some t
  still : t.Still
  mode : t.mode = some mode

/-- Asked for a mode, the thread of the name is in it, and answers with the one that was found. -/
theorem switch_still (ht : w.threads.get? name = some t) (hstill : t.Still) (p : Platform)
    (failing : Bool) (mode : Mode) : ∃ w₁ t₁ trace,
      switch p failing name mode w = ⟨.ok t.baseMode, w₁, trace⟩ ∧
      Steady name mode t₁ w₁ ∧ w₁.buffers = w.buffers ∧ w₁.slots = w.slots ∧
      begun (threadEvents name trace)
        = t.firstCall ++ if t.baseMode = mode then [] else [mode] := by
  obtain ⟨t₁, events, henable, hstill₁, hmode, hcalls⟩ := enable_calls hstill p failing mode
  rw [switch_of_thread ht, henable]
  refine ⟨_, t₁, _, rfl, ⟨World.withThread_self ht t₁, hstill₁, hmode⟩, rfl, rfl, ?_⟩
  rw [threadEvents_map, hcalls]

theorem Steady.switch {found : Mode} (h : Steady name found t w) (p : Platform) (failing : Bool)
    (mode : Mode) : ∃ w₁ t₁ trace, switch p failing name mode w = ⟨.ok found, w₁, trace⟩ ∧
      Steady name mode t₁ w₁ ∧ w₁.buffers = w.buffers ∧ w₁.slots = w.slots ∧
      begun (threadEvents name trace) = if found = mode then [] else [mode] := by
  have hbase : t.baseMode = found := by simp [baseMode, h.mode]
  have hswitched := switch_still h.thread h.still p failing mode
  rwa [hbase, firstCall_of_some h.mode] at hswitched

/-- A guard that asks the thread is made, and knows the mode that was found. -/
theorem enter_steady {kind : Guard.Kind} (hasks : kind.asks p)
    (ht : w.threads.get? name = some t) (hstill : t.Still) (mode : Mode) :
    ∃ w₁ t₁ opening,
      Guard.enter p .scope kind mode (some name) w
        = ⟨.ok (.delegated mode (some name) t.baseMode), w₁, opening⟩ ∧
      Steady name mode t₁ w₁ ∧ w₁.buffers = w.buffers ∧
      begun (threadEvents name opening)
        = t.firstCall ++ if t.baseMode = mode then [] else [mode] := by
  obtain ⟨w₁, t₁, trace, hswitch, ht₁, hbuffers, -, hcalls⟩ := switch_still ht hstill p false mode
  rw [Guard.enter_of_answered hasks hswitch]
  exact ⟨w₁, t₁, _, rfl, ht₁, hbuffers, by rw [threadEvents_snoc_mark, hcalls]⟩

/-- It gives back the mode that it knows. -/
theorem release_steady {found : Mode} (h : Steady name found t w) (p : Platform) (failing : Bool)
    (asked previous : Mode) : ∃ w' t' closing,
      Guard.release p failing (.delegated asked (some name) previous) w = ⟨.ok (), w', closing⟩ ∧
      Steady name previous t' w' ∧ w'.buffers = w.buffers ∧
      begun (threadEvents name closing) = if found = previous then [] else [previous] := by
  obtain ⟨w', t', trace, hswitch, ht', hbuffers, -, hcalls⟩ := h.switch p failing previous
  rw [Guard.release_delegated, hswitch]
  exact ⟨w', t', trace, rfl, ht', hbuffers, hcalls⟩

/-! ## Changing code -/

/-- The run makes the change while the thread and its backend are in `write`: they are when the
bytes change, and when this is recorded, and nothing else changes any code. Afterwards they are in
the mode that the thread was in, or was going to be initialised to. The backend has been told of
nothing but that. -/
structure ChangesInWrite (name : String) (t : Thread) (before : List Happening) (w : World)
    (change : Step Unit) (r : Run World Happening Panic α) : Prop where
  moment : ∃ w₁ opening closing, r.trace = opening ++ (change w₁).trace ++ closing ∧
    w₁.buffers = w.buffers ∧ r.state.buffers = (change w₁).state.buffers ∧
    Switched name .write (before ++ opening) w₁ ∧
    Switched name .write (before ++ (opening ++ (change w₁).trace)) (change w₁).state
  after : Switched name t.baseMode (before ++ r.trace) r.state
  calls : begun (threadEvents name r.trace)
    = t.firstCall ++ if t.baseMode = .write then [] else [.write, .exec]

/-- A change of code that leaves threads alone is made in `write`. -/
theorem holding_changes {change : Step Unit} (hs : p.strategy = .delegated)
    (hbooked : Follows Booked name .empty before w) (ht : w.threads.get? name = some t)
    (hstill : t.Still) (hchange : Obeys (Untouched name) change)
    (hok : ∀ w, (change w).outcome = .ok ()) :
    let r := holding p .active .write (some name) (fun _ => change) w
    r.outcome = .ok () ∧ ChangesInWrite name t before w change r := by
  have hasks : Guard.Kind.asks p .active := by simp [Guard.Kind.asks, hs]
  obtain ⟨w₁, t₁, opening, henter, hsteady₁, hbuffers₁, hcalls₁⟩ :=
    enter_steady hasks ht hstill .write
  have hbooked₁ : Follows Booked name .empty (before ++ opening) w₁ :=
    booked_after hbooked (Follows.enter (useLaw_booked p) .scope .active .write _) henter
  -- The change leaves the thread as it is.
  have huntouched := hchange w₁
  have hok₁ := hok w₁
  have hsteady₂ : Steady name .write t₁ (change w₁).state :=
    ⟨huntouched.thread.trans hsteady₁.thread, hsteady₁.still, hsteady₁.mode⟩
  have hbooked₂ : Follows Booked name .empty (before ++ (opening ++ (change w₁).trace))
      (change w₁).state := by
    rw [← List.append_assoc]
    exact booked_after hbooked₁ (.of_untouched Booked.law hchange) rfl
  have hquiet : threadEvents name (change w₁).trace = [] := threadEvents_eq_nil huntouched.events
  obtain ⟨w₃, t₃, closing, hrelease, hsteady₃, hbuffers₃, hcalls₃⟩ :=
    release_steady hsteady₂ p false .write t.baseMode
  have hfailed : (change w₁).failed = false := by simp [Run.failed, hok₁]
  have hrun : holding p .active .write (some name) (fun _ => change) w = _ :=
    holding_of_entered henter
  simp only [hfailed, hrelease, hok₁] at hrun
  have hafter := booked_after hbooked ((Follows.programLaw (useLaw_booked p)).holding _ _ _ _
    fun _ => .of_untouched Booked.law hchange) hrun
  rw [hrun]
  refine ⟨rfl, ⟨w₁, opening, closing ++ [.mark (.closed .scope (.delegated .write (some name)
    t.baseMode)) w₃.snapshot], by simp, hbuffers₁, hbuffers₃, .of_booked hbooked₁ ?_,
    .of_booked hbooked₂ ?_⟩, .of_booked hafter ?_, ?_⟩
  · rw [modeOf?_of_thread hsteady₁.thread, hsteady₁.mode]
  · rw [modeOf?_of_thread hsteady₂.thread, hsteady₂.mode]
  · rw [modeOf?_of_thread hsteady₃.thread, hsteady₃.mode]
  · rw [threadEvents_snoc_mark, threadEvents_append, threadEvents_append, hquiet, List.append_nil,
      begun_append, hcalls₁, hcalls₃]
    cases t.baseMode <;> simp

/-! ## Running code -/

/-- The run gives the code to the body while the thread and its backend are in `exec`. However the
body ends, they are then back in the mode that the thread was in, or was going to be initialised
to. -/
structure RunsInExec (p : Platform) (name : String) (t : Thread) (before : List Happening)
    (running : List String) (buffer : String) (body : Program) (w : World)
    (r : Run World Happening Panic (Except CodeError UInt32)) : Prop where
  moment : ∃ w₁ opening closing,
    r.trace = opening ++ .mark (.completed .started (.bytes (w.buffer buffer).bytes)) w₁.snapshot
      :: (run p (buffer :: running) body w₁).trace ++ closing ∧
    r.outcome = (run p (buffer :: running) body w₁).outcome.map
      (fun _ => .ok (Code.value (w.buffer buffer).bytes)) ∧
    Switched name .exec (before ++ opening) w₁
  after : Switched name t.baseMode (before ++ r.trace) r.state

theorem runCode_runs {buffer : String} (hs : p.strategy = .delegated)
    (hbooked : Follows Booked name .empty before w) (ht : w.threads.get? name = some t)
    (hstill : t.Still) (hadmitted : (w.buffer buffer).admitRun = .ok ()) (running : List String)
    (body : Program) :
    RunsInExec p name t before running buffer body w
      (runCode p running buffer (some name) body w) := by
  have hasks : Guard.Kind.asks p .active := by simp [Guard.Kind.asks, hs]
  obtain ⟨w₁, t₁, opening, henter, hsteady₁, -, -⟩ := enter_steady hasks ht hstill .exec
  have hbooked₁ : Follows Booked name .empty (before ++ opening) w₁ :=
    booked_after hbooked (Follows.enter (useLaw_booked p) .scope .active .exec _) henter
  -- Whatever the body does, the thread keeps a mode, and its backend keeps still.
  obtain ⟨events, t₂, ht₂, honward⟩ := follows_onward (p := p) (buffer :: running) body
    hsteady₁.thread
  obtain ⟨found, hfound⟩ := Option.isSome_iff_exists.1 (honward.mode (by simp [hsteady₁.mode]))
  have hsteady₂ : Steady name found t₂ (run p (buffer :: running) body w₁).state :=
    ⟨ht₂, hsteady₁.still.onward honward, hfound⟩
  obtain ⟨w₃, t₃, closing, hrelease, hsteady₃, -, -⟩ :=
    release_steady hsteady₂ p (run p (buffer :: running) body w₁).failed .exec t.baseMode
  have hrun := runCode_of_entered running body hadmitted henter
  simp only [hrelease] at hrun
  have hlaw : Law (Follows Booked name) := Follows.law Booked.law
  have hcode : Obeys (Follows Booked name) (runCode p running buffer (some name) body) :=
    (Follows.programLaw (useLaw_booked p)).execute buffer (some name) fun bytes =>
      .bind hlaw (Follows.mark Booked.law _) fun _ =>
        .bind hlaw (Follows.run (useLaw_booked p) _ body) fun _ => .pure hlaw _
  have hafter := booked_after hbooked hcode hrun
  rw [hrun]
  refine ⟨⟨w₁, opening, closing ++ [.mark (.closed .scope (.delegated .exec (some name)
    t.baseMode)) w₃.snapshot], by simp, ?_, .of_booked hbooked₁ ?_⟩, .of_booked hafter ?_⟩
  · rfl
  · rw [modeOf?_of_thread hsteady₁.thread, hsteady₁.mode]
  · rw [modeOf?_of_thread hsteady₃.thread, hsteady₃.mode]

/-- **Access to code.** A change of code is one of its bytes, with one line in the log. -/
theorem code_access_under_its_mode {way : List Frame} {place : Place}
    (hs : p.strategy = .delegated) (hlead : Leads p way { world := .empty } before place)
    (ht : place.world.threads.get? name = some t) (hstill : t.Still) (buffer : String) :
    (∀ data, match (place.world.buffer buffer).admitEmit data.size with
      | .error e => Code.emit p buffer (some name) data place.world
          = ⟨.ok (.error e), place.world, []⟩
      | .ok offset =>
        (Code.emit p buffer (some name) data place.world).outcome = .ok (.ok offset) ∧
          ChangesInWrite name t before place.world (Code.store buffer offset data)
            (Code.emit p buffer (some name) data place.world) ∧
          Code.WritesOnce buffer (fun b => { b with bytes := b.bytes ++ data })
            (.emitted data.size offset) (Code.store buffer offset data)) ∧
    (∀ offset data, match (place.world.buffer buffer).admitPatch offset data.size with
      | .error e => Code.patch p buffer (some name) offset data place.world
          = ⟨.ok (.error e), place.world, []⟩
      | .ok _ =>
        (Code.patch p buffer (some name) offset data place.world).outcome = .ok (.ok ()) ∧
          ChangesInWrite name t before place.world (Code.replace buffer offset data)
            (Code.patch p buffer (some name) offset data place.world) ∧
          Code.WritesOnce buffer
            (fun b => { b with
              bytes := b.bytes.extract 0 offset.toNat ++ data
                ++ b.bytes.extract (offset.toNat + data.size) b.bytes.size })
            (.patched data.size offset) (Code.replace buffer offset data)) ∧
    (∀ body, match (place.world.buffer buffer).admitRun with
      | .error e => runCode p place.running buffer (some name) body place.world
          = ⟨.ok (.error e), place.world, []⟩
      | .ok _ => RunsInExec p name t before place.running buffer body place.world
          (runCode p place.running buffer (some name) body place.world)) := by
  have hbooked := booked_at hlead name
  refine ⟨fun data => ?_, fun offset data => ?_, fun body => ?_⟩
  · cases hadmitted : (place.world.buffer buffer).admitEmit data.size with
    | error e => exact Code.emit_of_refused hadmitted
    | ok offset =>
      obtain ⟨hok, hchanges⟩ := holding_changes hs hbooked ht hstill
        (.store buffer offset data) fun _ => rfl
      simp only [Code.emit_of_admitted hadmitted, Run.andThen_return, hok]
      exact ⟨rfl, ⟨hchanges.moment, hchanges.after, hchanges.calls⟩, Code.store_writesOnce _ _ _⟩
  · cases hadmitted : (place.world.buffer buffer).admitPatch offset data.size with
    | error e => exact Code.patch_of_refused hadmitted
    | ok _ =>
      obtain ⟨hok, hchanges⟩ := holding_changes hs hbooked ht hstill
        (.replace buffer offset data) fun _ => rfl
      simp only [Code.patch_of_admitted hadmitted, Run.andThen_return, hok]
      exact ⟨rfl, ⟨hchanges.moment, hchanges.after, hchanges.calls⟩, Code.replace_writesOnce _ _ _⟩
  · cases hadmitted : (place.world.buffer buffer).admitRun with
    | error e => exact Code.execute_of_refused hadmitted
    | ok _ => exact runCode_runs hs hbooked ht hstill hadmitted place.running body

/-- Guards are ended out of order, and lost. -/
def tangledProgram : Program :=
  .step (.newThread "t" .null (some .exec) none) <|
  .step (.newBuffer "b" none) <|
  .step (.hold "g" .delegated .write (some "t")) <|
  .step (.hold "h" .delegated .exec (some "t")) <|
  .step (.drop "g") <|
  .step (.forget "h") .done

/-- The world that it leaves on a platform with a switch for each thread. -/
def tangledWorld : World :=
  ((Item.attempt tangledProgram).run { target := .macos } [] .empty).state

def tangledThread : Thread where
  backend := .null
  config := { initialMode := .exec, checkAtSync := true }
  mode := some .exec
  transitions := 3
  calls := 3

theorem code_access_under_its_mode_tangled :
    ∃ before, Leads { target := .macos } [.past (.attempt tangledProgram)] { world := .empty }
        before { world := tangledWorld } ∧
      tangledWorld.threads.get? "t" = some tangledThread ∧ tangledThread.Still ∧
      (Code.emit { target := .macos } "b" (some "t") ⟨#[0xC3]⟩ tangledWorld).outcome = .ok (.ok 0) ∧
      ChangesInWrite "t" tangledThread before tangledWorld (Code.store "b" 0 ⟨#[0xC3]⟩)
        (Code.emit { target := .macos } "b" (some "t") ⟨#[0xC3]⟩ tangledWorld) := by
  have hlead : Leads { target := .macos } [.past (.attempt tangledProgram)] { world := .empty }
      _ { world := tangledWorld } := .past_of_not_failed (by decide +kernel) (.here _)
  have ht : tangledWorld.threads.get? "t" = some tangledThread := by decide +kernel
  have hstill : tangledThread.Still := still_of_script (by decide)
  have hadmitted : (tangledWorld.buffer "b").admitEmit 1 = .ok 0 := by
    have h : ((tangledWorld.buffer "b").admitEmit 1).toOption = some 0 := by decide +kernel
    cases hb : (tangledWorld.buffer "b").admitEmit 1 with
    | error e => simp [hb, Except.toOption] at h
    | ok offset => simpa [hb, Except.toOption] using h
  have hemit := (code_access_under_its_mode rfl hlead ht hstill "b").1 ⟨#[0xC3]⟩
  have hsize : (⟨#[0xC3]⟩ : ByteArray).size = 1 := rfl
  rw [hsize, hadmitted] at hemit
  exact ⟨_, hlead, ht, hstill, hemit.1, hemit.2.1⟩
end WriteXorExecute
