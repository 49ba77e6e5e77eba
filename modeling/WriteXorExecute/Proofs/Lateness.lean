import WriteXorExecute.Proofs.Replacement
/-!
# Threads that are initialised late

A thread that is asked for a mode before it was initialised is initialised on the way. It makes no
difference whether this is left to the request or done first: the same calls of the backend begin
and end in the same order, and each sees the same of the thread; the same mode is the answer, or the
same call fails. The request only writes one more line to the log, at the beginning. This is for
threads whose backends do not call back; they may fail in any call.

So in a program the initialisation can be put before whatever asks the thread first, wherever this
stands, and nothing that comes later is any different.

- **A thread** (`Thread.enable_eq_init`).
- **What asks a thread first** (`Item.AsksFirst.run`): a request, a guard, a change of code, a run
  of code and a scope begin in the same way.
-/
namespace WriteXorExecute

open Procedure

variable {α β : Type} {p : Platform} {failing : Bool} {mode : Mode} {name : String} {t : Thread}
  {w : World}

/-! ## A thread -/

namespace Thread

/-- The thread takes its initial mode before its backend can fail. -/
theorem init_mode (p : Platform) (failing : Bool) (h : t.NeverCallsBack) (hm : t.mode = none) :
    (init p failing t).state.mode = some t.config.initialMode := by
  rw [init_of_none hm]
  exact take_mode h p failing t.config.initialMode

/-- **A thread.** -/
theorem enable_eq_init (p : Platform) (failing : Bool) (mode : Mode) (h : t.NeverCallsBack)
    (hm : t.mode = none) : enable p failing mode t =
    Run.andThen ⟨.ok (), t, [.record .lateInitialization]⟩ fun _ =>
      (do
        init p failing
        enable p failing mode : Step Mode) := by
  have hmode := init_mode p failing h hm
  rw [enable_of_none hm, Run.andThen_ok, Run.andThen_ok, bind_apply, bind_apply]
  generalize init p failing t = r at hmode
  obtain ⟨outcome, t₁, events⟩ := r
  cases outcome with
  | error fault => rfl
  | ok _ =>
    rw [Run.andThen_ok, Run.andThen_ok]
    by_cases hsame : t.config.initialMode = mode
    · rw [enable_of_same (hsame ▸ hmode), if_neg (not_not_intro hsame), hsame]
      rfl
    · rw [enable_of_other hmode hsame, if_pos hsame]
      rfl

end Thread

/-! ## A name -/

def initialization (p : Platform) (name : String) (t : Thread) : List Happening :=
  (Thread.init p false t).trace.map (.thread name)

/-- What is replied when it has been initialised in this world. There is no reply if this fails. -/
def initializationReply (p : Platform) (name : String) (t : Thread) (w : World) : List Happening :=
  let r := Thread.init p false t
  if r.failed then []
  else [.mark (.completed (.operation (.init name)) .nothing) (w.withThread name r.state).snapshot]

/-- The first trace begins with a late initialisation, and the second one with one that is asked
for. There is no other difference. -/
def Hastens (p : Platform) (name : String) (t : Thread) (w : World)
    (trace trace' : List Happening) : Prop :=
  ∃ later, trace = .thread name (.record .lateInitialization) :: initialization p name t ++ later ∧
    trace' = initialization p name t ++ initializationReply p name t w ++ later

theorem Hastens.extends : Extends (Hastens p name t w) := by
  rintro _ _ later ⟨more, rfl, rfl⟩
  exact ⟨more ++ later, by simp, by simp⟩

theorem World.withThread_withThread (w : World) (name : String) (t t' : Thread) :
    (w.withThread name t).withThread name t' = w.withThread name t' := by
  simp only [withThread, Table.update, List.map_map]
  congr 3
  funext e
  by_cases he : e.1 = name <;> simp [he]

/-- The thread of the name is initialised. -/
theorem onThread_init (ht : w.threads.get? name = some t) :
    onThread name (Thread.init p false) w =
      let r := Thread.init p false t
      ⟨(r.outcome.map some).mapError (.thread name), w.withThread name r.state,
        initialization p name t⟩ :=
  onThread_of_some ht _

/-- A name is asked late as if its thread were initialised before. -/
theorem switch_of_late (ht : w.threads.get? name = some t) (h : t.NeverCallsBack)
    (hm : t.mode = none) : switch p false name mode w =
      Run.andThen ⟨.ok (), w, [.thread name (.record .lateInitialization)]⟩ fun _ =>
        (do
          let _ ← onThread name (Thread.init p false)
          switch p false name mode : Step Mode) := by
  rw [switch_of_thread ht, Thread.enable_eq_init p false mode h hm, Run.andThen_ok, bind_apply,
    Run.andThen_ok, bind_apply, onThread_init ht, initialization]
  rcases Thread.init p false t with ⟨outcome, t₁, events⟩
  cases outcome with
  | error fault => rfl
  | ok _ =>
    simp only [Run.andThen_ok, Except.map, mapError_ok,
      switch_of_thread (World.withThread_self ht t₁), World.withThread_withThread]
    simp

/-! ## What asks a name first -/

/-- In worlds with the same code as this one, the procedure begins by asking the name for a mode. -/
def AsksFirst (p : Platform) (name : String) (w : World) (x : Step α) : Prop :=
  ∃ mode next, ∀ w' : World, w'.buffers = w.buffers →
    x w' = (switch p false name mode >>= next) w'

namespace AsksFirst

theorem switch (mode : Mode) : AsksFirst p name w (switch p false name mode) :=
  ⟨mode, pure, fun _ _ => by rw [bind_pure]⟩

theorem bind {x : Step α} (h : AsksFirst p name w x) (next : α → Step β) :
    AsksFirst p name w (x >>= next) := by
  obtain ⟨mode, first, hx⟩ := h
  refine ⟨mode, fun previous => first previous >>= next, fun w' hw' => ?_⟩
  rw [← bind_assoc, bind_apply, bind_apply, hx w' hw']

/-- It is enough to begin like that in these worlds. -/
theorem congr {x y : Step α} (h : AsksFirst p name w y)
    (hxy : ∀ w' : World, w'.buffers = w.buffers → x w' = y w') : AsksFirst p name w x := by
  obtain ⟨mode, next, hy⟩ := h
  exact ⟨mode, next, fun w' hw' => (hxy w' hw').trans (hy w' hw')⟩

theorem enter {kind : Guard.Kind} (hasks : kind.asks p) (holder : Holder) (mode : Mode) :
    AsksFirst p name w (Guard.enter p holder kind mode (some name)) := by
  simp only [Guard.enter, Guard.acquire_of_asks hasks, Guard.acquireDelegated]
  exact ((switch mode).bind _).bind _

theorem holding {kind : Guard.Kind} (hasks : kind.asks p) (mode : Mode) (body : Guard → Step α) :
    AsksFirst p name w (holding p kind mode (some name) body) :=
  (enter hasks .scope mode).bind _

section

variable {buffer : String} {data : ByteArray}

theorem emit {offset : UInt64} (hs : Guard.Kind.asks p .active)
    (hadmitted : (w.buffer buffer).admitEmit data.size = .ok offset) :
    AsksFirst p name w (Code.emit p buffer (some name) data) :=
  ((holding hs .write fun _ => Code.store buffer offset data).bind fun _ => pure (.ok offset)).congr
    fun w' hw' => Code.emit_of_admitted (by rwa [World.buffer, hw'])

theorem patch {offset : UInt64} (hs : Guard.Kind.asks p .active)
    (hadmitted : (w.buffer buffer).admitPatch offset data.size = .ok ()) :
    AsksFirst p name w (Code.patch p buffer (some name) offset data) :=
  ((holding hs .write fun _ => Code.replace buffer offset data).bind fun _ => pure (.ok ())).congr
    fun w' hw' => Code.patch_of_admitted (by rwa [World.buffer, hw'])

theorem execute (hs : Guard.Kind.asks p .active) (hadmitted : (w.buffer buffer).admitRun = .ok ())
    (body : ByteArray → Step α) : AsksFirst p name w (Code.execute p buffer (some name) body) := by
  refine ((holding hs .exec fun _ => body (w.buffer buffer).bytes).bind fun a =>
    pure (.ok a)).congr fun w' hw' => ?_
  have hbuffer : w'.buffer buffer = w.buffer buffer := by rw [World.buffer, hw', World.buffer]
  rw [Code.execute_of_admitted (by rwa [hbuffer]), hbuffer, bind_apply]

end

end AsksFirst

/-- Whatever asks the name first can be preceded by its initialisation. -/
theorem AsksFirst.hastens {x : Step α} (hx : AsksFirst p name w x)
    (ht : w.threads.get? name = some t) (h : t.NeverCallsBack) (hm : t.mode = none)
    (running : List String) : Run.Agrees (Hastens p name t w) (x w)
      ((do
        runStep p running (.init name)
        x : Step α) w) := by
  obtain ⟨mode, next, hx⟩ := hx
  have hlate : x w = _ := (hx w rfl).trans (by rw [bind_apply, switch_of_late ht h hm])
  have hafter := hx (w.withThread name (Thread.init p false t).state) rfl
  rw [hlate]
  simp only [Run.andThen_ok, bind_apply, runStep, perform, onThread_init ht] at hafter ⊢
  -- Once the thread is initialised, both go on in the same world.
  rcases hr : Thread.init p false t with ⟨outcome, t₁, events⟩
  rw [hr] at hafter
  cases outcome with
  | error fault =>
    refine ⟨rfl, rfl, [], by simp [Except.map], ?_⟩
    simp [initializationReply, hr, Run.failed, Except.map]
  | ok _ =>
    simp only [Except.map, mapError_ok, Run.andThen_ok, pure_apply, complete, mark_apply]
      at hafter ⊢
    rw [hafter]
    generalize WriteXorExecute.switch p false name mode (w.withThread name t₁) = r
    obtain ⟨outcome, w₂, trace⟩ := r
    cases outcome with
    | error cause =>
      refine ⟨rfl, rfl, trace, by simp, ?_⟩
      simp [initializationReply, hr, Run.failed]
    | ok previous =>
      refine ⟨rfl, rfl, trace ++ (next previous w₂).trace, by simp, ?_⟩
      simp [initializationReply, hr, Run.failed]

/-- The first thing that this does at a place is to ask this name for a mode: by a request, by the
guard that it makes, or by the one around code that it changes or runs. -/
def Item.AsksFirst (p : Platform) (place : Place) (name : String) : Item → Prop
  | .step (.enable other _) => other = name
  | .step (.hold _ kind _ thread) => kind.asks p ∧ thread = some name
  | .step (.emit buffer thread data) => Guard.Kind.asks p .active ∧ thread = some name ∧
    buffer ∉ place.running ∧
      ∃ offset, (place.world.buffer buffer).admitEmit data.size = .ok offset
  | .step (.patch buffer thread offset data) => Guard.Kind.asks p .active ∧ thread = some name ∧
    buffer ∉ place.running ∧ (place.world.buffer buffer).admitPatch offset data.size = .ok ()
  | .scope s _ => s.kind.asks p ∧ s.thread = some name
  | .execute buffer thread _ => Guard.Kind.asks p .active ∧ thread = some name ∧
    (place.world.buffer buffer).admitRun = .ok ()
  | _ => False

theorem Item.AsksFirst.run {i : Item} {place : Place} (h : i.AsksFirst p place name)
    (rest : Program) :
    WriteXorExecute.AsksFirst p name place.world
      (WriteXorExecute.run p place.running (i.followedBy rest)) := by
  cases i with
  | step op =>
    rw [followedBy, run_step]
    refine .bind (.bind ?_ _) _
    cases op with
    | enable other mode =>
      obtain rfl : other = name := h
      exact .bind (.switch mode) _
    | hold slot kind mode thread =>
      obtain ⟨hasks, rfl⟩ := h
      exact .bind (.enter hasks _ mode) _
    | emit buffer thread data =>
      obtain ⟨hasks, rfl, hfree, offset, hadmitted⟩ := h
      simp only [perform, if_neg hfree]
      exact .bind (.emit hasks hadmitted) _
    | patch buffer thread offset data =>
      obtain ⟨hasks, rfl, hfree, hadmitted⟩ := h
      simp only [perform, if_neg hfree]
      exact .bind (.patch hasks hadmitted) _
    | _ => exact h.elim
  | scope s body =>
    obtain ⟨hasks, hthread⟩ := h
    rw [followedBy, run_scope, runScope, hthread]
    exact .bind (.holding hasks s.mode _) _
  | attempt body => exact h.elim
  | execute buffer thread body =>
    obtain ⟨hasks, rfl, hadmitted⟩ := h
    rw [followedBy, run_execute, runCode]
    exact .bind (.execute hasks hadmitted _) _

/-! ## In any program -/

/-- **Late is as good as early.** A thread without a mode that is asked for one behaves as if it
were initialised and then asked, one line of the log apart. So in any program, wherever it is asked
first, its initialisation can be put before: up to this position all is the same, and from there on
all but that line, and the reply to what has been put in. -/
theorem late_is_as_good_as_early (p : Platform) :
    (∀ (t : Thread) (failing : Bool) (mode : Mode), t.NeverCallsBack → t.mode = none →
      let r := (do
        Thread.init p failing
        Thread.enable p failing mode : Thread.Step Mode) t
      Thread.enable p failing mode t
          = ⟨r.outcome, r.state, .record .lateInitialization :: r.trace⟩ ∧
        ∀ answer, r.outcome = .ok answer → answer = t.config.initialMode) ∧
    (∀ (place : Place) (name : String) (t : Thread) (i : Item) (rest : Program),
      place.world.threads.get? name = some t → t.NeverCallsBack → t.mode = none →
      i.AsksFirst p place name →
      Interchangeable p (Hastens p name t place.world) place (i.followedBy rest)
        (.step (.init name) (i.followedBy rest))) := by
  refine ⟨fun t failing mode hback hmode => ?_,
    fun place name t i rest ht hback hmode hasks => .of_agrees Hastens.extends ?_⟩
  · have heq := Thread.enable_eq_init p failing mode hback hmode
    refine ⟨heq, fun answer hanswer => ?_⟩
    have : answer = t.baseMode := Thread.enable_answer ((congrArg Run.outcome heq).trans hanswer)
    rw [this, Thread.baseMode, hmode, Option.getD_none]
  · rw [run_step]
    exact (hasks.run rest).hastens ht hback hmode place.running

/-- Into a tried body, and into a scope that asks no thread, past a thread whose backend fails in
its second call. -/
def intoIdleScope : List Frame :=
  [.past (.step (.newThread "t" (.scripted [⟨1, .fail⟩]) none none)), .inAttempt .done,
    .inScope { style := .guarded .noop, mode := .write, thread := some "t" } .done]

/-- A guard that is made there fails after the thread has been initialised. -/
theorem late_is_as_good_as_early_in_scope :
    let p : Platform := { target := .macos }
    let t : Thread := { backend := .scripted [⟨1, .fail⟩], config := .standard p }
    let i : Item := .step (.hold "g" .active .exec (some "t"))
    let late := fill intoIdleScope (i.followedBy .done)
    let early := fill intoIdleScope (.step (.init "t") (i.followedBy .done))
    (∃ before place, Leads p intoIdleScope { world := .empty } before place ∧
      place.world.threads.get? "t" = some t ∧
      Run.Agrees (After before (Hastens p "t" t place.world)) (runToEnd p late .empty)
        (runToEnd p early .empty)) ∧
      (history p late).filterMap Happening.record? =
        [.lateInitialization, .initializing .write, .modeChange .write, .modeChange .exec] := by
  intro p t i late early
  have ht : (place? p intoIdleScope { world := .empty }).bind (·.world.threads.get? "t")
      = some t := by decide +kernel
  obtain ⟨place, hplace, ht⟩ := Option.bind_eq_some_iff.1 ht
  obtain ⟨before, hlead⟩ := leads_of_place? hplace
  have hboth := (late_is_as_good_as_early p).2 place "t" t i .done ht
    (Thread.neverCallsBack_of_script (by decide)) rfl ⟨by decide, rfl⟩
  have hagrees := hboth.runToEnd hlead rfl
  exact ⟨⟨before, place, hlead, ht, hagrees⟩, by decide +kernel⟩

end WriteXorExecute
