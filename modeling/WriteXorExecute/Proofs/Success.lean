import WriteXorExecute.Proofs.Objects
/-!
# Procedures that return

A guard returns if the name that it asks answers, and so do the operations on code. A thread answers
if nothing in its backend panics, even where it is called back (`Thread.Obliging.enable`). In a calm
world all names answer. What panics there is a panic that the program asks for, the initialisation
of a thread that has a mode, or an assertion that does not hold (`World.Calm.raises_of_failed`).
-/
namespace WriteXorExecute

namespace Procedure

variable {σ ε φ α β : Type} {good : σ → Prop}

/-- From a state of the kind `good` the procedure returns, and leaves such a state. -/
def Succeeds (good : σ → Prop) (x : Procedure σ ε φ α) : Prop :=
  ∀ s, good s → (∃ a, (x s).outcome = .ok a) ∧ good (x s).state

namespace Succeeds

/-- The whole run. -/
theorem run_eq {x : Procedure σ ε φ α} (hx : Succeeds good x) {s : σ} (hs : good s) :
    ∃ a s' trace, x s = ⟨.ok a, s', trace⟩ ∧ good s' := by
  obtain ⟨⟨a, ha⟩, hs'⟩ := hx s hs
  generalize x s = r at ha hs'
  obtain ⟨outcome, s', trace⟩ := r
  obtain rfl : outcome = .ok a := ha
  exact ⟨a, s', trace, rfl, hs'⟩

theorem pure (a : α) : Succeeds good (pure a : Procedure σ ε φ α) :=
  fun _ h => ⟨⟨a, rfl⟩, h⟩

theorem get : Succeeds good (get : Procedure σ ε φ σ) :=
  fun s h => ⟨⟨s, rfl⟩, h⟩

theorem modify {change : σ → σ} (h : ∀ s, good s → good (change s)) :
    Succeeds good (modify change : Procedure σ ε φ Unit) :=
  fun s hs => ⟨⟨(), rfl⟩, h s hs⟩

theorem note (event : ε) : Succeeds good (note event : Procedure σ ε φ Unit) :=
  fun _ h => ⟨⟨(), rfl⟩, h⟩

/-- It suffices that the first of two procedures returns from the state in question. -/
theorem bind_at {x : Procedure σ ε φ α} {next : α → Procedure σ ε φ β} {s : σ}
    (hx : (∃ a, (x s).outcome = .ok a) ∧ good (x s).state) (hnext : ∀ a, Succeeds good (next a)) :
    (∃ b, ((x >>= next) s).outcome = .ok b) ∧ good ((x >>= next) s).state := by
  obtain ⟨⟨a, ha⟩, hs'⟩ := hx
  obtain ⟨⟨b, hb⟩, hs''⟩ := hnext a _ hs'
  rw [bind_apply]
  generalize x s = r at ha hs' hb hs''
  obtain ⟨outcome, s', trace⟩ := r
  obtain rfl : outcome = .ok a := ha
  exact ⟨⟨b, hb⟩, hs''⟩

theorem bind {x : Procedure σ ε φ α} {next : α → Procedure σ ε φ β} (hx : Succeeds good x)
    (hnext : ∀ a, Succeeds good (next a)) : Succeeds good (x >>= next) :=
  fun s hs => bind_at (hx s hs) hnext

/-- What goes on with the state goes on with one of the kind `good`. -/
theorem get_bind {next : σ → Procedure σ ε φ α} (hnext : ∀ s, good s → Succeeds good (next s)) :
    Succeeds good (Procedure.get >>= next) :=
  fun s hs => hnext s hs s hs

/-- What goes on with an outcome goes on with a value. -/
theorem attempt_bind {x : Procedure σ ε φ α} {next : Except φ α → Procedure σ ε φ β}
    (hx : Succeeds good x) (hnext : ∀ a, Succeeds good (next (.ok a))) :
    Succeeds good (attempt x >>= next) := by
  intro s hs
  obtain ⟨⟨a, ha⟩, hs'⟩ := hx s hs
  rw [bind_apply, attempt_apply, ha, Run.andThen_ok]
  exact hnext a _ hs'

/-- What is attempted returns, whatever becomes of it. -/
theorem attempt {x : Procedure σ ε φ α} (hx : ∀ s, good s → good (x s).state) :
    Succeeds good (attempt x) :=
  fun s hs => ⟨⟨(x s).outcome, rfl⟩, hx s hs⟩

theorem forM {next : β → Procedure σ ε φ Unit} {bs : List β}
    (hnext : ∀ b ∈ bs, Succeeds good (next b)) : Succeeds good (bs.forM next) := by
  induction bs with
  | nil => exact pure ()
  | cons b bs ih =>
    exact bind (hnext b List.mem_cons_self) fun _ =>
      ih fun b hb => hnext b (List.mem_cons_of_mem _ hb)

theorem mapM {next : β → Procedure σ ε φ α} (hnext : ∀ b, Succeeds good (next b)) (bs : List β) :
    Succeeds good (bs.mapM next) := by
  induction bs with
  | nil => exact pure []
  | cons b bs ih =>
    rw [List.mapM_cons]
    exact bind (hnext b) fun _ => bind ih fun _ => pure _

end Succeeds

end Procedure

open Procedure

variable {α : Type} {p : Platform} {good : World → Prop} {w : World} {cause : Panic}

/-! ## Guards and code -/

/-- Whatever it is asked for, what has this name answers. -/
def Answers (p : Platform) (good : World → Prop) (name : String) : Prop :=
  ∀ failing mode, Succeeds good (switch p failing name mode)

namespace Procedure.Succeeds

variable {thread : Option String} (h : ∀ name, thread = some name → Answers p good name)

theorem mark (m : Mark) : Succeeds good (mark m) :=
  .bind .get fun _ => .note _

theorem acquireBarrier (b : Barrier) (mode : Mode) :
    Succeeds good (Guard.acquireBarrier b mode) := by
  unfold Guard.acquireBarrier
  split
  · exact .bind (.note _) fun _ => .pure _
  · exact .pure _

include h in
theorem enter (holder : Holder) (kind : Guard.Kind) (mode : Mode) :
    Succeeds good (Guard.enter p holder kind mode thread) := by
  refine .bind ?_ fun g => .bind (mark _) fun _ => .pure g
  rcases Guard.acquire_cases p kind mode with ⟨-, hmake⟩ | ⟨-, b, -, hmake⟩ | ⟨-, hmake⟩ <;>
    rw [hmake]
  · cases thread with
    | none => exact .pure _
    | some name => exact .bind (h name rfl false mode) fun _ => .pure _
  · exact acquireBarrier b mode
  · exact .pure _

theorem release {g : Guard} (h : ∀ name, g.holds? = some name → Answers p good name)
    (failing : Bool) : Succeeds good (Guard.release p failing g) := by
  cases g with
  | delegated mode thread previous =>
    cases thread with
    | none => exact .pure ()
    | some name => exact .bind (h name rfl failing previous) fun _ => .pure ()
  | barrier b mode =>
    simp only [Guard.release]
    split
    · exact .note _
    · exact .pure ()
  | noop => exact .pure ()

theorem leave {g : Guard} (h : ∀ name, g.holds? = some name → Answers p good name)
    (holder : Holder) (failing : Bool) : Succeeds good (Guard.leave p holder failing g) := by
  intro w hw
  obtain ⟨hok, hgood⟩ := release h failing w hw
  rw [Guard.leave_apply]
  exact ⟨hok, hgood⟩

include h in
theorem holding (kind : Guard.Kind) (mode : Mode) {body : Guard → Step α}
    (hbody : ∀ g, Succeeds good (body g)) :
    Succeeds good (WriteXorExecute.holding p kind mode thread body) := by
  intro w hw
  obtain ⟨g, w₁, opening, henter, hw₁⟩ := (enter h .scope kind mode).run_eq hw
  have hg : ∀ name, g.holds? = some name → Answers p good name := by
    intro name hname
    have hthread : g.holds? = if kind.asks p then thread else none :=
      Guard.enter_holds .scope kind mode thread w g (congrArg Run.outcome henter)
    rw [hname] at hthread
    split at hthread
    · exact h name hthread.symm
    · cases hthread
  obtain ⟨⟨a, ha⟩, hw₂⟩ := hbody g w₁ hw₁
  obtain ⟨⟨_, hreleased⟩, hw₃⟩ := release hg (body g w₁).failed _ hw₂
  rw [holding_of_entered henter]
  simp only [ha, hreleased]
  exact ⟨⟨a, rfl⟩, hw₃⟩

variable (hbuffer : ∀ name change w, good w →
  good { w with buffers := w.buffers.update name change })

include h hbuffer

theorem emit (buffer : String) (data : ByteArray) :
    Succeeds good (Code.emit p buffer thread data) := by
  refine .bind .get fun w => ?_
  split
  · exact .pure _
  · exact .bind (holding h _ _ fun _ => .bind (.modify (hbuffer _ _)) fun _ => mark _)
      fun _ => .pure _

theorem patch (buffer : String) (offset : UInt64) (data : ByteArray) :
    Succeeds good (Code.patch p buffer thread offset data) := by
  refine .bind .get fun w => ?_
  split
  · exact .pure _
  · exact .bind (holding h _ _ fun _ => .bind (.modify (hbuffer _ _)) fun _ => mark _)
      fun _ => .pure _

end Procedure.Succeeds

/-! ## Threads and toggles that do not panic -/

/-- Whether a call of a backend panics that does this. Inside a call the thread has a mode; so where
misuse is checked, it must not be initialised there. -/
def Backend.Reaction.panics (p : Platform) : Reaction → Bool
  | .fail => true
  | .init => p.checks
  | .enable _ | .caught _ => false

/-- From now on, no call of the backend panics. It may call back. -/
def Thread.Obliging (p : Platform) (t : Thread) : Prop :=
  ∀ call, t.calls ≤ call → ∀ reaction ∈ t.backend.reactions call, reaction.panics p = false

namespace Thread.Obliging

variable {failing : Bool} {mode : Mode} {t t' : Thread} {send : Mode → Thread.Step Unit}

theorem of_script (h : ∀ hook ∈ t.backend.script, hook.reaction.panics p = false) :
    t.Obliging p := by
  intro call _ reaction hreaction
  obtain ⟨hook, hhook, rfl⟩ := List.mem_map.1 hreaction
  exact h hook (List.mem_filter.1 hhook).1

theorem onward {events : List Event} (h : t.Obliging p) (ht : t.Onward events t') :
    t'.Obliging p := by
  intro call hcall
  rw [ht.backend]
  exact h call (Nat.le_trans ht.calls hcall)

section

variable (h : ∀ mode, Succeeds (Thread.Obliging p) (send mode))

include h

theorem take (mode : Mode) : Succeeds (Thread.Obliging p) (take send mode) :=
  .bind (.modify fun t ht => ht.onward (Onward.taking t mode)) fun _ => h mode

/-- The thread is initialised unless that is misuse. -/
theorem initVia (ht : t.Obliging p) (hmode : (p.checks && t.status.isInitialized) = false) :
    (∃ a, (initVia p send t).outcome = .ok a) ∧ (initVia p send t).state.Obliging p := by
  have hfirst : ¬(p.checks && t.status.isInitialized) = true := by simp [hmode]
  simp only [Thread.initVia, bind_apply, get_apply, Run.andThen_ok, if_neg hfirst]
  exact Succeeds.bind (.note _) (fun _ => take h _) t ht

theorem enableVia (mode : Mode) : Succeeds (Thread.Obliging p) (enableVia p send mode) := by
  intro t ht
  have tail (previous : Mode) : Succeeds (Thread.Obliging p) (do
      if previous ≠ mode then
        Thread.take send mode
      return previous : Thread.Step Mode) := by
    split
    · exact .bind (take h mode) fun _ => .pure _
    · exact .pure _
  simp only [Thread.enableVia, bind_apply, get_apply, Run.andThen_ok]
  cases hm : t.mode with
  | some found => exact tail found t ht
  | none =>
    have hinit := initVia h ht (by simp [status, Status.isInitialized, hm])
    simp only [bind_apply, note_apply, Run.andThen_ok]
    exact Succeeds.bind_at hinit fun _ => .bind (.pure _) tail

theorem react (honward : ∀ mode, Obeys Onward (send mode)) {reaction : Backend.Reaction}
    (hreaction : reaction.panics p = false) (call : Nat) :
    Succeeds (Thread.Obliging p) (react p send call reaction) := by
  cases reaction with
  | fail => cases hreaction
  | init =>
    have hchecks : p.checks = false := hreaction
    exact .bind (fun t ht => initVia h ht (by simp [hchecks])) fun _ => .note _
  | enable mode => exact .bind (enableVia h mode) fun _ => .note _
  | caught reaction =>
    refine .bind (.attempt fun t ht => ht.onward (react_onward honward call reaction t))
      fun ending => ?_
    cases ending with
    | ok _ => exact .pure ()
    | error fault => exact .note _

end

theorem passOn {react : Nat → Backend.Reaction → Thread.Step Unit}
    (h : ∀ call reaction, reaction.panics p = false →
      Succeeds (Thread.Obliging p) (react call reaction)) (mode : Mode) :
    Succeeds (Thread.Obliging p) (passOn p failing react mode) := by
  refine .bind (.note _) fun _ => .get_bind fun t ht => .bind (.note _) fun _ =>
    .bind (.modify fun t ht call hcall => ht call (Nat.le_of_succ_le hcall)) fun _ =>
    .attempt_bind (.forM fun reaction hreaction => ?_) fun _ =>
    .bind (.note _) fun _ => .modify fun _ ht => ht
  obtain ⟨reaction', hreaction', rfl | rfl⟩ := Backend.exists_of_occurring hreaction
  · exact h _ _ (ht _ (Nat.le_refl _) _ hreaction')
  · exact h _ _ rfl

theorem sendWithin (depth : Nat) (mode : Mode) :
    Succeeds (Thread.Obliging p) (sendWithin p failing depth mode) := by
  induction depth generalizing failing mode with
  | zero => exact passOn (fun _ _ _ => .pure ()) mode
  | succ depth ih =>
    exact passOn (fun call _ hreaction => react ih (sendWithin_onward depth) hreaction call) mode

/-- Such a thread answers, even if its backend calls back. -/
theorem enable (failing : Bool) (mode : Mode) :
    Succeeds (Thread.Obliging p) (enable p failing mode) :=
  enableVia (fun mode => .bind .get fun _ => sendWithin _ mode) mode

end Thread.Obliging

def Kinds.obliging (p : Platform) (names : String → Prop) : Kinds where
  thread name t := names name → t.Obliging p
  toggle name t := names name → t.Reliable
  onward honward h hname := (h hname).onward honward
  called mode h hname := (h hname).called mode

theorem World.Of.answers {names : String → Prop} {name : String} (hname : names name) :
    Answers p (World.Of (.obliging p names)) name := by
  intro failing mode w h
  refine ⟨?_, lasting.elementaryLaw.switch failing name mode w h⟩
  cases ht : w.threads.get? name with
  | some t =>
    obtain ⟨⟨previous, hanswer⟩, -⟩ :=
      Thread.Obliging.enable failing mode t (h.threads name t ht hname)
    rw [switch_of_thread ht]
    exact ⟨previous, by simp only [hanswer, mapError_ok]⟩
  | none =>
    cases hd : w.toggles.get? name with
    | some d =>
      have hreliable : d.calls ∉ d.failures := fun hmem =>
        Nat.lt_irrefl _ (h.toggles name d hd hname _ hmem)
      rw [switch_of_toggle ⟨ht, hd⟩]
      exact ⟨d.nextAnswer, by simp [Toggle.enable_apply, hreliable]⟩
    | none =>
      simp only [WriteXorExecute.switch, bind_apply, onThread_of_none ht, onToggle_of_none hd,
        Run.andThen_ok, pure_apply, Option.getD_none]
      exact ⟨.write, rfl⟩

/-! ## Calm worlds -/

namespace World.Calm

theorem answers (name : String) : Answers p World.Calm name := by
  intro failing mode w h
  have hkept := lasting.elementaryLaw.switch (p := p) failing name mode w h
  exact ⟨(h.switch failing name mode).2, hkept⟩

theorem keeps_buffers (name : String) (change : CodeBuffer → CodeBuffer) (w : World)
    (h : w.Calm) : World.Calm { w with buffers := w.buffers.update name change } :=
  lasting.buffers _ h

/-- A guard is made. -/
theorem entered (h : w.Calm) (holder : Holder) (kind : Guard.Kind) (mode : Mode)
    (thread : Option String) : ∃ g w₁ opening,
      Guard.enter p holder kind mode thread w = ⟨.ok g, w₁, opening⟩ ∧ w₁.Calm :=
  (Succeeds.enter (fun name _ => answers name) holder kind mode).run_eq h

end World.Calm

/-! ### Self-checks -/

namespace SelfCheck

theorem trials_return (target : Target) (checks : SelfCheck) : ∀ a b c d : Bool,
    ∀ trial ∈ checks.trials ⟨target, a, b, c, d⟩, (trial .empty).failed = false := by
  cases target <;> cases checks <;> decide +kernel

/-- No self-check panics. -/
theorem succeeds (check : SelfCheck) : Succeeds good (check.run p) := by
  refine .bind ?_ fun _ => .pure _
  have htrials : ∀ trial ∈ check.trials p, Succeeds good trial := by
    intro trial htrial w hw
    obtain ⟨target, a, b, c, d⟩ := p
    have hreturn := trials_return target check a b c d trial htrial
    rcases mem_trials htrial with ⟨x, rfl⟩ | ⟨verdict, rfl⟩
    · refine ⟨?_, hw⟩
      have houtcome : (apart x w).outcome = (apart x .empty).outcome := rfl
      rw [houtcome]
      cases h : (apart x .empty).outcome with
      | ok verdict => exact ⟨verdict, rfl⟩
      | error cause => simp [Run.failed, h] at hreturn
    · exact ⟨⟨verdict, rfl⟩, hw⟩
  generalize check.trials p = trials at htrials
  induction trials with
  | nil => exact .pure _
  | cons trial rest ih =>
    refine .bind (htrials trial (by simp)) fun verdict => ?_
    cases verdict with
    | pass => exact ih fun trial ht => htrials trial (by simp [ht])
    | fail reason => exact .pure _

end SelfCheck

/-! ### Operations -/

/-- Whether the operation can panic by itself: it is a panic, the initialisation of a thread, or an
assertion. -/
def Operation.raises : Operation → Bool
  | panic _ | init _ | assertMode .. => true
  | _ => false

/-- Other operations do not panic. -/
theorem World.Calm.succeeds {op : Operation} (hop : op.Calm) (hraises : op.raises = false)
    (running : List String) : Succeeds World.Calm (perform p running op) := by
  have hanswers (thread : Option String) (name : String) (_ : thread = some name) :
      Answers p World.Calm name := World.Calm.answers name
  cases op with
  | panic | init | assertMode => simp [Operation.raises] at hraises
  | ask question => exact .bind .get fun w => .pure _
  | newThread | newToggle | newBuffer =>
    exact fun w h => ⟨⟨_, rfl⟩, World.Calm.make running hop rfl w h⟩
  | enable name mode => exact .bind (World.Calm.answers name false mode) fun _ => .pure _
  | hold slot kind mode thread =>
    exact .bind (.enter (hanswers thread) _ kind mode) fun g =>
      .bind (.modify fun w h => World.Calm.lasting.slots _ h) fun _ => .pure _
  | drop slot =>
    refine .bind .get fun w => ?_
    split
    · exact .pure _
    · exact .bind (.modify fun w h => World.Calm.lasting.slots _ h) fun _ =>
        .bind (.leave (hanswers _) _ _) fun _ => .pure _
  | forget slot =>
    refine .bind .get fun w => ?_
    split
    · exact .pure _
    · exact .bind (.modify fun w h => World.Calm.lasting.slots _ h) fun _ =>
        .bind (.mark _) fun _ => .pure _
  | emit buffer thread data =>
    simp only [WriteXorExecute.perform]
    split
    · exact .pure _
    · exact .bind (.emit (hanswers thread) World.Calm.keeps_buffers buffer data) fun _ => .pure _
  | patch buffer thread offset data =>
    simp only [WriteXorExecute.perform]
    split
    · exact .pure _
    · exact .bind (.patch (hanswers thread) World.Calm.keeps_buffers buffer offset data)
        fun _ => .pure _
  | free buffer =>
    simp only [WriteXorExecute.perform]
    split
    · exact .pure _
    · exact .bind (.modify (World.Calm.keeps_buffers buffer _)) fun _ => .pure _
  | fence mode =>
    exact .bind (.note _) fun _ => .bind (.acquireBarrier _ mode) fun g =>
      .bind (.release (hanswers _) false) fun _ => .pure _
  | selfCheck check =>
    cases check with
    | none => exact .bind (.mapM SelfCheck.succeeds _) fun _ => .pure _
    | some check => exact .bind (SelfCheck.succeeds check) fun _ => .pure _

/-! ## What panics in a calm world -/

/-- Initialised in vain, a thread whose backend keeps still is left as it is. -/
theorem Thread.init_of_failed {t : Thread} {fault : Thread.Fault} (h : t.Still)
    (hfailed : (Thread.init p false t).outcome = .error fault) :
    Thread.init p false t = ⟨.error fault, t, []⟩ := by
  cases hm : t.mode with
  | none => simp [Thread.init_of_still h hm] at hfailed
  | some mode =>
    by_cases hchecks : p.checks = true
    · rw [Thread.init_of_checked hchecks (by simp [hm])] at hfailed ⊢
      exact congrArg (Run.mk · t []) hfailed
    · simp [Thread.init, Thread.initVia, hchecks, Thread.take_of_still h] at hfailed

theorem Thread.assertMode_of_failed {t : Thread} {mode : Mode} {fault : Thread.Fault}
    (hfailed : (Thread.assertMode p mode t).outcome = .error fault) :
    Thread.assertMode p mode t = ⟨.error fault, t, []⟩ := by
  obtain ⟨hevents, hstate⟩ := Thread.assertMode_same (p := p) mode t
  generalize Thread.assertMode p mode t = r at hfailed hevents hstate
  obtain ⟨outcome, t', events⟩ := r
  obtain rfl : outcome = .error fault := hfailed
  obtain rfl : events = [] := hevents
  obtain rfl : t' = t := hstate
  rfl

/-- What fails on a thread without doing anything to it does nothing to the world. -/
theorem World.Calm.onThread_of_failed (h : w.Calm) {name : String} {x : Thread.Step α}
    (hx : ∀ t fault, w.threads.get? name = some t → (x t).outcome = .error fault →
      x t = ⟨.error fault, t, []⟩)
    (hfailed : (onThread name x w).outcome = .error cause) :
    onThread name x w = ⟨.error cause, w, []⟩ := by
  cases ht : w.threads.get? name with
  | none => simp [onThread_of_none ht] at hfailed
  | some t =>
    rw [onThread_of_some ht] at hfailed ⊢
    cases houtcome : (x t).outcome with
    | ok a => simp [houtcome, Except.map] at hfailed
    | error fault =>
      rw [hx t fault ht houtcome] at hfailed ⊢
      rw [h.distinct.update_self ht]
      simp only [Except.map, mapError_error, List.map_nil] at hfailed ⊢
      rw [hfailed]

/-- A panic does nothing before it is raised. -/
theorem World.Calm.raised (h : w.Calm) {running : List String} {op : Operation}
    (hop : op.raises = true) (hfailed : (perform p running op w).outcome = .error cause) :
    perform p running op w = ⟨.error cause, w, []⟩ := by
  have honThread {name : String} {x : Thread.Step Unit} {answer : Option Unit → Reply}
      (hx : ∀ t fault, w.threads.get? name = some t → (x t).outcome = .error fault →
        x t = ⟨.error fault, t, []⟩)
      (hfailed : ((onThread name x >>= fun done => pure (answer done)) w).outcome = .error cause) :
      (onThread name x >>= fun done => pure (answer done)) w
        = ⟨.error cause, w, []⟩ := by
    rw [bind_apply, Run.andThen_return] at hfailed ⊢
    have hthread : (onThread name x w).outcome = .error cause := by
      generalize (onThread name x w).outcome = outcome at hfailed
      cases outcome with
      | ok answer => simp [Except.map] at hfailed
      | error other => simpa [Except.map] using hfailed
    rw [h.onThread_of_failed hx hthread]
    rfl
  cases op with
  | panic message => exact congrArg (Run.mk · w []) hfailed
  | init thread =>
    exact honThread (fun t _ ht => Thread.init_of_failed (h.threads thread t ht)) hfailed
  | assertMode thread mode => exact honThread (fun _ _ _ => Thread.assertMode_of_failed) hfailed
  | _ => simp [Operation.raises] at hop

/-- **What panics in a calm world.** -/
theorem World.Calm.raises_of_failed (h : w.Calm) {running : List String} {op : Operation}
    (hop : op.Calm) (hfailed : (perform p running op w).outcome = .error cause) :
    op.raises = true := by
  by_contra hraises
  obtain ⟨⟨reply, hreply⟩, -⟩ := World.Calm.succeeds hop (by simpa using hraises) running w h
  rw [hreply] at hfailed
  cases hfailed

end WriteXorExecute
