import WriteXorExecute.Proofs.Locality
import WriteXorExecute.Thread.Nesting
/-!
# Asking a thread for a mode

What a thread answers, and the mode that it is left in. The answer is the mode that it was in, or
was going to be initialised to, whatever its backend does. The mode that it is left in is the one
that it was asked for as long as its backend does not ask for others, and that holds also where the
backend fails: the mode is taken before the backend is called.

- **The answer** (`enable_answer`).
- **The mode after a failure** (`enable_mode`): of a thread that has a mode, and whose backend may
  fail but does not call back.
- **A backend that keeps still** (`enable_of_still`): the whole run.
-/
namespace WriteXorExecute

open Procedure

variable {α : Type} {p : Platform} {failing : Bool} {mode : Mode}

namespace Thread

/-- The mode that the thread is in, or else the one that it is going to be initialised to. -/
def baseMode (t : Thread) : Mode :=
  t.mode.getD t.config.initialMode

/-- From now on, the calls of the backend do not ask the thread for anything. They may fail. -/
def NeverCallsBack (t : Thread) : Prop :=
  ∀ call, t.calls ≤ call → ∀ reaction ∈ t.backend.reactions call, reaction = .fail

/-- From now on, nothing happens inside the calls of the backend. -/
def Still (t : Thread) : Prop :=
  ∀ call, t.calls ≤ call → t.backend.reactions call = []

theorem neverCallsBack_of_script {t : Thread}
    (h : ∀ hook ∈ t.backend.script, hook.reaction = .fail) : t.NeverCallsBack := by
  intro call _ reaction hreaction
  obtain ⟨hook, hhook, rfl⟩ := List.mem_map.1 hreaction
  exact h hook (List.mem_filter.1 hhook).1

theorem still_of_script {t : Thread} (h : ∀ hook ∈ t.backend.script, hook.call < t.calls) :
    t.Still := by
  intro call hcall
  refine List.map_eq_nil_iff.2 (List.filter_eq_nil_iff.2 fun hook hhook => ?_)
  have := h hook hhook
  simp only [decide_eq_true_eq]
  omega

theorem NeverCallsBack.onward {t t' : Thread} {events : List Event} (h : t.NeverCallsBack)
    (ht : t.Onward events t') : t'.NeverCallsBack := by
  intro call hcall
  rw [ht.backend]
  exact h call (Nat.le_trans ht.calls hcall)

theorem Still.onward {t t' : Thread} {events : List Event} (h : t.Still)
    (ht : t.Onward events t') : t'.Still := by
  intro call hcall
  rw [ht.backend]
  exact h call (Nat.le_trans ht.calls hcall)

theorem enable_onward (p : Platform) (failing : Bool) (mode : Mode) (t : Thread) :
    t.Onward (enable p failing mode t).trace (enable p failing mode t).state :=
  enableVia_onward send_onward mode t

/-! ## Asking, in three cases -/

section

variable {send : Mode → Step Unit}

theorem enableVia_of_same {t : Thread} (h : t.mode = some mode) :
    enableVia p send mode t = ⟨.ok mode, t, []⟩ := by
  simp [enableVia, h]

theorem enableVia_of_other {t : Thread} {previous : Mode} (h : t.mode = some previous)
    (hne : previous ≠ mode) :
    enableVia p send mode t = (take send mode t).andThen fun _ => pure previous := by
  simp only [enableVia, bind_apply, get_apply, Run.andThen_ok, h, pure_apply, hne, ne_eq,
    not_false_eq_true, if_true, List.nil_append]

/-- A thread without a mode is initialised, and then asked. -/
theorem enableVia_of_none {t : Thread} (h : t.mode = none) : enableVia p send mode t =
    Run.andThen ⟨.ok (), t, [.record .lateInitialization]⟩ fun _ => do
      initVia p send
      if t.config.initialMode ≠ mode then
        take send mode
      return t.config.initialMode := by
  simp only [enableVia, bind_apply, get_apply, Run.andThen_ok, h, List.nil_append,
    pure_bind, note_apply]

theorem initVia_of_none {t : Thread} (h : t.mode = none) : initVia p send t =
    Run.andThen ⟨.ok (), t, [.record (.initializing t.config.initialMode)]⟩ fun _ =>
      take send t.config.initialMode := by
  have hfirst : ¬(p.checks && t.status.isInitialized) = true := by
    simp [status, Status.isInitialized, h]
  simp only [initVia, bind_apply, get_apply, Run.andThen_ok, if_neg hfirst, note_apply,
    List.nil_append]

/-- Where misuse is checked, a thread that has a mode refuses to be initialised. -/
theorem initVia_of_checked {t : Thread} (hchecks : p.checks = true) (hmode : t.mode.isSome) :
    initVia p send t = ⟨.error .secondInit, t, []⟩ := by
  simp [initVia, hchecks, status, Status.isInitialized, hmode]

/-- Where misuse is not checked, every initialisation is told first. -/
theorem initVia_of_unchecked (hchecks : p.checks = false) (t : Thread) : initVia p send t =
    Run.andThen ⟨.ok (), t, [.record (.initializing t.config.initialMode)]⟩ fun _ =>
      take send t.config.initialMode := by
  simp [initVia, hchecks]

end

theorem enable_of_same {t : Thread} (h : t.mode = some mode) :
    enable p failing mode t = ⟨.ok mode, t, []⟩ :=
  enableVia_of_same h

theorem enable_of_other {t : Thread} {previous : Mode} (h : t.mode = some previous)
    (hne : previous ≠ mode) : enable p failing mode t =
      (take (send p failing) mode t).andThen fun _ => pure previous :=
  enableVia_of_other h hne

theorem enable_of_none {t : Thread} (h : t.mode = none) : enable p failing mode t =
    Run.andThen ⟨.ok (), t, [.record .lateInitialization]⟩ fun _ => do
      init p failing
      if t.config.initialMode ≠ mode then
        take (send p failing) mode
      return t.config.initialMode :=
  enableVia_of_none h

theorem init_of_none {t : Thread} (h : t.mode = none) : init p failing t =
    Run.andThen ⟨.ok (), t, [.record (.initializing t.config.initialMode)]⟩ fun _ =>
      take (send p failing) t.config.initialMode :=
  initVia_of_none h

theorem init_of_checked {t : Thread} (hchecks : p.checks = true) (hmode : t.mode.isSome) :
    init p failing t = ⟨.error .secondInit, t, []⟩ :=
  initVia_of_checked hchecks hmode

theorem init_trace (hchecks : p.checks = false) (failing : Bool) (t : Thread) : ∃ events,
    (init p failing t).trace = .record (.initializing t.config.initialMode) :: events :=
  ⟨_, by rw [init, initVia_of_unchecked hchecks]; rfl⟩

/-- Where misuse is checked, an assertion that does not hold is a fault. -/
theorem assertMode_of_checked (hchecks : p.checks = true) (mode : Mode) (t : Thread) :
    assertMode p mode t = ⟨(t.check mode).mapError .wrongMode, t, []⟩ := by
  simp only [assertMode, hchecks, if_true, bind_apply, get_apply, Run.andThen_ok]
  cases t.check mode <;> rfl

/-- Where it is not, an assertion is nothing. -/
theorem assertMode_of_unchecked (hchecks : p.checks = false) (mode : Mode) (t : Thread) :
    assertMode p mode t = ⟨.ok (), t, []⟩ := by
  simp [assertMode, hchecks]

/-- **The answer.** A thread that answers tells the mode that it was in, or was going to be
initialised to. -/
theorem enable_answer {t : Thread} {previous : Mode}
    (h : (enable p failing mode t).outcome = .ok previous) : previous = t.baseMode := by
  have tail (found : Mode) : Returns (· = found) (do
      if found ≠ mode then
        take (send p failing) mode
      return found : Step Mode) := by
    split
    · exact .bind fun _ => .pure rfl
    · exact .pure rfl
  cases hm : t.mode with
  | some found =>
    rw [baseMode, hm]
    by_cases hsame : found = mode
    · subst hsame
      rw [enable_of_same hm] at h
      exact (Except.ok.inj h).symm
    · rw [enable_of_other hm hsame] at h
      exact (Returns.bind fun _ => .pure rfl : Returns (· = found) _) t previous h
  | none =>
    rw [baseMode, hm]
    rw [enable_of_none hm] at h
    exact (Returns.bind fun _ => tail t.config.initialMode) t previous h

theorem take_isSome (p : Platform) (failing : Bool) (mode : Mode) (t : Thread) :
    (take (send p failing) mode t).state.mode.isSome :=
  (send_onward mode { t with mode := some mode }).mode rfl

/-- A thread that has been asked has a mode, whatever came of it. -/
theorem enable_isSome (p : Platform) (failing : Bool) (mode : Mode) (t : Thread) :
    (enable p failing mode t).state.mode.isSome := by
  cases hm : t.mode with
  | some found => exact (enable_onward p failing mode t).mode (by simp [hm])
  | none =>
    have hinit : (init p failing t).state.mode.isSome := by
      rw [init_of_none hm]
      exact take_isSome p failing _ t
    rw [enable_of_none hm]
    simp only [Run.andThen_ok, bind_apply]
    generalize init p failing t = r at hinit
    obtain ⟨outcome, t', trace⟩ := r
    cases outcome with
    | error cause => exact hinit
    | ok _ =>
      simp only [Run.andThen_ok]
      split
      · have := take_isSome p failing mode t'
        simp only [bind_apply]
        generalize take (send p failing) mode t' = q at this
        obtain ⟨outcome, t'', trace'⟩ := q
        cases outcome <;> exact this
      · exact hinit

/-! ## Backends that do not call back -/

theorem inside_state {t : Thread} {send : Mode → Step Unit} (h : t.NeverCallsBack) :
    (inside failing (react p send) mode t).state
      = { t with mode := some mode, calls := t.calls + 1 } := by
  have run (reactions : List Backend.Reaction)
      (hall : ∀ r ∈ reactions, r = .fail ∨ r = .caught .fail) (t' : Thread) :
      (reactions.forM (react p send t.calls) t').state = t' := by
    induction reactions with
    | nil => rfl
    | cons r rest ih =>
      obtain rfl | rfl := hall r List.mem_cons_self
      · rfl
      · exact ih fun r hr => hall r (List.mem_cons_of_mem _ hr)
  refine run _ (fun r hr => ?_) _
  obtain ⟨r', hr', hcases⟩ := Backend.exists_of_occurring hr
  obtain rfl := h t.calls (Nat.le_refl _) r' hr'
  exact hcases

/-- A mode is taken, and then passed on in one call. -/
theorem take_send (p : Platform) (failing : Bool) (mode : Mode) :
    take (send p failing) mode = take (passOn p failing (react p (send p false))) mode := by
  unfold take
  rw [send_eq]

theorem take_mode {t : Thread} (h : t.NeverCallsBack) (p : Platform) (failing : Bool)
    (mode : Mode) :
    (take (send p failing) mode t).state.mode = some mode := by
  rw [take_send, take_passOn]
  dsimp only
  split <;> simp [inside_state h]

/-- **The mode after a failure.** -/
theorem enable_mode {t : Thread} (h : t.NeverCallsBack) (hmode : t.mode.isSome) :
    (enable p failing mode t).state.mode = some mode := by
  obtain ⟨found, hfound⟩ := Option.isSome_iff_exists.1 hmode
  by_cases hsame : found = mode
  · rw [enable_of_same (hsame ▸ hfound)]
    exact hsame ▸ hfound
  · rw [enable_of_other hfound hsame]
    have := take_mode h p failing mode
    generalize take (send p failing) mode t = r at this
    obtain ⟨outcome, t', trace⟩ := r
    cases outcome <;> exact this

/-! ## Backends that keep still -/

/-- The thread after a call of a backend that keeps still. -/
def passed (t : Thread) (mode : Mode) : Thread :=
  { t with mode := some mode, transitions := t.transitions + 1, calls := t.calls + 1 }

def callEvents (p : Platform) (t : Thread) (mode : Mode) : List Event :=
  [.record (.modeChange mode), .begins (t.backend.outlet p) mode ⟨some mode, t.transitions⟩,
    .returns mode]

theorem passed_onward (t : Thread) (mode : Mode) (events : List Event) :
    t.Onward events (t.passed mode) :=
  ⟨rfl, rfl, Nat.le_succ _, fun _ => rfl⟩

theorem take_of_still {t : Thread} (h : t.Still) : take (send p failing) mode t =
    ⟨.ok (), t.passed mode, t.callEvents p mode⟩ := by
  have hinside (react : Nat → Backend.Reaction → Step Unit) : inside failing react mode t
      = ⟨.ok (), { t with mode := some mode, calls := t.calls + 1 }, []⟩ := by
    unfold inside
    rw [Backend.occurring_eq_nil (h t.calls (Nat.le_refl _))]
    rfl
  rw [take_send, take_passOn]
  simp [hinside, passed, callEvents]

theorem init_of_still {t : Thread} (h : t.Still) (hm : t.mode = none) : init p failing t =
    ⟨.ok (), t.passed t.config.initialMode,
      .record (.initializing t.config.initialMode) :: t.callEvents p t.config.initialMode⟩ := by
  rw [init_of_none hm]
  simp [take_of_still h]

/-- **A backend that keeps still.** A call for another mode than that of the thread. -/
theorem enable_of_still {t : Thread} {found : Mode} (h : t.Still) (hm : t.mode = some found) :
    enable p failing mode t =
      if found = mode then ⟨.ok found, t, []⟩
      else ⟨.ok found, t.passed mode, t.callEvents p mode⟩ := by
  split
  · subst mode
    exact enable_of_same hm
  · rename_i hne
    rw [enable_of_other hm hne, take_of_still h]
    simp

/-- Where there is no mode, the call for the initial mode comes first. -/
theorem enable_of_still_of_none {t : Thread} (h : t.Still) (hm : t.mode = none) :
    enable p failing mode t =
      let initial := t.config.initialMode
      let events := [.record .lateInitialization, .record (.initializing initial)]
        ++ t.callEvents p initial
      if initial = mode then ⟨.ok initial, t.passed initial, events⟩
      else ⟨.ok initial, (t.passed initial).passed mode,
        events ++ (t.passed initial).callEvents p mode⟩ := by
  have hpassed : (t.passed t.config.initialMode).Still := h.onward (passed_onward t _ [])
  rw [enable_of_none hm]
  simp only [bind_apply, init_of_still h hm, Run.andThen_ok]
  by_cases hsame : t.config.initialMode = mode
  · simp [hsame]
  · simp [hsame, take_of_still hpassed]

end Thread

/-! ## In a world -/

variable {name : String} {w : World} {t : Thread}

def World.withThread (w : World) (name : String) (t : Thread) : World :=
  { w with threads := w.threads.update name fun _ => t }

theorem World.withThread_self (h : w.threads.get? name = some t) (t' : Thread) :
    (w.withThread name t').threads.get? name = some t' := by
  simp [withThread, h]

theorem switch_of_thread (h : w.threads.get? name = some t) :
    switch p failing name mode w =
      let r := Thread.enable p failing mode t
      ⟨r.outcome.mapError (.thread name), w.withThread name r.state,
        r.trace.map (.thread name)⟩ := by
  simp only [switch, bind_apply, onThread_of_some h]
  generalize Thread.enable p failing mode t = r
  obtain ⟨outcome, t', trace⟩ := r
  cases outcome <;> simp [Except.map, World.withThread]

section

variable {holder : Holder} {kind : Guard.Kind} {previous : Mode} {cause : Panic} {w₁ : World}
  {opening : List Happening}

/-- A guard that asks a name is made with the answer. -/
theorem Guard.enter_of_answered (hasks : kind.asks p)
    (h : switch p false name mode w = ⟨.ok previous, w₁, opening⟩) :
    enter p holder kind mode (some name) w =
      let g : Guard := .delegated mode (some name) previous
      ⟨.ok g, w₁, opening ++ [.mark (.opened holder g) w₁.snapshot]⟩ := by
  simp only [enter, acquire_of_asks hasks, acquireDelegated, bind_apply, h, Run.andThen_ok,
    pure_apply, mark_apply, List.append_nil]

/-- If the name that it asks panics, there is no guard. -/
theorem Guard.enter_of_panicked (hasks : kind.asks p)
    (h : switch p false name mode w = ⟨.error cause, w₁, opening⟩) :
    enter p holder kind mode (some name) w = ⟨.error cause, w₁, opening⟩ := by
  simp only [enter, acquire_of_asks hasks, acquireDelegated, bind_apply, h, Run.andThen_error]

/-- It is ended by one more question. -/
theorem Guard.release_delegated (failing : Bool) (asked previous : Mode) (w : World) :
    release p failing (.delegated asked (some name) previous) w =
      let q := switch p failing name previous w
      ⟨q.outcome.map fun _ => (), q.state, q.trace⟩ := by
  simp only [release, bind_apply, Run.andThen_return]

end

/-- A guard is ended, and a mark tells so even where ending it fails. -/
theorem Guard.leave_apply (holder : Holder) (failing : Bool) (g : Guard) (w : World) :
    leave p holder failing g w =
      let r := release p failing g w
      ⟨r.outcome, r.state, r.trace ++ [.mark (.closed holder g) r.state.snapshot]⟩ := by
  simp [leave]

/-- A guard that has been made is ended once, after the body. -/
theorem holding_of_entered {kind : Guard.Kind} {thread : Option String} {g : Guard} {w₁ : World}
    {opening : List Happening} {body : Guard → Step α}
    (h : Guard.enter p .scope kind mode thread w = ⟨.ok g, w₁, opening⟩) :
    holding p kind mode thread body w =
      let r := body g w₁
      let q := Guard.release p r.failed g r.state
      ⟨r.outcome.bind fun a => q.outcome.map fun _ => a, q.state,
        opening ++ r.trace ++ q.trace ++ [.mark (.closed .scope g) q.state.snapshot]⟩ := by
  rw [holding, bracket_of_acquired h]
  simp [Guard.leave_apply]

end WriteXorExecute
