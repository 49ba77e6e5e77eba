import WriteXorExecute.Procedure.Law
import WriteXorExecute.Thread.Switch
/-!
# Laws of threads

A call of a backend may ask its own thread for modes, which makes calls inside that call. What holds
of one call, whatever happens inside it, holds of all that is done to a thread: the calls inside a
call are reached by induction on how deep they may be nested.

- **One call** (`CallLaw.of_ends`): a call obeys a law as soon as its reactions do, if its two ways
  of ending do.
- **Calls inside calls** (`CallLaw.init`, `CallLaw.enable`): a law that one call obeys as soon as
  its reactions do is obeyed by every procedure on a thread.
- **Uses of a thread** (`UseLaw`): what programs need of a law, wherever it comes from.
-/
namespace WriteXorExecute.Thread

open Procedure

/-- Whether this is told beside the calls of the backend: it belongs to none of them, and it is a
line of the log only if threads write such lines. -/
def Event.isAside : Event → Bool
  | .record (.initializing _) | .record .lateInitialization => true
  | .reinitialized | .reenabled .. | .caught _ => true
  | .record _ | .begins .. | .returns _ | .unwinds _ => false

/-- What a call of the backend does inside: the thread has taken the mode, and the call is counted.
-/
def inside (failing : Bool) (react : Nat → Backend.Reaction → Step Unit) (mode : Mode)
    (t : Thread) : Run Thread Event Fault Unit :=
  (t.backend.occurring failing t.calls).forM (react t.calls)
    { t with mode := some mode, calls := t.calls + 1 }

/-- One call of the backend, from the taking of the mode to its end. -/
theorem take_passOn (p : Platform) (failing : Bool) (react : Nat → Backend.Reaction → Step Unit)
    (mode : Mode) (t : Thread) :
    take (passOn p failing react) mode t =
      let begun := [.record (.modeChange mode),
        .begins (t.backend.outlet p) mode ⟨some mode, t.transitions⟩]
      let r := inside failing react mode t
      match r.outcome with
      | .ok _ => ⟨.ok (), { r.state with transitions := r.state.transitions + 1 },
          begun ++ r.trace ++ [.returns mode]⟩
      | .error fault => ⟨.error fault, r.state, begun ++ r.trace ++ [.unwinds mode]⟩ := by
  have hinside : (t.backend.occurring failing t.calls).forM (react t.calls)
      { t with mode := some mode, calls := t.calls + 1 } = inside failing react mode t := rfl
  simp only [take, passOn, bind_apply, modify_apply, note_apply, get_apply, attempt_apply,
    Run.andThen_ok, status, hinside]
  generalize inside failing react mode t = r
  obtain ⟨outcome, t', trace⟩ := r
  cases outcome <;> simp

section

variable {p : Platform} {failing : Bool} {L : Thread → List Event → Thread → Prop}
  {send : Mode → Step Unit}

theorem initVia_obeys (law : Law L)
    (hnote : ∀ event : Event, event.isAside = true → ∀ t, L t [event] t)
    (hsend : ∀ mode, Obeys L (take send mode)) : Obeys L (initVia p send) := by
  unfold initVia
  refine .bind law (.get law) fun t => ?_
  split
  · exact .fail law _
  · exact .bind law (.note (hnote _ rfl)) fun _ => hsend t.config.initialMode

theorem enableVia_obeys (law : Law L)
    (hnote : ∀ event : Event, event.isAside = true → ∀ t, L t [event] t)
    (hsend : ∀ mode, Obeys L (take send mode)) (mode : Mode) :
    Obeys L (enableVia p send mode) := by
  have tail (previous : Mode) : Obeys L (do
      if previous ≠ mode then
        take send mode
      return previous : Step Mode) := by
    split
    · exact .bind law (hsend mode) fun _ => .pure law _
    · exact .pure law _
  unfold enableVia
  refine .bind law (.get law) fun t => ?_
  split
  · exact tail _
  · exact .bind law (.note (hnote _ rfl)) fun _ =>
      .bind law (initVia_obeys law hnote hsend) fun _ => tail _

theorem react_obeys (law : Law L)
    (hnote : ∀ event : Event, event.isAside = true → ∀ t, L t [event] t)
    (hsend : ∀ mode, Obeys L (take send mode)) (call : Nat) (reaction : Backend.Reaction) :
    Obeys L (react p send call reaction) := by
  induction reaction with
  | fail => exact .fail law _
  | init => exact .bind law (initVia_obeys law hnote hsend) fun _ => .note (hnote _ rfl)
  | enable mode =>
    exact .bind law (enableVia_obeys law hnote hsend mode) fun _ => .note (hnote _ rfl)
  | caught reaction ih =>
    refine .bind law (.attempt ih) fun ending => ?_
    cases ending with
    | ok _ => exact .pure law ()
    | error fault => exact .note (hnote _ rfl)

/-- What succeeds inside a call is the same whether it is caught or not. -/
theorem react_caught_of_ok {call : Nat} {reaction : Backend.Reaction} {t t' : Thread}
    {events : List Event} (h : react p send call reaction t = ⟨.ok (), t', events⟩) :
    react p send call (.caught reaction) t = ⟨.ok (), t', events⟩ := by
  simp [react, h]

theorem assertMode_obeys (law : Law L) (mode : Mode) : Obeys L (assertMode p mode) := by
  unfold assertMode
  split
  · refine .bind law (.get law) fun t => ?_
    split
    · exact .pure law ()
    · exact .fail law _
  · exact .pure law ()

/-- An assertion leaves the thread as it is. -/
theorem assertMode_same (mode : Mode) (t : Thread) :
    (assertMode p mode t).trace = [] ∧ (assertMode p mode t).state = t := by
  have same : Law fun (t : Thread) (events : List Event) t' => events = [] ∧ t' = t :=
    ⟨fun _ => ⟨rfl, rfl⟩, fun h h' => by simp [h.1, h'.1, h.2, h'.2]⟩
  exact assertMode_obeys same mode t

end

/-- A law that one call of the backend obeys if all that happens inside it does. -/
structure CallLaw (p : Platform) (L : Thread → List Event → Thread → Prop) : Prop where
  law : Law L
  note : ∀ event : Event, event.isAside = true → ∀ t, L t [event] t
  call : ∀ failing react mode, (∀ call reaction, Obeys L (react call reaction)) →
    Obeys L (take (passOn p failing react) mode)

namespace CallLaw

variable {p : Platform} {L L' : Thread → List Event → Thread → Prop}

/-- A call comes back or fails. -/
theorem of_ends (law : Law L) (note : ∀ event : Event, event.isAside = true → ∀ t, L t [event] t)
    (returns : ∀ {t t' : Thread} {events : List Event} (mode : Mode),
      L { t with mode := some mode, calls := t.calls + 1 } events t' →
      L t ([.record (.modeChange mode),
          .begins (t.backend.outlet p) mode ⟨some mode, t.transitions⟩]
        ++ events ++ [.returns mode]) { t' with transitions := t'.transitions + 1 })
    (unwinds : ∀ {t t' : Thread} {events : List Event} (mode : Mode),
      L { t with mode := some mode, calls := t.calls + 1 } events t' →
      L t ([.record (.modeChange mode),
          .begins (t.backend.outlet p) mode ⟨some mode, t.transitions⟩]
        ++ events ++ [.unwinds mode]) t') : CallLaw p L where
  law := law
  note := note
  call failing react mode hreact t := by
    have hinside : L { t with mode := some mode, calls := t.calls + 1 }
        (inside failing react mode t).trace (inside failing react mode t).state :=
      Obeys.forM law (hreact t.calls) _ _
    rw [take_passOn]
    dsimp only
    split
    · exact returns mode hinside
    · exact unwinds mode hinside

theorem and (h : CallLaw p L) (h' : CallLaw p L') :
    CallLaw p fun t events t' => L t events t' ∧ L' t events t' where
  law := ⟨fun t => ⟨h.law.refl t, h'.law.refl t⟩,
    fun first second => ⟨h.law.trans first.1 second.1, h'.law.trans first.2 second.2⟩⟩
  note event hevent t := ⟨h.note event hevent t, h'.note event hevent t⟩
  call failing react mode hreact t :=
    ⟨h.call failing react mode (fun call reaction => (hreact call reaction).imp And.left) t,
      h'.call failing react mode (fun call reaction => (hreact call reaction).imp And.right) t⟩

theorem sendWithin (h : CallLaw p L) (failing : Bool) (depth : Nat) (mode : Mode) :
    Obeys L (take (sendWithin p failing depth) mode) := by
  induction depth generalizing failing mode with
  | zero => exact h.call failing _ mode fun _ _ => .pure h.law ()
  | succ depth ih => exact h.call failing _ mode (react_obeys h.law h.note (ih false))

theorem send (h : CallLaw p L) (failing : Bool) (mode : Mode) :
    Obeys L (take (send p failing) mode) :=
  fun t => h.sendWithin failing t.backend.script.length mode t

theorem init (h : CallLaw p L) (failing : Bool) : Obeys L (Thread.init p failing) :=
  initVia_obeys h.law h.note (h.send failing)

theorem enable (h : CallLaw p L) (failing : Bool) (mode : Mode) :
    Obeys L (Thread.enable p failing mode) :=
  enableVia_obeys h.law h.note (h.send failing) mode

end CallLaw

/-- A law of all that a program does to a thread: initialising it, and asking it for modes. -/
structure UseLaw (p : Platform) (L : Thread → List Event → Thread → Prop) : Prop where
  law : Law L
  init : ∀ failing, Obeys L (Thread.init p failing)
  enable : ∀ failing mode, Obeys L (Thread.enable p failing mode)

theorem CallLaw.useLaw {p : Platform} {L : Thread → List Event → Thread → Prop}
    (h : CallLaw p L) : UseLaw p L :=
  ⟨h.law, h.init, h.enable⟩

end WriteXorExecute.Thread
