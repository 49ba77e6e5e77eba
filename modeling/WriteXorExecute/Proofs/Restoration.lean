import WriteXorExecute.Proofs.Position
import WriteXorExecute.Proofs.ThreadHistory
/-!
# A scope restores its thread

A delegated scope gives its thread back in the mode in which it found it, whatever its body does:
the body may ask the thread for modes, keep, drop and lose guards on it, and panic. The backend may
fail in every call, but does not call back into the thread.

Three facts carry this. No program takes the mode of a thread away (`follows_onward`), so that the
end of the scope finds the thread with a mode. The guard that is given back is the one that was
made. And the thread takes the mode that it is given back before its backend has a chance to fail
(`release_restores`).
-/
namespace WriteXorExecute

open Procedure

variable {p : Platform} {name : String} {w : World} {t : Thread}

def Snapshot.modeOf? (now : Snapshot) (name : String) : Option Mode :=
  (now.threads.get? name).bind (·.mode)

/-! ## The body -/

theorem useLaw_onward (p : Platform) : Thread.UseLaw p Thread.Onward :=
  (Thread.Onward.callLaw p).useLaw

/-- No program takes a thread, its backend or its mode away. -/
theorem follows_onward (running : List String) (program : Program)
    (ht : w.threads.get? name = some t) : ∃ events t',
      (run p running program w).state.threads.get? name = some t' ∧ t.Onward events t' := by
  have hfollows : Follows Thread.Onward name w _ _ :=
    Follows.run (useLaw_onward p) running program w
  have h := hfollows.thread
  rw [ht] at h
  generalize (run p running program w).state.threads.get? name = o at h
  cases o with
  | none => exact h.elim
  | some t' => exact ⟨_, t', rfl, h⟩

/-! ## The beginning and the end of a scope -/

/-- A guard that asks a thread is made with the mode that the thread was in. -/
theorem enter_asking {holder : Holder} {kind : Guard.Kind} {mode : Mode} {g : Guard} {w₁ : World}
    {trace : List Happening} (hasks : kind.asks p) (ht : w.threads.get? name = some t)
    (h : Guard.enter p holder kind mode (some name) w = ⟨.ok g, w₁, trace⟩) :
    g = .delegated mode (some name) t.baseMode ∧
      ∃ events t₁, w₁.threads.get? name = some t₁ ∧ t.Onward events t₁ ∧ t₁.mode.isSome := by
  have hanswer : ∀ previous, (Thread.enable p false mode t).outcome = .ok previous →
      previous = t.baseMode := fun _ => Thread.enable_answer
  have honward := Thread.enable_onward p false mode t
  have hsome := Thread.enable_isSome p false mode t
  simp only [Guard.enter, Guard.acquire_of_asks hasks, Guard.acquireDelegated, bind_apply,
    switch_of_thread ht] at h
  generalize Thread.enable p false mode t = r at h hanswer honward hsome
  obtain ⟨outcome, t₁, events⟩ := r
  cases outcome with
  | error fault => simp at h
  | ok previous =>
    obtain rfl := hanswer _ rfl
    simp only [mapError_ok, Run.andThen_ok, bind_apply, mark_apply, pure_apply,
      Run.mk.injEq, Except.ok.injEq] at h
    obtain ⟨rfl, rfl, -⟩ := h
    exact ⟨rfl, _, t₁, World.withThread_self ht t₁, honward, hsome⟩

/-- The thread takes the mode that it is given back before its backend can fail. -/
theorem release_restores (ht : w.threads.get? name = some t) (hback : t.NeverCallsBack)
    (hmode : t.mode.isSome) (p : Platform) (failing : Bool) (mode previous : Mode) :
    (Guard.release p failing (.delegated mode (some name) previous)
      w).state.snapshot.modeOf? name = some previous := by
  have hstate : (Guard.release p failing (.delegated mode (some name) previous) w).state
      = w.withThread name (Thread.enable p failing previous t).state := by
    simp only [Guard.release, bind_apply, switch_of_thread ht]
    generalize Thread.enable p failing previous t = r
    obtain ⟨outcome, t', events⟩ := r
    cases outcome <;> rfl
  rw [hstate]
  simp [Snapshot.modeOf?, World.snapshot, World.withThread_self ht, Thread.status,
    Thread.enable_mode hback hmode]

/-! ## The whole scope -/

/-- **A scope restores its thread.** Once its guard has been made, the guard tells the mode that the
thread was in, or was going to be initialised to, when the body begins and when it has returned; and
where the scope is left, however that comes about, the thread is in that mode again. -/
theorem scope_restores {s : Scope} {g : Guard} {w₁ : World} {opening : List Happening}
    (running : List String) (body : Program) (hthread : s.thread = some name)
    (hasks : s.kind.asks p) (ht : w.threads.get? name = some t) (hback : t.NeverCallsBack)
    (henter : Guard.enter p .scope s.kind s.mode s.thread w = ⟨.ok g, w₁, opening⟩) :
    let r := runScope p running s body w
    g.query = some t.baseMode ∧
      (∀ reply, r.outcome = .ok reply → reply = s.exitReply g) ∧
      (∃ within now,
        r.trace = opening ++ .mark (.completed .entered (s.entryReply g)) w₁.snapshot :: within
          ++ [.mark (.closed .scope g) now] ∧
        now.modeOf? name = some t.baseMode) ∧
      r.state.snapshot.modeOf? name = some t.baseMode := by
  have hrun := runScope_of_entered running body henter
  rw [hthread] at henter
  obtain ⟨rfl, events₁, t₁, ht₁, honward₁, hsome₁⟩ := enter_asking hasks ht henter
  -- The body finds the thread with a mode, and cannot take it away.
  obtain ⟨events₂, t₂, ht₂, honward₂⟩ := follows_onward (p := p) running body ht₁
  have hrestored := release_restores ht₂ ((hback.onward honward₁).onward honward₂)
    (honward₂.mode hsome₁) p (run p running body w₁).failed s.mode t.baseMode
  rw [hrun]
  dsimp only
  generalize run p running body w₁ = r at hrestored
  generalize Guard.release p r.failed _ r.state = q at hrestored
  refine ⟨rfl, fun reply hreply => ?_, ⟨r.trace ++ q.trace, _, by simp, hrestored⟩, hrestored⟩
  obtain ⟨outcome, w₂, within⟩ := r
  obtain ⟨ending, w₃, closing⟩ := q
  cases outcome with
  | error cause => simp [Except.bind] at hreply
  | ok _ =>
    cases ending with
    | error cause => simp [Except.bind, Except.map] at hreply
    | ok _ => exact (Except.ok.inj hreply).symm

/-- A thread without a mode, whose backend fails in its fourth and fifth call. -/
def faultyThread : Thread where
  backend := .scripted [⟨3, .fail⟩, ⟨4, .fail⟩]
  config := { checkAtSync := true }

/-- A body that asks for other modes, the last time in vain. -/
def restlessBody : Program :=
  .attempt (.step (.enable "t" .write) <| .step (.enable "t" .exec) .done) .done

/-- The fifth call is the one that gives the mode back. -/
theorem scope_restores_faulty :
    let w : World := { threads := (∅ : Table Thread).add "t" faultyThread }
    let s : Scope := { style := .guarded .delegated, mode := .exec, thread := some "t" }
    let r := runScope {} [] s restlessBody w
    r.failed ∧ r.state.snapshot.modeOf? "t" = some .write :=
  ⟨by decide, (scope_restores (t := faultyThread) [] restlessBody rfl rfl rfl
    (Thread.neverCallsBack_of_script (by decide)) rfl).2.2.2⟩

end WriteXorExecute
