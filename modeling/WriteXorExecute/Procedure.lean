/-!
# Procedures that record and can fail

A procedure changes a state, records events in the order in which they happen, and ends by returning
a value or by failing with a cause. A failure undoes nothing: the state and the events up to it
stay. What a procedure records does not depend on what was recorded before it.

- **Laws**: procedures form a lawful monad.
- **Release** (`Procedure.bracket`): what was acquired is released on every way out of a body.
-/
namespace WriteXorExecute

/-- What a procedure did: how it ended, the state that it left, and the events that it recorded. -/
structure Run (σ ε φ α : Type) where
  outcome : Except φ α
  state : σ
  trace : List ε

variable {σ τ ε ε' φ φ' α β γ : Type}

/-- A procedure on states `σ` that records events `ε`, fails with a `φ` and returns an `α`. -/
def Procedure (σ ε φ α : Type) : Type :=
  σ → Run σ ε φ α

/-- Goes on with the value of a run that returned; a failed run stays as it is. -/
def Run.andThen (r : Run σ ε φ α) (next : α → Procedure σ ε φ β) : Run σ ε φ β :=
  match r.outcome with
  | .ok a =>
    let s := next a r.state
    { s with trace := r.trace ++ s.trace }
  | .error cause => ⟨.error cause, r.state, r.trace⟩

def Run.failed (r : Run σ ε φ α) : Bool :=
  match r.outcome with
  | .ok _ => false
  | .error _ => true

namespace Procedure

instance : Monad (Procedure σ ε φ) where
  pure a := fun s => ⟨.ok a, s, []⟩
  bind x next := fun s => (x s).andThen next

def get : Procedure σ ε φ σ :=
  fun s => ⟨.ok s, s, []⟩

def modify (change : σ → σ) : Procedure σ ε φ Unit :=
  fun s => ⟨.ok (), change s, []⟩

def note (event : ε) : Procedure σ ε φ Unit :=
  fun s => ⟨.ok (), s, [event]⟩

def fail (cause : φ) : Procedure σ ε φ α :=
  fun s => ⟨.error cause, s, []⟩

def ofOutcome (outcome : Except φ α) : Procedure σ ε φ α :=
  fun s => ⟨outcome, s, []⟩

/-- Runs a procedure and returns how it ended, so that a failure goes no further. -/
def attempt (x : Procedure σ ε φ α) : Procedure σ ε φ (Except φ α) :=
  fun s => let r := x s; ⟨.ok r.outcome, r.state, r.trace⟩

/-- Acquires, runs the body, and releases on every way out of it. `release` is told whether the
body failed. That failure is then the one reported, whatever the release does. -/
def bracket (acquire : Procedure σ ε φ γ) (release : (failing : Bool) → γ → Procedure σ ε φ Unit)
    (body : γ → Procedure σ ε φ α) : Procedure σ ε φ α := do
  let held ← acquire
  match ← attempt (body held) with
  | .ok a =>
    release false held
    return a
  | .error cause =>
    let _ ← attempt (release true held)
    fail cause

/-- Runs a procedure on a part of the state, which may be absent: then nothing happens. Events and
causes of failure are told apart from those of other parts by `tag` and `blame`. -/
def onPart (find : σ → Option τ) (store : τ → σ → σ) (tag : ε → ε') (blame : φ → φ')
    (x : Procedure τ ε φ α) : Procedure σ ε' φ' (Option α) :=
  fun s =>
    match find s with
    | none => ⟨.ok none, s, []⟩
    | some part =>
      let r := x part
      ⟨(r.outcome.map some).mapError blame, store r.state s, r.trace.map tag⟩

/-! ## Equations -/

@[simp] theorem pure_apply (a : α) (s : σ) :
    (pure a : Procedure σ ε φ α) s = ⟨.ok a, s, []⟩ := rfl

@[simp] theorem bind_apply (x : Procedure σ ε φ α) (next : α → Procedure σ ε φ β) (s : σ) :
    (x >>= next) s = (x s).andThen next := rfl

@[simp] theorem get_apply (s : σ) : (get : Procedure σ ε φ σ) s = ⟨.ok s, s, []⟩ := rfl

@[simp] theorem modify_apply (change : σ → σ) (s : σ) :
    (modify change : Procedure σ ε φ Unit) s = ⟨.ok (), change s, []⟩ := rfl

@[simp] theorem note_apply (event : ε) (s : σ) :
    (note event : Procedure σ ε φ Unit) s = ⟨.ok (), s, [event]⟩ := rfl

@[simp] theorem fail_apply (cause : φ) (s : σ) :
    (fail cause : Procedure σ ε φ α) s = ⟨.error cause, s, []⟩ := rfl

@[simp] theorem ofOutcome_apply (outcome : Except φ α) (s : σ) :
    (ofOutcome outcome : Procedure σ ε φ α) s = ⟨outcome, s, []⟩ := rfl

@[simp] theorem mapError_ok (a : α) (blame : φ → φ') :
    (.ok a : Except φ α).mapError blame = .ok a := rfl

@[simp] theorem mapError_error (cause : φ) (blame : φ → φ') :
    (.error cause : Except φ α).mapError blame = .error (blame cause) := rfl

@[simp] theorem attempt_apply (x : Procedure σ ε φ α) (s : σ) :
    attempt x s = ⟨.ok (x s).outcome, (x s).state, (x s).trace⟩ := rfl

end Procedure

namespace Run

@[simp] theorem andThen_ok (a : α) (s : σ) (trace : List ε) (next : α → Procedure σ ε φ β) :
    Run.andThen ⟨.ok a, s, trace⟩ next
      = ⟨(next a s).outcome, (next a s).state, trace ++ (next a s).trace⟩ := rfl

@[simp] theorem andThen_error (cause : φ) (s : σ) (trace : List ε) (next : α → Procedure σ ε φ β) :
    Run.andThen ⟨.error cause, s, trace⟩ next = ⟨.error cause, s, trace⟩ := rfl

theorem andThen_assoc (r : Run σ ε φ α) (f : α → Procedure σ ε φ β) (g : β → Procedure σ ε φ γ) :
    (r.andThen f).andThen g = r.andThen fun a => f a >>= g := by
  obtain ⟨outcome, s, trace⟩ := r
  cases outcome with
  | error cause => rfl
  | ok a =>
    simp only [andThen_ok, Procedure.bind_apply]
    obtain ⟨outcome, s', trace'⟩ := f a s
    cases outcome <;> simp

end Run

/-- What is returned in the end can depend on what has been returned, and changes nothing else. -/
theorem Run.andThen_return (r : Run σ ε φ α) (f : α → β) :
    r.andThen (fun a => pure (f a)) = ⟨r.outcome.map f, r.state, r.trace⟩ := by
  obtain ⟨outcome, s, trace⟩ := r
  cases outcome <;> simp [Except.map]

theorem Run.andThen_pure (r : Run σ ε φ α) : r.andThen (fun a => pure a) = r := by
  obtain ⟨outcome, s, trace⟩ := r
  cases outcome <;> simp

instance : LawfulMonad (Procedure σ ε φ) :=
  LawfulMonad.mk' _ (fun x => funext fun s => (x s).andThen_pure) (fun _ _ => rfl)
    (fun x f g => funext fun s => (x s).andThen_assoc f g)

namespace Procedure

variable {acquire : Procedure σ ε φ γ} {release : Bool → γ → Procedure σ ε φ Unit}
  {body : γ → Procedure σ ε φ α} {s s' : σ} {trace : List ε}

/-- What is not acquired is not released, and its body is not run. -/
theorem bracket_of_refused {cause : φ} (h : acquire s = ⟨.error cause, s', trace⟩) :
    bracket acquire release body s = ⟨.error cause, s', trace⟩ := by
  simp [bracket, h]

/-- What is acquired is released once, after the body. The failure of the body is the one reported,
and otherwise that of the release. -/
theorem bracket_of_acquired {held : γ} (h : acquire s = ⟨.ok held, s', trace⟩) :
    bracket acquire release body s =
      let r := body held s'
      let q := release r.failed held r.state
      ⟨r.outcome.bind fun a => q.outcome.map fun _ => a, q.state, trace ++ r.trace ++ q.trace⟩ := by
  simp only [bracket, bind_apply, h, Run.andThen_ok, attempt_apply]
  generalize body held s' = r
  obtain ⟨outcome, t, trace'⟩ := r
  cases outcome with
  | error cause => simp [Run.failed, Except.bind]
  | ok a =>
    simp only [Run.failed, bind_apply]
    generalize release false held t = q
    obtain ⟨ending, u, trace''⟩ := q
    cases ending <;> simp [Except.bind, Except.map]

end Procedure

end WriteXorExecute
