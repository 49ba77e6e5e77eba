import WriteXorExecute.Procedure
/-!
# Laws of procedures

A law relates the state before a procedure, the events that it records and the state after it. A law
that holds of doing nothing, and of two procedures in a row if it holds of each, holds of every
procedure that is built from steps that obey it, however the procedure ends.

- **Obedience** (`Procedure.Obeys`): one lemma for each way of building a procedure.
- **Agreement** (`Procedure.AgreeOn`): two procedures that do the same in some states go on doing
  the same as long as the states reached are of that kind.
-/
namespace WriteXorExecute

variable {σ ε φ α β γ : Type}

/-- A relation that doing nothing obeys, and two procedures in a row if each of them does. -/
structure Law (R : σ → List ε → σ → Prop) : Prop where
  refl : ∀ s, R s [] s
  trans : ∀ {s₁ s₂ s₃ t₁ t₂}, R s₁ t₁ s₂ → R s₂ t₂ s₃ → R s₁ (t₁ ++ t₂) s₃

namespace Procedure

/-- Whatever the state, the procedure does what the law allows. -/
def Obeys (R : σ → List ε → σ → Prop) (x : Procedure σ ε φ α) : Prop :=
  ∀ s, R s (x s).trace (x s).state

/-- Every value that the procedure can return is of the kind `good`. -/
def Returns (good : α → Prop) (x : Procedure σ ε φ α) : Prop :=
  ∀ s a, (x s).outcome = .ok a → good a

theorem Returns.trivial (x : Procedure σ ε φ α) : Returns (fun _ => True) x :=
  fun _ _ _ => True.intro

theorem Returns.pure {good : α → Prop} {a : α} (h : good a) :
    Returns good (pure a : Procedure σ ε φ α) := by
  intro s b hb
  simp only [pure_apply, Except.ok.injEq] at hb
  exact hb ▸ h

theorem Returns.bind_of_returns {kind : α → Prop} {good : β → Prop} {x : Procedure σ ε φ α}
    {next : α → Procedure σ ε φ β} (hx : Returns kind x) (h : ∀ a, kind a → Returns good (next a)) :
    Returns good (x >>= next) := by
  intro s b hb
  have hx := hx s
  simp only [bind_apply] at hb
  generalize x s = r at hb hx
  obtain ⟨outcome, s', trace⟩ := r
  cases outcome with
  | error cause => simp at hb
  | ok a => exact h a (hx a rfl) s' b hb

theorem Returns.bind {good : β → Prop} {x : Procedure σ ε φ α} {next : α → Procedure σ ε φ β}
    (h : ∀ a, Returns good (next a)) : Returns good (x >>= next) :=
  bind_of_returns (Returns.trivial x) fun a _ => h a

namespace Obeys

variable {R : σ → List ε → σ → Prop}

theorem pure (law : Law R) (a : α) : Obeys R (pure a : Procedure σ ε φ α) :=
  law.refl

theorem get (law : Law R) : Obeys R (get : Procedure σ ε φ σ) :=
  law.refl

theorem fail (law : Law R) (cause : φ) : Obeys R (fail cause : Procedure σ ε φ α) :=
  law.refl

theorem ofOutcome (law : Law R) (outcome : Except φ α) :
    Obeys R (ofOutcome outcome : Procedure σ ε φ α) :=
  law.refl

theorem modify {change : σ → σ} (h : ∀ s, R s [] (change s)) :
    Obeys R (modify change : Procedure σ ε φ Unit) :=
  h

theorem note {event : ε} (h : ∀ s, R s [event] s) :
    Obeys R (note event : Procedure σ ε φ Unit) :=
  h

/-- What obeys a law obeys every weaker one. -/
theorem imp {R' : σ → List ε → σ → Prop} {x : Procedure σ ε φ α} (hx : Obeys R x)
    (h : ∀ {s trace s'}, R s trace s' → R' s trace s') : Obeys R' x :=
  fun s => h (hx s)

/-- What comes after a value only has to obey from where that value was returned. -/
theorem bind_of_returns (law : Law R) {x : Procedure σ ε φ α}
    {next : α → Procedure σ ε φ β} {good : α → Prop} (hx : Obeys R x) (hgood : Returns good x)
    (hnext : ∀ a, good a → Obeys R (next a)) : Obeys R (x >>= next) := by
  intro s
  have h := hx s
  have hgood := hgood s
  simp only [bind_apply]
  generalize x s = r at h hgood
  obtain ⟨outcome, s', trace⟩ := r
  cases outcome with
  | error cause => exact h
  | ok a => exact law.trans h (hnext a (hgood a rfl) s')

theorem bind (law : Law R) {x : Procedure σ ε φ α} {next : α → Procedure σ ε φ β}
    (hx : Obeys R x) (hnext : ∀ a, Obeys R (next a)) : Obeys R (x >>= next) :=
  bind_of_returns law hx (Returns.trivial x) fun a _ => hnext a

theorem attempt {x : Procedure σ ε φ α} (hx : Obeys R x) : Obeys R (attempt x) :=
  hx

/-- A law of a body is only needed where something has been acquired for it. -/
theorem bracket_at (law : Law R) {acquire : Procedure σ ε φ γ}
    {release : Bool → γ → Procedure σ ε φ Unit} {body : γ → Procedure σ ε φ α} {s : σ}
    (hacquire : R s (acquire s).trace (acquire s).state)
    (hrest : ∀ held s' trace, acquire s = ⟨.ok held, s', trace⟩ →
      R s' (body held s').trace (body held s').state ∧ ∀ failing, Obeys R (release failing held)) :
    R s (bracket acquire release body s).trace (bracket acquire release body s).state := by
  generalize ha : acquire s = r at hacquire
  obtain ⟨outcome, s', trace⟩ := r
  cases outcome with
  | error cause =>
    rw [bracket_of_refused ha]
    exact hacquire
  | ok held =>
    obtain ⟨hbody, hrelease⟩ := hrest held s' trace ha
    rw [bracket_of_acquired ha]
    exact law.trans (law.trans hacquire hbody) (hrelease _ _)

theorem bracket (law : Law R) {acquire : Procedure σ ε φ γ}
    {release : Bool → γ → Procedure σ ε φ Unit} {body : γ → Procedure σ ε φ α} {good : γ → Prop}
    (hacquire : Obeys R acquire) (hgood : Returns good acquire)
    (hrelease : ∀ failing held, good held → Obeys R (release failing held))
    (hbody : ∀ held, Obeys R (body held)) : Obeys R (bracket acquire release body) := by
  refine fun s => bracket_at law (hacquire s) fun held s' trace h => ⟨hbody held s', ?_⟩
  exact fun failing => hrelease failing held (hgood s held (congrArg Run.outcome h))

theorem forM (law : Law R) {next : β → Procedure σ ε φ Unit} (hnext : ∀ b, Obeys R (next b))
    (bs : List β) : Obeys R (bs.forM next) := by
  induction bs with
  | nil => exact pure law ()
  | cons b bs ih => exact bind law (hnext b) fun _ => ih

theorem mapM (law : Law R) {next : β → Procedure σ ε φ γ} (hnext : ∀ b, Obeys R (next b))
    (bs : List β) : Obeys R (bs.mapM next) := by
  induction bs with
  | nil => exact pure law []
  | cons b bs ih =>
    rw [List.mapM_cons]
    exact bind law (hnext b) fun _ => bind law ih fun _ => pure law _

end Obeys

/-- In every state of the kind `P` the two procedures do the same. -/
def AgreeOn (P : σ → Prop) (x y : Procedure σ ε φ α) : Prop :=
  ∀ s, P s → x s = y s

namespace AgreeOn

variable {P : σ → Prop}

theorem rfl {x : Procedure σ ε φ α} : AgreeOn P x x :=
  fun _ _ => Eq.refl _

/-- `P` has to outlast the first of the two procedures. -/
theorem bind {x y : Procedure σ ε φ α} {next next' : α → Procedure σ ε φ β} (hxy : AgreeOn P x y)
    (hP : ∀ s, P s → P (y s).state) (hnext : ∀ a, AgreeOn P (next a) (next' a)) :
    AgreeOn P (x >>= next) (y >>= next') := by
  intro s hs
  have hs' := hP s hs
  simp only [bind_apply, hxy s hs]
  generalize y s = r at hs'
  obtain ⟨outcome, s', trace⟩ := r
  cases outcome with
  | error cause => exact Eq.refl _
  | ok a => simp only [Run.andThen_ok, hnext a s' hs']

theorem attempt {x y : Procedure σ ε φ α} (hxy : AgreeOn P x y) :
    AgreeOn P (attempt x) (attempt y) :=
  fun s hs => by rw [attempt_apply, attempt_apply, hxy s hs]

theorem forM {next next' : β → Procedure σ ε φ Unit} (hP : ∀ b s, P s → P (next' b s).state)
    (hnext : ∀ b, AgreeOn P (next b) (next' b)) (bs : List β) :
    AgreeOn P (bs.forM next) (bs.forM next') := by
  induction bs with
  | nil => exact rfl
  | cons b bs ih => exact bind (hnext b) (hP b) fun _ => ih

end AgreeOn

end Procedure

end WriteXorExecute
