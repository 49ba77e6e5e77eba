import WriteXorExecute.Procedure.Law
/-!
# Two procedures side by side

Two procedures are compared from states that correspond. Their runs are alike if they end in the
same way, leave states that correspond, and if as much of what they record as is looked at is the
same. What is looked at is settled event by event, so two runs in a row are alike if each of them
is; a comparison of programs follows from one of their steps.

- **Alike from corresponding states** (`Correspondence.Mirrors`): one lemma for each way of building
  a procedure.
-/
namespace WriteXorExecute

variable {σ ε ο φ α α' β β' : Type}

/-- Both outcomes are a failure of the same cause, or values that are related. -/
inductive Together (V : α → β → Prop) : Except φ α → Except φ β → Prop
  | ok {a : α} {b : β} (h : V a b) : Together V (.ok a) (.ok b)
  | error (cause : φ) : Together V (.error cause) (.error cause)

theorem Together.imp {V V' : α → β → Prop} {x : Except φ α} {y : Except φ β} (h : Together V x y)
    (himp : ∀ a b, V a b → V' a b) : Together V' x y := by
  cases h with
  | ok h => exact .ok (himp _ _ h)
  | error cause => exact .error cause

theorem Together.eq {x y : Except φ α} (h : Together Eq x y) : x = y := by
  cases h with
  | ok h => rw [h]
  | error cause => rfl

theorem Together.of_eq {x y : Except φ α} (h : x = y) : Together Eq x y := by
  subst h
  cases x with
  | ok a => exact .ok rfl
  | error cause => exact .error cause

/-- Which states correspond, and what is seen of an event on either side. -/
structure Correspondence (σ ε ο : Type) where
  states : σ → σ → Prop
  seen : ε → List ο
  seen' : ε → List ο := seen

namespace Correspondence

/-- Two runs that end alike, in states that correspond, and of which the same is seen. -/
structure Alike (C : Correspondence σ ε ο) (V : α → β → Prop) (r : Run σ ε φ α)
    (r' : Run σ ε φ β) : Prop where
  outcome : Together V r.outcome r'.outcome
  states : C.states r.state r'.state
  view : r.trace.flatMap C.seen = r'.trace.flatMap C.seen'

/-- From states that correspond, the runs of the two procedures are alike. -/
def Mirrors (C : Correspondence σ ε ο) (V : α → β → Prop) (x : Procedure σ ε φ α)
    (y : Procedure σ ε φ β) : Prop :=
  ∀ s s', C.states s s' → C.Alike V (x s) (y s')

variable {C : Correspondence σ ε ο} {V : α → α' → Prop} {W : β → β' → Prop}

/-- Where one thing is seen of every event, the same is seen one by one. -/
theorem Alike.map_eq {r : Run σ ε φ α} {r' : Run σ ε φ α'} {view view' : ε → ο}
    (h : C.Alike V r r') (hseen : ∀ event, C.seen event = [view event])
    (hseen' : ∀ event, C.seen' event = [view' event]) : r.trace.map view = r'.trace.map view' := by
  have hview := h.view
  rw [funext hseen, funext hseen', ← List.map_eq_flatMap, ← List.map_eq_flatMap] at hview
  exact hview

/-- Goes on with what two runs that are alike have returned. -/
theorem Alike.andThen {r : Run σ ε φ α} {r' : Run σ ε φ α'} {next : α → Procedure σ ε φ β}
    {next' : α' → Procedure σ ε φ β'} (h : C.Alike V r r')
    (hnext : ∀ a a', r.outcome = .ok a → V a a' →
      C.Alike W (next a r.state) (next' a' r'.state)) :
    C.Alike W (r.andThen next) (r'.andThen next') := by
  obtain ⟨outcome, s, trace⟩ := r
  obtain ⟨outcome', s', trace'⟩ := r'
  obtain ⟨houtcome, hstates, hview⟩ := h
  simp only at houtcome hstates hview
  cases houtcome with
  | error cause => exact ⟨.error cause, hstates, hview⟩
  | ok ha =>
    have hrest := hnext _ _ rfl ha
    refine ⟨hrest.outcome, hrest.states, ?_⟩
    rw [Run.andThen_ok, Run.andThen_ok, List.flatMap_append, List.flatMap_append, hview, hrest.view]

namespace Mirrors

theorem pure {a : α} {a' : α'} (h : V a a') :
    C.Mirrors V (pure a : Procedure σ ε φ α) (pure a') :=
  fun _ _ hs => ⟨.ok h, hs, rfl⟩

theorem bind {x : Procedure σ ε φ α} {y : Procedure σ ε φ α'} {next : α → Procedure σ ε φ β}
    {next' : α' → Procedure σ ε φ β'} (hxy : C.Mirrors V x y)
    (hnext : ∀ a a', V a a' → C.Mirrors W (next a) (next' a')) :
    C.Mirrors W (x >>= next) (y >>= next') :=
  fun s s' hs => (hxy s s' hs).andThen fun a a' _ ha => hnext a a' ha _ _ (hxy s s' hs).states

/-- The same value is gone on with. -/
theorem bind_same {x y : Procedure σ ε φ α} {next : α → Procedure σ ε φ β}
    {next' : α → Procedure σ ε φ β'} (hxy : C.Mirrors Eq x y)
    (hnext : ∀ a, C.Mirrors W (next a) (next' a)) : C.Mirrors W (x >>= next) (y >>= next') :=
  hxy.bind fun a _ ha => ha ▸ hnext a

/-- What goes on with the state goes on with states that correspond. -/
theorem get_bind {next next' : σ → Procedure σ ε φ α} {V : α → α → Prop}
    (h : ∀ s s', C.states s s' → C.Alike V (next s s) (next' s' s')) :
    C.Mirrors V (Procedure.get >>= next) (Procedure.get >>= next') :=
  h

theorem modify {change change' : σ → σ}
    (h : ∀ s s', C.states s s' → C.states (change s) (change' s')) :
    C.Mirrors Eq (Procedure.modify change : Procedure σ ε φ Unit) (Procedure.modify change') :=
  fun s s' hs => ⟨.ok rfl, h s s' hs, rfl⟩

theorem note {event event' : ε} (h : C.seen event = C.seen' event') :
    C.Mirrors Eq (Procedure.note event : Procedure σ ε φ Unit) (Procedure.note event') :=
  fun _ _ hs => ⟨.ok rfl, hs, by simp [h]⟩

theorem fail (cause : φ) :
    C.Mirrors V (Procedure.fail cause : Procedure σ ε φ α) (Procedure.fail cause) :=
  fun _ _ hs => ⟨.error cause, hs, rfl⟩

theorem ofOutcome {x : Except φ α} {y : Except φ α'} (h : Together V x y) :
    C.Mirrors V (Procedure.ofOutcome x : Procedure σ ε φ α) (Procedure.ofOutcome y) :=
  fun _ _ hs => ⟨h, hs, rfl⟩

theorem attempt {x : Procedure σ ε φ α} {y : Procedure σ ε φ α'} (h : C.Mirrors V x y) :
    C.Mirrors (Together V) (Procedure.attempt x) (Procedure.attempt y) :=
  fun s s' hs => ⟨.ok (h s s' hs).outcome, (h s s' hs).states, (h s s' hs).view⟩

theorem imp {V' : α → α' → Prop} {x : Procedure σ ε φ α} {y : Procedure σ ε φ α'}
    (h : C.Mirrors V x y) (himp : ∀ a a', V a a' → V' a a') : C.Mirrors V' x y :=
  fun s s' hs => ⟨(h s s' hs).outcome.imp himp, (h s s' hs).states, (h s s' hs).view⟩

/-- The values are moreover of a kind that one of the procedures returns only. -/
theorem of_returns {good : α → Prop} {x : Procedure σ ε φ α} {y : Procedure σ ε φ α'}
    (h : C.Mirrors V x y) (hgood : Procedure.Returns good x) :
    C.Mirrors (fun a a' => V a a' ∧ good a) x y := by
  intro s s' hs
  obtain ⟨houtcome, hstates, hview⟩ := h s s' hs
  have hgood := hgood s
  refine ⟨?_, hstates, hview⟩
  generalize (x s).outcome = outcome at houtcome hgood ⊢
  generalize (y s').outcome = outcome' at houtcome ⊢
  cases houtcome with
  | ok ha => exact .ok ⟨ha, hgood _ rfl⟩
  | error cause => exact .error cause

theorem mapM {next next' : β → Procedure σ ε φ α} (h : ∀ b, C.Mirrors Eq (next b) (next' b))
    (bs : List β) : C.Mirrors Eq (bs.mapM next) (bs.mapM next') := by
  induction bs with
  | nil => exact pure rfl
  | cons b bs ih =>
    rw [List.mapM_cons, List.mapM_cons]
    exact (h b).bind_same fun _ => ih.bind_same fun _ => pure rfl

end Mirrors

/-! ## A procedure and itself -/

/-- The same states, of the kind `good`, and only events of the kind `fine`. -/
def within (good : σ → Prop) (fine : ε → Prop) : Correspondence σ ε Prop where
  states s s' := s = s' ∧ good s
  seen event := [fine event]
  seen' _ := [True]

section

variable {good : σ → Prop} {fine : ε → Prop} {V : α → α → Prop} {x : Procedure σ ε φ α}

theorem view_within_iff {trace : List ε} :
    trace.flatMap (within good fine).seen = trace.flatMap (within good fine).seen' ↔
      ∀ event ∈ trace, fine event := by
  induction trace with
  | nil => simp
  | cons event trace ih => simp [within] at ih ⊢; simp [ih]

/-- A procedure that is alike with itself stays within what is good and fine. -/
theorem Mirrors.stays (h : (within good fine).Mirrors V x x) {s : σ} (hs : good s) :
    (∀ event ∈ (x s).trace, fine event) ∧ good (x s).state :=
  have halike := h s s ⟨rfl, hs⟩
  ⟨view_within_iff.1 halike.view, halike.states.2⟩

theorem Mirrors.of_stays (hvalue : ∀ s a, good s → (x s).outcome = .ok a → V a a)
    (h : ∀ s, good s → (∀ event ∈ (x s).trace, fine event) ∧ good (x s).state) :
    (within good fine).Mirrors V x x := by
  rintro s _ ⟨rfl, hs⟩
  obtain ⟨hfine, hgood⟩ := h s hs
  refine ⟨?_, ⟨rfl, hgood⟩, view_within_iff.2 hfine⟩
  have hvalue := fun a => hvalue s a hs
  generalize (x s).outcome = outcome at hvalue
  cases outcome with
  | ok a => exact .ok (hvalue a rfl)
  | error cause => exact .error cause

end

end Correspondence

end WriteXorExecute
