import WriteXorExecute.Proofs.Correspondence
/-!
# Alike unless excused

Two procedures may do the same only as long as something does not happen in the first of them. What
that is can be told by an event that it records, or by the cause with which it fails. A failure that
is caught is then no excuse any more, unless what catches it records one.

- **Alike unless excused** (`Correspondence.MirrorsUnless`): one lemma for each way of building a
  procedure.
-/
namespace WriteXorExecute

variable {σ ε ο φ α α' β β' γ γ' : Type}

/-- What excuses two runs from being alike. -/
structure Excuse (ε φ : Type) where
  event : ε → Prop
  cause : φ → Prop

namespace Excuse

def none : Excuse ε φ where
  event _ := False
  cause _ := False

/-- What is left of an excuse while a failure is on its way: no second failure is one. -/
def during (E : Excuse ε φ) (failing : Bool) : Excuse ε φ where
  event := E.event
  cause cause := failing = false ∧ E.cause cause

/-- What the one excuses, the other excuses too. -/
structure Within (F E : Excuse ε φ) : Prop where
  event : ∀ event, F.event event → E.event event
  cause : ∀ cause, F.cause cause → E.cause cause

theorem Within.rfl {E : Excuse ε φ} : E.Within E :=
  ⟨fun _ h => h, fun _ h => h⟩

theorem Within.trans {E F G : Excuse ε φ} (h : E.Within F) (h' : F.Within G) : E.Within G :=
  ⟨fun event he => h'.event event (h.event event he),
    fun cause hc => h'.cause cause (h.cause cause hc)⟩

/-- As long as nothing has failed, the excuse is whole. -/
theorem within_during (E : Excuse ε φ) : E.Within (E.during false) :=
  ⟨fun _ h => h, fun _ h => ⟨Eq.refl _, h⟩⟩

theorem during_within (E : Excuse ε φ) (failing : Bool) : (E.during failing).Within E :=
  ⟨fun _ h => h, fun _ h => h.2⟩

theorem Within.during {F E : Excuse ε φ} (h : F.Within E) (failing : Bool) :
    (F.during failing).Within (E.during failing) :=
  ⟨h.event, fun cause hcause => ⟨hcause.1, h.cause cause hcause.2⟩⟩

/-- Nothing that the run has recorded is an excuse, and neither is its end. -/
structure Free (E : Excuse ε φ) (r : Run σ ε φ α) : Prop where
  trace : ∀ event ∈ r.trace, ¬E.event event
  outcome : ∀ cause, r.outcome = .error cause → ¬E.cause cause

theorem free_none (r : Run σ ε φ α) : none.Free r :=
  ⟨fun _ _ h => h, fun _ _ h => h⟩

namespace Free

variable {E F : Excuse ε φ} {r : Run σ ε φ α} {next : α → Procedure σ ε φ β}

/-- What is no excuse is not a smaller one either. -/
theorem mono (h : E.Free r) (hFE : F.Within E) : F.Free r :=
  ⟨fun event he hevent => h.trace event he (hFE.event event hevent),
    fun cause hend hcause => h.outcome cause hend (hFE.cause cause hcause)⟩

/-- What has been done first is no excuse. -/
theorem first (h : E.Free (r.andThen next)) : E.Free r := by
  obtain ⟨outcome, s, trace⟩ := r
  cases outcome with
  | error cause =>
    exact ⟨h.trace, fun c hc => h.outcome c (congrArg Except.error (Except.error.inj hc))⟩
  | ok a => exact ⟨fun event he => h.trace event (List.mem_append_left _ he), nofun⟩

/-- Nor is what was done then. -/
theorem rest (h : E.Free (r.andThen next)) {a : α} (ha : r.outcome = .ok a) :
    E.Free (next a r.state) := by
  obtain ⟨outcome, s, trace⟩ := r
  obtain rfl : outcome = .ok a := ha
  exact ⟨fun event he => h.trace event (List.mem_append_right _ he), h.outcome⟩

end Free

end Excuse

namespace Correspondence

/-- From states that correspond, the runs of the two procedures are alike, unless the first of them
is excused. -/
def MirrorsUnless (C : Correspondence σ ε ο) (E : Excuse ε φ) (V : α → β → Prop)
    (x : Procedure σ ε φ α) (y : Procedure σ ε φ β) : Prop :=
  ∀ s s', C.states s s' → E.Free (x s) → C.Alike V (x s) (y s')

variable {C : Correspondence σ ε ο} {E F : Excuse ε φ} {V : α → α' → Prop} {W : β → β' → Prop}
  {G : γ → γ' → Prop}

theorem Mirrors.unless {x : Procedure σ ε φ α} {y : Procedure σ ε φ α'} (h : C.Mirrors V x y) :
    C.MirrorsUnless E V x y :=
  fun s s' hs _ => h s s' hs

namespace MirrorsUnless

/-- Without excuses, the runs are alike. -/
theorem mirrors {x : Procedure σ ε φ α} {y : Procedure σ ε φ α'}
    (h : C.MirrorsUnless .none V x y) : C.Mirrors V x y :=
  fun s s' hs => h s s' hs (Excuse.free_none _)

theorem mono {x : Procedure σ ε φ α} {y : Procedure σ ε φ α'} (h : C.MirrorsUnless F V x y)
    (hFE : F.Within E) : C.MirrorsUnless E V x y :=
  fun s s' hs hfree => h s s' hs (hfree.mono hFE)

theorem pure {a : α} {a' : α'} (h : V a a') :
    C.MirrorsUnless E V (pure a : Procedure σ ε φ α) (pure a') :=
  (Mirrors.pure h).unless

theorem modify {change change' : σ → σ}
    (h : ∀ s s', C.states s s' → C.states (change s) (change' s')) :
    C.MirrorsUnless E Eq (Procedure.modify change) (Procedure.modify change') :=
  (Mirrors.modify h).unless

theorem note {event event' : ε} (h : C.seen event = C.seen' event') :
    C.MirrorsUnless E Eq (Procedure.note event) (Procedure.note event') :=
  (Mirrors.note h).unless

theorem fail (cause : φ) :
    C.MirrorsUnless E V (Procedure.fail cause) (Procedure.fail cause) :=
  (Mirrors.fail cause).unless

theorem imp {V' : α → α' → Prop} {x : Procedure σ ε φ α} {y : Procedure σ ε φ α'}
    (h : C.MirrorsUnless E V x y) (himp : ∀ a a', V a a' → V' a a') : C.MirrorsUnless E V' x y :=
  fun s s' hs hfree => Mirrors.imp (C := C) (fun _ _ _ => h s s' hs hfree) himp s s' hs

theorem bind {x : Procedure σ ε φ α} {y : Procedure σ ε φ α'} {next : α → Procedure σ ε φ β}
    {next' : α' → Procedure σ ε φ β'} (hxy : C.MirrorsUnless E V x y)
    (hnext : ∀ a a', V a a' → C.MirrorsUnless E W (next a) (next' a')) :
    C.MirrorsUnless E W (x >>= next) (y >>= next') := by
  intro s s' hs hfree
  have hfirst := hxy s s' hs hfree.first
  exact hfirst.andThen fun a a' hok ha => hnext a a' ha _ _ hfirst.states (hfree.rest hok)

/-- The same value is gone on with. -/
theorem bind_same {x y : Procedure σ ε φ α} {next : α → Procedure σ ε φ β}
    {next' : α → Procedure σ ε φ β'} (hxy : C.MirrorsUnless E Eq x y)
    (hnext : ∀ a, C.MirrorsUnless E W (next a) (next' a)) :
    C.MirrorsUnless E W (x >>= next) (y >>= next') :=
  hxy.bind fun a _ ha => ha ▸ hnext a

/-- What goes on with the state goes on with states that correspond. -/
theorem get_bind {next next' : σ → Procedure σ ε φ α} {V : α → α → Prop}
    (h : ∀ s s', C.states s s' → E.Free (next s s) → C.Alike V (next s s) (next' s' s')) :
    C.MirrorsUnless E V (Procedure.get >>= next) (Procedure.get >>= next') :=
  h

/-- A failure is caught, and what excused it is recorded. -/
theorem attempt_bind {x : Procedure σ ε φ α} {y : Procedure σ ε φ α'}
    {next : Except φ α → Procedure σ ε φ β} {next' : Except φ α' → Procedure σ ε φ β'}
    (hxy : C.MirrorsUnless F V x y) (hevent : ∀ event, F.event event → E.event event)
    (hcause : ∀ cause, F.cause cause → ∀ s, ¬E.Free (next (.error cause) s))
    (hnext : ∀ ending ending', Together V ending ending' →
      C.MirrorsUnless E W (next ending) (next' ending')) :
    C.MirrorsUnless E W (Procedure.attempt x >>= next) (Procedure.attempt y >>= next') := by
  intro s s' hs hfree
  have hbody : F.Free (x s) := by
    refine ⟨fun event he hexcused => hfree.first.trace event he (hevent event hexcused),
      fun cause hend hexcused => hcause cause hexcused (x s).state ?_⟩
    rw [← hend]
    exact hfree.rest rfl
  have hfirst := hxy s s' hs hbody
  have hattempt : C.Alike (Together V) (Procedure.attempt x s) (Procedure.attempt y s') :=
    ⟨.ok hfirst.outcome, hfirst.states, hfirst.view⟩
  exact hattempt.andThen fun ending ending' hok hending =>
    hnext ending ending' hending _ _ hfirst.states (hfree.rest hok)

/-- What is acquired on both sides is released on both sides. While a failure is on its way, a
second one is no excuse for the release. -/
theorem bracket {acquire : Procedure σ ε φ γ} {acquire' : Procedure σ ε φ γ'}
    {release : Bool → γ → Procedure σ ε φ Unit} {release' : Bool → γ' → Procedure σ ε φ Unit}
    {body : γ → Procedure σ ε φ α} {body' : γ' → Procedure σ ε φ α'}
    (hacquire : C.MirrorsUnless E G acquire acquire')
    (hrelease : ∀ failing g g', G g g' →
      C.MirrorsUnless (E.during failing) Eq (release failing g) (release' failing g'))
    (hbody : ∀ g g', G g g' → C.MirrorsUnless E V (body g) (body' g')) :
    C.MirrorsUnless E V (Procedure.bracket acquire release body)
      (Procedure.bracket acquire' release' body') := by
  refine hacquire.bind fun g g' hg => (hbody g g' hg).attempt_bind (fun _ h => h)
    (fun cause hcause s hfree => hfree.outcome cause rfl hcause) fun ending ending' h => ?_
  cases h with
  | ok ha =>
    exact ((hrelease false g g' hg).mono (E.during_within false)).bind fun _ _ _ => .pure ha
  | error cause =>
    refine (hrelease true g g' hg).attempt_bind (fun _ h => h) (fun _ hcause => ?_)
      fun _ _ _ => .fail cause
    exact absurd hcause.1 nofun

theorem forM {next next' : β → Procedure σ ε φ Unit} {bs : List β}
    (h : ∀ b ∈ bs, C.MirrorsUnless E Eq (next b) (next' b)) :
    C.MirrorsUnless E Eq (bs.forM next) (bs.forM next') := by
  induction bs with
  | nil => exact .pure rfl
  | cons b bs ih =>
    exact (h b List.mem_cons_self).bind_same fun _ =>
      ih fun b hb => h b (List.mem_cons_of_mem _ hb)

end MirrorsUnless

end Correspondence

end WriteXorExecute
