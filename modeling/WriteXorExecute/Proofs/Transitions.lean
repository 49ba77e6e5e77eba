import WriteXorExecute.Proofs.Discipline
/-!
# What scopes cost

Where a program changes the mode of a thread by scopes only, the scopes also tell how often the
backend is called. A scope that asks for the mode that governs where it is entered costs nothing, at
any depth; every other one costs a call when it is entered and one when it is left, by a panic or
otherwise. Apart from that there is the call that initialises the thread.

What carries this is an exact balance (`Balances`). The scopes that are open stand for the calls
that entered them; a scope that is closed has cost twice as much. Two balances in a row make one,
whatever scopes are open around them, so that each step can be looked at alone.

- **One scope** (`Charges.enter`, `Charges.leave`): entering and leaving agree on whether the mode
  changes, because both compare the mode of the scope with what governs around it.
-/
namespace WriteXorExecute

open Procedure Thread

variable {p : Platform} {failing : Bool} {name : String} {base mode : Mode} {c : Config}
  {scopes : List Mode} {t : Thread} {w w₁ w₂ : World} {trace t₁ t₂ : List Happening}
  {mode₁ mode₂ mode₃ : Option Mode}

/-! ## Crossings -/

/-- 1 if the innermost of the open scopes asks for another mode than governed where it was
entered. -/
def crossing (base : Mode) : (scopes : List Mode) → Nat
  | [] => 0
  | mode :: around => if governing base around = mode then 0 else 1

/-- How many of the open scopes ask for another mode than governed where they were entered. -/
def crossings (base : Mode) : (scopes : List Mode) → Nat
  | [] => 0
  | mode :: around => crossing base (mode :: around) + crossings base around

def Happening.closesScope (name : String) : Happening → Bool
  | mark (.closed .scope (.delegated _ owner _)) _ => owner = some name
  | _ => false

/-- How many of the scopes on a name that are closed in a trace had asked for another mode than
governed where they were entered, if those of `scopes` were open at first. -/
def closedCrossings (name : String) (base : Mode) : (scopes : List Mode) → List Happening → Nat
  | _, [] => 0
  | scopes, x :: trace =>
    (if x.closesScope name then crossing base scopes else 0)
      + closedCrossings name base (x.nest name scopes) trace

theorem closedCrossings_append (scopes : List Mode) (t₁ t₂ : List Happening) :
    closedCrossings name base scopes (t₁ ++ t₂) = closedCrossings name base scopes t₁
      + closedCrossings name base (openScopes name scopes t₁) t₂ := by
  induction t₁ generalizing scopes with
  | nil => simp [closedCrossings, openScopes]
  | cons x t₁ ih =>
    simp only [List.cons_append, closedCrossings, ih, Nat.add_assoc]
    rfl

theorem closedCrossings_eq_zero (h : ∀ x ∈ trace, x.closesScope name = false)
    (scopes : List Mode) : closedCrossings name base scopes trace = 0 := by
  induction trace generalizing scopes with
  | nil => rfl
  | cons x trace ih =>
    simp [closedCrossings, h x (by simp), ih fun y hy => h y (by simp [hy])]

theorem closesScope_of_untouched (h : Untouched name w trace w₁) :
    ∀ x ∈ trace, x.closesScope name = false := by
  intro x hx
  unfold Happening.closesScope
  split
  · simpa [Guard.holds?] using h.closed _ _ _ hx
  · rfl

theorem closesScope_map (events : List Thread.Event) :
    ∀ x ∈ events.map (Happening.thread name), x.closesScope name = false := by
  intro x hx
  obtain ⟨event, -, rfl⟩ := List.mem_map.1 hx
  rfl

/-! ## Calls of a backend that keeps still -/

/-- How many calls come back when a thread whose backend keeps still is asked for a mode: one that
initialises it, if it has no mode, and one more if the mode is another one. -/
theorem Thread.enable_returned (h : t.Still) (p : Platform) (failing : Bool) (mode : Mode) :
    (returned (enable p failing mode t).trace).length
      = (if t.mode = none then 1 else 0) + if t.baseMode = mode then 0 else 1 := by
  cases hm : t.mode with
  | some found =>
    have hbase : t.baseMode = found := by simp [baseMode, hm]
    rw [enable_of_still h hm, hbase]
    by_cases hsame : found = mode
    · simp [hsame, returned]
    · simp [hsame, returned, callEvents]
  | none =>
    have hbase : t.baseMode = t.config.initialMode := by simp [baseMode, hm]
    rw [enable_of_still_of_none h hm, hbase]
    by_cases hsame : t.config.initialMode = mode
    · simp [hsame, returned, callEvents]
    · simp [hsame, returned, callEvents]

theorem Governed.baseMode_eq (h : Governed base c scopes t) :
    t.baseMode = governing base scopes := by
  rcases h.mode with hmode | ⟨hmode, rfl, rfl⟩
  · simp [baseMode, hmode]
  · simp [baseMode, hmode, h.config, governing]

/-! ## Balances -/

/-- What the calls up to now are to be accounted for by, as long as no scope has been closed: the
initialisation, and the entering of the open scopes. -/
def outlay (base : Mode) (mode : Option Mode) (scopes : List Mode) : Nat :=
  (if mode = none then 0 else 1) + crossings base scopes

/-- From `mode₁` at the beginning of the trace, with `scopes` open, to `mode₂` at its end, the calls
that have come back are what the scopes have cost, and the initialisation. -/
def Balances (name : String) (base : Mode) (scopes : List Mode) (mode₁ : Option Mode)
    (trace : List Happening) (mode₂ : Option Mode) : Prop :=
  (returned (threadEvents name trace)).length + outlay base mode₁ scopes
    = outlay base mode₂ (openScopes name scopes trace)
      + 2 * closedCrossings name base scopes trace

theorem Balances.append (h₁ : Balances name base scopes mode₁ t₁ mode₂)
    (h₂ : Balances name base (openScopes name scopes t₁) mode₂ t₂ mode₃) :
    Balances name base scopes mode₁ (t₁ ++ t₂) mode₃ := by
  unfold Balances at *
  rw [threadEvents_append, returned_append, List.length_append, openScopes_append,
    closedCrossings_append]
  omega

/-- What leaves the thread and its scopes alone is balanced. -/
theorem Balances.of_quiet (hevents : threadEvents name trace = [])
    (hopen : openScopes name scopes trace = scopes)
    (hclosed : ∀ x ∈ trace, x.closesScope name = false) :
    Balances name base scopes mode₁ trace mode₁ := by
  unfold Balances
  rw [hevents, hopen, closedCrossings_eq_zero hclosed]
  simp [returned]

/-- A question to a thread that is governed, and the mark after it, are balanced if the mark
accounts for the call that the question costs. -/
theorem Balances.asked {events : List Thread.Event} {outcome : Except Fault Mode} {t₁ : Thread}
    {m : Mark} {now : Snapshot} (h : Governed base c scopes t)
    (henable : enable p failing mode t = ⟨outcome, t₁, events⟩)
    (hcost : crossings base scopes + (if governing base scopes = mode then 0 else 1)
      = crossings base ((Happening.mark m now).nest name scopes)
        + 2 * if (Happening.mark m now).closesScope name then crossing base scopes else 0) :
    Balances name base scopes t.mode (events.map (.thread name) ++ [.mark m now]) (some mode) := by
  have hreturned := Thread.enable_returned h.still p failing mode
  rw [henable, h.baseMode_eq] at hreturned
  have hopen : openScopes name scopes (events.map (.thread name) ++ [.mark m now])
      = (Happening.mark m now).nest name scopes := by
    rw [openScopes_append, openScopes_map]
    rfl
  have hclosed : closedCrossings name base scopes (events.map (.thread name) ++ [.mark m now])
      = if (Happening.mark m now).closesScope name then crossing base scopes else 0 := by
    rw [closedCrossings_append, closedCrossings_eq_zero (closesScope_map events), openScopes_map,
      Nat.zero_add]
    rfl
  unfold Balances
  rw [hopen, hclosed, threadEvents_snoc_mark, threadEvents_map, hreturned]
  simp only [outlay, reduceCtorEq, if_false]
  by_cases hnone : t.mode = none
  · simp only [hnone, if_true]
    omega
  · simp only [hnone, if_false]
    omega

/-- The account is balanced wherever the thread is seen, and at the end. -/
structure Charges (name : String) (base : Mode) (scopes : List Mode) (mode : Option Mode)
    (trace : List Happening) (w : World) : Prop where
  shown : Throughout (fun before x => ∀ m now seen, x = .mark m now →
    now.threads.get? name = some seen →
    Balances name base scopes mode (before ++ [x]) seen.mode) trace
  ended : ∀ t, w.threads.get? name = some t → Balances name base scopes mode trace t.mode

namespace Charges

theorem append (h₁ : Charges name base scopes mode₁ t₁ w₁)
    (ht : w₁.threads.get? name = some t)
    (h₂ : Charges name base (openScopes name scopes t₁) t.mode t₂ w₂) :
    Charges name base scopes mode₁ (t₁ ++ t₂) w₂ := by
  have hfirst := h₁.ended t ht
  refine ⟨.append h₁.shown (h₂.shown.imp fun before x _ hx m now seen hm hnow => ?_),
    fun t' ht' => hfirst.append (h₂.ended t' ht')⟩
  rw [List.append_assoc]
  exact hfirst.append (hx m now seen hm hnow)

theorem of_untouched (hu : Untouched name w trace w₁) (ht : w.threads.get? name = some t) :
    Charges name base scopes t.mode trace w₁ := by
  have hquiet {within : List Happening} (h : ∀ x ∈ within, x ∈ trace) :
      Balances name base scopes t.mode within t.mode :=
    .of_quiet (threadEvents_eq_nil fun event hevent => hu.events event (h _ hevent))
      (openScopes_eq_self fun x hx => nest_of_untouched hu (h x hx))
      fun x hx => closesScope_of_untouched hu x (h x hx)
  refine ⟨fun before x after he m now seen hm hnow => ?_, fun t' ht' => ?_⟩
  · have hseen := hu.seen m now (by simp [he, hm])
    rw [hnow, ht, Option.map_some, Option.some.injEq] at hseen
    subst hseen
    refine hquiet fun y hy => ?_
    rw [he, List.append_cons]
    exact List.mem_append_left after hy
  · rw [hu.thread, ht, Option.some.injEq] at ht'
    exact ht' ▸ hquiet fun _ hx => hx

/-- Events of the thread, and a mark after them. -/
theorem marked {events : List Thread.Event} {m : Mark} (ht : w.threads.get? name = some t)
    (h : Balances name base scopes mode₁ (events.map (.thread name) ++ [.mark m w.snapshot])
      t.mode) :
    Charges name base scopes mode₁ (events.map (.thread name) ++ [.mark m w.snapshot]) w := by
  refine ⟨.snoc (.of_mem fun before x hx m' now seen hm => ?_) fun m' now seen hm hnow => ?_,
    fun t' ht' => ?_⟩
  · simp [hm] at hx
  · obtain ⟨rfl, rfl⟩ := Happening.mark.inj hm
    simp only [World.snapshot, Table.get?_map, ht, Option.map_some, Option.some.injEq] at hnow
    exact hnow ▸ h
  · rw [ht, Option.some.injEq] at ht'
    exact ht' ▸ h

/-- A scope is entered with a call if it asks for another mode than governs. -/
theorem enter {kind : Guard.Kind} (hasks : kind.asks p) (ht : w.threads.get? name = some t)
    (h : Governed base c scopes t) (mode : Mode) : ∃ w₁ opening,
      Guard.enter p .scope kind mode (some name) w =
        ⟨.ok (.delegated mode (some name) (governing base scopes)), w₁, opening⟩ ∧
      Charges name base scopes t.mode opening w₁ := by
  obtain ⟨t₁, events, henable, -, -, hmode⟩ := h.enable p false mode
  have hswitch : switch p false name mode w = _ := switch_of_thread ht
  rw [henable] at hswitch
  refine ⟨_, _, Guard.enter_of_answered hasks hswitch, .marked (World.withThread_self ht t₁) ?_⟩
  rw [hmode]
  refine .asked h henable ?_
  have hnest : (Happening.mark (.opened .scope (.delegated mode (some name)
      (governing base scopes))) (w.withThread name t₁).snapshot).nest name scopes
        = mode :: scopes := if_pos rfl
  rw [hnest, crossings, crossing, Nat.add_comm]
  rfl

/-- A scope is left with a call if it was entered with one. -/
theorem leave (failing : Bool) (ht : w.threads.get? name = some t)
    (h : Governed base c (mode :: scopes) t) :
    Charges name base (mode :: scopes) t.mode
      (Guard.leave p .scope failing (.delegated mode (some name) (governing base scopes)) w).trace
      (Guard.leave p .scope failing (.delegated mode (some name) (governing base scopes)) w).state
      := by
  obtain ⟨t₁, events, henable, -, -, hmode⟩ := h.enable p failing (governing base scopes)
  have hswitch : switch p failing name (governing base scopes) w = _ := switch_of_thread ht
  rw [henable] at hswitch
  rw [Guard.leave_apply, Guard.release_delegated, hswitch]
  refine .marked (World.withThread_self ht t₁) ?_
  rw [hmode]
  refine .asked h henable ?_
  have hnest : (Happening.mark (.closed .scope (.delegated mode (some name)
      (governing base scopes))) (w.withThread name t₁).snapshot).nest name (mode :: scopes)
        = scopes := if_pos rfl
  have hcloses : (Happening.mark (.closed .scope (.delegated mode (some name)
      (governing base scopes))) (w.withThread name t₁).snapshot).closesScope name = true :=
    decide_eq_true rfl
  have hgoverning : governing base (mode :: scopes) = mode := rfl
  rw [hnest, hcloses, hgoverning, if_pos rfl, crossings, crossing]
  by_cases hsame : governing base scopes = mode
  · simp [hsame]
  · simp only [if_neg hsame, if_neg (Ne.symm hsame)]
    omega

end Charges

/-! ## Programs -/

/-- After a part of a disciplined run, the thread is governed by the scopes that are then open, and
the rest of the run still initialises it only where it has no mode. -/
theorem Disciplined.midway (h : Disciplined p name base c w t₁ w₁)
    (ht : w.threads.get? name = some t) (hgoverned : Governed base c scopes t)
    (honce : p.checks = false → t.InitializedOnce (threadEvents name (t₁ ++ t₂))) :
    (p.checks = false → t.InitializedOnce (threadEvents name t₁)) ∧
      ∃ t', w₁.threads.get? name = some t' ∧ Governed base c (openScopes name scopes t₁) t' ∧
        (p.checks = false → t'.InitializedOnce (threadEvents name t₂)) := by
  rw [threadEvents_append] at honce
  have hfirst (hchecks : p.checks = false) : t.InitializedOnce (threadEvents name t₁) :=
    (Throughout.append_iff.1 (honce hchecks)).1
  have hgoverns := h.governs scopes t ht hgoverned hfirst
  obtain ⟨t', ht', h'⟩ := hgoverns.thread
  have hbooked := h.booked.thread
  rw [ht, ht'] at hbooked
  refine ⟨hfirst, t', ht', ?_, fun hchecks => (honce hchecks).of_append hbooked⟩
  rw [hgoverns.ended]
  exact h'

/-- The scopes on a thread that is governed account for the calls of its backend, as long as it is
initialised only where it has no mode. -/
structure Costed (p : Platform) (name : String) (base : Mode) (c : Config) (w : World)
    (trace : List Happening) (w' : World) : Prop where
  disciplined : Disciplined p name base c w trace w'
  charges : ∀ scopes t, w.threads.get? name = some t → Governed base c scopes t →
    (p.checks = false → t.InitializedOnce (threadEvents name trace)) →
    Charges name base scopes t.mode trace w'

namespace Costed

theorem law : Law (Costed p name base c) where
  refl w := by
    refine ⟨Disciplined.law.refl w, fun scopes t ht h _ => ⟨.nil, fun t' ht' => ?_⟩⟩
    rw [ht, Option.some.injEq] at ht'
    exact ht' ▸ .of_quiet rfl rfl (by simp)
  trans h₁ h₂ := by
    refine ⟨Disciplined.law.trans h₁.disciplined h₂.disciplined, fun scopes t ht h honce => ?_⟩
    obtain ⟨hfirst, t', ht', h', honce'⟩ := h₁.disciplined.midway ht h honce
    exact (h₁.charges scopes t ht h hfirst).append ht' (h₂.charges _ t' ht' h' honce')

theorem of_untouched (hu : Untouched name w trace w₁) : Costed p name base c w trace w₁ :=
  ⟨(Disciplined.lexicalLaw p name base c).untouched hu, fun _ _ ht _ _ => .of_untouched hu ht⟩

/-- The initialisation costs the call that it makes. -/
theorem init (w : World) : Costed p name base c w
    (onThread name (Thread.init p false) w).trace
    (onThread name (Thread.init p false) w).state := by
  refine ⟨Disciplined.init w, fun scopes t ht h honce => ?_⟩
  rw [onThread_of_some ht] at honce ⊢
  simp only [threadEvents_map] at honce
  refine ⟨.of_mem fun before x hx m now seen hm => ?_, fun t' ht' => ?_⟩
  · simp [hm] at hx
  have ht₁ := World.withThread_self ht (Thread.init p false t).state
  rw [World.withThread] at ht₁
  rw [ht₁, Option.some.injEq] at ht'
  subst ht'
  unfold Balances
  rw [threadEvents_map, openScopes_map, closedCrossings_eq_zero (closesScope_map _)]
  rcases h.mode with hmode | ⟨hmode, -, -⟩
  · -- Where it has a mode, it is not initialised, and so this is refused.
    by_cases hchecks : p.checks = true
    · rw [init_of_checked hchecks (by simp [hmode])]
      simp [returned]
    · obtain ⟨events, hevents⟩ := init_trace (by simpa using hchecks) false t
      have hfirst := (honce (by simpa using hchecks)) [] _ events hevents rfl
      rw [hmode] at hfirst
      cases hfirst.1
  · rw [init_of_still h.still hmode]
    simp [returned, callEvents, passed, outlay, hmode]

/-- A scope costs what its guard costs, and what its body does. -/
theorem holding {α : Type} {kind : Guard.Kind} {body : Guard → Step α} (hasks : kind.asks p)
    (hbody : ∀ g w₁ opening,
      Guard.enter p .scope kind mode (some name) w = ⟨.ok g, w₁, opening⟩ →
      Costed p name base c w₁ (body g w₁).trace (body g w₁).state) :
    Costed p name base c w (WriteXorExecute.holding p kind mode (some name) body w).trace
      (WriteXorExecute.holding p kind mode (some name) body w).state := by
  have hdisciplined := (Disciplined.lexicalLaw p name base c).holding kind mode body w hasks
    fun g w₁ opening he => (hbody g w₁ opening he).disciplined
  refine ⟨hdisciplined, fun scopes t ht h honce => ?_⟩
  obtain ⟨w₁, opening, henter, hopening⟩ := Charges.enter hasks ht h mode
  obtain ⟨w₁', opening', henter', hgoverns⟩ := Governs.enter hasks ht h mode
  obtain ⟨rfl, rfl⟩ : w₁ = w₁' ∧ opening = opening' := by
    simpa using henter.symm.trans henter'
  obtain ⟨t₁, ht₁, h₁⟩ := hgoverns.thread
  have hbooked : Follows Booked name w _ _ :=
    Follows.enter (useLaw_booked p) .scope kind mode (some name) w
  have hbooked := hbooked.thread
  rw [henter, ht, ht₁] at hbooked
  rw [WriteXorExecute.holding, bracket_of_acquired henter] at honce ⊢
  simp only [threadEvents_append] at honce
  -- The body is charged with the scope around it open.
  have honce₁ (hchecks : p.checks = false) :=
    InitializedOnce.of_append (Throughout.append_iff.1 (honce hchecks)).1 hbooked
  have hinside := (hbody _ w₁ opening henter).charges (mode :: scopes) t₁ ht₁ h₁ honce₁
  have hgoverns₂ := (hbody _ w₁ opening henter).disciplined.governs (mode :: scopes) t₁ ht₁ h₁
    honce₁
  obtain ⟨t₂, ht₂, h₂⟩ := hgoverns₂.thread
  have hclosing := Charges.leave (p := p)
    (body (.delegated mode (some name) (governing base scopes)) w₁).failed ht₂ h₂
  rw [← hgoverns.ended] at hinside
  rw [← (hgoverns.append hgoverns₂).ended] at hclosing
  exact (hopening.append ht₁ hinside).append ht₂ hclosing

theorem lexicalLaw (p : Platform) (name : String) (base : Mode) (c : Config) :
    LexicalLaw p name (Costed p name base c) where
  law := law
  untouched := of_untouched
  init := init
  holding _ _ _ _ hasks hbody := holding hasks hbody

end Costed

/-! ## What is counted -/

end WriteXorExecute
