import WriteXorExecute.Proofs.Bookkeeping
import WriteXorExecute.Proofs.Lexical
/-!
# Lexical discipline

Where a program changes the mode of a thread by scopes only, the mode can be read off the scopes
that are open: it is what the innermost of them asked for, or the base mode if none is open. This is
for threads whose backend keeps still. Scopes nest in any way, and panics may leave several at once.

The invariant `Governed` ties the mode to the open scopes. A scope is entered with what governed
before it, and gives that back; so each scope keeps the invariant of what is around it, and the
scopes that are open are a stack of which every body leaves the lower part alone.
-/
namespace WriteXorExecute

open Procedure Thread

variable {p : Platform} {failing : Bool} {name : String} {base mode : Mode} {c : Config}
  {scopes : List Mode} {t : Thread}

/-! ## Open scopes -/

/-- The scopes on a name that are open after something has happened, if those of `scopes` were
before: the modes that they asked for, the innermost first. -/
def Happening.nest (name : String) (scopes : List Mode) : Happening → List Mode
  | mark (.opened .scope (.delegated mode owner _)) _ =>
    if owner = some name then mode :: scopes else scopes
  | mark (.closed .scope (.delegated _ owner _)) _ =>
    if owner = some name then scopes.tail else scopes
  | _ => scopes

/-- The scopes on a name that are open after a trace, if those of `scopes` were before. -/
def openScopes (name : String) (scopes : List Mode) (trace : List Happening) : List Mode :=
  trace.foldl (Happening.nest name) scopes

@[simp] theorem openScopes_append (t₁ t₂ : List Happening) :
    openScopes name scopes (t₁ ++ t₂) = openScopes name (openScopes name scopes t₁) t₂ :=
  List.foldl_append

theorem openScopes_eq_self {trace : List Happening}
    (h : ∀ x ∈ trace, ∀ scopes, x.nest name scopes = scopes) :
    openScopes name scopes trace = scopes := by
  induction trace with
  | nil => rfl
  | cons x trace ih =>
    rw [openScopes, List.foldl_cons, h x (by simp)]
    exact ih fun y hy => h y (by simp [hy])

@[simp] theorem openScopes_map (events : List Thread.Event) :
    openScopes name scopes (events.map (.thread name)) = scopes := by
  refine openScopes_eq_self fun x hx scopes => ?_
  obtain ⟨event, -, rfl⟩ := List.mem_map.1 hx
  rfl

theorem nest_of_untouched {w w' : World} {trace : List Happening}
    (h : Untouched name w trace w') {x : Happening} (hx : x ∈ trace) (scopes : List Mode) :
    x.nest name scopes = scopes := by
  unfold Happening.nest
  split
  · exact if_neg (h.opened _ _ _ hx)
  · exact if_neg (h.closed _ _ _ hx)
  · rfl

/-! ## The governing mode -/

/-- The mode that is to be found where these scopes are open. -/
def governing (base : Mode) (scopes : List Mode) : Mode :=
  scopes.headD base

/-- The thread is in the mode that governs, unless it has none yet; then no scope is open on it, and
it is going to be initialised to its base mode. -/
structure Governed (base : Mode) (c : Config) (scopes : List Mode) (t : Thread) : Prop where
  still : t.Still
  config : t.config = c
  mode : t.mode = some (governing base scopes) ∨
    t.mode = none ∧ scopes = [] ∧ c.initialMode = base

/-- A thread is governed by its base mode at first. -/
theorem Governed.start (h : t.Still) : Governed t.baseMode t.config [] t := by
  refine ⟨h, rfl, ?_⟩
  unfold baseMode governing
  cases t.mode with
  | some mode => exact .inl rfl
  | none => exact .inr ⟨rfl, rfl, rfl⟩

/-- Asked for a mode, the thread takes it and answers with the one that governed. -/
theorem Governed.enable (h : Governed base c scopes t) (p : Platform) (failing : Bool)
    (mode : Mode) :
    ∃ t' events, enable p failing mode t = ⟨.ok (governing base scopes), t', events⟩ ∧
      t'.Still ∧ t'.config = c ∧ t'.mode = some mode := by
  have hpassed (mode : Mode) : (t.passed mode).Still := h.still.onward (passed_onward t mode [])
  rcases h.mode with hmode | ⟨hmode, rfl, rfl⟩
  · rw [enable_of_still h.still hmode]
    split
    · rename_i hsame
      exact ⟨t, [], rfl, h.still, h.config, hsame ▸ hmode⟩
    · exact ⟨t.passed mode, _, rfl, hpassed mode, h.config, rfl⟩
  · rw [enable_of_still_of_none h.still hmode, h.config]
    dsimp only
    split
    · rename_i hsame
      exact ⟨_, _, rfl, hpassed _, h.config, congrArg some hsame⟩
    · exact ⟨_, _, rfl, (hpassed _).onward (passed_onward _ mode []), h.config, rfl⟩

/-! ## Initialisation -/

def Thread.Event.initializes : Thread.Event → Bool
  | record (.initializing _) => true
  | _ => false

/-- The thread, as it is before these events, is initialised in them only where it has no mode
yet. -/
def Thread.InitializedOnce (t : Thread) (events : List Thread.Event) : Prop :=
  Throughout (fun before event => event.initializes → t.mode = none ∧ begun before = []) events

instance (t : Thread) (events : List Thread.Event) : Decidable (t.InitializedOnce events) :=
  Throughout.decidable _ events

theorem Thread.InitializedOnce.of_append {t' : Thread} {e₁ e₂ : List Thread.Event}
    (h : t.InitializedOnce (e₁ ++ e₂)) (hbooked : Booked t e₁ t') : t'.InitializedOnce e₂ := by
  refine (Throughout.append_iff.1 h).2.imp fun before event _ hinit he => ?_
  obtain ⟨hmode, hbegun⟩ := hinit he
  rw [begun_append, List.append_eq_nil_iff] at hbegun
  refine ⟨?_, hbegun.2⟩
  have := congrArg Status.mode hbooked.status
  simpa [Thread.status, expected, hbegun.1, hmode] using this

/-- Initialised where it may be, the thread is in its base mode. -/
theorem Governed.init (h : Governed base c scopes t)
    (honce : p.checks = false → t.InitializedOnce (init p failing t).trace) :
    Governed base c scopes (init p failing t).state := by
  rcases h.mode with hmode | ⟨hmode, rfl, rfl⟩
  · by_cases hchecks : p.checks = true
    · rw [init_of_checked hchecks (by simp [hmode])]
      exact h
    · obtain ⟨events, hevents⟩ := init_trace (by simpa using hchecks) failing t
      have hfirst := (honce (by simpa using hchecks)) [] _ events hevents rfl
      rw [hmode] at hfirst
      cases hfirst.1
  · rw [init_of_still h.still hmode, h.config]
    exact ⟨h.still.onward (passed_onward t _ []), h.config, .inl rfl⟩

/-- The thread may enter the program's own code where `write` governs it. -/
theorem Governed.sync (h : Governed base c scopes t) (hcheck : c.checkAtSync = true) :
    t.sync = .ok () ↔ t.mode.isSome ∧ governing base scopes = .write := by
  rw [Thread.sync, h.config, if_pos hcheck, check, requireMode_eq_ok_iff]
  rcases h.mode with hmode | ⟨hmode, -, -⟩ <;> simp [hmode]

/-! ## Every point of a run -/

/-- The thread is governed all through the trace, at whose beginning `scopes` are open and at whose
end `scopes'` are: every mark shows it as the scopes that are open there demand. -/
structure Governs (name : String) (base : Mode) (c : Config) (scopes : List Mode)
    (trace : List Happening) (scopes' : List Mode) (w : World) : Prop where
  shown : Throughout (fun before x => ∀ m now, x = .mark m now →
    ∃ t, now.threads.get? name = some t.status ∧
      Governed base c (openScopes name scopes (before ++ [x])) t) trace
  ended : openScopes name scopes trace = scopes'
  thread : ∃ t, w.threads.get? name = some t ∧ Governed base c scopes' t

namespace Governs

variable {w w₁ w₂ : World} {t₁ t₂ : List Happening} {scopes₁ scopes₂ : List Mode}

theorem append (h₁ : Governs name base c scopes t₁ scopes₁ w₁)
    (h₂ : Governs name base c scopes₁ t₂ scopes₂ w₂) :
    Governs name base c scopes (t₁ ++ t₂) scopes₂ w₂ := by
  refine ⟨.append h₁.shown (h₂.shown.imp fun before x _ hx => ?_), ?_, h₂.thread⟩
  · simpa [h₁.ended] using hx
  · rw [openScopes_append, h₁.ended, h₂.ended]

theorem of_untouched {trace : List Happening} (hu : Untouched name w trace w₁)
    (ht : w.threads.get? name = some t) (h : Governed base c scopes t) :
    Governs name base c scopes trace scopes w₁ := by
  refine ⟨fun before x after he m now hx => ?_, ?_, t, hu.thread.trans ht, h⟩
  · have hopen : openScopes name scopes (before ++ [x]) = scopes := by
      refine openScopes_eq_self fun y hy => nest_of_untouched hu ?_
      rw [he, List.append_cons]
      exact List.mem_append_left after hy
    rw [hopen]
    refine ⟨t, ?_, h⟩
    rw [hu.seen m now (he ▸ hx ▸ by simp), ht]
    rfl
  · exact openScopes_eq_self fun y hy => nest_of_untouched hu hy

/-- Events of the thread, and a mark after them. -/
theorem marked (events : List Thread.Event) (m : Mark) (ht : w.threads.get? name = some t)
    (h : Governed base c scopes₁ t)
    (hnest : (Happening.mark m w.snapshot).nest name scopes = scopes₁) :
    Governs name base c scopes (events.map (.thread name) ++ [.mark m w.snapshot]) scopes₁ w := by
  have hended : openScopes name scopes (events.map (.thread name) ++ [.mark m w.snapshot])
      = scopes₁ := by
    rw [openScopes_append, openScopes_map]
    exact hnest
  refine ⟨.snoc (.of_mem fun before x hx m' now hm => ?_) fun m' now hm => ?_, hended, t, ht, h⟩
  · simp [hm] at hx
  · obtain ⟨rfl, rfl⟩ := Happening.mark.inj hm
    rw [hended]
    exact ⟨t, by simp [World.snapshot, ht], h⟩

/-- A scope is entered with what governed before. -/
theorem enter {kind : Guard.Kind} (hasks : kind.asks p) (ht : w.threads.get? name = some t)
    (h : Governed base c scopes t) (mode : Mode) : ∃ w₁ opening,
      Guard.enter p .scope kind mode (some name) w =
        ⟨.ok (.delegated mode (some name) (governing base scopes)), w₁, opening⟩ ∧
      Governs name base c scopes opening (mode :: scopes) w₁ := by
  obtain ⟨t₁, events, henable, hstill, hconfig, hmode⟩ := h.enable p false mode
  simp only [Guard.enter, Guard.acquire_of_asks hasks, Guard.acquireDelegated, bind_apply,
    switch_of_thread ht, henable, mapError_ok, Run.andThen_ok, mark_apply, pure_apply]
  refine ⟨_, _, rfl, ?_⟩
  simp only [List.append_nil]
  exact marked events _ (World.withThread_self ht t₁) ⟨hstill, hconfig, .inl hmode⟩ (if_pos rfl)

/-- A scope gives back what governed before it. -/
theorem leave (ht : w.threads.get? name = some t) (h : Governed base c (mode :: scopes) t) :
    Governs name base c (mode :: scopes)
      (Guard.leave p .scope failing (.delegated mode (some name) (governing base scopes)) w).trace
      scopes
      (Guard.leave p .scope failing (.delegated mode (some name) (governing base scopes)) w).state
      := by
  obtain ⟨t₁, events, henable, hstill, hconfig, hmode⟩ :=
    h.enable p failing (governing base scopes)
  rw [Guard.leave_apply]
  simp only [Guard.release, bind_apply, switch_of_thread ht, henable, mapError_ok,
    Run.andThen_ok, pure_apply, List.append_nil]
  exact marked events _ (World.withThread_self ht t₁) ⟨hstill, hconfig, .inl hmode⟩ (if_pos rfl)

end Governs

/-- A thread that is governed by some scopes goes on being governed, provided that it is initialised
only where it has no mode; and its books are right. -/
structure Disciplined (p : Platform) (name : String) (base : Mode) (c : Config) (w : World)
    (trace : List Happening) (w' : World) : Prop where
  booked : Follows Booked name w trace w'
  governs : ∀ scopes t, w.threads.get? name = some t → Governed base c scopes t →
    (p.checks = false → t.InitializedOnce (threadEvents name trace)) →
    Governs name base c scopes trace scopes w'

namespace Disciplined

theorem law : Law (Disciplined p name base c) where
  refl w := ⟨(Follows.law Booked.law).refl w, fun scopes t ht h _ => ⟨.nil, rfl, t, ht, h⟩⟩
  trans {w₁ w₂ w₃ t₁ t₂} h₁ h₂ := by
    refine ⟨(Follows.law Booked.law).trans h₁.booked h₂.booked, fun scopes t ht h honce => ?_⟩
    rw [threadEvents_append] at honce
    have hfirst := h₁.governs scopes t ht h fun hchecks =>
      (Throughout.append_iff.1 (honce hchecks)).1
    obtain ⟨t', ht', h'⟩ := hfirst.thread
    have hbooked := h₁.booked.thread
    rw [ht, ht'] at hbooked
    exact hfirst.append (h₂.governs scopes t' ht' h' fun hchecks =>
      (honce hchecks).of_append hbooked)

theorem init (w : World) : Disciplined p name base c w
    (onThread name (Thread.init p false) w).trace
    (onThread name (Thread.init p false) w).state := by
  refine ⟨Follows.onThread Booked.law ((useLaw_booked p).init false) w,
    fun scopes t ht h honce => ?_⟩
  rw [onThread_of_some ht] at honce ⊢
  simp only [threadEvents_map] at honce
  refine ⟨.of_mem fun before x hx m now hm => ?_, openScopes_map _, _,
    World.withThread_self ht _, h.init honce⟩
  simp [hm] at hx

/-- A body is governed by the scope around it, and by what governed before it once that is left. -/
theorem holding {α : Type} {kind : Guard.Kind} {body : Guard → Step α} {w : World}
    (hasks : kind.asks p)
    (hbody : ∀ g w₁ opening,
      Guard.enter p .scope kind mode (some name) w = ⟨.ok g, w₁, opening⟩ →
      Disciplined p name base c w₁ (body g w₁).trace (body g w₁).state) :
    Disciplined p name base c w (WriteXorExecute.holding p kind mode (some name) body w).trace
      (WriteXorExecute.holding p kind mode (some name) body w).state := by
  have hfollows : Follows Booked name w _ _ :=
    Follows.enter (useLaw_booked p) .scope kind mode (some name) w
  refine ⟨?_, fun scopes t ht h honce => ?_⟩
  · exact Obeys.bracket_at (Follows.law Booked.law) hfollows fun g w₁ opening henter =>
      ⟨(hbody g w₁ opening henter).booked, fun failing =>
        Follows.leave (useLaw_booked p) .scope failing g⟩
  · obtain ⟨w₁, opening, henter, hopening⟩ := Governs.enter hasks ht h mode
    obtain ⟨t₁, ht₁, h₁⟩ := hopening.thread
    have hbooked := hfollows.thread
    rw [henter, ht, ht₁] at hbooked
    rw [WriteXorExecute.holding, bracket_of_acquired henter] at honce ⊢
    simp only [threadEvents_append] at honce
    have hinside := (hbody _ w₁ opening henter).governs (mode :: scopes) t₁ ht₁ h₁ fun hchecks =>
      InitializedOnce.of_append (Throughout.append_iff.1 (honce hchecks)).1 hbooked
    obtain ⟨t₂, ht₂, h₂⟩ := hinside.thread
    exact (hopening.append hinside).append (Governs.leave ht₂ h₂)

theorem lexicalLaw (p : Platform) (name : String) (base : Mode) (c : Config) :
    LexicalLaw p name (Disciplined p name base c) where
  law := law
  untouched hu := ⟨Follows.of_spared Booked.law hu.toSpared,
    fun _ _ ht h _ => .of_untouched hu ht h⟩
  init := init
  holding _ _ _ _ hasks hbody := holding hasks hbody

end Disciplined

/-! ## What opens a scope -/

end WriteXorExecute
