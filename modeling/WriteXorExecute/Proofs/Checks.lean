import WriteXorExecute.Proofs.Bookkeeping
import WriteXorExecute.Proofs.Recasting
import WriteXorExecute.Proofs.Success
/-!
# Checks for misuse

A platform may check for misuse: a thread that has a mode is not to be initialised again, and an
assertion about the mode of a thread has to hold. It also settles whether a thread that does not say
so has to be in `write` where it enters the program's own code. None of this is needed to run a
program: if nothing is found by the checks, and nobody asks for what only the platform has settled,
then the run without the checks is the same, event by event.

A check that finds something is made before anything else. What it refuses has not begun.

Sums of words are not checked on any platform. They do not wrap as long as backends are not called
so often, and codes are not so long, that no machine could do it.

- **Without the checks** (`history_unchecked`).
- **All of it** (`checks_are_pure`).
-/
namespace WriteXorExecute

open Procedure Correspondence

variable {p : Platform} {name : String} {program : Program}

/-! ## What gives the checks away -/

def Panic.isMisuse : Panic → Bool
  | thread _ fault => fault.isMisuse
  | explicit _ | toggle .. => false

namespace Happening

/-- Whether a panic is reported that is due to misuse, or has been caught inside a call of a
backend. -/
def isMisuse : Happening → Bool
  | mark (.completed _ (.panicked cause)) _ => cause.isMisuse
  | thread _ event => event.isMisuse
  | _ => false

/-- The thread that has been made without saying whether it has to be checked. -/
def unsettled? : Happening → Option String
  | mark (.completed (.operation (.newThread name _ _ none)) _) _ => some name
  | _ => none

/-- The thread that has been asked for its configuration, or whether it may enter the program's own
code. -/
def consulted? : Happening → Option String
  | mark (.completed (.operation (.ask (.config name))) _) _
  | mark (.completed (.operation (.ask (.sync name))) _) _ => some name
  | _ => none

end Happening

/-- The threads of a run that the platform has settled whether to check. -/
def unsettled (trace : List Happening) : List String :=
  trace.filterMap Happening.unsettled?

/-- In this run no thread has been misused, and threads that the platform has settled whether to
check have not been asked about it. -/
structure Prudent (trace : List Happening) : Prop where
  used : ∀ happening ∈ trace, happening.isMisuse = false
  settled : ∀ name ∈ trace.filterMap Happening.consulted?, name ∉ unsettled trace

instance (trace : List Happening) : Decidable (Prudent trace) :=
  decidable_of_iff ((∀ happening ∈ trace, happening.isMisuse = false) ∧
    ∀ name ∈ trace.filterMap Happening.consulted?, name ∉ unsettled trace)
    ⟨fun h => ⟨h.1, h.2⟩, fun h => ⟨h.used, h.settled⟩⟩

/-- What tells a run with checks from one without, if the platform settles whether to check the
threads of `names`. -/
def givingAway (names : List String) : Excuse Happening Panic where
  event happening := happening.isMisuse = true ∨
    (∃ name ∈ happening.consulted?, name ∈ names) ∨ ∃ name ∈ happening.unsettled?, name ∉ names
  cause cause := cause.isMisuse = true

/-! ## Without the checks -/

namespace Checks

/-- Threads of these names may differ in whether they are checked. -/
def Flags (names : List String) (name : String) (flag flag' : Bool) : Prop :=
  flag = flag' ∨ name ∈ names

variable {names : List String} {w w' : World}

/-- Only two questions are about the configuration of a thread. -/
theorem answer (question : Question) (h : w.Recast Eq (Flags names) w') (now : Snapshot) :
    question.answer p w = question.answer { p with checks := false } w' ∨
      (givingAway names).event
        (.mark (.completed (.operation (.ask question)) (question.answer p w)) now) := by
  by_cases hconsulted : ∃ name ∈ names, question = .sync name ∨ question = .config name
  · obtain ⟨name, hname, rfl | rfl⟩ := hconsulted
    · exact .inr (.inr (.inl ⟨name, rfl, hname⟩))
    · exact .inr (.inr (.inl ⟨name, rfl, hname⟩))
  · refine .inl (h.answer rfl (fun _ => rfl) fun thread hquestion flag flag' hflag => ?_)
    exact hflag.resolve_right fun hname => hconsulted ⟨thread, hname, hquestion⟩

/-- Checks can be left out, unless they are given away. -/
theorem recasting (p : Platform) (hchecks : p.checks = true) (names : List String) :
    Recasting p { p with checks := false } Eq (Flags names) id (givingAway names) where
  platform := rfl
  thread _ := ⟨fun _ => hchecks, fun h => congrArg _ h, fun h => congrArg _ h,
    fun h _ _ => h ▸ rfl⟩
  misuse _ := ⟨fun _ h => .inl h.2.2, fun _ h => h.2.2⟩
  panicked _ hcause _ _ := .inl hcause
  told _ _ _ _ _ _ h := h ▸ rfl
  made name backend initialMode checkAtSync now := by
    cases checkAtSync with
    | some flag => exact .inl (.inl rfl)
    | none =>
      by_cases hname : name ∈ names
      · exact .inl (.inr hname)
      · exact .inr (.inr (.inr ⟨name, rfl, hname⟩))
  answer question _ _ h now := (answer question h now).imp_left fun h => by rw [h]

end Checks

/-- A panic breaks a program off, and not the ends of the guards that outlive it. -/
theorem runToEnd_returns (p : Platform) (program : Program) :
    Succeeds (fun _ => True) (runToEnd p program) := by
  have attempted {α : Type} (x : Step α) : Succeeds (fun _ => True) (attempt x) :=
    fun _ _ => ⟨⟨_, rfl⟩, True.intro⟩
  have ended (e : String × Guard) : Succeeds (fun _ => True) (endGuard p e) := by
    refine .bind (.modify fun _ _ => True.intro) fun _ => .bind (attempted _) fun ending => ?_
    cases ending with
    | ok _ => exact .mark _
    | error cause => exact .mark _
  have allEnded (slots : List (String × Guard)) :
      Succeeds (fun _ => True) (endGuards p slots) := by
    induction slots with
    | nil => exact .pure ()
    | cons e rest ih =>
      rw [endGuards_cons]
      exact .bind (ended e) fun _ => ih
  refine .bind (attempted _) fun ending => ?_
  cases ending with
  | ok _ => exact .bind .get fun w => allEnded w.slots
  | error cause => exact .bind (.mark _) fun _ => .bind .get fun w => allEnded w.slots

/-- **Without the checks.** A prudent run is the same without them. -/
theorem run_unchecked (hchecks : p.checks = true) (h : Prudent (history p program)) :
    history { p with checks := false } program = history p program ∧
      (runToEnd p program .empty).state.Recast Eq (Checks.Flags (unsettled (history p program)))
        (runToEnd { p with checks := false } program .empty).state := by
  -- The program as a whole returns, so only its events could give the checks away.
  have hfree : (givingAway (unsettled (history p program))).Free (runToEnd p program .empty) := by
    refine ⟨fun happening hmem hevent => ?_, fun cause hcause => ?_⟩
    · rcases hevent with hmisuse | ⟨name, hconsulted, hname⟩ | ⟨name, hunsettled, hname⟩
      · simp [h.used happening hmem] at hmisuse
      · exact h.settled name (List.mem_filterMap.2 ⟨happening, hmem, hconsulted⟩) hname
      · exact hname (List.mem_filterMap.2 ⟨happening, hmem, hunsettled⟩)
    · obtain ⟨⟨_, hreturns⟩, -⟩ := runToEnd_returns p program .empty True.intro
      rw [hreturns] at hcause
      cases hcause
  have halike := (Checks.recasting p hchecks _).runToEnd
    (program.matches_exchange fun _ => rfl) .empty .empty .empty hfree
  have hsame : (history p program).map id = (history { p with checks := false } program).map id :=
    halike.map_eq (fun _ => rfl) fun _ => rfl
  rw [List.map_id, List.map_id] at hsame
  exact ⟨hsame.symm, halike.states⟩

/-! ## What is refused has not begun -/

/-- The initialisation of a thread that has a mode is refused, by the program and inside a call of
the backend. -/
theorem init_refused {w : World} {t : Thread} (hchecks : p.checks = true)
    (hw : w.threads.Distinct) (ht : w.threads.get? name = some t) (hmode : t.mode.isSome)
    (running : List String) :
    perform p running (.init name) w = ⟨.error (.thread name .secondInit), w, []⟩ := by
  simp only [perform, bind_apply, onThread_of_some ht, Thread.init_of_checked hchecks hmode,
    Table.Distinct.update_self hw ht]
  rfl

/-- An assertion is refused if it does not hold. -/
theorem assertMode_refused {w : World} {t : Thread} {mode : Mode} {e : ModeError}
    (hchecks : p.checks = true) (hw : w.threads.Distinct) (ht : w.threads.get? name = some t)
    (hcheck : t.check mode = .error e) (running : List String) :
    perform p running (.assertMode name mode) w
      = ⟨.error (.thread name (.wrongMode e)), w, []⟩ := by
  simp only [perform, bind_apply, onThread_of_some ht, Thread.assertMode_of_checked hchecks,
    hcheck, Table.Distinct.update_self hw ht]
  rfl

/-! ## Sums -/

open Thread

/-- While there are fewer calls of a backend than there are words, the count of those that have come
back is what is told of it, and to add one to it does not wrap. -/
theorem counts_do_not_wrap
    (hcalls : (begun (threadEvents name (history p program))).length < UInt64.size) :
    Throughout (fun before x =>
      (∀ seen, x.shows? name = some seen →
        seen.transitions = .ofNat (returned (threadEvents name (before ++ [x]))).length) ∧
      ∀ mode, x = .thread name (.returns mode) →
        Word.checkedAdd (.ofNat (returned (threadEvents name before)).length) 1
          = some (.ofNat (returned (threadEvents name (before ++ [x]))).length))
      (history p program) := by
  have hbooked := follows_booked p program name
  intro before x after he
  refine ⟨fun seen hx => (shown_of_shows hbooked he hx).count, ?_⟩
  rintro mode rfl
  have hlast : returned (threadEvents name (before ++ [.thread name (.returns mode)]))
      = returned (threadEvents name before) ++ [mode] := by
    rw [threadEvents_snoc_self, returned_append]
    rfl
  have htotal : (returned (threadEvents name (history p program))).length
      ≤ (begun (threadEvents name (history p program))).length := by
    have hthread := hbooked.thread
    generalize (runToEnd p program .empty).state.threads.get? name = found at hthread
    cases found with
    | none =>
      have hnil : threadEvents name (history p program) = [] := hthread
      simp [hnil, returned]
    | some t =>
      obtain ⟨t₀, -, hbooked⟩ := hthread
      have := hbooked.total
      omega
  rw [hlast, List.length_append, List.length_singleton]
  refine Word.checkedAdd_ofNat (Nat.lt_of_le_of_lt ?_ hcalls)
  refine Nat.le_trans ?_ htotal
  rw [he, List.append_cons, threadEvents_append, returned_append, hlast]
  simp

/-- What is compared with the limit of a buffer does not wrap. -/
theorem CodeBuffer.size_does_not_wrap (b : CodeBuffer) {count : Nat}
    (hb : b.bytes.size ≤ maxLength) (hcount : count ≤ maxLength) :
    Word.checkedAdd b.size (.ofNat count) = some (.ofNat (b.bytes.size + count)) := by
  refine Word.checkedAdd_ofNat ?_
  unfold maxLength at hb hcount
  unfold UInt64.size
  omega

/-! ## All of it -/

/-- **All of it.** A run in which the checks find nothing is the same without them, with the same
objects in the end, up to whether threads are checked of which the platform has settled that. At
every point of a run, what the checks refuse leaves all as it is and records nothing, and so it is
inside a call of a backend. And no sum wraps, on any platform. -/
theorem checks_are_pure (hchecks : p.checks = true) :
    (∀ program, Prudent (history p program) →
      history { p with checks := false } program = history p program ∧
      (runToEnd p program .empty).state.Recast Eq (Checks.Flags (unsettled (history p program)))
        (runToEnd { p with checks := false } program .empty).state) ∧
    (∀ way before place, Leads p way { world := .empty } before place →
      ∀ name t, place.world.threads.get? name = some t →
      (t.mode.isSome → perform p place.running (.init name) place.world
        = ⟨.error (.thread name .secondInit), place.world, []⟩) ∧
      ∀ mode e, t.check mode = .error e → perform p place.running (.assertMode name mode)
        place.world = ⟨.error (.thread name (.wrongMode e)), place.world, []⟩) ∧
    (∀ send call (t : Thread), t.mode.isSome →
      Thread.react p send call .init t = ⟨.error .secondInit, t, []⟩) ∧
    (∀ q program name, (begun (threadEvents name (history q program))).length < UInt64.size →
      Throughout (fun before x =>
        (∀ seen, x.shows? name = some seen →
          seen.transitions = .ofNat (returned (threadEvents name (before ++ [x]))).length) ∧
        ∀ mode, x = .thread name (.returns mode) →
          Word.checkedAdd (.ofNat (returned (threadEvents name before)).length) 1
            = some (.ofNat (returned (threadEvents name (before ++ [x]))).length))
        (history q program)) ∧
    ∀ (b : CodeBuffer) count, b.bytes.size ≤ CodeBuffer.maxLength →
      count ≤ CodeBuffer.maxLength →
      Word.checkedAdd b.size (.ofNat count) = some (.ofNat (b.bytes.size + count)) := by
  refine ⟨fun program h => run_unchecked hchecks h, fun way before place hlead name t ht => ?_,
    fun send call t hmode => ?_, fun q program name hcalls => counts_do_not_wrap hcalls,
    fun b count hb hcount => b.size_does_not_wrap hb hcount⟩
  · have hdistinct : place.world.threads.Distinct :=
      hlead.obeys World.stepwise_distinct (World.lasting_distinct.enter .scope)
        (fun f _ => Frame.all_of_forall (fun _ => True.intro) f) List.nodup_nil
    exact ⟨fun hmode => init_refused hchecks hdistinct ht hmode _,
      fun mode e he => assertMode_refused hchecks hdistinct ht he _⟩
  · simp only [Thread.react, bind_apply, initVia_of_checked hchecks hmode, Run.andThen_error]

/-- The world after a backend has asked its thread for a mode, and has failed. -/
def troubledWorld : World :=
  ((Item.attempt troubledProgram).run {} [] .empty).state

theorem checks_are_pure_troubled :
    Prudent (history {} troubledProgram) ∧
      history { checks := false } troubledProgram = history {} troubledProgram ∧
      perform {} [] (.init "t") troubledWorld
        = ⟨.error (.thread "t" .secondInit), troubledWorld, []⟩ := by
  have hprudent : Prudent (history {} troubledProgram) := by decide +kernel
  obtain ⟨hsame, hrefused, -⟩ := checks_are_pure (p := {}) rfl
  have hlead : Leads {} [.past (.attempt troubledProgram)] { world := .empty }
      _ { world := troubledWorld } := .past_of_not_failed (by decide +kernel) (.here _)
  obtain ⟨t, ht⟩ : ∃ t, troubledWorld.threads.get? "t" = some t :=
    Option.isSome_iff_exists.1 (by decide +kernel)
  have hmode : t.mode.isSome := by
    have h : (troubledWorld.threads.get? "t").all fun t => t.mode.isSome := by decide +kernel
    simpa [ht] using h
  exact ⟨hprudent, (hsame _ hprudent).1, (hrefused _ _ _ hlead "t" t ht).1 hmode⟩

end WriteXorExecute
