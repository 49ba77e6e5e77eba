import Mathlib.Algebra.Ring.Parity
import Mathlib.Data.List.Chain
import WriteXorExecute.Proofs.Discipline
/-!
# Calls of a backend alternate

A thread asks its backend for a mode only where it is not in that mode, so no two calls that begin
in a row are for the same one. This needs care with calls that begin inside others, and with calls
that fail: both leave the thread between the taking of a mode and its count. There are two
exceptions. Where misuse is not checked, a thread that is initialised again passes the initial mode
on whatever mode it is in. And a thread that is initialised because it was asked for a mode takes
itself to be in the initial mode afterwards, whatever its first call has done inside.

- **What is due** (`Thread.Alternating`): each call that begins is for the mode that is due, which
  is the initial mode at first and then the one that the thread is not in.
- **Every point of a history** (`calls_alternate`): the mode of a thread is told by the parity of
  the number of its calls.
-/
namespace WriteXorExecute

open Procedure Thread

variable {p : Platform} {failing : Bool} {name : String} {initial mode : Mode}

/-! ## Sequences that alternate -/

/-- The modes begin with `initial`, and no two in a row are the same. -/
structure Alternation (initial : Mode) (modes : List Mode) : Prop where
  first : ∀ mode, modes.head? = some mode → mode = initial
  chain : modes.IsChain (· ≠ ·)
  /-- So the last of them tells whether their number is odd. -/
  last : modes.getLast? = some initial ↔ Odd modes.length

namespace Alternation

theorem nil : Alternation initial [] :=
  ⟨by simp, .nil, by simp⟩

/-- The next mode is the initial one, or the one that the last was not. -/
theorem snoc {modes : List Mode} (h : Alternation initial modes)
    (hmode : mode = modes.getLast?.elim initial Mode.other) :
    Alternation initial (modes ++ [mode]) := by
  cases hlast : modes.getLast? with
  | none =>
    obtain rfl : modes = [] := List.getLast?_eq_none_iff.1 hlast
    obtain rfl : mode = initial := hmode
    exact ⟨by simp, .singleton _, by simp⟩
  | some found =>
    obtain rfl : mode = found.other := by simpa [hlast] using hmode
    refine ⟨fun m hm => ?_, ?_, ?_⟩
    · cases modes with
      | nil => cases hlast
      | cons m' rest => exact h.first m hm
    · refine List.isChain_append.2 ⟨h.chain, .singleton _, fun m hm m' hm' => ?_⟩
      obtain rfl : found = m := by simpa [hlast] using hm
      obtain rfl : found.other = m' := by simpa using hm'
      cases found <;> decide
    · have hparity := h.last
      rw [hlast, Option.some.injEq] at hparity
      rw [List.getLast?_concat, Option.some.injEq, List.length_append, List.length_singleton,
        Nat.odd_add_one, ← hparity]
      cases found <;> cases initial <;> simp [Mode.other]

end Alternation

namespace Thread

variable {t t' : Thread} {send : Mode → Step Unit}

/-! ## The mode that is due -/

/-- The mode that the next call is for where calls alternate. -/
def Status.due (initial : Mode) (s : Status) : Mode :=
  s.mode.elim initial Mode.other

/-- If a call begins with this event, it is for the mode that is due. -/
def DueCall (t : Thread) (before : List Event) (event : Event) : Prop :=
  ∀ outlet mode seen, event = .begins outlet mode seen →
    mode = (t.expected before).due t.config.initialMode

/-- A call begins that is the second one of all. -/
def BeginsSecond (before : List Event) (event : Event) : Prop :=
  begun [event] ≠ [] ∧ (begun before).length = 1

instance (before : List Event) (event : Event) : Decidable (BeginsSecond before event) :=
  inferInstanceAs (Decidable (_ ∧ _))

/-- If the thread has no mode, and is then initialised because it is asked for one, no call begins
inside its first call. -/
def FirstCallAlone (t : Thread) (events : List Event) : Prop :=
  t.mode = none → Throughout (fun before event => BeginsSecond before event →
    .record .lateInitialization ∈ before → inProgress [] before = []) events

instance (t : Thread) (events : List Event) : Decidable (t.FirstCallAlone events) :=
  inferInstanceAs (Decidable (_ → Throughout _ _))

theorem FirstCallAlone.of_late {r : Record} {events : List Event}
    (h : t.FirstCallAlone (.record .lateInitialization :: .record r :: events))
    (hmode : t.mode = none) :
    Throughout (fun before event => BeginsSecond before event → inProgress [] before = []) events :=
  (Throughout.cons_iff.1 (Throughout.cons_iff.1 (h hmode)).2).2.imp fun _ _ _ h hsecond =>
    h hsecond List.mem_cons_self

/-- From `t` to `t'`, every call has been for the mode that was due, unless the thread has been
initialised a second time or has not been left alone in its first call. -/
structure Alternating (p : Platform) (t : Thread) (events : List Event) (t' : Thread) : Prop where
  booked : Booked t events t'
  onward : Onward t events t'
  due : (p.checks = false → t.InitializedOnce events) → t.FirstCallAlone events →
    Throughout t.DueCall events

/-- A thread that has no mode has not had one, and none of its calls has begun. -/
theorem Booked.of_none {events : List Event} (h : Booked t events t') (hmode : t'.mode = none) :
    t.mode = none ∧ begun events = [] := by
  have hstatus : t'.mode = (begun events).getLast?.or t.mode := congrArg Status.mode h.status
  obtain ⟨hlast, hnone⟩ := Option.or_eq_none_iff.1 (hstatus.symm.trans hmode)
  exact ⟨hnone, List.getLast?_eq_none_iff.1 hlast⟩

/-- The books are right after every call, and nothing is undone. -/
theorem callLaw_kept (p : Platform) :
    CallLaw p fun t events t' => Booked t events t' ∧ Onward t events t' :=
  (Booked.callLaw p).and (Onward.callLaw p)

namespace Alternating

theorem law : Law (Alternating p) where
  refl t := ⟨Booked.law.refl t, Onward.law.refl t, fun _ _ => .nil⟩
  trans {t₁ t₂ t₃ e₁ e₂} h₁ h₂ := by
    refine ⟨Booked.law.trans h₁.booked h₂.booked, Onward.law.trans h₁.onward h₂.onward,
      fun honce halone => .append (h₁.due ?_ ?_) ((h₂.due ?_ ?_).imp ?_)⟩
    · exact fun hchecks => (Throughout.append_iff.1 (honce hchecks)).1
    · exact fun hmode => (Throughout.append_iff.1 (halone hmode)).1
    · exact fun hchecks => (honce hchecks).of_append h₁.booked
    · intro hmode
      obtain ⟨hmode₁, hbegun⟩ := h₁.booked.of_none hmode
      have hlater := (Throughout.append_iff.1 (halone hmode₁)).2
      refine hlater.imp fun before event _ h hsecond hlate => ?_
      have hrest := h ⟨hsecond.1, by simpa [hbegun] using hsecond.2⟩
        (List.mem_append_right e₁ hlate)
      rwa [inProgress_append, h₁.booked.ended] at hrest
    · intro before event _ h outlet mode seen hevent
      rw [h outlet mode seen hevent, expected_append h₁.booked.status, h₁.onward.config]

theorem note {event : Event} (h : event.isAside = true) (t : Thread) :
    Alternating p t [event] t := by
  refine ⟨Booked.note h t, Onward.note t event, fun _ _ => .singleton fun outlet mode seen he => ?_⟩
  simp [he, Event.isAside] at h

/-- **One call.** A call is for the mode that is due, and inside it the calls alternate. -/
theorem call {t₁ t₂ : Thread} {inner : List Event} {ending : Event} {outlet : Backend.Outlet}
    (hinner : Alternating p t₁ inner t₂) (ht₁ : t₁.status = ⟨some mode, t.transitions⟩)
    (hconfig : t₁.config = t.config) (hmode : mode = t.status.due t.config.initialMode)
    (hending : begun [ending] = [])
    (honce : p.checks = false → t.InitializedOnce
      ([.record (.modeChange mode), .begins outlet mode ⟨some mode, t.transitions⟩]
        ++ inner ++ [ending])) :
    Throughout t.DueCall
      ([.record (.modeChange mode), .begins outlet mode ⟨some mode, t.transitions⟩]
        ++ inner ++ [ending]) := by
  have hbegin : t₁.status = t.expected
      [.record (.modeChange mode), .begins outlet mode ⟨some mode, t.transitions⟩] := by
    rw [ht₁]
    simp [expected, begun, returned]
  have hfirst : t.expected [.record (.modeChange mode)] = t.status := by
    simp [expected, begun, returned, status]
  refine .snoc (.append (Throughout.cons_iff.2 ⟨fun _ _ _ he => ?_, .singleton ?_⟩) ?_) ?_
  · cases he
  · intro outlet' mode' seen he
    obtain ⟨-, rfl, -⟩ := Event.begins.inj he
    rw [hfirst]
    exact hmode
  · have hinside := hinner.due (fun hchecks => ?_) fun hnone => ?_
    · refine hinside.imp fun before event _ h outlet' mode' seen he => ?_
      rw [h outlet' mode' seen he, expected_append hbegin, hconfig]
    · have hrest := (Throughout.append_iff.1 (Throughout.append_iff.1 (honce hchecks)).1).2
      refine hrest.imp fun before event _ h hinit => ?_
      exact absurd (h hinit).2 (by simp [begun])
    · rw [status, Status.mk.injEq] at ht₁
      rw [hnone] at ht₁
      cases ht₁.1
  · rintro outlet' mode' seen rfl
    simp [begun] at hending

end Alternating

/-- What is asked of a way of passing modes on: it may be used for the mode that is due. -/
structure Alternates (p : Platform) (send : Mode → Step Unit) : Prop where
  kept : ∀ mode, Obeys (fun t events t' => Booked t events t' ∧ Onward t events t')
    (take send mode)
  due : ∀ {mode t}, mode = t.status.due t.config.initialMode →
    Alternating p t (take send mode t).trace (take send mode t).state
  /-- If no call begins inside it, it leaves the thread in its mode. -/
  alone : ∀ {mode t},
    Throughout (fun before event => BeginsSecond before event → inProgress [] before = [])
      (take send mode t).trace → (take send mode t).state.mode = some mode

/-- A thread without a mode passes the initial mode on, and then the mode that it is asked for,
unless that is the same. -/
theorem enableVia_trace (p : Platform) (send : Mode → Step Unit) (hmode : t.mode = none)
    (mode : Mode) : ∃ more,
      (enableVia p send mode t).trace = [.record .lateInitialization]
        ++ ([.record (.initializing t.config.initialMode)]
          ++ (take send t.config.initialMode t).trace) ++ more ∧
      (more = [] ∨ t.config.initialMode ≠ mode ∧
        more = (take send mode (take send t.config.initialMode t).state).trace) := by
  rw [enableVia_of_none hmode, Run.andThen_ok, bind_apply, initVia_of_none hmode, Run.andThen_ok]
  generalize take send t.config.initialMode t = q
  obtain ⟨outcome, t₁, first⟩ := q
  cases outcome with
  | error fault => exact ⟨[], by simp, .inl rfl⟩
  | ok _ =>
    by_cases hsame : t.config.initialMode = mode
    · exact ⟨[], by simp [hsame], .inl rfl⟩
    · exact ⟨_, by simp [hsame, Run.andThen_return, -bind_pure_comp], .inr ⟨hsame, rfl⟩⟩

namespace Alternates

theorem initVia (h : Alternates p send) : Obeys (Alternating p) (initVia p send) := by
  intro t
  obtain ⟨hbooked, honward⟩ := initVia_obeys (callLaw_kept p).law (callLaw_kept p).note h.kept t
  refine ⟨hbooked, honward, fun honce halone => ?_⟩
  cases hm : t.mode with
  | none =>
    have hdue : t.config.initialMode = t.status.due t.config.initialMode := by
      simp [Status.due, status, hm]
    rw [initVia_of_none hm] at honce halone ⊢
    exact (Alternating.law.trans (.note rfl t) (h.due hdue)).due honce halone
  | some found =>
    cases hchecks : p.checks with
    | true =>
      rw [initVia_of_checked hchecks (by simp [hm])]
      exact .nil
    | false =>
      rw [initVia_of_unchecked hchecks] at honce
      have hnone := (honce hchecks [] _ _ rfl rfl).1
      rw [hm] at hnone
      cases hnone

theorem enableVia (h : Alternates p send) (mode : Mode) :
    Obeys (Alternating p) (enableVia p send mode) := by
  intro t
  obtain ⟨hbooked, honward⟩ :=
    enableVia_obeys (callLaw_kept p).law (callLaw_kept p).note h.kept mode t
  refine ⟨hbooked, honward, fun honce halone => ?_⟩
  cases hm : t.mode with
  | some found =>
    by_cases hsame : found = mode
    · rw [enableVia_of_same (hsame ▸ hm)]
      exact .nil
    · have hdue : mode = t.status.due t.config.initialMode := by
        simpa [Status.due, status, hm] using Mode.eq_other_of_ne (Ne.symm hsame)
      rw [enableVia_of_other hm hsame, Run.andThen_return] at honce halone ⊢
      exact (h.due hdue).due honce halone
  | none =>
    have hinitial : t.config.initialMode = t.status.due t.config.initialMode := by
      simp [Status.due, status, hm]
    have hfirst : Alternating p t ([.record .lateInitialization]
        ++ ([.record (.initializing t.config.initialMode)]
          ++ (take send t.config.initialMode t).trace))
        (take send t.config.initialMode t).state :=
      Alternating.law.trans (.note rfl t) (Alternating.law.trans (.note rfl t) (h.due hinitial))
    obtain ⟨more, htrace, hmore⟩ := enableVia_trace p send hm mode
    rw [htrace] at honce halone ⊢
    obtain rfl | ⟨hother, rfl⟩ := hmore
    · rw [List.append_nil] at honce halone ⊢
      exact hfirst.due honce halone
    · have hmode := h.alone (Throughout.append_iff.1 (halone.of_late hm)).1
      have hdue : mode = (take send t.config.initialMode t).state.status.due
          (take send t.config.initialMode t).state.config.initialMode := by
        simpa [Status.due, status, hmode] using Mode.eq_other_of_ne (Ne.symm hother)
      exact (Alternating.law.trans hfirst (h.due hdue)).due honce halone

theorem react (h : Alternates p send) (call : Nat) (reaction : Backend.Reaction) :
    Obeys (Alternating p) (react p send call reaction) := by
  induction reaction with
  | fail => exact .fail Alternating.law _
  | init => exact .bind Alternating.law h.initVia fun _ => .note (Alternating.note rfl)
  | enable mode =>
    exact .bind Alternating.law (h.enableVia mode) fun _ => .note (Alternating.note rfl)
  | caught reaction ih =>
    refine .bind Alternating.law (.attempt ih) fun ending => ?_
    cases ending with
    | ok _ => exact .pure Alternating.law ()
    | error fault => exact .note (Alternating.note rfl)

/-! ### Calls inside calls -/

/-- If a call does not begin anywhere, none begins. -/
theorem begun_eq_nil {events : List Event}
    (h : Throughout (fun before event => begun before = [] → begun [event] = []) events) :
    begun events = [] := by
  induction events using List.reverseRecOn with
  | nil => rfl
  | append_singleton events event ih =>
    have hbefore := ih (Throughout.append_iff.1 h).1
    rw [begun_append, hbefore, h events event [] (by simp) hbefore]
    rfl

/-- Inside a call, that call is in progress. -/
theorem inProgress_inside {inner before after : List Event} {event : Event}
    (h : Booked t inner t') (he : inner = before ++ event :: after) :
    inProgress [mode] before ≠ [] := by
  intro hnil
  have hinside := (h.points [mode] before event after he).1
  have halone := (h.points [] before event after he).1
  rw [hnil] at hinside
  simp only [List.length_nil, List.length_singleton] at hinside halone
  omega

/-- If no call begins inside a call, that call leaves the thread in its mode. -/
theorem mode_of_alone {calls : Nat} {outlet : Backend.Outlet} {seen : Status}
    {inner : List Event} {ending : Event}
    (h : Booked { t with mode := some mode, calls := calls } inner t')
    (halone : Throughout (fun before event => BeginsSecond before event → inProgress [] before = [])
      ([.record (.modeChange mode), .begins outlet mode seen] ++ inner ++ [ending])) :
    t'.mode = some mode := by
  have hinner : begun inner = [] := by
    refine begun_eq_nil fun before event after he hbefore => Classical.not_not.1 fun hbegins => ?_
    have hinside := (Throughout.append_iff.1 (Throughout.append_iff.1 halone).1).2
      before event after he ⟨hbegins, by simpa [begun] using hbefore⟩
    exact inProgress_inside h he hinside
  have hstatus : t'.mode = (begun inner).getLast?.or (some mode) := congrArg Status.mode h.status
  rw [hstatus, hinner]
  rfl

theorem passOn {react : Nat → Backend.Reaction → Step Unit}
    (hreact : ∀ call reaction, Obeys (Alternating p) (react call reaction)) :
    Alternates p (passOn p failing react) := by
  have hinside (mode : Mode) (t : Thread) :
      Alternating p { t with mode := some mode, calls := t.calls + 1 }
        (inside failing react mode t).trace (inside failing react mode t).state :=
    Obeys.forM Alternating.law (hreact t.calls) _ _
  have hkept (mode : Mode) := (callLaw_kept p).call failing react mode fun call reaction =>
    (hreact call reaction).imp fun h => ⟨h.booked, h.onward⟩
  refine ⟨hkept, fun {mode t} hmode => ⟨(hkept mode t).1, (hkept mode t).2, fun honce _ => ?_⟩,
    fun {mode t} halone => ?_⟩
  · rw [take_passOn] at honce ⊢
    dsimp only at honce ⊢
    split at honce
    all_goals exact Alternating.call (hinside mode t) rfl rfl hmode rfl honce
  · rw [take_passOn] at halone ⊢
    dsimp only at halone ⊢
    split at halone
    all_goals
      have hmode := mode_of_alone (hinside mode t).booked halone
      exact hmode

theorem sendWithin (p : Platform) (failing : Bool) (depth : Nat) :
    Alternates p (sendWithin p failing depth) := by
  induction depth generalizing failing with
  | zero => exact passOn fun _ _ => .pure Alternating.law ()
  | succ depth ih => exact passOn (ih false).react

end Alternates

theorem alternates_send (p : Platform) (failing : Bool) :
    Alternates p (Thread.send p failing) where
  kept mode t := (Alternates.sendWithin p failing t.backend.script.length).kept mode t
  due {_ t} := (Alternates.sendWithin p failing t.backend.script.length).due
  alone {_ t} := (Alternates.sendWithin p failing t.backend.script.length).alone

/-- **What is due.** -/
theorem useLaw_alternating (p : Platform) : UseLaw p (Alternating p) where
  law := Alternating.law
  init failing := (alternates_send p failing).initVia
  enable failing mode := (alternates_send p failing).enableVia mode

/-- From its making on, the calls of a thread alternate if each is for the mode that is due. -/
theorem alternation_of_due {events : List Event} (hmode : t.mode = none)
    (h : Throughout t.DueCall events) : Alternation t.config.initialMode (begun events) := by
  induction events using List.reverseRecOn with
  | nil => exact .nil
  | append_singleton events event ih =>
    have hbefore := ih (Throughout.append_iff.1 h).1
    have hevent := h events event [] (by simp)
    cases event with
    | begins outlet mode seen =>
      rw [begun_append]
      refine hbefore.snoc ?_
      simpa [Status.due, expected, hmode] using hevent outlet mode seen rfl
    | record | returns | unwinds | reinitialized | reenabled | caught => simpa [begun] using hbefore

end Thread

/-! ## Every point of a history -/

def Thread.asMade (t : Thread) : Thread :=
  { backend := t.backend, config := t.config }

/-- A thread that nothing has happened to is as it was made. -/
theorem Thread.Fresh.eq_asMade {t₀ t : Thread} {events : List Thread.Event} (hfresh : t₀.Fresh)
    (h : t₀.Onward events t) : t₀ = t.asMade := by
  obtain ⟨backend, config, mode, transitions, calls⟩ := t₀
  obtain ⟨rfl, rfl, rfl⟩ := hfresh
  rw [asMade, h.backend, h.config]

theorem odd_ofNat {n : Nat} : Odd (UInt64.ofNat n).toNat ↔ Odd n := by
  rw [UInt64.toNat_ofNat', Nat.odd_iff, Nat.odd_iff]
  omega

/-- **Every point of a history.** The calls of the backend of a thread begin with its initial mode,
and no two in a row are for the same mode: if misuse is not checked, provided that the thread is
initialised only while it has no mode, and provided that no call begins inside its first one if that
comes of being asked for a mode. So the thread is in its initial mode where the number of its calls
is odd; and its count tells so too, as long as no call has failed and none is in progress. -/
theorem calls_alternate {program : Program} {t : Thread}
    (ht : (runToEnd p program .empty).state.threads.get? name = some t)
    (honce : p.checks = false → t.asMade.InitializedOnce (threadEvents name (history p program)))
    (halone : t.asMade.FirstCallAlone (threadEvents name (history p program))) :
    Alternation t.config.initialMode (begun (threadEvents name (history p program))) ∧
      Throughout (fun before x => ∀ seen, x.shows? name = some seen →
        (seen.mode = some t.config.initialMode ↔
          Odd (begun (threadEvents name (before ++ [x]))).length) ∧
        (unwound (threadEvents name (before ++ [x])) = [] →
          inProgress [] (threadEvents name (before ++ [x])) = [] →
          (seen.mode = some t.config.initialMode ↔ Odd seen.transitions.toNat)))
        (history p program) := by
  have hfollows : Follows (Alternating p) name .empty (history p program) _ :=
    Follows.runToEnd (useLaw_alternating p) program .empty
  have hthread := hfollows.thread
  rw [ht] at hthread
  obtain ⟨t₀, hfresh, halternating⟩ := hthread
  have hdue : Throughout t.asMade.DueCall (threadEvents name (history p program)) := by
    obtain rfl : t₀ = t.asMade := hfresh.eq_asMade halternating.onward
    exact halternating.due honce halone
  refine ⟨alternation_of_due (t := t.asMade) rfl hdue, fun before x after he seen hx => ?_⟩
  have hshown := shown_of_shows (follows_booked p program name) he hx
  have halternation : Alternation t.config.initialMode
      (begun (threadEvents name (before ++ [x]))) := by
    rw [he, List.append_cons, threadEvents_append] at hdue
    exact alternation_of_due (t := t.asMade) rfl (Throughout.append_iff.1 hdue).1
  have hparity : seen.mode = some t.config.initialMode ↔
      Odd (begun (threadEvents name (before ++ [x]))).length := by
    rw [hshown.mode]
    exact halternation.last
  refine ⟨hparity, fun hunwound hidle => ?_⟩
  have htotal := hshown.total
  simp only [hunwound, hidle, List.length_nil, Nat.add_zero] at htotal
  rw [hparity, hshown.count, odd_ofNat, htotal]

/-- A thread that is initialised when it is asked for the other mode; then a call inside a call
fails, and the thread is asked once more. -/
def relapsingProgram : Program :=
  .step (.newThread "t" (.scripted [⟨1, .enable .write⟩, ⟨2, .fail⟩]) none none) <|
  .attempt (.step (.enable "t" .exec) .done) <|
  .step (.enable "t" .exec) .done

def relapsedThread : Thread where
  backend := .scripted [⟨1, .enable .write⟩, ⟨2, .fail⟩]
  config := { checkAtSync := false }
  mode := some .exec
  transitions := 2
  calls := 4

def stubbornThread : Thread where
  backend := .scripted [⟨2, .enable .exec⟩] true
  config := { checkAtSync := true }
  mode := some .exec
  transitions := 4
  calls := 4

theorem calls_alternate_relapsing :
    begun (threadEvents "t" (history { checks := false } relapsingProgram))
        = [.write, .exec, .write, .exec] ∧
      Alternation .write
        (begun (threadEvents "t" (history { checks := false } relapsingProgram))) ∧
      begun (threadEvents "t" (history {} stubbornProgram)) = [.write, .exec, .write, .exec] ∧
      Alternation .write (begun (threadEvents "t" (history {} stubbornProgram))) := by
  have ht : (runToEnd { checks := false } relapsingProgram .empty).state.threads.get? "t"
      = some relapsedThread := by decide +kernel
  have honce : relapsedThread.asMade.InitializedOnce
      (threadEvents "t" (history { checks := false } relapsingProgram)) := by decide +kernel
  have halone : relapsedThread.asMade.FirstCallAlone
      (threadEvents "t" (history { checks := false } relapsingProgram)) := by decide +kernel
  have ht' : (runToEnd {} stubbornProgram .empty).state.threads.get? "t" = some stubbornThread := by
    decide +kernel
  have halone' : stubbornThread.asMade.FirstCallAlone
      (threadEvents "t" (history {} stubbornProgram)) := by decide +kernel
  exact ⟨by decide +kernel, (calls_alternate ht (fun _ => honce) halone).1, by decide +kernel,
    (calls_alternate ht' nofun halone').1⟩

end WriteXorExecute
