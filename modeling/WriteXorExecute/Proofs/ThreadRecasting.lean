import WriteXorExecute.Proofs.Excuse
import WriteXorExecute.Proofs.Switching
/-!
# One thread for another

What a thread does when it is asked for a mode depends on its mode, on the initial one, and on what
is written down for the calls of its backend. It does not depend on what those calls reach, nor on
whether the thread is checked where it enters the program's own code. So a thread can be recast: one
that differs in nothing else does the same, event by event.

One platform may check for misuse of threads and the other not. Then the threads do the same as long
as there is no misuse.

- **A thread recast** (`Thread.Recast`).
- **It does the same** (`Thread.Recasting.init`, `Thread.Recasting.enable`).
-/
namespace WriteXorExecute

open Procedure Correspondence

variable {ο : Type} {p p' : Platform}

namespace Thread

/-- Whether the fault is one of the program that uses the thread, and not of the backend. -/
def Fault.isMisuse : Fault → Bool
  | secondInit | wrongMode _ => true
  | backend _ => false

/-- Whether misuse has been caught here. -/
def Event.isMisuse : Event → Bool
  | caught fault => fault.isMisuse
  | _ => false

/-- The second thread plays the part of the first, with another backend perhaps. -/
structure Recast (backends : Backend → Backend → Prop) (flags : Bool → Bool → Prop)
    (t t' : Thread) : Prop where
  backend : backends t.backend t'.backend
  initialMode : t.config.initialMode = t'.config.initialMode
  checkAtSync : flags t.config.checkAtSync t'.config.checkAtSync
  mode : t.mode = t'.mode
  transitions : t.transitions = t'.transitions
  calls : t.calls = t'.calls

def recast (backends : Backend → Backend → Prop) (flags : Bool → Bool → Prop) (view : Event → ο) :
    Correspondence Thread Event ο where
  states := Recast backends flags
  seen event := [view event]

/-- Backends can be exchanged for each other: the same happens inside their calls, and the calls are
seen alike, whatever they reach. The second platform checks for nothing that the first one does not
check for. -/
structure Recasting (p p' : Platform) (backends : Backend → Backend → Prop) (view : Event → ο) :
    Prop where
  checks : p'.checks = true → p.checks = true
  script : ∀ {b b'}, backends b b' → b.script = b'.script
  whileFailing : ∀ {b b'}, backends b b' → b.whileFailing = b'.whileFailing
  begins : ∀ {b b'}, backends b b' → ∀ mode seen,
    view (.begins (b.outlet p) mode seen) = view (.begins (b'.outlet p') mode seen)

/-- If only the first platform checks for misuse, misuse is an excuse, also where it is caught. -/
def misuse (p p' : Platform) : Excuse Event Fault where
  event event := p.checks = true ∧ p'.checks = false ∧ event.isMisuse = true
  cause fault := p.checks = true ∧ p'.checks = false ∧ fault.isMisuse = true

variable {backends : Backend → Backend → Prop} {flags : Bool → Bool → Prop} {view : Event → ο}
  {E : Excuse Event Fault} {t t' : Thread}

namespace Recast

theorem status (h : Recast backends flags t t') : t.status = t'.status := by
  rw [Thread.status, Thread.status, h.mode, h.transitions]

end Recast

namespace Recasting

variable (h : Recasting p p' backends view) {failing : Bool}

include h in
theorem occurring (ht : Recast backends flags t t') (failing : Bool) :
    t.backend.occurring failing t.calls = t'.backend.occurring failing t'.calls := by
  simp only [Backend.occurring, Backend.reactions, h.script ht.backend, h.whileFailing ht.backend,
    ht.calls]

include h in
theorem unchecked (hchecks : p.checks = false) : p'.checks = false := by
  cases hchecks' : p'.checks with
  | true => simp [h.checks hchecks'] at hchecks
  | false => rfl

section

variable {react react' : Nat → Backend.Reaction → Step Unit}

include h in
/-- A call of the backend is alike if its reactions are. -/
theorem passOn (hreact : ∀ call (reaction : Backend.Reaction),
      (failing = true → reaction.isCaught = true) →
      (recast backends flags view).MirrorsUnless E Eq (react call reaction) (react' call reaction))
    (mode : Mode) : (recast backends flags view).MirrorsUnless E Eq
      (passOn p failing react mode) (passOn p' failing react' mode) := by
  unfold Thread.passOn
  refine (Mirrors.note rfl).unless.bind_same fun _ => .get_bind fun t t' ht hfree => ?_
  have hbegins : view (.begins (t.backend.outlet p) mode t.status)
      = view (.begins (t'.backend.outlet p') mode t'.status) := by
    rw [ht.status]
    exact h.begins ht.backend mode _
  have hoccurring := h.occurring ht failing
  have hinside : (recast backends flags view).MirrorsUnless E Eq
      ((t.backend.occurring failing t.calls).forM (react t.calls))
      ((t'.backend.occurring failing t'.calls).forM (react' t'.calls)) := by
    rw [hoccurring, ht.calls]
    exact .forM fun reaction hmem => hreact _ reaction (Backend.isCaught_of_occurring hmem)
  have hcount : (recast backends flags view).Mirrors Eq
      (modify fun t => { t with calls := t.calls + 1 } : Step Unit)
      (modify fun t => { t with calls := t.calls + 1 }) :=
    .modify fun t t' ht => { ht with calls := congrArg (· + 1) ht.calls }
  -- What fails inside the call fails the call, so what excuses the one excuses the other.
  refine MirrorsUnless.bind_same (Mirrors.note (congrArg (fun seen => [seen]) hbegins)).unless
    (fun _ => hcount.unless.bind_same fun _ => hinside.attempt_bind (fun _ h => h)
      (fun fault hfault t hfree => ?_) fun ending ending' hending => ?_) t t' ht hfree
  · exact hfree.outcome fault rfl hfault
  · cases hending with
    | ok _ =>
      refine (Mirrors.note rfl).unless.bind_same fun _ => .modify fun t t' ht => ?_
      exact { ht with transitions := congrArg (· + 1) ht.transitions }
    | error fault => exact Mirrors.unless ((Mirrors.note rfl).bind_same fun _ => .fail fault)

end

section

variable {send send' : Mode → Step Unit} (hsend : ∀ mode,
  (recast backends flags view).MirrorsUnless E Eq (send mode) (send' mode))

include hsend

theorem take (mode : Mode) :
    (recast backends flags view).MirrorsUnless E Eq (take send mode) (take send' mode) := by
  refine MirrorsUnless.bind_same (.modify fun t t' ht => ?_) fun _ => hsend mode
  exact { ht with mode := rfl }

/-- A thread that is to be initialised takes its initial mode. -/
theorem takeInitial (mode : Mode) : (recast backends flags view).MirrorsUnless E Eq
    (do
      note (.record (.initializing mode))
      Thread.take send mode : Step Unit)
    (do
      note (.record (.initializing mode))
      Thread.take send' mode : Step Unit) :=
  (Mirrors.note rfl).unless.bind_same fun _ => take hsend mode

/-- Nobody objects to the initialisation of a thread without a mode. -/
theorem initVia_of_none (ht : Recast backends flags t t') (hmode : t.mode = none)
    (hfree : E.Free (initVia p send t)) :
    (recast backends flags view).Alike Eq (initVia p send t) (initVia p' send' t') := by
  have hfirst (q : Platform) {u : Thread} (hu : u.mode = none) :
      ¬(q.checks && u.status.isInitialized) = true := by
    simp [status, Status.isInitialized, hu]
  have hinitial := takeInitial hsend t'.config.initialMode t t' ht
  simp only [initVia, bind_apply, get_apply, Run.andThen_ok, List.nil_append,
    if_neg (hfirst p hmode), if_neg (hfirst p' (ht.mode ▸ hmode)), ht.initialMode] at hfree ⊢
  exact hinitial hfree

include h in
theorem initVia (hmisuse : (misuse p p').Within E) :
    (recast backends flags view).MirrorsUnless E Eq (initVia p send) (initVia p' send') := by
  intro t t' ht hfree
  cases hmode : t.mode with
  | none => exact initVia_of_none hsend ht hmode hfree
  | some found =>
    have hset : t.mode.isSome := by simp [hmode]
    have hset' : t'.mode.isSome := ht.mode ▸ hset
    cases hchecks : p.checks with
    | true =>
      rw [initVia_of_checked hchecks hset] at hfree ⊢
      cases hchecks' : p'.checks with
      | true =>
        rw [initVia_of_checked hchecks' hset']
        exact Mirrors.fail _ t t' ht
      | false => exact (hfree.outcome _ rfl (hmisuse.cause _ ⟨hchecks, hchecks', rfl⟩)).elim
    | false =>
      rw [initVia_of_unchecked hchecks] at hfree ⊢
      rw [initVia_of_unchecked (h.unchecked hchecks), ← ht.initialMode]
      exact takeInitial hsend t.config.initialMode t t' ht hfree

/-- A thread that is asked for a mode is only initialised where nobody objects. -/
theorem enableVia (mode : Mode) : (recast backends flags view).MirrorsUnless E Eq
    (enableVia p send mode) (enableVia p' send' mode) := by
  have tail (previous : Mode) : (recast backends flags view).MirrorsUnless E Eq
      (do
        if previous ≠ mode then
          Thread.take send mode
        return previous : Step Mode)
      (do
        if previous ≠ mode then
          Thread.take send' mode
        return previous : Step Mode) := by
    split
    · exact (take hsend mode).bind_same fun _ => .pure rfl
    · exact .pure rfl
  intro t t' ht hfree
  cases hmode : t.mode with
  | none =>
    rw [enableVia_of_none hmode] at hfree ⊢
    rw [enableVia_of_none (ht.mode ▸ hmode), ← ht.initialMode]
    have hlate : (recast backends flags view).Alike Eq
        (⟨.ok (), t, [.record .lateInitialization]⟩ : Run Thread Event Fault Unit)
        ⟨.ok (), t', [.record .lateInitialization]⟩ := ⟨.ok rfl, ht, rfl⟩
    -- Nobody objects to a late initialisation, so misuse does not come up here.
    refine hlate.andThen fun _ _ _ _ => ?_
    have hrest := hfree.rest rfl
    have hinit : (recast backends flags view).Alike Eq (Thread.initVia p send t)
        (Thread.initVia p' send' t') := initVia_of_none hsend ht hmode hrest.first
    exact hinit.andThen fun _ _ hok _ =>
      tail t.config.initialMode _ _ hinit.states (hrest.rest hok)
  | some found =>
    have hmode' : t'.mode = some found := ht.mode ▸ hmode
    by_cases hsame : found = mode
    · subst hsame
      rw [enableVia_of_same hmode, enableVia_of_same hmode']
      exact Mirrors.pure rfl t t' ht
    · rw [enableVia_of_other hmode hsame] at hfree ⊢
      rw [enableVia_of_other hmode' hsame]
      exact (take hsend mode).bind_same (fun _ => .pure rfl) t t' ht hfree

end

include h

/-- What a backend does is alike if what it passes on is. What is caught is no excuse any more, but
that it has been caught is one. -/
theorem react {send send' : Mode → Step Unit} (hsend : ∀ mode,
      (recast backends flags view).MirrorsUnless (misuse p p') Eq (send mode) (send' mode))
    (call : Nat) {reaction : Backend.Reaction}
    (hcaught : failing = true → reaction.isCaught = true) :
    (recast backends flags view).MirrorsUnless ((misuse p p').during failing) Eq
      (react p send call reaction) (react p' send' call reaction) := by
  induction reaction generalizing failing with
  | fail => exact .fail _
  | init =>
    obtain rfl : failing = false := by simpa [Backend.Reaction.isCaught] using hcaught
    exact ((h.initVia hsend .rfl).mono (misuse p p').within_during).bind_same fun _ => .note rfl
  | enable mode =>
    obtain rfl : failing = false := by simpa [Backend.Reaction.isCaught] using hcaught
    exact ((enableVia hsend mode).mono (misuse p p').within_during).bind_same fun _ => .note rfl
  | caught reaction ih =>
    refine (@ih false nofun).attempt_bind (fun _ h => h) (fun fault hfault t hfree => ?_)
      fun ending ending' hending => ?_
    · exact hfree.trace _ (List.mem_singleton.2 rfl) hfault.2
    · cases hending with
      | ok _ => exact .pure rfl
      | error fault => exact .note rfl

theorem sendWithin (failing : Bool) (depth : Nat) (mode : Mode) :
    (recast backends flags view).MirrorsUnless ((misuse p p').during failing) Eq
      (sendWithin p failing depth mode) (sendWithin p' failing depth mode) := by
  induction depth generalizing failing mode with
  | zero => exact h.passOn (fun _ _ _ => .pure rfl) mode
  | succ depth ih =>
    have hsend (mode : Mode) := (ih false mode).mono ((misuse p p').during_within false)
    exact h.passOn (fun call _ => h.react hsend call) mode

theorem send (failing : Bool) (mode : Mode) :
    (recast backends flags view).MirrorsUnless ((misuse p p').during failing) Eq
      (send p failing mode) (send p' failing mode) := by
  refine .get_bind fun t t' ht hfree => ?_
  rw [h.script ht.backend] at hfree ⊢
  exact h.sendWithin failing _ mode t t' ht hfree

/-- A thread is asked for a mode. -/
theorem enable (failing : Bool) (mode : Mode) :
    (recast backends flags view).MirrorsUnless ((misuse p p').during failing) Eq
      (enable p failing mode) (enable p' failing mode) :=
  enableVia (h.send failing) mode

theorem init (hmisuse : (misuse p p').Within E) : (recast backends flags view).MirrorsUnless E Eq
    (init p false) (init p' false) :=
  h.initVia (fun mode => (h.send false mode).mono
    (((misuse p p').during_within false).trans hmisuse)) hmisuse

theorem assertMode (hmisuse : (misuse p p').Within E) (mode : Mode) :
    (recast backends flags view).MirrorsUnless E Eq (assertMode p mode) (assertMode p' mode) := by
  intro t t' ht hfree
  have hcheck : t.check mode = t'.check mode := by rw [check, check, ht.mode]
  cases hchecks : p.checks with
  | false =>
    rw [assertMode_of_unchecked hchecks, assertMode_of_unchecked (h.unchecked hchecks)]
    exact ⟨.ok rfl, ht, rfl⟩
  | true =>
    rw [assertMode_of_checked hchecks] at hfree ⊢
    cases hchecks' : p'.checks with
    | true =>
      rw [assertMode_of_checked hchecks', hcheck]
      exact ⟨.of_eq rfl, ht, rfl⟩
    | false =>
      rw [assertMode_of_unchecked hchecks']
      cases hresult : t.check mode with
      | ok _ => exact ⟨.ok rfl, ht, rfl⟩
      | error e =>
        have hcause := hmisuse.cause (.wrongMode e) ⟨hchecks, hchecks', rfl⟩
        exact (hfree.outcome _ (by rw [hresult]; rfl) hcause).elim

end Recasting

end Thread

end WriteXorExecute
