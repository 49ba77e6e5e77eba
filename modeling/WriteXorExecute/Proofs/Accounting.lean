import Mathlib.Data.List.Induction
import WriteXorExecute.Proofs.Hazards
import WriteXorExecute.Proofs.Position
/-!
# Every barrier has its guard

A guard with counted barriers issues one in its life: on being made, if it is for `exec`, and on
being ended, if it is for `write`. So the barriers that a program has issued can be told from its
guards at every point, however scopes are nested and left, and in whatever order the guards in slots
are ended or lost: there is one for every guard that has been made, apart from those for `write`
that are alive or have been lost.

What carries this is a roster of the guards that are alive, kept by the marks of the run alone. It
is right at every position of a program (`Leads.kept`), so that no guard is ended twice, and none
that was not made; and what a guard answers when it is asked is what it was made for.

- **One happening** (`Happening.Accords.balance`): the balance of barriers and guards is kept.
- **A run** (`Balanced.of_accords`), by induction on its trace.
- **Programs** (`Attends.stepwise`).
-/
namespace WriteXorExecute

open Procedure

variable {α : Type} {p : Platform} {trace t₁ t₂ : List Happening} {w w₁ : World} {g : Guard}
  {holder : Holder}

/-! ## The roster -/

/-- The guards that are alive: those of open scopes, the innermost first, and those in slots, the
newest first. -/
structure Roster where
  scopes : List Guard := []
  slots : List (String × Guard) := []

namespace Roster

/-- The guard of a scope that is left next, or the newest guard in a slot. -/
def guard? (r : Roster) : Holder → Option Guard
  | .scope => r.scopes.head?
  | .slot name => r.slots.lookup name

def add (r : Roster) (g : Guard) : Holder → Roster
  | .scope => { r with scopes := g :: r.scopes }
  | .slot name => { r with slots := (name, g) :: r.slots }

def remove (r : Roster) : Holder → Roster
  | .scope => { r with scopes := r.scopes.tail }
  | .slot name => { r with slots := r.slots.eraseP fun s => s.1 = name }

/-- How many of the guards will issue a counted barrier when they are ended. -/
def writers (r : Roster) : Nat :=
  (r.scopes ++ r.slots.map Prod.snd).count (.barrier .counted .write)

end Roster

def Happening.enroll (r : Roster) : Happening → Roster
  | mark (.opened holder g) _ => r.add g holder
  | mark (.closed holder _) _ => r.remove holder
  | mark (.forgotten slot _) _ => r.remove (.slot slot)
  | _ => r

def roster (r : Roster) (trace : List Happening) : Roster :=
  trace.foldl Happening.enroll r

@[simp] theorem roster_nil (r : Roster) : roster r [] = r := rfl

@[simp] theorem roster_append (r : Roster) (t₁ t₂ : List Happening) :
    roster r (t₁ ++ t₂) = roster (roster r t₁) t₂ :=
  List.foldl_append

@[simp] theorem roster_singleton (r : Roster) (x : Happening) : roster r [x] = x.enroll r := rfl

namespace Happening

def isBarrier : Happening → Bool
  | barrier .counted => true
  | _ => false

def constructs : Happening → Bool
  | mark (.opened _ (.barrier .counted _)) _ => true
  | _ => false

/-- A guard that would have issued a counted barrier on being ended has been lost here. -/
def loses : Happening → Bool
  | mark (.forgotten _ g) _ => g = .barrier .counted .write
  | _ => false

/-- A guard has been made or ended here that issues a counted barrier on that occasion. -/
def issues : Happening → Bool
  | mark (.opened _ g) _ => g = .barrier .counted .exec
  | mark (.closed _ g) _ => g = .barrier .counted .write
  | _ => false

/-- What is ended or lost is what the roster says, a guard that is asked answers as the roster says,
and one with counted barriers is made for the mode that was asked for. -/
def Told (r : Roster) : Happening → Prop
  | mark (.closed holder g) _ => r.guard? holder = some g
  | mark (.forgotten slot g) _ => r.guard? (.slot slot) = some g
  | mark (.completed (.operation (.ask (.guard slot))) reply) _ =>
    reply = (r.guard? (.slot slot)).elim .gone .ofGuard
  | mark (.completed (.operation (.hold slot .barrier mode _)) reply) _ =>
    r.guard? (.slot slot) = some (.barrier .counted mode) ∧ reply = .mode mode
  | _ => True

/-- What happens goes with the roster, and with whether a counted barrier has just been issued: this
is so where a guard is made or ended that issues one on that occasion, and nowhere else. -/
structure Accords (r : Roster) (issuing : Bool) (x : Happening) : Prop where
  issued : x.issues = issuing
  told : x.Told r

end Happening

/-- Whether a trace ends with a counted barrier. What it belongs to comes next. -/
def issuing (trace : List Happening) : Bool :=
  trace.getLast?.any Happening.isBarrier

@[simp] theorem issuing_nil : issuing [] = false := rfl

@[simp] theorem issuing_singleton (x : Happening) : issuing [x] = x.isBarrier := by
  simp [issuing]

theorem issuing_append (h : issuing t₁ = false) : issuing (t₁ ++ t₂) = issuing t₂ := by
  cases t₂ with
  | nil => simpa using h
  | cons x t₂ => simp [issuing, List.getLast?_append, List.getLast?_cons]

@[simp] theorem issuing_snoc {x : Happening} : issuing (t₁ ++ [x]) = x.isBarrier := by
  simp [issuing]

/-! ## The balance -/

theorem Roster.writers_empty : ({} : Roster).writers = 0 := rfl

theorem Roster.writers_add (r : Roster) (g : Guard) (holder : Holder) :
    (r.add g holder).writers = r.writers + if g = .barrier .counted .write then 1 else 0 := by
  cases holder with
  | scope => simp [add, writers, List.count_cons]
  | slot name =>
    simp [add, writers, List.count_cons]
    omega

theorem Roster.writers_remove {r : Roster} (h : r.guard? holder = some g) :
    (r.remove holder).writers + (if g = .barrier .counted .write then 1 else 0) = r.writers := by
  obtain ⟨scopes, slots⟩ := r
  cases holder with
  | scope =>
    obtain ⟨rest, rfl⟩ := List.head?_eq_some_iff.1 h
    simp [remove, writers, List.count_cons]
  | slot name =>
    obtain ⟨before, after, hslots, hbefore⟩ := List.lookup_eq_some_iff.1 h
    obtain rfl : slots = before ++ (name, g) :: after := hslots
    have hothers : ∀ e ∈ before, ¬decide (e.1 = name) = true := by
      intro e he hname
      have hne := hbefore e he
      simp [of_decide_eq_true hname] at hne
    rw [remove, writers, writers, List.eraseP_append_right _ hothers,
      List.eraseP_cons_of_pos (by simp)]
    simp [List.count_cons]
    omega

/-- A guard with counted barriers issues one on being made or owes one. -/
theorem Happening.constructs_opened (holder : Holder) (g : Guard) (now : Snapshot) :
    (if (mark (.opened holder g) now).constructs then 1 else 0)
      = (if g = .barrier .counted .write then 1 else 0)
        + if (mark (.opened holder g) now).issues then 1 else 0 := by
  cases g with
  | barrier b mode => cases b <;> cases mode <;> rfl
  | delegated | noop => rfl

/-- **One happening.** -/
theorem Happening.Accords.balance {r : Roster} {issuing : Bool} {x : Happening}
    (h : x.Accords r issuing) :
    (x.enroll r).writers + (if x.loses then 1 else 0) + (if x.issues then 1 else 0)
      = r.writers + if x.constructs then 1 else 0 := by
  cases x with
  | mark m now =>
    cases m with
    | opened holder g =>
      rw [enroll, Roster.writers_add, constructs_opened, Nat.add_assoc, Nat.add_assoc]
      simp [loses]
    | closed holder g => simp [enroll, loses, issues, constructs, Roster.writers_remove h.told]
    | forgotten slot g => simp [enroll, loses, issues, constructs, Roster.writers_remove h.told]
    | changed | completed => rfl
  | thread | toggle | barrier | selfCheck => rfl

/-- The barriers that have been issued are accounted for by the guards: there is one for each that
has been made, apart from those for `write` that are alive or lost. Where a barrier has just been
issued, the guard that it belongs to is about to be made or ended. -/
def Balanced (r : Roster) (trace : List Happening) : Prop :=
  trace.countP Happening.isBarrier + (roster r trace).writers + trace.countP Happening.loses
    = r.writers + trace.countP Happening.constructs + if issuing trace then 1 else 0

/-- **A run.** -/
theorem Balanced.of_accords {r : Roster}
    (h : Throughout (fun before x => x.Accords (roster r before) (issuing before)) trace) :
    Balanced r trace := by
  induction trace using List.reverseRecOn with
  | nil => simp [Balanced]
  | append_singleton trace x ih =>
    -- A barrier counts when it is issued, and the guard that it belongs to one happening later.
    obtain ⟨hfirst, hlast⟩ := Throughout.append_iff.1 h
    have hx : x.Accords (roster r trace) (issuing trace) := by simpa using hlast [] x [] rfl
    have hbefore := ih hfirst
    have hbalance := hx.balance
    simp only [Balanced, roster_append, roster_singleton, List.countP_append,
      List.countP_singleton, issuing_snoc] at hbefore ⊢
    rw [hx.issued] at hbalance
    omega

/-- It is so at every point of the run. -/
theorem Balanced.of_append {r : Roster}
    (h : Throughout (fun before x => x.Accords (roster r before) (issuing before)) (t₁ ++ t₂)) :
    Balanced r t₁ :=
  of_accords (Throughout.append_iff.1 h).1

/-! ## Stretches of a run -/

/-- The stretch takes the one roster to the other one and goes with it all along. It does not stop
between a barrier and the guard that it belongs to. -/
structure Kept (r : Roster) (trace : List Happening) (r' : Roster) : Prop where
  ended : roster r trace = r'
  settled : issuing trace = false
  accords : Throughout (fun before x => x.Accords (roster r before) (issuing before)) trace

/-- Nothing happens here that has to do with guards. -/
structure Happening.Quiet (x : Happening) : Prop where
  barrier : x.isBarrier = false
  issues : x.issues = false
  enroll : ∀ r, x.enroll r = r
  told : ∀ r, x.Told r

namespace Kept

variable {r r' r₁ r₂ : Roster} {x : Happening}

theorem nil : Kept r [] r :=
  ⟨rfl, rfl, .nil⟩

theorem append (h₁ : Kept r t₁ r₁) (h₂ : Kept r₁ t₂ r₂) : Kept r (t₁ ++ t₂) r₂ := by
  refine ⟨by rw [roster_append, h₁.ended, h₂.ended], ?_, .append h₁.accords ?_⟩
  · rw [issuing_append h₁.settled, h₂.settled]
  · refine h₂.accords.imp fun before x _ hx => ?_
    rwa [roster_append, h₁.ended, issuing_append h₁.settled]

/-- A mark, with the barrier that belongs to it. -/
theorem marked (hbarrier : x.isBarrier = false) (htold : x.Told r) :
    Kept r ((if x.issues then [.barrier .counted] else []) ++ [x]) (x.enroll r) := by
  cases hissues : x.issues with
  | false =>
    exact ⟨rfl, by simpa using hbarrier, .singleton ⟨hissues, htold⟩⟩
  | true =>
    refine ⟨rfl, ?_, Throughout.cons_iff.2 ⟨⟨rfl, True.intro⟩, .singleton ⟨?_, htold⟩⟩⟩
    · simpa [issuing] using hbarrier
    · exact hissues

/-- A reply, if it tells what the roster says. -/
theorem reply (label : Label) (reply : Reply) (now : Snapshot)
    (h : (Happening.mark (.completed label reply) now).Told r) :
    Kept r [.mark (.completed label reply) now] r :=
  marked rfl h

/-- At the end of the stretch no barrier waits for its guard. -/
theorem balanced (h : Kept r trace r') :
    trace.countP Happening.isBarrier + r'.writers + trace.countP Happening.loses
      = r.writers + trace.countP Happening.constructs := by
  have hbalance := Balanced.of_accords h.accords
  rwa [Balanced, h.ended, h.settled, if_neg Bool.false_ne_true, Nat.add_zero] at hbalance

theorem of_quiet (h : ∀ x ∈ trace, x.Quiet) : Kept r trace r := by
  induction trace with
  | nil => exact nil
  | cons x trace ih =>
    obtain ⟨hx, htrace⟩ := List.forall_mem_cons.1 h
    have hone := marked (r := r) hx.barrier (hx.told r)
    rw [hx.issues, hx.enroll] at hone
    exact hone.append (ih htrace)

end Kept

/-! ## What has nothing to do with guards -/

/-- Nothing happens that has to do with guards, and those in slots stay there. -/
def Unguarded (w : World) (trace : List Happening) (w' : World) : Prop :=
  (∀ x ∈ trace, x.Quiet) ∧ w'.slots = w.slots

namespace Unguarded

theorem law : Law Unguarded where
  refl _ := ⟨by simp, rfl⟩
  trans h₁ h₂ := ⟨List.forall_mem_append.2 ⟨h₁.1, h₂.1⟩, h₂.2.trans h₁.2⟩

theorem silent {change : World → World} (h : ∀ w, (change w).slots = w.slots) :
    Obeys Unguarded (modify change : Step Unit) :=
  .modify fun w => ⟨by simp, h w⟩

theorem happening {x : Happening} (h : x.Quiet) (w : World) : Unguarded w [x] w :=
  ⟨by simpa using h, rfl⟩

theorem mark_quiet {m : Mark} (h : ∀ now, (Happening.mark m now).Quiet) :
    Obeys Unguarded (mark m) :=
  fun w => happening (h w.snapshot) w

theorem complete {label : Label} (h : label.around) (reply : Reply) :
    Obeys Unguarded (complete label reply) := by
  refine mark_quiet fun now => ⟨rfl, rfl, fun _ => rfl, fun r => ?_⟩
  cases label with
  | operation op => cases h
  | _ => exact True.intro

theorem onThread (name : String) (x : Thread.Step α) : Obeys Unguarded (onThread name x) := by
  refine .atThread law fun w t _ => ⟨fun y hy => ?_, rfl⟩
  obtain ⟨event, -, rfl⟩ := List.mem_map.1 hy
  exact ⟨rfl, rfl, fun _ => rfl, fun _ => True.intro⟩

theorem onToggle (name : String) (x : Toggle.Step α) : Obeys Unguarded (onToggle name x) := by
  refine .atToggle law fun w t _ => ⟨fun y hy => ?_, rfl⟩
  obtain ⟨event, -, rfl⟩ := List.mem_map.1 hy
  exact ⟨rfl, rfl, fun _ => rfl, fun _ => True.intro⟩

theorem switch (failing : Bool) (name : String) (mode : Mode) :
    Obeys Unguarded (switch p failing name mode) := by
  refine .bind law (onThread name _) fun answer => ?_
  cases answer with
  | some previous => exact .pure law previous
  | none => exact .bind law (onToggle name _) fun _ => .pure law _

theorem issue : Obeys Unguarded (issue .processor) :=
  .note (happening (x := .barrier .processor) ⟨rfl, rfl, fun _ => rfl, fun _ => True.intro⟩)

theorem apart (x : Step α) : Obeys Unguarded (SelfCheck.apart x) := by
  refine fun w => ⟨fun y hy => ?_, rfl⟩
  obtain ⟨event, -, he⟩ := List.mem_filterMap.1 hy
  obtain ⟨r, -, rfl⟩ := Option.map_eq_some_iff.1 he
  exact ⟨rfl, rfl, fun _ => rfl, fun _ => True.intro⟩

theorem create {name : String} {add : World → World} (h : ∀ w, (add w).slots = w.slots) :
    Obeys Unguarded (create name add) := by
  refine silent fun w => ?_
  split
  · rfl
  · exact h w

theorem store (buffer : String) (offset : UInt64) (data : ByteArray) :
    Obeys Unguarded (Code.store buffer offset data) :=
  .bind law (silent fun _ => rfl) fun _ =>
    mark_quiet fun _ => ⟨rfl, rfl, fun _ => rfl, fun _ => True.intro⟩

theorem replace (buffer : String) (offset : UInt64) (data : ByteArray) :
    Obeys Unguarded (Code.replace buffer offset data) :=
  .bind law (silent fun _ => rfl) fun _ =>
    mark_quiet fun _ => ⟨rfl, rfl, fun _ => rfl, fun _ => True.intro⟩

/-- Guards of other kinds are made and ended without counted barriers. -/
theorem acquire {kind : Guard.Kind} (hkind : kind ≠ .barrier) (mode : Mode)
    (thread : Option String) : Obeys Unguarded (Guard.acquire p kind mode thread) :=
  Guard.acquire_obeys law
    (fun b hb => by
      cases b with
      | counted => exact absurd (hb rfl) hkind
      | processor => exact issue)
    fun _ name _ => switch false name mode

theorem release {g : Guard} (hg : g.Issues (· = .processor)) (failing : Bool) :
    Obeys Unguarded (Guard.release p failing g) := by
  refine Guard.release_obeys law (fun b mode he => ?_) fun name mode _ => switch failing name mode
  subst he
  obtain rfl : b = .processor := hg
  exact issue

end Unguarded

theorem Kept.of_unguarded {r : Roster} (h : Unguarded w trace w₁) : Kept r trace r :=
  .of_quiet h.1

/-! ## Making and ending guards -/

theorem Guard.ne_counted (h : g.Issues (· = .processor)) (mode : Mode) :
    g ≠ .barrier .counted mode := by
  rintro rfl
  cases h

theorem Guard.eq_counted_of_issues (h : ¬g.Issues (· = .processor)) :
    ∃ mode, g = .barrier .counted mode := by
  cases g with
  | barrier b mode =>
    cases b with
    | counted => exact ⟨mode, rfl⟩
    | processor => exact absurd rfl h
  | delegated | noop => exact absurd True.intro h

theorem Guard.enter_counted (holder : Holder) (mode : Mode) (thread : Option String) (w : World) :
    Guard.enter p holder .barrier mode thread w = ⟨.ok (.barrier .counted mode), w,
      (if mode = .exec then [.barrier .counted] else [])
        ++ [.mark (.opened holder (.barrier .counted mode)) w.snapshot]⟩ := by
  cases mode <;> rfl

/-- A guard is made, or this fails. It has counted barriers if it was asked for as such, and then it
is for the mode that was asked for. -/
theorem enter_kept (p : Platform) (holder : Holder) (kind : Guard.Kind) (mode : Mode)
    (thread : Option String) (w : World) :
    let q := Guard.enter p holder kind mode thread w
    q.state.slots = w.slots ∧
      (∀ g, q.outcome = .ok g → (∀ m, g = .barrier .counted m ↔ kind = .barrier ∧ mode = m) ∧
        ∀ r, Kept r q.trace (r.add g holder)) ∧
      ∀ cause, q.outcome = .error cause → ∀ r, Kept r q.trace r := by
  by_cases hkind : kind = .barrier
  · subst hkind
    rw [Guard.enter_counted]
    refine ⟨rfl, fun g hg => ?_, nofun⟩
    obtain rfl := Except.ok.inj hg
    refine ⟨fun m => by simp, fun r => ?_⟩
    have hmark := Kept.marked (r := r)
      (x := .mark (.opened holder (.barrier .counted mode)) w.snapshot) rfl True.intro
    cases mode <;> exact hmark
  · have hacquire := Unguarded.acquire (p := p) hkind mode thread w
    have hissues := Barred.elementaryLaw.acquire_issues (p := p)
      (fun h => absurd h hkind) mode thread w
    simp only [Guard.enter, bind_apply]
    generalize Guard.acquire p kind mode thread w = q at hacquire hissues
    obtain ⟨outcome, w₁, trace⟩ := q
    cases outcome with
    | error cause =>
      refine ⟨hacquire.2, fun _ hg => ?_, fun _ _ r => .of_unguarded hacquire⟩
      cases hg
    | ok g =>
      refine ⟨hacquire.2, fun g' hg => ?_, fun _ hcause => by cases hcause⟩
      obtain rfl : g = g' := Except.ok.inj hg
      refine ⟨fun m => ⟨fun h => absurd h (Guard.ne_counted (hissues g rfl) m),
        fun h => absurd h.1 hkind⟩, fun r => ?_⟩
      have hmark := Kept.marked (r := r) (x := .mark (.opened holder g) w₁.snapshot) rfl True.intro
      rw [show (Happening.mark (.opened holder g) w₁.snapshot).issues = false from
        decide_eq_false (Guard.ne_counted (hissues g rfl) .exec)] at hmark
      exact (Kept.of_unguarded hacquire).append hmark

/-- A guard is ended, and taken off the roster even where this fails. -/
theorem leave_kept (p : Platform) (holder : Holder) (failing : Bool) (w : World) {r : Roster}
    (h : r.guard? holder = some g) :
    let q := Guard.leave p holder failing g w
    q.state.slots = w.slots ∧ Kept r q.trace (r.remove holder) := by
  have hmark (now : Snapshot) := Kept.marked (x := .mark (.closed holder g) now) rfl h
  rw [Guard.leave_apply]
  by_cases hissues : g.Issues (· = .processor)
  · have hrelease := Unguarded.release (p := p) hissues failing w
    have hclosed := hmark (Guard.release p failing g w).state.snapshot
    rw [show (Happening.mark (.closed holder g) _).issues = false from
      decide_eq_false (Guard.ne_counted hissues .write)] at hclosed
    exact ⟨hrelease.2, (Kept.of_unguarded hrelease).append hclosed⟩
  · obtain ⟨mode, rfl⟩ := Guard.eq_counted_of_issues hissues
    cases mode <;> exact ⟨rfl, hmark w.snapshot⟩

/-! ## Programs -/

/-- Whatever scopes are open: they stay open, and the roster has the guards in slots. -/
def Attends (w : World) (trace : List Happening) (w' : World) : Prop :=
  ∀ scopes, Kept ⟨scopes, w.slots⟩ trace ⟨scopes, w'.slots⟩

namespace Attends

theorem law : Law Attends where
  refl _ _ := .nil
  trans h₁ h₂ scopes := (h₁ scopes).append (h₂ scopes)

theorem of_unguarded {x : Step α} (h : Obeys Unguarded x) : Obeys Attends x :=
  h.imp fun hx scopes => by
    rw [hx.2]
    exact .of_unguarded hx

theorem holdingLaw : HoldingLaw p Attends where
  law := law
  holding kind mode thread body hbody w scopes := by
    obtain ⟨hslots, hmade, hfailed⟩ := enter_kept p .scope kind mode thread w
    rcases henter : Guard.enter p .scope kind mode thread w with ⟨outcome, w₁, opening⟩
    rw [henter] at hslots hmade hfailed
    dsimp only at hslots
    cases outcome with
    | error cause =>
      rw [WriteXorExecute.holding, bracket_of_refused henter]
      dsimp only
      rw [hslots]
      exact hfailed cause rfl ⟨scopes, w.slots⟩
    | ok g =>
      -- The body leaves the scopes as they are, so that its own is the one that is left.
      have hopening := (hmade g rfl).2 ⟨scopes, w.slots⟩
      have hinside := hbody g w₁ (g :: scopes)
      obtain ⟨hslots', hclosing⟩ := leave_kept (g := g) p .scope (body g w₁).failed
        (body g w₁).state (r := ⟨g :: scopes, (body g w₁).state.slots⟩) rfl
      rw [WriteXorExecute.holding, bracket_of_acquired henter]
      dsimp only
      rw [hslots']
      rw [hslots] at hinside
      exact (hopening.append hinside).append hclosing

/-- An operation whose reply tells nothing of guards. -/
theorem step {op : Operation} {running : List String} (h : Obeys Attends (perform p running op))
    (htold : ∀ reply now r, (Happening.mark (.completed (.operation op) reply) now).Told r) :
    Obeys Attends (runStep p running op) :=
  .bind law h fun reply w _ => .reply _ reply w.snapshot (htold reply w.snapshot _)

theorem ask (running : List String) (question : Question) :
    Obeys Attends (runStep p running (.ask question)) := by
  intro w scopes
  refine .reply (.operation (.ask question)) (question.answer p w) w.snapshot ?_
  cases question with
  | guard slot => exact rfl
  | _ => exact True.intro

theorem hold (running : List String) (slot : String) (kind : Guard.Kind) (mode : Mode)
    (thread : Option String) : Obeys Attends (runStep p running (.hold slot kind mode thread)) := by
  intro w scopes
  obtain ⟨hslots, hmade, hfailed⟩ := enter_kept p (.slot slot) kind mode thread w
  simp only [runStep, perform, bind_apply]
  generalize Guard.enter p (.slot slot) kind mode thread w = q at hslots hmade hfailed
  obtain ⟨outcome, w₁, opening⟩ := q
  dsimp only at hslots
  cases outcome with
  | error cause =>
    rw [Run.andThen_error, Run.andThen_error, hslots]
    exact hfailed cause rfl ⟨scopes, w.slots⟩
  | ok g =>
    obtain ⟨hmode, hopening⟩ := hmade g rfl
    have htold : (Happening.mark (.completed (.operation (.hold slot kind mode thread))
        (.ofGuard g)) (w₁.keep slot g).snapshot).Told ⟨scopes, (slot, g) :: w₁.slots⟩ := by
      cases kind with
      | barrier =>
        obtain rfl := (hmode mode).2 ⟨rfl, rfl⟩
        exact ⟨List.lookup_cons_self, rfl⟩
      | _ => exact True.intro
    have hboth := (hopening ⟨scopes, w₁.slots⟩).append (.reply _ _ _ htold)
    rw [← hslots]
    simp only [Run.andThen_ok, bind_apply, modify_apply, pure_apply, complete,
      mark_apply, List.append_nil]
    exact hboth

theorem drop (running : List String) (slot : String) :
    Obeys Attends (perform p running (.drop slot)) := by
  intro w scopes
  simp only [perform, bind_apply, get_apply, Run.andThen_ok]
  cases hg : w.guard? slot with
  | none => exact .nil
  | some g =>
    obtain ⟨hslots, hclosing⟩ := leave_kept p (.slot slot) false (w.discard slot)
      (r := ⟨scopes, w.slots⟩) hg
    simp only [bind_apply, modify_apply, Run.andThen_ok]
    generalize Guard.leave p (.slot slot) false g (w.discard slot) = q at hslots hclosing
    obtain ⟨outcome, w₁, closing⟩ := q
    have hkept : Kept ⟨scopes, w.slots⟩ closing ⟨scopes, w₁.slots⟩ := by
      rw [hslots]
      exact hclosing
    cases outcome with
    | error cause => simpa using hkept
    | ok _ => simpa using hkept

theorem forget (running : List String) (slot : String) :
    Obeys Attends (perform p running (.forget slot)) := by
  intro w scopes
  simp only [perform, bind_apply, get_apply, Run.andThen_ok]
  cases hg : w.guard? slot with
  | none => exact .nil
  | some g =>
    exact .marked (r := ⟨scopes, w.slots⟩)
      (x := .mark (.forgotten slot g) (w.discard slot).snapshot) rfl hg

/-- The operations, with their replies. -/
theorem runStep (running : List String) (op : Operation) :
    Obeys Attends (runStep p running op) := by
  cases op with
  | ask question => exact ask running question
  | hold slot kind mode thread => exact hold running slot kind mode thread
  | drop slot => exact step (drop running slot) fun _ _ _ => True.intro
  | forget slot => exact step (forget running slot) fun _ _ _ => True.intro
  | newThread | newToggle | newBuffer =>
    refine step (of_unguarded ?_) fun _ _ _ => True.intro
    exact .bind Unguarded.law (.create fun _ => rfl) fun _ => .pure Unguarded.law _
  | init thread | assertMode thread =>
    refine step (of_unguarded ?_) fun _ _ _ => True.intro
    exact .bind Unguarded.law (.onThread thread _) fun _ => .pure Unguarded.law _
  | enable name mode =>
    refine step (of_unguarded ?_) fun _ _ _ => True.intro
    exact .bind Unguarded.law (.switch false name mode) fun _ => .pure Unguarded.law _
  | emit buffer thread data =>
    refine step ?_ fun _ _ _ => True.intro
    simp only [perform]
    split
    · exact .pure law _
    · exact .bind law (holdingLaw.emit (fun _ => of_unguarded (.store _ _ _)) thread)
        fun _ => .pure law _
  | patch buffer thread offset data =>
    refine step ?_ fun _ _ _ => True.intro
    simp only [perform]
    split
    · exact .pure law _
    · exact .bind law (holdingLaw.patch (of_unguarded (.replace _ _ _)) thread)
        fun _ => .pure law _
  | free buffer =>
    refine step ?_ fun _ _ _ => True.intro
    simp only [perform]
    split
    · exact .pure law _
    · exact .bind law (of_unguarded (.silent fun _ => rfl)) fun _ => .pure law _
  | fence mode =>
    refine step (of_unguarded ?_) fun _ _ _ => True.intro
    exact .bind Unguarded.law .issue fun _ =>
      .bind_of_returns Unguarded.law (Guard.acquireBarrier_obeys Unguarded.law .issue mode)
        (@ElementaryLaw.acquireBarrier_issues (· = .processor) .processor rfl mode) fun _ hg =>
          .bind Unguarded.law (.release hg false) fun _ => .pure Unguarded.law _
  | selfCheck check =>
    have hcheck (check : SelfCheck) : Obeys Unguarded (check.run p) :=
      SelfCheck.run_obeys Unguarded.law .apart check
    refine step (of_unguarded ?_) fun _ _ _ => True.intro
    cases check with
    | none =>
      exact .bind Unguarded.law (.mapM Unguarded.law hcheck _) fun _ => .pure Unguarded.law _
    | some check => exact .bind Unguarded.law (hcheck check) fun _ => .pure Unguarded.law _
  | panic message => exact step (.fail law _) fun _ _ _ => True.intro

theorem stepwise : StepwiseLaw p (fun _ => True) Attends where
  toHoldingLaw := holdingLaw
  step running op _ := runStep running op
  complete _ reply hlabel := of_unguarded (Unguarded.complete hlabel reply)

theorem run (running : List String) (program : Program) :
    Obeys Attends (run p running program) :=
  stepwise.run program (program.all_of_forall fun _ => True.intro) running

end Attends

/-- One of the guards that outlived their program is ended. -/
theorem endGuard_kept (p : Platform) {slot : String} {rest : List (String × Guard)}
    (h : w.slots = (slot, g) :: rest) (scopes : List Guard) :
    let q := endGuard p (slot, g) w
    q.outcome = .ok () ∧ q.state.slots = rest ∧ Kept ⟨scopes, w.slots⟩ q.trace ⟨scopes, rest⟩ := by
  have hrest : (w.discard slot).slots = rest := by simp [World.discard, h]
  have hg : (Roster.mk scopes w.slots).guard? (.slot slot) = some g := by
    rw [h]
    exact List.lookup_cons_self
  obtain ⟨hslots, hclosing⟩ := leave_kept p (.slot slot) false (w.discard slot) hg
  have hremoved : (Roster.mk scopes w.slots).remove (.slot slot) = ⟨scopes, rest⟩ :=
    congrArg (Roster.mk scopes) hrest
  have hkept := hremoved ▸ hclosing
  simp only [endGuard, bind_apply, modify_apply, Run.andThen_ok, attempt_apply]
  generalize Guard.leave p (.slot slot) false g (w.discard slot) = q at hslots hkept
  obtain ⟨outcome, w₁, closing⟩ := q
  have hreply (reply : Reply) : Kept ⟨scopes, rest⟩ _ ⟨scopes, rest⟩ :=
    .reply .ended reply w₁.snapshot True.intro
  cases outcome with
  | error cause => exact ⟨rfl, hslots.trans hrest, hkept.append (hreply _)⟩
  | ok _ => exact ⟨rfl, hslots.trans hrest, hkept.append (hreply _)⟩

theorem endGuards_kept (p : Platform) (scopes : List Guard) (w : World) :
    Kept ⟨scopes, w.slots⟩ (endGuards p w.slots w).trace ⟨scopes, []⟩ := by
  generalize hslots : w.slots = entries
  induction entries generalizing w with
  | nil => exact .nil
  | cons e rest ih =>
    obtain ⟨slot, g⟩ := e
    obtain ⟨houtcome, hrest, hkept⟩ := endGuard_kept p hslots scopes
    rw [endGuards_cons, bind_apply]
    rw [hslots] at hkept
    generalize endGuard p (slot, g) w = q at houtcome hrest hkept
    obtain ⟨outcome, w₁, closing⟩ := q
    obtain rfl : outcome = .ok () := houtcome
    exact hkept.append (ih w₁ hrest)

/-- A program that is run to its end leaves no guard alive. -/
theorem runToEnd_kept (p : Platform) (program : Program) (w : World) :
    Kept ⟨[], w.slots⟩ (runToEnd p program w).trace ⟨[], []⟩ := by
  have hrun := Attends.run (p := p) [] program w []
  simp only [runToEnd, bind_apply, attempt_apply, Run.andThen_ok]
  generalize run p [] program w = q at hrun
  obtain ⟨outcome, w₁, trace⟩ := q
  cases outcome with
  | ok _ => exact hrun.append (endGuards_kept p [] w₁)
  | error cause =>
    have hreply : Kept ⟨[], w₁.slots⟩ _ ⟨[], w₁.slots⟩ :=
      .reply .uncaught (.panicked cause) w₁.snapshot True.intro
    exact hrun.append (hreply.append (endGuards_kept p [] w₁))

/-! ## Positions -/

/-- Whether the way enters a scope whose guard will issue a counted barrier when it is ended. -/
def Frame.owes : Frame → Bool
  | inScope s _ => s.kind = .barrier ∧ s.mode = .write
  | past _ | inAttempt _ | inCode .. => false

/-- A guard is made around a body, and a reply is given. -/
theorem entered_kept {kind : Guard.Kind} {mode : Mode} {thread : Option String} {label : Label}
    {reply : Reply} {opening later : List Happening} {scopes : List Guard} {r : Roster}
    (hlabel : label.around)
    (henter : Guard.enter p .scope kind mode thread w = ⟨.ok g, w₁, opening⟩)
    (hlater : Kept ⟨g :: scopes, w₁.slots⟩ later r) :
    Kept ⟨scopes, w.slots⟩
      (opening ++ .mark (.completed label reply) w₁.snapshot :: later) r := by
  obtain ⟨hslots, hmade, -⟩ := enter_kept p .scope kind mode thread w
  rw [henter] at hslots hmade
  have hopening := (hmade g rfl).2 ⟨scopes, w.slots⟩
  rw [← hslots] at hopening ⊢
  have hreply : Kept ⟨g :: scopes, w₁.slots⟩ _ _ :=
    .of_unguarded (Unguarded.complete hlabel reply w₁)
  exact hopening.append (hreply.append hlater)

/-- At a position, the roster has the guards in slots and those of the scopes around it. -/
theorem Leads.kept {way : List Frame} {a b : Place} {before : List Happening}
    (h : Leads p way a before b) (scopes : List Guard) :
    ∃ inner, inner.count (.barrier .counted .write) = way.countP Frame.owes ∧
      Kept ⟨scopes, a.world.slots⟩ before ⟨inner ++ scopes, b.world.slots⟩ := by
  induction h generalizing scopes with
  | here a => exact ⟨[], rfl, .nil⟩
  | @past i way running w w' b first later hi _ ih =>
    obtain ⟨inner, hcount, hlater⟩ := ih scopes
    have hitem := Attends.run (p := p) running (i.followedBy .done) w scopes
    rw [← Item.run, hi] at hitem
    exact ⟨inner, hcount, hitem.append hlater⟩
  | @inScope s rest way running w w₁ b g opening later hg _ ih =>
    -- What is entered later stands above the guard of this scope.
    obtain ⟨inner, hcount, hlater⟩ := ih (g :: scopes)
    have howes : g = .barrier .counted .write ↔ s.kind = .barrier ∧ s.mode = .write := by
      have hmade := (enter_kept p .scope s.kind s.mode s.thread w).2.1
      rw [hg] at hmade
      exact (hmade g rfl).1 .write
    refine ⟨inner ++ [g], ?_, ?_⟩
    · simp [List.countP_cons, List.count_cons, hcount, howes, Frame.owes]
    · rw [List.append_assoc]
      exact entered_kept rfl hg hlater
  | @inAttempt rest way a b later _ ih => exact ih scopes
  | @inCode buffer thread rest way running w w₁ b g opening later hadmitted hg _ ih =>
    obtain ⟨inner, hcount, hlater⟩ := ih (g :: scopes)
    have howes : ¬g = .barrier .counted .write := by
      have hmade := (enter_kept p .scope .active .exec thread w).2.1
      rw [hg] at hmade
      rw [(hmade g rfl).1]
      simp
    refine ⟨inner ++ [g], ?_, ?_⟩
    · simp [hcount, howes, Frame.owes]
    · rw [List.append_assoc]
      exact entered_kept rfl hg hlater

/-! ## Every barrier has its guard -/

/-- A scope of a guard with counted barriers never fails by itself. It issues the one barrier, and
its guard tells the mode that it is for, when the body begins and when it has returned. -/
theorem runScope_of_barrier {s : Scope} (hs : s.style = .guarded .barrier) (running : List String)
    (body : Program) (w : World) : runScope p running s body w =
      let r := run p running body w
      ⟨r.outcome.map fun _ => .mode s.mode, r.state,
        (if s.mode = .exec then [.barrier .counted] else [])
          ++ .mark (.opened .scope (.barrier .counted s.mode)) w.snapshot
          :: .mark (.completed .entered (.mode s.mode)) w.snapshot :: r.trace
          ++ (if s.mode = .write then [.barrier .counted] else [])
          ++ [.mark (.closed .scope (.barrier .counted s.mode)) r.state.snapshot]⟩ := by
  obtain ⟨style, mode, thread⟩ := s
  obtain rfl : style = .guarded .barrier := hs
  rw [runScope_of_entered running body (Guard.enter_counted (p := p) .scope mode thread w)]
  dsimp only
  generalize run p running body w = r
  obtain ⟨outcome, w₁, trace⟩ := r
  cases mode <;> cases outcome <;>
    simp [Guard.release, WriteXorExecute.issue, Except.bind, Except.map, Scope.entryReply,
      Scope.exitReply, Reply.ofGuard, Guard.query]

/-- **Every barrier has its guard.** At every point of a run, the counted barriers that have been
issued are as many as the guards with counted barriers that have been made, without those for
`write` that are alive or have been lost; at a position, these are the guards of the scopes around
it and those in slots. A barrier is issued just before a guard for `exec` is there or one for
`write` is gone, and nowhere else. What is ended or lost is alive, and a guard that is asked tells
the mode that it was made for. In the end no guard is alive. -/
theorem every_barrier_has_its_guard (p : Platform) (program : Program) :
    let trace := history p program
    (∀ before after, trace = before ++ after → Balanced {} before) ∧
      (∀ way before place, Leads p way { world := .empty } before place →
        before.countP Happening.isBarrier
            + (way.countP Frame.owes
              + place.world.slots.countP fun e => e.2 = .barrier .counted .write)
            + before.countP Happening.loses
          = before.countP Happening.constructs) ∧
      Throughout (fun before x => x.Accords (roster {} before) (issuing before)) trace ∧
      (∀ (s : Scope) (running : List String) (body : Program) (w : World),
        s.style = .guarded .barrier → runScope p running s body w =
          let r := run p running body w
          ⟨r.outcome.map fun _ => .mode s.mode, r.state,
            (if s.mode = .exec then [.barrier .counted] else [])
              ++ .mark (.opened .scope (.barrier .counted s.mode)) w.snapshot
              :: .mark (.completed .entered (.mode s.mode)) w.snapshot :: r.trace
              ++ (if s.mode = .write then [.barrier .counted] else [])
              ++ [.mark (.closed .scope (.barrier .counted s.mode)) r.state.snapshot]⟩) ∧
      roster {} trace = {} ∧
        trace.countP Happening.isBarrier + trace.countP Happening.loses
          = trace.countP Happening.constructs := by
  have hkept : Kept {} (history p program) {} := runToEnd_kept p program .empty
  refine ⟨fun before after he => .of_append (he ▸ hkept.accords),
    fun way before place hlead => ?_, hkept.accords,
    fun s running body w hs => runScope_of_barrier hs running body w, hkept.ended, ?_⟩
  · obtain ⟨inner, hcount, hbefore⟩ := hlead.kept []
    have hbalance := Kept.balanced (r := {}) hbefore
    have hwriters : (Roster.mk (inner ++ []) place.world.slots).writers = way.countP Frame.owes
        + place.world.slots.countP fun e => e.2 = .barrier .counted .write := by
      rw [Roster.writers, List.append_nil, List.count_append, hcount, List.count, List.countP_map]
      rfl
    rwa [hwriters, Roster.writers_empty, Nat.zero_add] at hbalance
  · have hbalance := hkept.balanced
    rwa [Roster.writers_empty, Nat.add_zero, Nat.zero_add] at hbalance

/-- Two guards in slots that end oldest first, one that is lost, and a scope that a panic leaves. -/
def untidyProgram : Program :=
  .step (.hold "a" .barrier .write none) <|
  .step (.hold "b" .barrier .exec (some "nobody")) <|
  .step (.drop "a") <|
  .step (.hold "c" .barrier .write none) <|
  .attempt
    (.scope { style := .guarded .barrier, mode := .write, thread := none }
      (.step (.forget "c") <| .step (.panic "out") .done) .done) <|
  .step (.hold "d" .barrier .write none) .done

theorem every_barrier_has_its_guard_untidy :
    let trace := history {} untidyProgram
    trace.countP Happening.isBarrier + 1 = trace.countP Happening.constructs ∧
      trace.countP Happening.constructs = 5 := by
  intro trace
  obtain ⟨-, -, -, -, -, hbalance⟩ := every_barrier_has_its_guard {} untidyProgram
  have hloses : trace.countP Happening.loses = 1 := by decide +kernel
  exact ⟨hloses ▸ hbalance, by decide +kernel⟩

end WriteXorExecute
