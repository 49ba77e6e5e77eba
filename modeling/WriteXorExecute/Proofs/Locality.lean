import WriteXorExecute.Execution
import WriteXorExecute.Procedure.Law
/-!
# What is done to one name

Threads and toggles answer under a name, and the operations of a program say which name they mean.
Everything else leaves the thread and the toggle of that name as they are, records no event of
theirs, and makes and ends no guard that holds them.

- **Steps elsewhere** (`Untouched`): one lemma for each step that a program is made of.
- **One thread** (`Spared`): the same for the thread of a name alone, whatever is done to a toggle
  or to a guard.
-/
namespace WriteXorExecute

open Procedure

variable {α : Type} {p : Platform} {name : String}

def Guard.Kind.asks (p : Platform) : Guard.Kind → Bool
  | .delegated => true
  | .active => p.strategy = .delegated
  | .barrier | .noop => false

/-- The thread or toggle that a guard gives its mode back to. -/
def Guard.holds? : Guard → Option String
  | delegated _ thread _ => thread
  | barrier .. | noop => none

/-! ## Acting on one object -/

theorem onThread_of_none {w : World} (h : w.threads.get? name = none) (x : Thread.Step α) :
    onThread name x w = ⟨.ok none, w, []⟩ := by
  simp only [onThread, onPart, h]

theorem onThread_of_some {w : World} {t : Thread} (h : w.threads.get? name = some t)
    (x : Thread.Step α) :
    onThread name x w = ⟨((x t).outcome.map some).mapError (.thread name),
      { w with threads := w.threads.update name fun _ => (x t).state },
      (x t).trace.map (.thread name)⟩ := by
  simp only [onThread, onPart, h]

theorem onToggle_of_none {w : World} (h : w.toggles.get? name = none) (x : Toggle.Step α) :
    onToggle name x w = ⟨.ok none, w, []⟩ := by
  simp only [onToggle, onPart, h]

theorem onToggle_of_some {w : World} {t : Toggle} (h : w.toggles.get? name = some t)
    (x : Toggle.Step α) :
    onToggle name x w = ⟨((x t).outcome.map some).mapError (.toggle name),
      { w with toggles := w.toggles.update name fun _ => (x t).state },
      (x t).trace.map (.toggle name)⟩ := by
  simp only [onToggle, onPart, h]

/-- A law is obeyed on a thread if it is where the thread is there. -/
theorem Procedure.Obeys.atThread {R : World → List Happening → World → Prop} (law : Law R)
    {x : Thread.Step α} (h : ∀ w t, w.threads.get? name = some t →
      R w ((x t).trace.map (.thread name))
        { w with threads := w.threads.update name fun _ => (x t).state }) :
    Obeys R (onThread name x) := by
  intro w
  cases ht : w.threads.get? name with
  | none =>
    rw [onThread_of_none ht]
    exact law.refl w
  | some t =>
    rw [onThread_of_some ht]
    exact h w t ht

theorem Procedure.Obeys.atToggle {R : World → List Happening → World → Prop} (law : Law R)
    {x : Toggle.Step α} (h : ∀ w t, w.toggles.get? name = some t →
      R w ((x t).trace.map (.toggle name))
        { w with toggles := w.toggles.update name fun _ => (x t).state }) :
    Obeys R (onToggle name x) := by
  intro w
  cases ht : w.toggles.get? name with
  | none =>
    rw [onToggle_of_none ht]
    exact law.refl w
  | some t =>
    rw [onToggle_of_some ht]
    exact h w t ht

/-! ## Making and ending guards -/

namespace Guard

variable {R : World → List Happening → World → Prop}

theorem acquireBarrier_obeys (law : Law R) {b : Barrier} (hissue : Obeys R (issue b))
    (mode : Mode) : Obeys R (acquireBarrier b mode) := by
  unfold acquireBarrier
  split
  · exact .bind law hissue fun _ => .pure law _
  · exact .pure law _

/-- To make a guard is to ask a thread for a mode, or to issue a barrier, or to do nothing. Counted
barriers are issued by guards that are asked for as such. -/
theorem acquire_cases (p : Platform) (kind : Kind) (mode : Mode) :
    (kind.asks p ∧ ∀ thread, acquire p kind mode thread = acquireDelegated p mode thread) ∨
    (¬kind.asks p ∧ ∃ b, (b = .counted → kind = .barrier) ∧
      ∀ thread, acquire p kind mode thread = acquireBarrier b mode) ∨
    (¬kind.asks p ∧ ∀ thread, acquire p kind mode thread = pure .noop) := by
  cases kind with
  | delegated => exact .inl ⟨rfl, fun _ => rfl⟩
  | barrier => exact .inr (.inl ⟨nofun, .counted, fun _ => rfl, fun _ => rfl⟩)
  | noop => exact .inr (.inr ⟨nofun, fun _ => rfl⟩)
  | active =>
    simp only [Kind.asks, acquire]
    cases p.strategy with
    | delegated => exact .inl ⟨rfl, fun _ => rfl⟩
    | barrierOnly => exact .inr (.inl ⟨nofun, .processor, nofun, fun _ => rfl⟩)
    | noop => exact .inr (.inr ⟨nofun, fun _ => rfl⟩)

/-- Making a guard obeys a law if what this comes to does. -/
theorem acquire_obeys (law : Law R) {kind : Kind} {mode : Mode} {thread : Option String}
    (hissue : ∀ b, (b = .counted → kind = .barrier) → Obeys R (issue b))
    (hswitch : kind.asks p → ∀ name, thread = some name → Obeys R (switch p false name mode)) :
    Obeys R (acquire p kind mode thread) := by
  rcases acquire_cases p kind mode with ⟨hasks, h⟩ | ⟨-, b, hb, h⟩ | ⟨-, h⟩ <;> rw [h]
  · cases thread with
    | none => exact .pure law _
    | some name => exact .bind law (hswitch hasks name rfl) fun _ => .pure law _
  · exact acquireBarrier_obeys law (hissue b hb) mode
  · exact .pure law _

/-- So does ending one. -/
theorem release_obeys (law : Law R) {g : Guard} {failing : Bool}
    (hissue : ∀ b mode, g = .barrier b mode → Obeys R (issue b))
    (hswitch : ∀ name mode, g.holds? = some name → Obeys R (switch p failing name mode)) :
    Obeys R (release p failing g) := by
  cases g with
  | delegated mode thread previous =>
    cases thread with
    | none => exact .pure law ()
    | some name => exact .bind law (hswitch name previous rfl) fun _ => .pure law ()
  | barrier b mode =>
    simp only [release]
    split
    · exact hissue b mode rfl
    · exact .pure law ()
  | noop => exact .pure law ()

end Guard

/-! ## Self-checks -/

namespace SelfCheck

variable {R : World → List Happening → World → Prop}

theorem allOf_obeys (law : Law R) {trials : List (Step Verdict)}
    (h : ∀ trial ∈ trials, Obeys R trial) : Obeys R (allOf trials) := by
  induction trials with
  | nil => exact .pure law _
  | cons trial rest ih =>
    refine .bind law (h trial (by simp)) fun verdict => ?_
    cases verdict with
    | pass => exact ih fun trial ht => h trial (by simp [ht])
    | fail reason => exact .pure law _

/-- The self-checks work on objects of their own, or on none. -/
theorem mem_trials {check : SelfCheck} {trial : Step Verdict} (h : trial ∈ check.trials p) :
    (∃ x, trial = apart x) ∨ ∃ verdict, trial = pure verdict := by
  cases check with
  | restore =>
    simp only [trials, List.flatMap_cons, List.flatMap_nil, List.map_cons, List.map_nil,
      List.append_nil, List.mem_append, List.mem_cons, List.not_mem_nil, or_false] at h
    rcases h with (rfl | rfl) | (rfl | rfl) <;> exact .inl ⟨_, rfl⟩
  | publish =>
    obtain rfl := List.mem_singleton.1 h
    exact .inr ⟨_, rfl⟩
  | nesting | untracked | code | shared =>
    obtain rfl := List.mem_singleton.1 h
    exact .inl ⟨_, rfl⟩

theorem run_obeys (law : Law R) (hapart : ∀ {α : Type} (x : Step α), Obeys R (apart x))
    (check : SelfCheck) : Obeys R (check.run p) := by
  refine .bind law (allOf_obeys law fun trial ht => ?_) fun _ => .pure law _
  rcases mem_trials ht with ⟨x, rfl⟩ | ⟨verdict, rfl⟩
  · exact hapart x
  · exact .pure law verdict

end SelfCheck

/-! ## The thread of a name -/

/-- The thread of this name is as before, nothing has happened to it, and it was seen so all the
time. -/
structure Spared (name : String) (w : World) (trace : List Happening) (w' : World) : Prop where
  thread : w'.threads.get? name = w.threads.get? name
  events : ∀ event, .thread name event ∉ trace
  seen : ∀ m now, .mark m now ∈ trace →
    now.threads.get? name = (w.threads.get? name).map Thread.status

theorem Spared.law : Law (Spared name) where
  refl _ := ⟨rfl, by simp, by simp⟩
  trans h h' := by
    refine ⟨h'.thread.trans h.thread, fun event => ?_, fun m now hm => ?_⟩
    · simp [h.events event, h'.events event]
    · rcases List.mem_append.1 hm with hm | hm
      · exact h.seen m now hm
      · rw [h'.seen m now hm, h.thread]

/-! ## The thread and the toggle of a name, and the guards that hold them -/

/-- Neither the thread nor the toggle of this name has been touched, and no guard that gives its
mode back to it has been made, kept or ended. -/
structure Untouched (name : String) (w : World) (trace : List Happening) (w' : World) : Prop
    extends Spared name w trace w' where
  toggle : w'.toggles.get? name = w.toggles.get? name
  calls : ∀ event, .toggle name event ∉ trace
  opened : ∀ holder g now, .mark (.opened holder g) now ∈ trace → g.holds? ≠ some name
  closed : ∀ holder g now, .mark (.closed holder g) now ∈ trace → g.holds? ≠ some name
  kept : ∀ e ∈ w'.slots, e.2.holds? = some name → e ∈ w.slots

namespace Untouched

theorem law : Law (Untouched name) where
  refl w := ⟨Spared.law.refl w, rfl, by simp, by simp, by simp, fun _ he _ => he⟩
  trans h h' := by
    refine ⟨Spared.law.trans h.toSpared h'.toSpared, h'.toggle.trans h.toggle, fun event => ?_,
      fun holder g now hm => ?_, fun holder g now hm => ?_, fun e he hg => ?_⟩
    · simp [h.calls event, h'.calls event]
    · rcases List.mem_append.1 hm with hm | hm
      · exact h.opened holder g now hm
      · exact h'.opened holder g now hm
    · rcases List.mem_append.1 hm with hm | hm
      · exact h.closed holder g now hm
      · exact h'.closed holder g now hm
    · exact h.kept e (h'.kept e he hg) hg

/-- A step that records nothing. -/
theorem silent {w w' : World} (hthread : w'.threads.get? name = w.threads.get? name)
    (htoggle : w'.toggles.get? name = w.toggles.get? name)
    (hkept : ∀ e ∈ w'.slots, e.2.holds? = some name → e ∈ w.slots) : Untouched name w [] w' :=
  ⟨⟨hthread, by simp, by simp⟩, htoggle, by simp, by simp, by simp, hkept⟩

/-- A mark, unless it is of a guard that holds the name. -/
theorem marked {w : World} {m : Mark}
    (ho : ∀ holder g, m = .opened holder g → g.holds? ≠ some name)
    (hc : ∀ holder g, m = .closed holder g → g.holds? ≠ some name) :
    Untouched name w [.mark m w.snapshot] w := by
  refine ⟨⟨rfl, by simp, fun m' now h => ?_⟩, rfl, by simp, fun holder g now h => ?_,
    fun holder g now h => ?_, fun _ he _ => he⟩
  · simp only [List.mem_singleton, Happening.mark.injEq] at h
    simp [h.2, World.snapshot]
  · simp only [List.mem_singleton, Happening.mark.injEq] at h
    exact ho holder g h.1.symm
  · simp only [List.mem_singleton, Happening.mark.injEq] at h
    exact hc holder g h.1.symm

theorem mark {m : Mark} (ho : ∀ holder g, m = .opened holder g → g.holds? ≠ some name)
    (hc : ∀ holder g, m = .closed holder g → g.holds? ≠ some name) :
    Obeys (Untouched name) (mark m) :=
  fun _ => marked ho hc

theorem complete (label : Label) (reply : Reply) : Obeys (Untouched name) (complete label reply) :=
  mark (by simp) (by simp)

theorem onThread {other : String} (h : other ≠ name) (x : Thread.Step α) :
    Obeys (Untouched name) (onThread other x) := by
  refine .atThread law fun w t _ => ?_
  exact ⟨⟨Table.get?_update_of_ne h.symm, by simp [h], by simp⟩, rfl, by simp, by simp, by simp,
    fun _ he _ => he⟩

theorem onToggle {other : String} (h : other ≠ name) (x : Toggle.Step α) :
    Obeys (Untouched name) (onToggle other x) := by
  refine .atToggle law fun w t _ => ?_
  exact ⟨⟨rfl, by simp, by simp⟩, Table.get?_update_of_ne h.symm, by simp [h], by simp, by simp,
    fun _ he _ => he⟩

theorem switch {other : String} (h : other ≠ name) (failing : Bool) (mode : Mode) :
    Obeys (Untouched name) (switch p failing other mode) := by
  refine .bind law (onThread h _) fun answer => ?_
  cases answer with
  | some previous => exact .pure law previous
  | none => exact .bind law (onToggle h _) fun _ => .pure law _

theorem onBuffer (buffer : String) (change : CodeBuffer → CodeBuffer) :
    Obeys (Untouched name) (onBuffer buffer change) :=
  .modify fun _ => silent rfl rfl fun _ he _ => he

theorem store (buffer : String) (offset : UInt64) (data : ByteArray) :
    Obeys (Untouched name) (Code.store buffer offset data) :=
  .bind law (onBuffer _ _) fun _ => mark (by simp) (by simp)

theorem replace (buffer : String) (offset : UInt64) (data : ByteArray) :
    Obeys (Untouched name) (Code.replace buffer offset data) :=
  .bind law (onBuffer _ _) fun _ => mark (by simp) (by simp)

theorem keep {g : Guard} (h : g.holds? ≠ some name) (slot : String) :
    Obeys (Untouched name) (modify fun w => w.keep slot g : Step Unit) := by
  refine .modify fun w => silent rfl rfl fun e he hg => ?_
  rcases List.mem_cons.1 he with rfl | he
  · exact absurd hg h
  · exact he

theorem discard (slot : String) :
    Obeys (Untouched name) (modify fun w => w.discard slot : Step Unit) :=
  .modify fun _ => silent rfl rfl fun _ he _ => List.mem_of_mem_eraseP he

theorem apart (x : Step α) : Obeys (Untouched name) (SelfCheck.apart x) := by
  intro w
  refine ⟨⟨rfl, ?_, ?_⟩, rfl, ?_, ?_, ?_, fun _ he _ => he⟩ <;> simp [SelfCheck.apart]

theorem issue (b : Barrier) : Obeys (Untouched name) (issue b) :=
  .note fun _ => ⟨⟨rfl, by simp, by simp⟩, rfl, by simp, by simp, by simp, fun _ he _ => he⟩

theorem selfCheck (check : SelfCheck) : Obeys (Untouched name) (check.run p) :=
  SelfCheck.run_obeys law apart check

/-! ### Guards -/

theorem acquireBarrier (b : Barrier) (mode : Mode) :
    Obeys (Untouched name) (Guard.acquireBarrier b mode) :=
  Guard.acquireBarrier_obeys law (issue b) mode

theorem acquire {kind : Guard.Kind} {mode : Mode} {thread : Option String}
    (h : kind.asks p → thread ≠ some name) :
    Obeys (Untouched name) (Guard.acquire p kind mode thread) := by
  refine Guard.acquire_obeys law (fun b _ => issue b) fun hasks other hother => ?_
  refine switch (fun he => h hasks ?_) false mode
  rw [hother, he]

theorem release {g : Guard} (h : g.holds? ≠ some name) (failing : Bool) :
    Obeys (Untouched name) (Guard.release p failing g) := by
  refine Guard.release_obeys law (fun b _ _ => issue b) fun other mode hother => ?_
  refine switch (fun he => h ?_) failing mode
  rw [hother, he]

end Untouched

theorem Guard.acquireBarrier_holds (b : Barrier) (mode : Mode) :
    Returns (fun g => g.holds? = none) (acquireBarrier b mode) := by
  unfold acquireBarrier
  split
  · exact .bind fun _ => .pure rfl
  · exact .pure rfl

/-- A guard gives its mode back to the thread that it was asked for, if it asks one at all. -/
theorem Guard.acquire_holds (kind : Guard.Kind) (mode : Mode) (thread : Option String) :
    Returns (fun g => g.holds? = if kind.asks p then thread else none)
      (Guard.acquire p kind mode thread) := by
  rcases acquire_cases p kind mode with ⟨hasks, h⟩ | ⟨hasks, b, -, h⟩ | ⟨hasks, h⟩ <;>
    simp only [h, hasks, if_true, Bool.false_eq_true, if_false]
  · cases thread with
    | none => exact .pure rfl
    | some name => exact .bind fun _ => .pure rfl
  · exact acquireBarrier_holds b mode
  · exact .pure rfl

theorem Guard.acquire_of_asks {kind : Guard.Kind} (h : kind.asks p) (mode : Mode)
    (thread : Option String) : acquire p kind mode thread = acquireDelegated p mode thread := by
  rcases acquire_cases p kind mode with ⟨-, hacquire⟩ | ⟨hasks, -⟩ | ⟨hasks, -⟩
  · exact hacquire thread
  · exact absurd h hasks
  · exact absurd h hasks

theorem Guard.acquire_of_not_asks {kind : Guard.Kind} (h : ¬kind.asks p) (mode : Mode)
    (thread thread' : Option String) :
    acquire p kind mode thread = acquire p kind mode thread' := by
  rcases acquire_cases p kind mode with ⟨hasks, -⟩ | ⟨-, b, -, hacquire⟩ | ⟨-, hacquire⟩
  · exact absurd hasks h
  · rw [hacquire, hacquire]
  · rw [hacquire, hacquire]

theorem Guard.eq_delegated_of_holds {g : Guard} (h : g.holds? = some name) :
    ∃ mode previous, g = .delegated mode (some name) previous := by
  cases g with
  | delegated mode thread previous =>
    obtain rfl : thread = some name := h
    exact ⟨mode, previous, rfl⟩
  | barrier | noop => simp [holds?] at h

/-- What `Guard.acquire_holds` says, of a guard with a holder. -/
theorem Guard.enter_holds (holder : Holder) (kind : Guard.Kind) (mode : Mode)
    (thread : Option String) :
    Returns (fun g => g.holds? = if kind.asks p then thread else none)
      (Guard.enter p holder kind mode thread) :=
  .bind_of_returns (acquire_holds kind mode thread) fun _ hg => .bind fun _ => .pure hg

theorem Guard.holds_ne {g : Guard} {kind : Guard.Kind} {thread : Option String}
    (hg : g.holds? = if kind.asks p then thread else none)
    (h : kind.asks p → thread ≠ some name) : g.holds? ≠ some name := by
  rw [hg]
  split
  · exact h ‹_›
  · simp

namespace Untouched

theorem enter {kind : Guard.Kind} {mode : Mode} {thread : Option String}
    (h : kind.asks p → thread ≠ some name) (holder : Holder) :
    Obeys (Untouched name) (Guard.enter p holder kind mode thread) := by
  refine .bind_of_returns law (acquire h) (Guard.acquire_holds kind mode thread) fun g hg =>
    .bind law (mark ?_ (by simp)) fun _ => .pure law g
  intro holder' g' he
  cases he
  exact Guard.holds_ne hg h

theorem leave {g : Guard} (h : g.holds? ≠ some name) (holder : Holder) (failing : Bool) :
    Obeys (Untouched name) (Guard.leave p holder failing g) := by
  refine .bind law (.attempt (release h failing)) fun ending =>
    .bind law (mark (by simp) ?_) fun _ => .ofOutcome law ending
  intro holder' g' he
  cases he
  exact h

theorem forget (running : List String) (slot : String) :
    Obeys (Untouched name) (perform p running (.forget slot)) := by
  have hlaw : Law (Untouched name) := Untouched.law
  refine .bind hlaw (.get hlaw) fun w => ?_
  split
  · exact .pure hlaw _
  · exact .bind hlaw (.discard slot) fun _ =>
      .bind hlaw (.mark (by simp) (by simp)) fun _ => .pure hlaw _

theorem hold (running : List String) {slot : String} {kind : Guard.Kind} {mode : Mode}
    {thread : Option String} (h : kind.asks p → thread ≠ some name) :
    Obeys (Untouched name) (perform p running (.hold slot kind mode thread)) := by
  have hlaw : Law (Untouched name) := Untouched.law
  exact .bind_of_returns hlaw (.enter h _) (Guard.enter_holds _ kind mode thread) fun g hg =>
    .bind hlaw (.keep (Guard.holds_ne hg h) slot) fun _ => .pure hlaw _

theorem fence (running : List String) (mode : Mode) :
    Obeys (Untouched name) (perform p running (.fence mode)) := by
  refine .bind law (issue .processor) fun _ => .bind_of_returns law (acquireBarrier _ mode)
    (Guard.acquireBarrier_holds _ mode) fun g hg =>
      .bind law (release ?_ false) fun _ => .pure law _
  simp [hg]

end Untouched

end WriteXorExecute
