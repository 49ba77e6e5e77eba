import WriteXorExecute.Proofs.Counterpart
import WriteXorExecute.Proofs.ThreadHistory
/-!
# Guards that ask no thread

A guard that issues barriers, or does nothing, is given a thread as every other guard is. It does
not ask it for anything: with another thread, or with none, the whole run is the same. Where a guard
would ask, it can be given no thread, and then it asks none.

So a program that initialises no thread, asks none for a mode, and gives none to a guard that would
ask it, leaves every thread and every toggle alone. That holds however its guards are nested, lost
or ended by panics, and whatever the threads and toggles would do if they were asked.

- **Another thread, or none** (`Detachment.counterparts`): what is not asked can be exchanged.
- **Out of reach** (`Aloof.counterparts`): what is not given is left alone.
-/
namespace WriteXorExecute

open Procedure Correspondence

variable {α : Type} {p : Platform} {slots : String → Prop} {w w₀ : World}

/-! ## Another thread, or none -/

/-- The thread that a guard of this kind asks, if it is given this one. -/
def Guard.Kind.asked (p : Platform) (kind : Guard.Kind) (thread : Option String) : Option String :=
  if kind.asks p then thread else none

/-- A guard that does not ask can be given any thread, or none. -/
def Platform.detachment (p : Platform) : Dictionary where
  plain op op' := op = op'
  thread kind thread thread' := kind.asks p → thread = thread'

theorem Guard.Kind.asked_congr {kind : Guard.Kind} {thread thread' : Option String}
    (h : kind.asks p → thread = thread') : kind.asked p thread = kind.asked p thread' := by
  unfold asked
  split
  · exact h ‹_›
  · rfl

/-- The operation, without a thread that it does not ask. -/
def Operation.detached (p : Platform) : Operation → Operation
  | hold slot kind mode thread => hold slot kind mode (kind.asked p thread)
  | emit buffer thread data => emit buffer (Guard.Kind.active.asked p thread) data
  | patch buffer thread offset data => patch buffer (Guard.Kind.active.asked p thread) offset data
  | op => op

theorem Operation.Matches.detached {op op' : Operation} (h : op.Matches p.detachment op') :
    op.detached p = op'.detached p := by
  cases h with
  | hold _ hthread | emit _ hthread | patch _ hthread =>
    simp only [Operation.detached, Guard.Kind.asked_congr hthread]
  | drop | forget | free => rfl
  | plain _ h => exact congrArg _ h

def Happening.detached (p : Platform) : Happening → Happening
  | mark (.completed (.operation op) reply) now =>
    mark (.completed (.operation (op.detached p)) reply) now
  | happening => happening

/-- Two runs that end alike, leave the same world, and differ at most in what is said of threads
that were not asked. -/
structure SameAnswer (p : Platform) (r r' : Run World Happening Panic α) : Prop where
  outcome : r.outcome = r'.outcome
  state : r.state = r'.state
  trace : r.trace.map (Happening.detached p) = r'.trace.map (Happening.detached p)

namespace Detachment

def unasked (p : Platform) : Correspondence World Happening Happening where
  states := Eq
  seen happening := [happening.detached p]

theorem same (x : Step α) : (unasked p).Mirrors Eq x x := by
  rintro w _ rfl
  exact ⟨.of_eq rfl, rfl, rfl⟩

theorem of_alike {r r' : Run World Happening Panic α} (h : (unasked p).Alike Eq r r') :
    SameAnswer p r r' :=
  ⟨h.outcome.eq, h.states, h.map_eq (fun _ => rfl) fun _ => rfl⟩

theorem told {op op' : Operation} (h : op.Matches p.detachment op') (reply : Reply) :
    (unasked p).Mirrors Eq (complete (.operation op) reply) (complete (.operation op') reply) := by
  rintro w _ rfl
  refine ⟨.ok rfl, rfl, ?_⟩
  simp [complete, unasked, Happening.detached, h.detached]

theorem enter (holder : Holder) (kind : Guard.Kind) (mode : Mode) {thread thread' : Option String}
    (h : kind.asks p → thread = thread') :
    Guard.enter p holder kind mode thread = Guard.enter p holder kind mode thread' := by
  by_cases hasks : kind.asks p
  · rw [h hasks]
  · rw [Guard.enter, Guard.acquire_of_not_asks hasks mode thread thread', Guard.enter]

/-- **Another thread, or none.** -/
theorem counterparts (p : Platform) : Counterparts p p p.detachment Eq (unasked p) .none where
  enter holder kind mode _ _ hthread := by
    rw [enter holder kind mode hthread]
    exact (same _).unless
  leave holder failing g _ hg := hg ▸ (same (Guard.leave p holder failing g)).unless
  guard {w _ slot} _ hw := by
    subst hw
    cases w.guard? slot with
    | none => exact .none
    | some g => exact .some rfl
  keep _ hg hw := by rw [hg, hw]; rfl
  discard _ hw := congrArg (World.discard · _) hw
  forgotten slot g _ hg := hg ▸ same (mark (.forgotten slot g))
  buffer _ hw := congrArg (World.buffer · _) hw
  onBuffer _ _ := same _
  changed _ _ := same _
  plain running op _ _ hop := hop ▸ (same (runStep p running op)).unless
  told reply _ _ _ hop := told hop reply
  held slot mode {kind thread thread' g g'} hthread hg := hg ▸ told (.hold True.intro hthread) _
  entered s g _ hg := hg ▸ same (complete .entered (s.entryReply g))
  left s g _ hg := hg ▸ same (complete .left (s.exitReply g))
  around _ _ _ := same _
  panicked _ hcause := hcause.elim

end Detachment

/-! ## Out of reach -/

/-- The guard has not asked a thread, and will ask none. A guard that is asked for a mode without
one gives `write` as the mode before. -/
def Guard.Unlent : Guard → Prop
  | delegated _ thread previous => thread = none ∧ previous = .write
  | barrier .. | noop => True

theorem Guard.Unlent.holds_none {g : Guard} (h : g.Unlent) : g.holds? = none := by
  cases g with
  | delegated => exact h.1
  | barrier | noop => rfl

/-- No thread is initialised or asked for a mode, and none is given to a guard that would ask it.
The guards that are ended are in these slots. -/
def Operation.Aloof (p : Platform) (slots : String → Prop) : Operation → Prop
  | init _ | enable .. => False
  | hold slot kind _ thread => slots slot ∧ (kind.asks p → thread = none)
  | drop slot | forget slot => slots slot
  | emit _ thread _ | patch _ thread _ _ => Guard.Kind.active.asks p → thread = none
  | _ => True

def Program.Aloof (p : Platform) (slots : String → Prop) : Program → Prop
  | .done => True
  | .step op rest => op.Aloof p slots ∧ rest.Aloof p slots
  | .scope s body rest =>
    (s.kind.asks p → s.thread = none) ∧ body.Aloof p slots ∧ rest.Aloof p slots
  | .attempt body rest => body.Aloof p slots ∧ rest.Aloof p slots
  | .execute _ thread body rest =>
    (Guard.Kind.active.asks p → thread = none) ∧ body.Aloof p slots ∧ rest.Aloof p slots

/-- What a thread tells in a world, or what it would tell if it were new. -/
def World.statusOrNew (w : World) (name : String) : Thread.Status :=
  ((w.threads.get? name).map Thread.status).getD ⟨none, 0⟩

/-- The threads and toggles of the world `w₀` are as they were, and new threads have no mode. The
guards in these slots ask no thread. -/
structure World.Spares (slots : String → Prop) (w₀ w : World) : Prop where
  threads : ∀ name t, w₀.threads.get? name = some t → w.threads.get? name = some t
  toggles : ∀ name t, w₀.toggles.get? name = some t → w.toggles.get? name = some t
  made : ∀ name t, w.threads.get? name = some t → t.status = w₀.statusOrNew name
  unlent : ∀ e ∈ w.slots, slots e.1 → e.2.Unlent

/-- Nothing is done to a thread or to a toggle; every thread is seen as it was in the world `w₀`, or
without a mode if it is new; and a guard that is made, ended or lost has asked no thread. -/
def Happening.Spares (w₀ : World) : Happening → Prop
  | thread .. | toggle .. => False
  | mark m now =>
    (∀ name status, now.threads.get? name = some status → status = w₀.statusOrNew name) ∧
      match m with
      | .opened _ g | .closed _ g | .forgotten _ g => g.Unlent
      | .changed .. | .completed .. => True
  | _ => True

structure LeavesAlone (slots : String → Prop) (w₀ : World) (r : Run World Happening Panic α) :
    Prop where
  events : ∀ happening ∈ r.trace, happening.Spares w₀
  state : w₀.Spares slots r.state

theorem World.spares_self (h : ∀ e ∈ w₀.slots, slots e.1 → e.2.Unlent) : w₀.Spares slots w₀ where
  threads _ _ ht := ht
  toggles _ _ ht := ht
  made name t ht := by simp [statusOrNew, ht]
  unlent := h

namespace Aloof

/-- The programs that are aloof match themselves. -/
def dictionary (p : Platform) (slots : String → Prop) : Dictionary where
  plain op op' := op = op' ∧ op.Aloof p slots
  thread kind thread thread' := thread = thread' ∧ (kind.asks p → thread = none)
  slot := slots

theorem matches_op {op : Operation} (h : op.Aloof p slots) :
    op.Matches (dictionary p slots) op := by
  cases op with
  | hold => exact .hold h.1 ⟨rfl, h.2⟩
  | drop => exact .drop h
  | forget => exact .forget h
  | emit => exact .emit True.intro ⟨rfl, h⟩
  | patch => exact .patch True.intro ⟨rfl, h⟩
  | free => exact .free True.intro
  | ask | newThread | newToggle | newBuffer | init | enable | assertMode | fence | selfCheck
  | panic => exact .plain rfl ⟨rfl, h⟩

theorem matches_program {program : Program} (h : program.Aloof p slots) :
    program.Matches (dictionary p slots) program := by
  induction program with
  | done => exact .done
  | step op rest ih => exact .step (matches_op h.1) (ih h.2)
  | scope s body rest ihb ihr => exact .scope ⟨rfl, h.1⟩ (ihb h.2.1) (ihr h.2.2)
  | attempt body rest ihb ihr => exact .attempt (ihb h.1) (ihr h.2)
  | execute buffer thread body rest ihb ihr =>
    exact .execute True.intro ⟨rfl, h.1⟩ (ihb h.2.1) (ihr h.2.2)

def sparing (slots : String → Prop) (w₀ : World) : Correspondence World Happening Prop :=
  within (World.Spares slots w₀) (Happening.Spares w₀)

theorem impartial : (sparing slots w₀).Impartial := by
  intro happening hunder
  cases happening with
  | thread | toggle | mark => exact hunder.elim
  | barrier | selfCheck => rfl

/-- What changes neither threads nor toggles nor slots. -/
theorem modify {change : World → World}
    (h : ∀ w, w₀.Spares slots w → w₀.Spares slots (change w)) :
    (sparing slots w₀).Mirrors Eq (modify change : Step Unit) (modify change) :=
  .modify fun _ _ hw => ⟨congrArg change hw.1, h _ hw.2⟩

theorem mark {m : Mark} (h : ∀ now : Snapshot,
    (∀ name status, now.threads.get? name = some status → status = w₀.statusOrNew name) →
    (Happening.mark m now).Spares w₀) :
    (sparing slots w₀).Mirrors Eq (mark m) (mark m) := by
  refine .of_stays (fun _ _ _ _ => rfl) fun w hw => ⟨fun happening hmem => ?_, hw⟩
  rw [mark_apply, List.mem_singleton] at hmem
  rw [hmem]
  refine h _ fun name status hstatus => ?_
  rw [World.snapshot, Table.get?_map] at hstatus
  obtain ⟨t, ht, rfl⟩ := Option.map_eq_some_iff.1 hstatus
  exact hw.made name t ht

theorem complete (label : Label) (reply : Reply) :
    (sparing slots w₀).Mirrors Eq (complete label reply) (complete label reply) :=
  mark fun _ hnow => ⟨hnow, True.intro⟩

/-! ### Guards -/

theorem acquire {kind : Guard.Kind} {thread : Option String} (h : kind.asks p → thread = none)
    (mode : Mode) : (sparing slots w₀).Mirrors (fun g g' => g = g' ∧ g.Unlent)
      (Guard.acquire p kind mode thread) (Guard.acquire p kind mode thread) := by
  rcases Guard.acquire_cases p kind mode with ⟨hasks, hmake⟩ | ⟨-, b, -, hmake⟩ | ⟨-, hmake⟩ <;>
    rw [hmake]
  · obtain rfl : thread = none := h hasks
    exact .pure ⟨rfl, rfl, rfl⟩
  · unfold Guard.acquireBarrier
    split
    · exact (impartial.issue b).bind_same fun _ => .pure ⟨rfl, True.intro⟩
    · exact .pure ⟨rfl, True.intro⟩
  · exact .pure ⟨rfl, True.intro⟩

theorem enter {kind : Guard.Kind} {thread : Option String} (h : kind.asks p → thread = none)
    (holder : Holder) (mode : Mode) : (sparing slots w₀).Mirrors (fun g g' => g = g' ∧ g.Unlent)
      (Guard.enter p holder kind mode thread) (Guard.enter p holder kind mode thread) := by
  refine (acquire h mode).bind fun g g' hg => ?_
  obtain ⟨rfl, hunlent⟩ := hg
  exact (mark fun _ hnow => ⟨hnow, hunlent⟩).bind_same fun _ => .pure ⟨rfl, hunlent⟩

theorem leave {g : Guard} (h : g.Unlent) (holder : Holder) (failing : Bool) :
    (sparing slots w₀).Mirrors Eq (Guard.leave p holder failing g)
      (Guard.leave p holder failing g) := by
  refine (impartial.release failing h.holds_none).attempt.bind fun ending ending' hending => ?_
  exact (mark fun _ hnow => ⟨hnow, h⟩).bind_same fun _ => .ofOutcome hending

/-! ### Objects -/

/-- What is made does not take the place of anything. -/
theorem create {name : String} {add : World → World}
    (h : ∀ w, w₀.Spares slots w → w.knows name = false → w₀.Spares slots (add w)) :
    (sparing slots w₀).Mirrors Eq (create name add) (create name add) := by
  refine modify fun w hw => ?_
  cases hknows : w.knows name with
  | true => simpa [hknows] using hw
  | false => simpa [hknows] using h w hw hknows

theorem spares_addThread {name : String} {t : Thread} (ht : t.Fresh) (h : w₀.Spares slots w)
    (hknows : w.knows name = false) :
    w₀.Spares slots { w with threads := w.threads.add name t } := by
  have hnone : w.threads.get? name = none := by
    simp only [World.knows, Table.contains, Bool.or_eq_false_iff] at hknows
    simpa using hknows.1.1
  have hnone₀ : w₀.threads.get? name = none := by
    cases ht₀ : w₀.threads.get? name with
    | none => rfl
    | some t₀ => simp [h.threads name t₀ ht₀] at hnone
  refine ⟨fun other t₀ ht₀ => ?_, h.toggles, fun other t₁ ht₁ => ?_, h.unlent⟩
  · have hother : other ≠ name := fun he => by simp [he, hnone₀] at ht₀
    exact (Table.get?_add_of_ne hother).trans (h.threads other t₀ ht₀)
  · by_cases hother : other = name
    · subst hother
      obtain rfl : t = t₁ := by simpa [Table.get?_add_self, hnone] using ht₁
      simp [World.statusOrNew, hnone₀, Thread.status, ht.mode, ht.transitions]
    · rw [Table.get?_add_of_ne hother] at ht₁
      exact h.made other t₁ ht₁

theorem spares_addToggle {name : String} {t : Toggle} (h : w₀.Spares slots w)
    (hknows : w.knows name = false) :
    w₀.Spares slots { w with toggles := w.toggles.add name t } := by
  have hnone : w.toggles.get? name = none := by
    simp only [World.knows, Table.contains, Bool.or_eq_false_iff] at hknows
    simpa using hknows.1.2
  refine ⟨h.threads, fun other t₀ ht₀ => ?_, h.made, h.unlent⟩
  have hother : other ≠ name := fun he => by simp [he ▸ h.toggles other t₀ ht₀] at hnone
  exact (Table.get?_add_of_ne hother).trans (h.toggles other t₀ ht₀)

/-- An assertion leaves the thread as it is, and so the world. -/
theorem assertMode (thread : String) (mode : Mode) :
    (sparing slots w₀).Mirrors Eq (onThread thread (Thread.assertMode p mode))
      (onThread thread (Thread.assertMode p mode)) := by
  refine .of_stays (fun _ _ _ _ => rfl) fun w hw => ?_
  cases ht : w.threads.get? thread with
  | none =>
    rw [onThread_of_none ht]
    exact ⟨by simp, hw⟩
  | some t =>
    obtain ⟨hevents, hstate⟩ := Thread.assertMode_same (p := p) mode t
    rw [onThread_of_some ht, hevents, hstate]
    have hget (other : String) :
        (w.threads.update thread fun _ => t).get? other = w.threads.get? other := by
      rw [Table.get?_update]
      split
      · rename_i hother
        simp [hother, ht]
      · rfl
    exact ⟨by simp, fun other t₀ ht₀ => (hget other).trans (hw.threads other t₀ ht₀), hw.toggles,
      fun other t₁ ht₁ => hw.made other t₁ ((hget other).symm.trans ht₁), hw.unlent⟩

theorem plain (running : List String) {op : Operation} (hplain : op.isPlain = true)
    (hop : op.Aloof p slots) :
    (sparing slots w₀).Mirrors Eq (perform p running op) (perform p running op) := by
  cases op with
  | ask question => exact .of_stays (fun _ _ _ _ => rfl) fun w hw => ⟨by simp [perform], hw⟩
  | newThread name backend initialMode checkAtSync =>
    exact (create fun w hw hknows => spares_addThread ⟨rfl, rfl, rfl⟩ hw hknows).bind_same
      fun _ => .pure rfl
  | newToggle name toggle =>
    exact (create fun w hw hknows => spares_addToggle hw hknows).bind_same fun _ => .pure rfl
  | newBuffer name maxSize =>
    refine (create fun w hw _ => ?_).bind_same fun _ => .pure rfl
    exact ⟨hw.threads, hw.toggles, hw.made, hw.unlent⟩
  | assertMode thread mode => exact (assertMode thread mode).bind_same fun _ => .pure rfl
  | fence mode => exact impartial.fence running mode
  | selfCheck check => exact impartial.selfChecks running check
  | panic message => exact .fail _
  | init | enable => exact hop.elim
  | hold | drop | forget | emit | patch | free => cases hplain

/-- **Out of reach.** -/
theorem counterparts (p : Platform) (slots : String → Prop) (w₀ : World) :
    Counterparts p p (dictionary p slots) (fun g g' => g = g' ∧ g.Unlent) (sparing slots w₀)
      .none where
  enter holder kind mode _ _ hthread := by
    obtain ⟨rfl, hasks⟩ := hthread
    exact (enter hasks holder mode).unless
  leave holder failing _ _ hg := hg.1 ▸ (leave hg.2 holder failing).unless
  guard {w _ slot} hslot hw := by
    obtain ⟨rfl, hw⟩ := hw
    cases hg : w.guard? slot with
    | none => exact .none
    | some g => exact .some ⟨rfl, hw.unlent _ (World.mem_of_guard hg) hslot⟩
  keep {w _ slot g _} hslot hg hw := by
    obtain ⟨rfl, hw⟩ := hw
    obtain ⟨rfl, hunlent⟩ := hg
    refine ⟨rfl, hw.threads, hw.toggles, hw.made, fun e he hslot' => ?_⟩
    rcases List.mem_cons.1 he with rfl | he
    · exact hunlent
    · exact hw.unlent e he hslot'
  discard _ hw := by
    obtain ⟨rfl, hw⟩ := hw
    exact ⟨rfl, hw.threads, hw.toggles, hw.made,
      fun e he => hw.unlent e (List.mem_of_mem_eraseP he)⟩
  forgotten slot _ _ hg := hg.1 ▸ mark fun _ hnow => ⟨hnow, hg.2⟩
  buffer _ hw := by rw [hw.1]
  onBuffer _ _ := modify fun _ hw => ⟨hw.threads, hw.toggles, hw.made, hw.unlent⟩
  changed _ _ := mark fun _ hnow => ⟨hnow, True.intro⟩
  plain running op _ hplain hop := by
    obtain ⟨rfl, haloof⟩ := hop
    exact ((plain running hplain haloof).bind_same fun reply => complete _ reply).unless
  told reply _ _ hplain hop := by
    obtain rfl := hop.eq_of hplain fun _ _ _ h => h.1
    exact complete _ reply
  held slot mode _ _ _ g _ hthread hg := by
    obtain ⟨rfl, -⟩ := hthread
    exact hg.1 ▸ complete _ (.ofGuard g)
  entered s g _ hg := hg.1 ▸ complete .entered (s.entryReply g)
  left s g _ hg := hg.1 ▸ complete .left (s.exitReply g)
  around label reply _ := complete label reply
  panicked _ hcause := hcause.elim

/-- Whatever is aloof leaves the threads and the toggles alone. -/
theorem leavesAlone {x : Step Unit} (h : (sparing slots w₀).MirrorsUnless .none Eq x x)
    (hslots : ∀ e ∈ w₀.slots, slots e.1 → e.2.Unlent) : LeavesAlone slots w₀ (x w₀) :=
  have hstays := h.mirrors.stays (World.spares_self hslots)
  ⟨hstays.1, hstays.2⟩

end Aloof

/-! ## Programs -/

/-- **Programs.** Threads that are given to guards that do not ask them can be exchanged for others,
or for none, in any world: what happens, what is answered and what is left are the same. And a
program that asks no thread leaves the threads and toggles of any world alone, as long as the guards
that it ends have asked none either; from the empty world on, it has threads without a mode only. -/
theorem unasked_threads_are_spared (p : Platform) :
    (∀ program program' : Program, program.Matches p.detachment program' → ∀ w,
      (∀ running, SameAnswer p (run p running program w) (run p running program' w)) ∧
        SameAnswer p (runToEnd p program w) (runToEnd p program' w)) ∧
    (∀ slots program w, program.Aloof p slots → (∀ e ∈ w.slots, slots e.1 → e.2.Unlent) →
      ∀ running, LeavesAlone slots w (run p running program w)) ∧
    ∀ program w, program.Aloof p (fun _ => True) → (∀ e ∈ w.slots, e.2.Unlent) →
      LeavesAlone (fun _ => True) w (runToEnd p program w) := by
  refine ⟨fun program program' hmatch w => ⟨fun running => ?_, ?_⟩,
    fun slots program w haloof hslots running => ?_, fun program w haloof hslots => ?_⟩
  · have hrun := (Detachment.counterparts p).run hmatch running
    exact Detachment.of_alike (hrun.mirrors w w rfl)
  · have hslots {w w' : World} (hw : w = w') :
        List.Forall₂ (fun e e' => e.1 = e'.1 ∧ e.2 = e'.2) w.slots w'.slots :=
      hw ▸ List.forall₂_same.2 fun _ _ => ⟨rfl, rfl⟩
    have hrun := (Detachment.counterparts p).runToEnd (fun _ => True.intro) (fun _ _ => hslots)
      hmatch
    exact Detachment.of_alike (hrun.mirrors w w rfl)
  · exact Aloof.leavesAlone ((Aloof.counterparts p slots w).run (Aloof.matches_program haloof)
      running) hslots
  · have hkept {v v' : World} (hv : v = v' ∧ w.Spares (fun _ => True) v) :
        List.Forall₂ (fun e e' => e.1 = e'.1 ∧ e.2 = e'.2 ∧ e.2.Unlent) v.slots v'.slots :=
      hv.1 ▸ List.forall₂_same.2 fun e he => ⟨rfl, rfl, hv.2.unlent e he True.intro⟩
    have hrun := (Aloof.counterparts p (fun _ => True) w).runToEnd (fun _ => True.intro)
      (fun _ _ => hkept) (Aloof.matches_program haloof)
    exact Aloof.leavesAlone hrun fun e he _ => hslots e he

/-- A thread whose backend would fail is lent to guards, scopes and operations on code, some of them
ended by a panic. -/
def lendingProgram (thread : Option String) : Program :=
  .step (.newThread "t" (.scripted [⟨0, .fail⟩]) none none) <|
  .step (.newBuffer "b" none) <|
  .step (.hold "g" .active .exec thread) <|
  .attempt (.scope ⟨.closure, .write, thread⟩
    (.step (.emit "b" thread ⟨#[0xC3]⟩) (.step (.panic "stop") .done)) .done) <|
  .execute "b" thread .done .done

/-- Where guards issue barriers, the thread may as well not be there. It stays without a mode. -/
theorem unasked_threads_are_spared_lending :
    (lendingProgram (some "t")).Matches (Platform.detachment { forceBarriers := true })
        (lendingProgram none) ∧
      SameAnswer { forceBarriers := true }
        (runToEnd { forceBarriers := true } (lendingProgram (some "t")) .empty)
        (runToEnd { forceBarriers := true } (lendingProgram none) .empty) ∧
      (lendingProgram (some "t")).Aloof { forceBarriers := true } (fun _ => True) ∧
      LeavesAlone (fun _ => True) .empty
        (runToEnd { forceBarriers := true } (lendingProgram (some "t")) .empty) := by
  have hasks (thread thread' : Option String) :
      Guard.Kind.active.asks { forceBarriers := true } → thread = thread' := by
    intro hasks
    cases hasks
  have hmatch : (lendingProgram (some "t")).Matches (Platform.detachment { forceBarriers := true })
      (lendingProgram none) :=
    .step (.plain rfl rfl) <| .step (.plain rfl rfl) <| .step (.hold True.intro (hasks _ _)) <|
      .attempt (.scope (hasks _ _) (.step (.emit True.intro (hasks _ _))
        (.step (.plain rfl rfl) .done)) .done) <|
      .execute True.intro (hasks _ _) .done .done
  have haloof : (lendingProgram (some "t")).Aloof { forceBarriers := true } (fun _ => True) := by
    refine ⟨True.intro, True.intro, ⟨True.intro, hasks _ _⟩, ?_, hasks _ _, True.intro, True.intro⟩
    exact ⟨hasks _ _, ⟨hasks _ _, True.intro, True.intro⟩, True.intro⟩
  obtain ⟨hexchange, -, haside⟩ := unasked_threads_are_spared { forceBarriers := true }
  exact ⟨hmatch, (hexchange _ _ hmatch .empty).2, haloof,
    haside _ .empty haloof fun e he => by cases he⟩

end WriteXorExecute
