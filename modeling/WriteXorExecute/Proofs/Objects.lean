import Mathlib.Data.List.Nodup
import WriteXorExecute.Proofs.Brackets
import WriteXorExecute.Proofs.Position
/-!
# Properties of objects that last

A property of the objects of a world lasts if what is done to one thread or one toggle keeps it.
Guards and code do not matter for it. Such a property then outlasts every program that makes no
object without it.

- **From objects to programs** (`Lasting.stepwise`).
- **Objects that fail nothing** (`World.Calm`): threads whose backends keep still, and toggles that
  do not fail any more. Then no guard fails either, and it is ended in the same way while a failure
  is on its way and otherwise (`World.Calm.release`).
-/
namespace WriteXorExecute

open Procedure

variable {p : Platform} {name : String} {mode : Mode} {w : World}

/-- A property of worlds goes on holding. -/
def Keeps (good : World → Prop) (w : World) (_ : List Happening) (w' : World) : Prop :=
  good w → good w'

theorem Keeps.law {good : World → Prop} : Law (Keeps good) where
  refl _ h := h
  trans h h' hgood := h' (h hgood)

/-- A property of the objects of a world that is kept by what is done to one of them. -/
structure Lasting (good : World → Prop) : Prop where
  thread : ∀ {w name t t' events}, good w → w.threads.get? name = some t →
    Thread.Onward t events t' → good (w.withThread name t')
  toggle : ∀ {w name t mode}, good w → w.toggles.get? name = some t →
    good (w.withToggle name (t.called mode))
  buffers : ∀ {w} buffers, good w → good { w with buffers }
  slots : ∀ {w} slots, good w → good { w with slots }

namespace Lasting

variable {good : World → Prop} (h : Lasting good)

include h

theorem elementaryLaw : ElementaryLaw p (fun _ => True) (Keeps good) where
  law := Keeps.law
  processor := True.intro
  issue _ _ _ hgood := hgood
  mark _ _ _ hgood := hgood
  onThread _ _ hx := .atThread Keeps.law fun _ t ht hgood => h.thread hgood ht (hx t)
  onToggle name failing mode := by
    refine .atToggle Keeps.law fun w t ht hgood => ?_
    rw [Toggle.enable_apply]
    exact h.toggle hgood ht
  apart _ _ hgood := hgood
  keep _ _ _ _ hgood := h.slots _ hgood
  discard _ _ hgood := h.slots _ hgood
  others _ hissues := absurd (Guard.issues_of_forall (fun _ => True.intro) _) hissues

theorem holdingLaw : HoldingLaw p (Keeps good) :=
  h.elementaryLaw.holdingLaw True.intro

theorem enter (holder : Holder) (kind : Guard.Kind) (mode : Mode) (thread : Option String) :
    Obeys (Keeps good) (Guard.enter p holder kind mode thread) :=
  h.elementaryLaw.enter (fun _ => True.intro) holder mode thread

/-- **From objects to programs.** It suffices that the objects that are made have the property. -/
theorem stepwise {kind : Operation → Prop}
    (hmake : ∀ running op, kind op → op.makes = true →
      Obeys (Keeps good) (perform p running op)) : StepwiseLaw p kind (Keeps good) := by
  have hlaw : ProgramLaw p (Keeps good) := ⟨h.holdingLaw, fun _ _ _ hgood => hgood⟩
  refine hlaw.stepwise fun running op hop => ?_
  cases hmakes : op.makes with
  | true => exact hmake running op hop hmakes
  | false =>
    exact h.elementaryLaw.perform h.holdingLaw running
      (Operation.issues_of_forall (fun _ => True.intro) op) hmakes
      fun buffer _ change w hgood => h.buffers _ hgood

end Lasting

/-! ## Tables -/

/-- What is in a table to which something has been added was there before, or is what was added. -/
theorem Table.of_get?_add {α : Type} {t : Table α} {other : String} {a b : α}
    (h : (t.add name a).get? other = some b) :
    t.get? other = some b ∨ other = name ∧ b = a := by
  by_cases hname : other = name
  · subst hname
    rw [Table.get?_add_self, Option.some.injEq] at h
    cases hother : t.get? other with
    | none => exact .inr ⟨rfl, by simpa [hother] using h.symm⟩
    | some c => exact .inl (by simpa [hother] using h)
  · rw [Table.get?_add_of_ne hname] at h
    exact .inl h

/-- No name is that of two objects. -/
def Table.Distinct {α : Type} (t : Table α) : Prop :=
  (t.entries.map (·.1)).Nodup

namespace Table.Distinct

variable {α : Type} {t : Table α}

theorem update (h : t.Distinct) (name : String) (change : α → α) :
    (t.update name change).Distinct := by
  have hkeys : (t.update name change).entries.map (·.1) = t.entries.map (·.1) := by
    simp only [Table.update, List.map_map]
    refine List.map_congr_left fun e _ => ?_
    simp only [Function.comp_apply]
    split <;> rfl
  rw [Distinct, hkeys]
  exact h

theorem add (h : t.Distinct) (name : String) (a : α) : (t.add name a).Distinct := by
  unfold Table.add
  split
  · exact h
  · rename_i hfree
    have hnew : name ∉ t.entries.map (·.1) := by
      intro hmem
      obtain ⟨⟨key, b⟩, hb, rfl⟩ := List.mem_map.1 hmem
      refine hfree ?_
      cases hget : t.get? key with
      | some _ => simp [contains, hget]
      | none =>
        have := List.lookup_eq_none_iff.1 hget (key, b) hb
        simp at this
    rw [Distinct, List.map_append, List.nodup_append]
    refine ⟨h, by simp, ?_⟩
    rintro key hkey other hother rfl
    obtain rfl : key = name := by simpa using hother
    exact hnew hkey

/-- An object that is replaced by itself leaves the table as it is. -/
theorem update_self (h : t.Distinct) {name : String} {a : α} (ha : t.get? name = some a) :
    t.update name (fun _ => a) = t := by
  obtain ⟨entries⟩ := t
  obtain ⟨before, after, hentries, -⟩ := List.lookup_eq_some_iff.1 ha
  have hmem : (name, a) ∈ entries := by
    simp only at hentries
    simp [hentries]
  have hentry : ∀ e ∈ entries, (if e.1 = name then (e.1, a) else e) = e := by
    intro e he
    split
    · rename_i hname
      exact (List.inj_on_of_nodup_map h he hmem hname) ▸ rfl
    · rfl
  rw [Table.update, List.map_congr_left hentry, List.map_id']

end Table.Distinct

namespace World

theorem lasting_distinct : Lasting fun w => w.threads.Distinct where
  thread h _ _ := h.update _ _
  toggle h _ := h
  buffers _ h := h
  slots _ h := h

theorem make_distinct (running : List String) {op : Operation} (hmakes : op.makes = true) :
    Obeys (Keeps fun w => w.threads.Distinct) (perform p running op) := by
  intro w h
  cases op with
  | newThread name backend initialMode checkAtSync =>
    simp only [perform, create, bind_apply, modify_apply, Run.andThen_ok, pure_apply]
    split
    · exact h
    · exact h.add name _
  | newToggle name toggle =>
    simp only [perform, create, bind_apply, modify_apply, Run.andThen_ok, pure_apply]
    split <;> exact h
  | newBuffer name maxSize =>
    simp only [perform, create, bind_apply, modify_apply, Run.andThen_ok, pure_apply]
    split <;> exact h
  | _ => simp [Operation.makes] at hmakes

/-- In every run, no name becomes that of two threads. -/
theorem stepwise_distinct :
    StepwiseLaw p (fun _ => True) (Keeps fun w => w.threads.Distinct) :=
  lasting_distinct.stepwise fun running _ _ hmakes => make_distinct running hmakes

end World

/-! ## Kinds of objects -/

/-- What the threads and toggles of each name are like. It outlasts what is done to them. -/
structure Kinds where
  thread : String → Thread → Prop
  toggle : String → Toggle → Prop
  onward : ∀ {name t events t'}, Thread.Onward t events t' → thread name t → thread name t'
  called : ∀ {name t} mode, toggle name t → toggle name (t.called mode)

structure World.Of (k : Kinds) (w : World) : Prop where
  threads : ∀ name t, w.threads.get? name = some t → k.thread name t
  toggles : ∀ name t, w.toggles.get? name = some t → k.toggle name t

def Operation.Of (p : Platform) (k : Kinds) : Operation → Prop
  | newThread name backend initialMode checkAtSync =>
    k.thread name { backend, config := .requested p initialMode checkAtSync }
  | newToggle name toggle => k.toggle name toggle
  | _ => True

namespace World.Of

variable {k : Kinds}

theorem lasting : Lasting (World.Of k) where
  thread {w name t t' events} h ht honward := by
    refine ⟨fun other t₁ ht₁ => ?_, h.toggles⟩
    by_cases hname : other = name
    · subst hname
      rw [World.withThread_self ht, Option.some.injEq] at ht₁
      exact ht₁ ▸ k.onward honward (h.threads other t ht)
    · rw [World.withThread, Table.get?_update_of_ne hname] at ht₁
      exact h.threads other t₁ ht₁
  toggle {w name t mode} h ht := by
    refine ⟨h.threads, fun other t₁ ht₁ => ?_⟩
    by_cases hname : other = name
    · subst hname
      rw [World.withToggle, Table.get?_update_self, ht, Option.map_some, Option.some.injEq] at ht₁
      exact ht₁ ▸ k.called mode (h.toggles other t ht)
    · rw [World.withToggle, Table.get?_update_of_ne hname] at ht₁
      exact h.toggles other t₁ ht₁
  buffers _ h := ⟨h.threads, h.toggles⟩
  slots _ h := ⟨h.threads, h.toggles⟩

theorem make (running : List String) {op : Operation} (hop : op.Of p k)
    (hmakes : op.makes = true) : Obeys (Keeps (World.Of k)) (perform p running op) := by
  cases op with
  | newThread name backend initialMode checkAtSync =>
    refine .bind Keeps.law (.modify fun w h => ?_) fun _ => .pure Keeps.law _
    split
    · exact h
    · refine ⟨fun other t ht => ?_, h.toggles⟩
      rcases Table.of_get?_add ht with ht | ⟨rfl, rfl⟩
      · exact h.threads other t ht
      · exact hop
  | newToggle name toggle =>
    refine .bind Keeps.law (.modify fun w h => ?_) fun _ => .pure Keeps.law _
    split
    · exact h
    · refine ⟨h.threads, fun other t ht => ?_⟩
      rcases Table.of_get?_add ht with ht | ⟨rfl, rfl⟩
      · exact h.toggles other t ht
      · exact hop
  | newBuffer name maxSize =>
    refine .bind Keeps.law (.modify fun w h => ?_) fun _ => .pure Keeps.law _
    split
    · exact h
    · exact lasting.buffers _ h
  | _ => simp [Operation.makes] at hmakes

theorem stepwise : StepwiseLaw p (Operation.Of p k) (Keeps (World.Of k)) :=
  lasting.stepwise fun running _ hop hmakes => make running hop hmakes

end World.Of

/-! ## Objects that fail nothing -/

/-- From now on, no call of the toggle fails. -/
def Toggle.Reliable (t : Toggle) : Prop :=
  ∀ n ∈ t.failures, n < t.calls

theorem Toggle.Reliable.called {t : Toggle} (h : t.Reliable) (mode : Mode) :
    (t.called mode).Reliable :=
  fun n hn => Nat.lt_succ_of_lt (h n hn)

/-- A thread whose backend keeps still is asked in the same way while a failure is on its way and
otherwise. -/
theorem Thread.Still.enable_eq {t : Thread} (h : t.Still) (failing : Bool) (mode : Mode) :
    Thread.enable p failing mode t = Thread.enable p false mode t ∧
      (Thread.enable p failing mode t).outcome = .ok t.baseMode := by
  cases hm : t.mode with
  | some found =>
    rw [Thread.enable_of_still h hm, Thread.enable_of_still h hm]
    refine ⟨rfl, ?_⟩
    split <;> simp [Thread.baseMode, hm]
  | none =>
    rw [Thread.enable_of_still_of_none h hm, Thread.enable_of_still_of_none h hm]
    refine ⟨rfl, ?_⟩
    dsimp only
    split <;> simp [Thread.baseMode, hm]

/-- No backend does anything inside its calls, and no toggle fails. -/
def Kinds.calm : Kinds where
  thread _ := Thread.Still
  toggle _ := Toggle.Reliable
  onward honward h := h.onward honward
  called mode h := h.called mode

/-- The objects of the world are calm, and no name is that of two threads. -/
structure World.Calm (w : World) : Prop extends w.Of .calm where
  distinct : w.threads.Distinct

theorem World.calm_empty : World.empty.Calm where
  threads name t ht := by simp [empty] at ht
  toggles name t ht := by simp [empty] at ht
  distinct := List.nodup_nil

def Operation.Calm : Operation → Prop
  | newThread _ backend _ _ => backend.script = []
  | newToggle _ toggle => toggle.Reliable
  | _ => True

theorem Operation.Calm.of_calm {op : Operation} (h : op.Calm) : op.Of p .calm := by
  cases op with
  | newThread name backend initialMode checkAtSync =>
    have hscript : backend.script = [] := h
    exact Thread.still_of_script (by simp [hscript])
  | newToggle name toggle => exact h
  | _ => exact True.intro

namespace World.Calm

theorem lasting : Lasting World.Calm where
  thread h ht honward :=
    ⟨World.Of.lasting.thread h.toOf ht honward, lasting_distinct.thread h.distinct ht honward⟩
  toggle h ht := ⟨World.Of.lasting.toggle h.toOf ht, h.distinct⟩
  buffers _ h := ⟨World.Of.lasting.buffers _ h.toOf, h.distinct⟩
  slots _ h := ⟨World.Of.lasting.slots _ h.toOf, h.distinct⟩

theorem make (running : List String) {op : Operation} (hop : op.Calm) (hmakes : op.makes = true) :
    Obeys (Keeps World.Calm) (perform p running op) :=
  fun w h => ⟨World.Of.make running hop.of_calm hmakes w h.toOf,
    make_distinct running hmakes w h.distinct⟩

theorem stepwise : StepwiseLaw p Operation.Calm (Keeps World.Calm) :=
  lasting.stepwise fun running _ hop hmakes => make running hop hmakes

/-- A program without objects that fail leaves the world without them. -/
theorem run {running : List String} {program : Program} (h : w.Calm)
    (hprogram : program.All Operation.Calm) : (run p running program w).state.Calm :=
  stepwise.run program hprogram running w h

/-- A name is asked in the same way while a failure is on its way and otherwise. It answers. -/
theorem switch (h : w.Calm) (failing : Bool) (name : String) (mode : Mode) :
    WriteXorExecute.switch p failing name mode w = WriteXorExecute.switch p false name mode w ∧
      ∃ answer, (WriteXorExecute.switch p failing name mode w).outcome = .ok answer := by
  cases ht : w.threads.get? name with
  | some t =>
    obtain ⟨hsame, hanswer⟩ := (h.threads name t ht).enable_eq (p := p) failing mode
    rw [switch_of_thread ht, switch_of_thread ht, ← hsame]
    exact ⟨rfl, t.baseMode, by simp only [hanswer, mapError_ok]⟩
  | none =>
    cases hd : w.toggles.get? name with
    | some d =>
      have htoggles : w.Toggles name d := ⟨ht, hd⟩
      have hreliable : d.calls ∉ d.failures := fun hmem =>
        Nat.lt_irrefl _ (h.toggles name d hd _ hmem)
      rw [switch_of_toggle htoggles, switch_of_toggle htoggles]
      simp [Toggle.enable_apply, hreliable]
    | none =>
      simp only [WriteXorExecute.switch, bind_apply, onThread_of_none ht, onToggle_of_none hd,
        Run.andThen_ok, pure_apply, Option.getD_none]
      exact ⟨trivial, .write, rfl⟩

/-- So is a guard ended. -/
theorem release (h : w.Calm) (failing : Bool) (g : Guard) :
    Guard.release p failing g w = Guard.release p false g w ∧
      (Guard.release p failing g w).outcome = .ok () := by
  cases g with
  | delegated mode thread previous =>
    cases thread with
    | none => exact ⟨rfl, rfl⟩
    | some name =>
      obtain ⟨hsame, answer, hanswer⟩ := h.switch (p := p) failing name previous
      simp only [Guard.release, bind_apply, Run.andThen_return]
      rw [← hsame, hanswer]
      exact ⟨rfl, rfl⟩
  | barrier b mode =>
    refine ⟨rfl, ?_⟩
    simp only [Guard.release]
    split <;> rfl
  | noop => exact ⟨rfl, rfl⟩

end World.Calm

end WriteXorExecute
