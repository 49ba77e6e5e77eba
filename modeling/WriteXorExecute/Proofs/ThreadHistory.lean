import WriteXorExecute.Proofs.Locality
import WriteXorExecute.Proofs.ProgramLaw
import WriteXorExecute.Proofs.Throughout
import WriteXorExecute.Thread.Nesting
/-!
# The history of one thread

Whatever a program does, a thread is only changed by being initialised and by being asked for modes.
So a law that these obey is obeyed by the thread over every run, from its making on, and what the
marks of a run show of the thread is what the law says of the events up to there.

- **Threads in programs** (`Follows.run`, `Follows.runToEnd`): a law of what is done to a thread
  becomes a law of programs.
-/
namespace WriteXorExecute

open Procedure

variable {α : Type} {p : Platform} {name : String}

def Happening.ofThread? (name : String) : Happening → Option Thread.Event
  | thread other event => if other = name then some event else none
  | _ => none

def threadEvents (name : String) (trace : List Happening) : List Thread.Event :=
  trace.filterMap (·.ofThread? name)

@[simp] theorem threadEvents_nil : threadEvents name [] = [] := rfl

@[simp] theorem threadEvents_append (t₁ t₂ : List Happening) :
    threadEvents name (t₁ ++ t₂) = threadEvents name t₁ ++ threadEvents name t₂ :=
  List.filterMap_append

@[simp] theorem threadEvents_map (events : List Thread.Event) :
    threadEvents name (events.map (.thread name)) = events := by
  induction events with
  | nil => rfl
  | cons event events ih => simp_all [threadEvents, Happening.ofThread?]

theorem threadEvents_eq_nil {trace : List Happening} (h : ∀ event, .thread name event ∉ trace) :
    threadEvents name trace = [] := by
  refine List.filterMap_eq_nil_iff.2 fun x hx => ?_
  cases x with
  | thread other event =>
    have : other ≠ name := fun he => h event (he ▸ hx)
    simp [Happening.ofThread?, this]
  | toggle | barrier | selfCheck | mark => rfl

/-! ## Laws of a thread that may not have been made yet -/

/-- Nothing has happened to the thread yet. -/
structure Thread.Fresh (t : Thread) : Prop where
  mode : t.mode = none
  transitions : t.transitions = 0
  calls : t.calls = 0

/-- What a law says of a thread under a name. Where there was none, nothing has happened to it, or
it has been made on the way. -/
def Thread.Lives (L : Thread → List Thread.Event → Thread → Prop) :
    Option Thread → List Thread.Event → Option Thread → Prop
  | none, events, none => events = []
  | none, events, some t' => ∃ t, Fresh t ∧ L t events t'
  | some t, events, some t' => L t events t'
  | some _, _, none => False

variable {L : Thread → List Thread.Event → Thread → Prop}

theorem Thread.Lives.law (law : Law L) : Law (Lives L) where
  refl t := by
    cases t with
    | none => exact rfl
    | some t => exact law.refl t
  trans {t₁ t₂ t₃ e₁ e₂} h₁ h₂ := by
    cases t₁ with
    | none =>
      cases t₂ with
      | none =>
        obtain rfl : e₁ = [] := h₁
        exact h₂
      | some t₂ =>
        cases t₃ with
        | none => exact h₂.elim
        | some t₃ =>
          obtain ⟨t, hfresh, h₁⟩ := h₁
          exact ⟨t, hfresh, law.trans h₁ h₂⟩
    | some t₁ =>
      cases t₂ with
      | none => exact h₁.elim
      | some t₂ =>
        cases t₃ with
        | none => exact h₂.elim
        | some t₃ => exact law.trans h₁ h₂

/-- The thread of this name obeys the law, and so does what each mark shows of it. -/
structure Follows (L : Thread → List Thread.Event → Thread → Prop) (name : String) (w : World)
    (trace : List Happening) (w' : World) : Prop where
  thread : Thread.Lives L (w.threads.get? name) (threadEvents name trace) (w'.threads.get? name)
  seen : Throughout (fun before x => ∀ m now, x = .mark m now →
    ∃ t, Thread.Lives L (w.threads.get? name) (threadEvents name before) t ∧
      now.threads.get? name = t.map Thread.status) trace

namespace Follows

theorem law (h : Law L) : Law (Follows L name) where
  refl w := ⟨(Thread.Lives.law h).refl _, .nil⟩
  trans {w₁ w₂ w₃ t₁ t₂} h₁ h₂ := by
    refine ⟨?_, .append h₁.seen (h₂.seen.imp ?_)⟩
    · rw [threadEvents_append]
      exact (Thread.Lives.law h).trans h₁.thread h₂.thread
    · intro before x _ hx m now hm
      obtain ⟨t, ht, hnow⟩ := hx m now hm
      refine ⟨t, ?_, hnow⟩
      rw [threadEvents_append]
      exact (Thread.Lives.law h).trans h₁.thread ht

theorem of_spared (h : Law L) {w w' : World} {trace : List Happening}
    (hs : Spared name w trace w') : Follows L name w trace w' := by
  have refl := (Thread.Lives.law h).refl (w.threads.get? name)
  refine ⟨?_, ?_⟩
  · rw [threadEvents_eq_nil hs.events, hs.thread]
    exact refl
  · intro before x after he m now hm
    refine ⟨w.threads.get? name, ?_, hs.seen m now (by simp [he, hm])⟩
    rw [threadEvents_eq_nil fun event hevent => hs.events event (by simp [he, hevent])]
    exact refl

theorem of_untouched (h : Law L) {x : Step α} (hx : Obeys (Untouched name) x) :
    Obeys (Follows L name) x :=
  hx.imp fun hu => of_spared h hu.toSpared

theorem onThread (h : Law L) {x : Thread.Step α} (hx : Obeys L x) :
    Obeys (Follows L name) (onThread name x) := by
  refine .atThread (law h) fun w t ht => ⟨?_, .of_mem fun before y hy m now hm => ?_⟩
  · simpa [ht, Thread.Lives] using hx t
  · simp [hm] at hy

/-- What is done to a toggle is not done to the thread. -/
theorem onToggle (h : Law L) (other : String) (x : Toggle.Step α) :
    Obeys (Follows L name) (onToggle other x) :=
  .atToggle (law h) fun _ _ _ => of_spared h ⟨rfl, by simp, by simp⟩

theorem mark (h : Law L) (m : Mark) : Obeys (Follows L name) (mark m) := by
  intro w
  refine of_spared h ⟨rfl, by simp [WriteXorExecute.mark], fun m' now hm => ?_⟩
  simp only [WriteXorExecute.mark, bind_apply, get_apply, Run.andThen_ok, note_apply,
    List.nil_append, List.mem_singleton, Happening.mark.injEq] at hm
  simp [hm.2, World.snapshot]

/-- A thread that is made obeys every law from then on. -/
theorem newThread (h : Law L) (other : String) {t : Thread} (ht : t.Fresh) :
    Obeys (Follows L name)
      (create other fun w => { w with threads := w.threads.add other t }) := by
  intro w
  simp only [WriteXorExecute.create, modify_apply]
  split
  · exact (law h).refl w
  · rename_i hknows
    by_cases hother : other = name
    · subst hother
      have hnone : w.threads.get? other = none := by
        simp only [World.knows, Table.contains, Bool.or_eq_true, not_or] at hknows
        simpa using hknows.1.1
      refine ⟨?_, .nil⟩
      simp only [threadEvents_nil, Table.get?_add_self, hnone, Option.getD_none]
      exact ⟨t, ht, h.refl t⟩
    · exact of_spared h ⟨Table.get?_add_of_ne (Ne.symm hother), by simp, by simp⟩

/-- Making something that is no thread. -/
theorem create (h : Law L) (other : String) {add : World → World}
    (hadd : ∀ w, (add w).threads = w.threads) :
    Obeys (Follows L name) (WriteXorExecute.create other add) := by
  intro w
  refine of_spared h ⟨?_, by simp [WriteXorExecute.create], by simp [WriteXorExecute.create]⟩
  simp only [WriteXorExecute.create, modify_apply]
  split
  · rfl
  · rw [hadd]

/-! ### From uses of a thread to programs -/

section

variable (h : Thread.UseLaw p L)

include h

theorem switch (failing : Bool) (other : String) (mode : Mode) :
    Obeys (Follows L name) (switch p failing other mode) := by
  by_cases hother : other = name
  · subst hother
    refine .bind (law h.law) (onThread h.law (h.enable failing mode)) fun answer => ?_
    cases answer with
    | some previous => exact .pure (law h.law) previous
    | none => exact .bind (law h.law) (onToggle h.law other _) fun _ => .pure (law h.law) _
  · exact of_untouched h.law (.switch hother failing mode)

theorem acquire (kind : Guard.Kind) (mode : Mode) (thread : Option String) :
    Obeys (Follows L name) (Guard.acquire p kind mode thread) :=
  Guard.acquire_obeys (law h.law) (fun b _ => of_untouched h.law (.issue b)) fun _ other _ =>
    switch h false other mode

theorem leave (holder : Holder) (failing : Bool) (g : Guard) :
    Obeys (Follows L name) (Guard.leave p holder failing g) := by
  have release : Obeys (Follows L name) (Guard.release p failing g) :=
    Guard.release_obeys (law h.law) (fun b _ _ => of_untouched h.law (.issue b)) fun other mode _ =>
      switch h failing other mode
  exact .bind (law h.law) (.attempt release) fun ending =>
    .bind (law h.law) (mark h.law _) fun _ => .ofOutcome (law h.law) ending

theorem enter (holder : Holder) (kind : Guard.Kind) (mode : Mode) (thread : Option String) :
    Obeys (Follows L name) (Guard.enter p holder kind mode thread) :=
  .bind (law h.law) (acquire h kind mode thread) fun g =>
    .bind (law h.law) (mark h.law _) fun _ => .pure (law h.law) g

theorem programLaw : ProgramLaw p (Follows L name) where
  law := law h.law
  complete _ _ := mark h.law _
  holding kind mode thread _ hbody :=
    .bracket (law h.law) (enter h .scope kind mode thread) (.trivial _)
      (fun failing g _ => leave h .scope failing g) hbody

theorem perform (running : List String) (op : Operation) :
    Obeys (Follows L name) (perform p running op) := by
  have hlaw : Law (Follows L name) := law h.law
  cases op with
  | newThread other backend initialMode checkAtSync =>
    exact .bind hlaw (newThread h.law other ⟨rfl, rfl, rfl⟩) fun _ => .pure hlaw _
  | newToggle other toggle =>
    exact .bind hlaw (create h.law other fun _ => rfl) fun _ => .pure hlaw _
  | newBuffer other maxSize =>
    exact .bind hlaw (create h.law other fun _ => rfl) fun _ => .pure hlaw _
  | init thread =>
    refine .bind hlaw ?_ fun _ => .pure hlaw _
    by_cases ht : thread = name
    · exact ht ▸ onThread h.law (h.init false)
    · exact of_untouched h.law (.onThread ht _)
  | enable other mode => exact .bind hlaw (switch h false other mode) fun _ => .pure hlaw _
  | assertMode thread mode =>
    refine .bind hlaw ?_ fun _ => .pure hlaw _
    by_cases ht : thread = name
    · exact ht ▸ onThread h.law (Thread.assertMode_obeys h.law mode)
    · exact of_untouched h.law (.onThread ht _)
  | hold slot kind mode thread =>
    exact .bind hlaw (enter h _ kind mode thread) fun g =>
      .bind hlaw (.modify fun w => of_spared h.law ⟨rfl, by simp, by simp⟩) fun _ => .pure hlaw _
  | drop slot =>
    refine .bind hlaw (.get hlaw) fun w => ?_
    split
    · exact .pure hlaw _
    · exact .bind hlaw (of_untouched h.law (.discard slot)) fun _ =>
        .bind hlaw (leave h _ false _) fun _ => .pure hlaw _
  | ask | forget | emit | patch | free | fence | selfCheck | panic =>
    exact (programLaw h).perform_unaddressed (of_untouched h.law) running _ rfl

/-- **Threads in programs.** -/
theorem run (running : List String) (program : Program) :
    Obeys (Follows L name) (run p running program) :=
  (programLaw h).run (fun running op _ => perform h running op) program
    (program.all_of_forall fun _ => True.intro) running

theorem runToEnd (program : Program) : Obeys (Follows L name) (runToEnd p program) :=
  (programLaw h).runToEnd (perform h) (fun slot => of_untouched h.law (.discard slot))
    (fun holder g => leave h holder false g) program

end

end Follows

end WriteXorExecute
