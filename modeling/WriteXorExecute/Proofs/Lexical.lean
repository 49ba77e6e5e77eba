import WriteXorExecute.Proofs.Locality
import WriteXorExecute.Proofs.ProgramLaw
import WriteXorExecute.Proofs.Switching
import WriteXorExecute.Thread.Law
/-!
# Lexical programs

A program treats a thread or a toggle lexically if it changes its mode by scopes only, apart from
the initialisation of a thread. Operations on code count as scopes. Guards in slots may hold others,
and whatever is done to others is not restricted.

- **From scopes to programs** (`LexicalLaw.run`): to know what a lexical program does to a name, it
  suffices to know what initialisation does and what a scope does around a body.
-/
namespace WriteXorExecute

open Procedure

variable {α : Type} {p : Platform} {name : String} {kept : List (String × Guard)}

/-- The operation does not change the mode of what has this name, unless it initialises it. The
guards in `kept` may hold the name, and are not ended. -/
def Operation.Lexical (p : Platform) (name : String) (kept : List (String × Guard)) :
    Operation → Prop
  | enable other _ => other ≠ name
  | hold _ kind _ thread => kind.asks p → thread ≠ some name
  | drop slot => ∀ g, (slot, g) ∈ kept → g.holds? ≠ some name
  | _ => True

def Program.Lexical (p : Platform) (name : String) (kept : List (String × Guard))
    (program : Program) : Prop :=
  program.All (Operation.Lexical p name kept)

/-- The name is that of a thread or a toggle, and the slots hold no more guards on it than those
in `kept`. -/
structure World.Stands (name : String) (kept : List (String × Guard)) (w : World) : Prop where
  known : (w.threads.get? name).isSome ∨ (w.toggles.get? name).isSome
  slots : ∀ e ∈ w.slots, e.2.holds? = some name → e ∈ kept

/-- The name is left alone by what happens in a world in which it stands. -/
def Apart (name : String) (kept : List (String × Guard)) (w : World) (trace : List Happening)
    (w' : World) : Prop :=
  w.Stands name kept → Untouched name w trace w'

theorem World.Stands.untouched {w w' : World} {trace : List Happening} (h : w.Stands name kept)
    (hu : Untouched name w trace w') : w'.Stands name kept := by
  refine ⟨?_, fun e he hg => h.slots e (hu.kept e he hg) hg⟩
  rw [hu.thread, hu.toggle]
  exact h.known

namespace Apart

theorem of_untouched {x : Step α} (hx : Obeys (Untouched name) x) : Obeys (Apart name kept) x :=
  fun w _ => hx w

/-- What is made does not take the place of what has the name. -/
theorem create (other : String) {add : World → World}
    (hadd : ∀ w, other ≠ name → Untouched name w [] (add w)) :
    Obeys (Apart name kept) (create other add) := by
  intro w hstands
  simp only [WriteXorExecute.create, modify_apply]
  split
  · exact Untouched.law.refl w
  · rename_i hknows
    refine hadd w fun hother => hknows ?_
    rw [hother]
    rcases hstands.known with h | h <;> simp [World.knows, Table.contains, h]

/-- An assertion changes nothing, whatever it is about. -/
theorem assertMode (thread : String) (mode : Mode) :
    Obeys (Apart name kept) (onThread thread (Thread.assertMode p mode)) := by
  refine of_untouched (.atThread Untouched.law fun w t ht => ?_)
  obtain ⟨hevents, hstate⟩ := Thread.assertMode_same (p := p) mode t
  rw [hevents, hstate]
  refine .silent ?_ rfl fun _ he _ => he
  simp only [Table.get?_update]
  split
  · rename_i hname
    simp [hname, ht]
  · rfl

/-- A guard is ended that may be ended. -/
theorem drop (running : List String) {slot : String}
    (h : ∀ g, (slot, g) ∈ kept → g.holds? ≠ some name) :
    Obeys (Apart name kept) (perform p running (.drop slot)) := by
  intro w hstands
  have hlaw : Law (Untouched name) := Untouched.law
  simp only [perform, bind_apply, get_apply, Run.andThen_ok, List.nil_append]
  cases hslot : w.guard? slot with
  | none => exact hlaw.refl w
  | some g =>
    have hmem : (slot, g) ∈ w.slots := World.mem_of_guard hslot
    have hg : g.holds? ≠ some name := fun hg => h g (hstands.slots _ hmem hg) hg
    exact (.bind hlaw (.discard slot) fun _ => .bind hlaw (.leave hg _ false) fun _ =>
      .pure hlaw _ : Obeys (Untouched name) _) w

end Apart

/-! ## Names go on standing -/

def Standing (name : String) (kept : List (String × Guard)) (w : World) (_ : List Happening)
    (w' : World) : Prop :=
  w.Stands name kept → w'.Stands name kept

namespace Standing

theorem law : Law (Standing name kept) where
  refl _ h := h
  trans h h' hstands := h' (h hstands)

theorem onThread (other : String) (x : Thread.Step α) :
    Obeys (Standing name kept) (onThread other x) := by
  refine .atThread law fun w t _ hstands => ⟨hstands.known.imp_left fun h => ?_, hstands.slots⟩
  simp only [Table.get?_update]
  split
  · simpa using h
  · exact h

theorem onToggle (other : String) (x : Toggle.Step α) :
    Obeys (Standing name kept) (onToggle other x) := by
  refine .atToggle law fun w t _ hstands => ⟨hstands.known.imp_right fun h => ?_, hstands.slots⟩
  simp only [Table.get?_update]
  split
  · simpa using h
  · exact h

theorem switch (failing : Bool) (other : String) (mode : Mode) :
    Obeys (Standing name kept) (switch p failing other mode) := by
  refine .bind law (onThread other _) fun answer => ?_
  cases answer with
  | some previous => exact .pure law previous
  | none => exact .bind law (onToggle other _) fun _ => .pure law _

theorem enter {kind : Guard.Kind} (hasks : kind.asks p) (holder : Holder) (mode : Mode)
    (other : String) :
    Obeys (Standing name kept) (Guard.enter p holder kind mode (some other)) := by
  refine .bind law ?_ fun g => .bind law (fun _ h => h) fun _ => .pure law g
  rw [Guard.acquire_of_asks hasks]
  exact .bind law (switch false other mode) fun _ => .pure law _

theorem of_entered {kind : Guard.Kind} {mode : Mode} {w w₁ : World} {g : Guard}
    {opening : List Happening} (hasks : kind.asks p) (h : w.Stands name kept)
    (he : Guard.enter p .scope kind mode (some name) w = ⟨.ok g, w₁, opening⟩) :
    w₁.Stands name kept := by
  have hentered := enter hasks .scope mode name w h
  rwa [he] at hentered

theorem release (failing : Bool) (mode previous : Mode) (other : String) :
    Obeys (Standing name kept) (Guard.release p failing (.delegated mode (some other) previous)) :=
  .bind law (switch failing other previous) fun _ => .pure law ()

end Standing

/-! ## From scopes to programs -/

/-- A law that allows what leaves the name alone, and that the two ways of changing the mode of what
has the name obey: initialisation, and a scope if its body does from where the scope has been
entered. -/
structure LexicalLaw (p : Platform) (name : String)
    (R : World → List Happening → World → Prop) : Prop where
  law : Law R
  untouched : ∀ {w trace w'}, Untouched name w trace w' → R w trace w'
  init : Obeys R (onThread name (Thread.init p false))
  holding : ∀ {α : Type} kind mode (body : Guard → Step α) w, kind.asks p →
    (∀ g w₁ opening, Guard.enter p .scope kind mode (some name) w = ⟨.ok g, w₁, opening⟩ →
      R w₁ (body g w₁).trace (body g w₁).state) →
    R w (holding p kind mode (some name) body w).trace
      (holding p kind mode (some name) body w).state

namespace LexicalLaw

variable {R : World → List Happening → World → Prop}

/-- The law, where the name stands. -/
def Within (name : String) (kept : List (String × Guard))
    (R : World → List Happening → World → Prop)
    (w : World) (trace : List Happening) (w' : World) : Prop :=
  w.Stands name kept → R w trace w' ∧ w'.Stands name kept

theorem Within.law (law : Law R) : Law (Within name kept R) where
  refl w hstands := ⟨law.refl w, hstands⟩
  trans h h' := by
    intro hstands
    obtain ⟨hR, hstands'⟩ := h hstands
    obtain ⟨hR', hstands''⟩ := h' hstands'
    exact ⟨law.trans hR hR', hstands''⟩

variable (h : LexicalLaw p name R)

include h

theorem of_apart {x : Step α} (hx : Obeys (Apart name kept) x) : Obeys (Within name kept R) x := by
  intro w hstands
  have hu := hx w hstands
  exact ⟨h.untouched hu, hstands.untouched hu⟩

theorem of_untouched {x : Step α} (hx : Obeys (Untouched name) x) :
    Obeys (Within name kept R) x :=
  h.of_apart (Apart.of_untouched hx)

theorem within_holding {kind : Guard.Kind} {mode : Mode} {body : Guard → Step α}
    (hasks : kind.asks p) (hbody : ∀ g, Obeys (Within name kept R) (body g)) :
    Obeys (Within name kept R) (WriteXorExecute.holding p kind mode (some name) body) := by
  intro w hstands
  refine ⟨h.holding kind mode body w hasks fun g w₁ opening he =>
    (hbody g w₁ (Standing.of_entered hasks hstands he)).1, ?_⟩
  have hholds := Guard.enter_holds (p := p) .scope kind mode (some name) w
  generalize he : Guard.enter p .scope kind mode (some name) w = r at hholds
  obtain ⟨outcome, w₁, opening⟩ := r
  cases outcome with
  | error cause =>
    have hrefused := Standing.enter hasks .scope mode name w hstands
    rw [WriteXorExecute.holding, bracket_of_refused he]
    rwa [he] at hrefused
  | ok g =>
    obtain ⟨asked, previous, rfl⟩ : ∃ asked previous, g = .delegated asked (some name) previous :=
      Guard.eq_delegated_of_holds ((hholds g rfl).trans (if_pos hasks))
    rw [holding_of_entered he]
    exact Standing.release _ asked previous name _
      (hbody _ w₁ (Standing.of_entered hasks hstands he)).2

theorem programLaw : ProgramLaw p (Within name kept R) where
  law := Within.law h.law
  complete label reply := h.of_untouched (.complete label reply)
  holding kind mode thread body hbody := by
    by_cases hasks : kind.asks p ∧ thread = some name
    · obtain ⟨hkind, rfl⟩ := hasks
      exact h.within_holding hkind hbody
    · have hne : kind.asks p → thread ≠ some name := fun hkind he => hasks ⟨hkind, he⟩
      exact .bracket (Within.law h.law) (h.of_untouched (.enter hne _))
        (Guard.enter_holds _ kind mode thread)
        (fun failing g hg => h.of_untouched (.leave (Guard.holds_ne hg hne) _ failing)) hbody

theorem perform (running : List String) (op : Operation) (hop : op.Lexical p name kept) :
    Obeys (Within name kept R) (perform p running op) := by
  have hlaw : Law (Within name kept R) := Within.law h.law
  have untouched {α : Type} {x : Step α} (hx : Obeys (Untouched name) x) :
      Obeys (Within name kept R) x := h.of_untouched hx
  cases op with
  | newThread other backend initialMode checkAtSync =>
    refine .bind hlaw (h.of_apart (.create other fun w hother => ?_)) fun _ => .pure hlaw _
    exact .silent (Table.get?_add_of_ne hother.symm) rfl fun _ he _ => he
  | newToggle other toggle =>
    refine .bind hlaw (h.of_apart (.create other fun w hother => ?_)) fun _ => .pure hlaw _
    exact .silent rfl (Table.get?_add_of_ne hother.symm) fun _ he _ => he
  | newBuffer other maxSize =>
    refine .bind hlaw (h.of_apart (.create other fun w _ => ?_)) fun _ => .pure hlaw _
    exact .silent rfl rfl fun _ he _ => he
  | init thread =>
    refine .bind hlaw ?_ fun _ => .pure hlaw _
    by_cases ht : thread = name
    · subst ht
      exact fun w hstands => ⟨h.init w, Standing.onThread thread _ w hstands⟩
    · exact untouched (.onThread ht _)
  | enable other mode => exact .bind hlaw (untouched (.switch hop false mode)) fun _ => .pure hlaw _
  | assertMode thread mode =>
    exact .bind hlaw (h.of_apart (.assertMode thread mode)) fun _ => .pure hlaw _
  | hold slot kind mode thread => exact untouched (Untouched.hold running hop)
  | drop slot => exact h.of_apart (Apart.drop running hop)
  | ask | forget | emit | patch | free | fence | selfCheck | panic =>
    exact h.programLaw.perform_unaddressed untouched running _ rfl

/-- **From scopes to programs.** -/
theorem run {w : World} (hstands : w.Stands name kept) (running : List String) {program : Program}
    (hprogram : program.Lexical p name kept) :
    R w (run p running program w).trace (run p running program w).state :=
  (h.programLaw.run h.perform program hprogram running w hstands).1

end LexicalLaw

end WriteXorExecute
