import WriteXorExecute.History
import WriteXorExecute.Thread.Switch
/-!
# The world of a program

Threads, toggles and buffers by name, and the guards that live in slots, newest first. What is done
to one thread or toggle touches nothing else, and what is recorded of it carries that name.
-/
namespace WriteXorExecute

/-- The objects of a program. -/
structure World where
  threads : Table Thread := ∅
  toggles : Table Toggle := ∅
  buffers : Table CodeBuffer := ∅
  slots : List (String × Guard) := []

abbrev Step (α : Type) : Type :=
  Procedure World Happening Panic α

namespace World

def empty : World := {}

def snapshot (w : World) : Snapshot where
  threads := w.threads.map Thread.status
  toggles := w.toggles.map fun t => (t.mode, t.calls)
  buffers := w.buffers.map fun b => b.bytes.size

def knows (w : World) (name : String) : Bool :=
  w.threads.contains name || w.toggles.contains name || w.buffers.contains name

/-- The buffer of a name. A name without a buffer stands for one that has been freed. -/
def buffer (w : World) (name : String) : CodeBuffer :=
  (w.buffers.get? name).getD .released

/-- The newest guard in a slot. -/
def guard? (w : World) (slot : String) : Option Guard :=
  w.slots.lookup slot

def keep (w : World) (slot : String) (g : Guard) : World :=
  { w with slots := (slot, g) :: w.slots }

def discard (w : World) (slot : String) : World :=
  { w with slots := w.slots.eraseP fun s => s.1 = slot }

theorem mem_of_guard {w : World} {slot : String} {g : Guard} (h : w.guard? slot = some g) :
    (slot, g) ∈ w.slots := by
  obtain ⟨before, after, hslots, -⟩ := List.lookup_eq_some_iff.1 h
  simp [hslots]

end World

open Procedure

variable {α : Type}

/-- Marks a point of the run. -/
def mark (m : Mark) : Step Unit := do
  note (.mark m (← get).snapshot)

@[simp] theorem mark_apply (m : Mark) (w : World) :
    mark m w = ⟨.ok (), w, [.mark m w.snapshot]⟩ := rfl

def complete (label : Label) (reply : Reply) : Step Unit :=
  mark (.completed label reply)

/-- Makes an object, unless another has its name. -/
def create (name : String) (add : World → World) : Step Unit :=
  modify fun w => if w.knows name then w else add w

/-- Acts on the thread of this name, if there is one. -/
def onThread (name : String) (x : Thread.Step α) : Step (Option α) :=
  onPart (fun w => w.threads.get? name)
    (fun t w => { w with threads := w.threads.update name fun _ => t })
    (.thread name) (.thread name) x

/-- Acts on the toggle of this name, if there is one. -/
def onToggle (name : String) (x : Toggle.Step α) : Step (Option α) :=
  onPart (fun w => w.toggles.get? name)
    (fun t w => { w with toggles := w.toggles.update name fun _ => t })
    (.toggle name) (.toggle name) x

def onBuffer (name : String) (change : CodeBuffer → CodeBuffer) : Step Unit :=
  modify fun w => { w with buffers := w.buffers.update name change }

/-- Asks the thread of this name for a mode, or else the toggle. Where there is neither, nothing
happens, and `write` is the answer. -/
def switch (p : Platform) (failing : Bool) (name : String) (mode : Mode) : Step Mode := do
  match ← onThread name (Thread.enable p failing mode) with
  | some previous => return previous
  | none => return (← onToggle name (Toggle.enable failing mode)).getD .write

end WriteXorExecute
