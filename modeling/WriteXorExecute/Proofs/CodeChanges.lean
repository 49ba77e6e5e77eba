import WriteXorExecute.Code.Change
/-!
# Changes of code

Code is changed in one way, whether it is emitted or patched. What is refused does nothing. What is
admitted is done in a scope, and is told in the log.

- **Emitting and patching** (`emit_changes`, `patch_changes`).
- **What a run is put together from** (`Changes.unopened`, `Changes.opened`): the making of the
  guard, the change with its line in the log, and the ending of the guard.
-/
namespace WriteXorExecute

open Procedure

variable {α : Type} {p : Platform} {buffer : String} {thread : Option String} {w w₁ : World}
  {opening : List Happening} {g : Guard}

/-- Changes code, and tells of it in the log. -/
def change (buffer : String) (f : CodeBuffer → CodeBuffer) (r : Record) : Step Unit := do
  onBuffer buffer f
  mark (.changed buffer r)

def World.changing (w : World) (buffer : String) (f : CodeBuffer → CodeBuffer) : World :=
  { w with buffers := w.buffers.update buffer f }

/-- An operation that changes code as `f` does if it is admitted, and does nothing else. -/
structure Changes (p : Platform) (buffer : String) (thread : Option String) (w : World)
    (admission : Except CodeError α) (f : CodeBuffer → CodeBuffer) (record : α → Record)
    (x : Step (Except CodeError α)) : Prop where
  refused : ∀ e, admission = .error e → x w = ⟨.ok (.error e), w, []⟩
  accepted : ∀ a, admission = .ok a → x w =
    (holding p .active .write thread (fun _ => change buffer f (record a)) w).andThen
      fun _ => pure (.ok a)

theorem emit_changes (p : Platform) (buffer : String) (thread : Option String) (data : ByteArray)
    (w : World) : Changes p buffer thread w ((w.buffer buffer).admitEmit data.size)
      (·.append data) (.emitted data.size) (Code.emit p buffer thread data) :=
  ⟨fun _ => Code.emit_of_refused, fun _ => Code.emit_of_admitted⟩

theorem patch_changes (p : Platform) (buffer : String) (thread : Option String) (offset : UInt64)
    (data : ByteArray) (w : World) :
    Changes p buffer thread w ((w.buffer buffer).admitPatch offset data.size)
      (·.overwrite offset data) (fun _ => .patched data.size offset)
      (Code.patch p buffer thread offset data) :=
  ⟨fun _ => Code.patch_of_refused, fun _ => Code.patch_of_admitted⟩

namespace Changes

variable {admission : Except CodeError α} {f : CodeBuffer → CodeBuffer} {record : α → Record}
  {x : Step (Except CodeError α)} {a : α}

/-- Where no guard is made, nothing is changed. -/
theorem unopened {cause : Panic} (h : Changes p buffer thread w admission f record x)
    (hadmitted : admission = .ok a)
    (henter : Guard.enter p .scope .active .write thread w = ⟨.error cause, w₁, opening⟩) :
    x w = ⟨.error cause, w₁, opening⟩ := by
  rw [h.accepted a hadmitted, holding, bracket_of_refused henter, Run.andThen_error]

/-- The change is made and told after the guard has been made, and before it is ended. -/
theorem opened (h : Changes p buffer thread w admission f record x) (hadmitted : admission = .ok a)
    (henter : Guard.enter p .scope .active .write thread w = ⟨.ok g, w₁, opening⟩) :
    let w₂ := w₁.changing buffer f
    let ending := Guard.leave p .scope false g w₂
    x w = ⟨ending.outcome.map fun _ => .ok a, ending.state,
      opening ++ .mark (.changed buffer (record a)) w₂.snapshot :: ending.trace⟩ := by
  intro w₂ ending
  have hchange : change buffer f (record a) w₁ =
      ⟨.ok (), w₂, [.mark (.changed buffer (record a)) w₂.snapshot]⟩ := rfl
  rw [h.accepted a hadmitted, Run.andThen_return, holding, bracket_of_acquired henter, hchange]
  simp only [Run.failed, List.append_assoc, List.singleton_append, ending]
  generalize Guard.leave p .scope false g w₂ = r
  obtain ⟨outcome, w₃, trace⟩ := r
  cases outcome <;> rfl

end Changes

end WriteXorExecute
