import WriteXorExecute.Guard.Scope
/-!
# Writing and running code

Code is written while the platform's guard holds `write` and run while it holds `exec`. A refused
operation makes no guard.
-/
namespace WriteXorExecute.Code

open Procedure

variable {α : Type}

/-- The append itself, and its line in the log. -/
def store (buffer : String) (offset : UInt64) (data : ByteArray) : Step Unit := do
  onBuffer buffer fun b => b.append data
  mark (.changed buffer (.emitted data.size offset))

/-- The overwrite itself, and its line in the log. -/
def replace (buffer : String) (offset : UInt64) (data : ByteArray) : Step Unit := do
  onBuffer buffer fun b => b.overwrite offset data
  mark (.changed buffer (.patched data.size offset))

/-- The buffer is changed and one line of the log tells of it; nothing else is done. -/
def WritesOnce (buffer : String) (change : CodeBuffer → CodeBuffer) (r : Record)
    (x : Step Unit) : Prop :=
  ∀ w : World, x w =
    let w' := { w with buffers := w.buffers.update buffer change }
    ⟨.ok (), w', [.mark (.changed buffer r) w'.snapshot]⟩

/-- Appends bytes to a buffer; returns where they start. -/
def emit (p : Platform) (buffer : String) (thread : Option String) (data : ByteArray) :
    Step (Except CodeError UInt64) := do
  match ((← get).buffer buffer).admitEmit data.size with
  | .error e => return .error e
  | .ok offset =>
    holding p .active .write thread fun _ => store buffer offset data
    return .ok offset

def patch (p : Platform) (buffer : String) (thread : Option String) (offset : UInt64)
    (data : ByteArray) : Step (Except CodeError Unit) := do
  match ((← get).buffer buffer).admitPatch offset data.size with
  | .error e => return .error e
  | .ok _ =>
    holding p .active .write thread fun _ => replace buffer offset data
    return .ok ()

/-- Runs the code of a buffer: `body` is given its bytes. -/
def execute (p : Platform) (buffer : String) (thread : Option String)
    (body : ByteArray → Step α) : Step (Except CodeError α) := do
  let b := (← get).buffer buffer
  match b.admitRun with
  | .error e => return .error e
  | .ok _ =>
    let a ← holding p .active .exec thread fun _ => body b.bytes
    return .ok a

/-! ## Equations -/

section

variable {p : Platform} {buffer : String} {thread : Option String} {offset : UInt64}
  {data : ByteArray} {body : ByteArray → Step α} {e : CodeError} {w : World}

theorem store_writesOnce (buffer : String) (offset : UInt64) (data : ByteArray) :
    WritesOnce buffer (fun b => { b with bytes := b.bytes ++ data }) (.emitted data.size offset)
      (store buffer offset data) :=
  fun _ => rfl

theorem replace_writesOnce (buffer : String) (offset : UInt64) (data : ByteArray) :
    WritesOnce buffer
      (fun b => { b with
        bytes := b.bytes.extract 0 offset.toNat ++ data
          ++ b.bytes.extract (offset.toNat + data.size) b.bytes.size })
      (.patched data.size offset) (replace buffer offset data) :=
  fun _ => rfl

/-- What is refused does nothing. -/
theorem emit_of_refused (h : (w.buffer buffer).admitEmit data.size = .error e) :
    emit p buffer thread data w = ⟨.ok (.error e), w, []⟩ := by
  simp [emit, h]

/-- What is admitted is done in a scope. -/
theorem emit_of_admitted (h : (w.buffer buffer).admitEmit data.size = .ok offset) :
    emit p buffer thread data w =
      (holding p .active .write thread (fun _ => store buffer offset data) w).andThen
        fun _ => pure (.ok offset) := by
  simp only [emit, bind_apply, get_apply, Run.andThen_ok, List.nil_append, h]

theorem patch_of_refused (h : (w.buffer buffer).admitPatch offset data.size = .error e) :
    patch p buffer thread offset data w = ⟨.ok (.error e), w, []⟩ := by
  simp [patch, h]

theorem patch_of_admitted (h : (w.buffer buffer).admitPatch offset data.size = .ok ()) :
    patch p buffer thread offset data w =
      (holding p .active .write thread (fun _ => replace buffer offset data) w).andThen
        fun _ => pure (.ok ()) := by
  simp only [patch, bind_apply, get_apply, Run.andThen_ok, List.nil_append, h]

theorem execute_of_refused (h : (w.buffer buffer).admitRun = .error e) :
    execute p buffer thread body w = ⟨.ok (.error e), w, []⟩ := by
  simp [execute, h]

theorem execute_of_admitted (h : (w.buffer buffer).admitRun = .ok ()) :
    execute p buffer thread body w =
      (holding p .active .exec thread (fun _ => body (w.buffer buffer).bytes) w).andThen
        fun a => pure (.ok a) := by
  simp only [execute, bind_apply, get_apply, Run.andThen_ok, List.nil_append, h]

end

end WriteXorExecute.Code
