import WriteXorExecute.Proofs.Bookkeeping
import WriteXorExecute.Proofs.CodeLog
/-!
# The log as an audit trail

The sizes and offsets of a buffer's changes can be read off the log. They say where the code lies:
what has been emitted is told end to end, from 0 to the end of the code, and only inside it has been
patched.

- **One buffer** (`Charted.stepwise`): what is told, operation by operation, is what has made the
  buffer what it is.
- **Sizes and offsets** (`Evolves.trail`): what edits tell of themselves, by induction on them.
- **The whole log** (`log_is_audit_trail`).
-/
namespace WriteXorExecute

open Procedure

variable {α : Type} {p : Platform} {buffer : String} {thread : Option String} {w w' : World}
  {trace : List Happening} {b b' : CodeBuffer}

/-! ## One buffer -/

def Edit.record? : Edit → Option Record
  | emitted offset data => some (.emitted data.size offset)
  | patched offset data => some (.patched data.size offset)
  | freed => none

/-- What is told is what has made the buffer what it is, from what it was, or from its making on. -/
def Recounts : Option CodeBuffer → List Record → Option CodeBuffer → Prop
  | none, rs, none => rs = []
  | none, rs, some b' => ∃ maxSize es, Evolves { maxSize } es b' ∧ es.filterMap Edit.record? = rs
  | some b, rs, some b' => ∃ es, Evolves b es b' ∧ es.filterMap Edit.record? = rs
  | some _, _, none => False

namespace Recounts

theorem refl (b? : Option CodeBuffer) : Recounts b? [] b? := by
  cases b? with
  | none => exact rfl
  | some b => exact ⟨[], .nil, rfl⟩

theorem trans {b₁ b₂ b₃ : Option CodeBuffer} {rs rs' : List Record} (h : Recounts b₁ rs b₂)
    (h' : Recounts b₂ rs' b₃) : Recounts b₁ (rs ++ rs') b₃ := by
  cases b₂ with
  | none =>
    cases b₁ with
    | some _ => exact h.elim
    | none =>
      obtain rfl : rs = [] := h
      exact h'
  | some _ =>
    cases b₃ with
    | none => exact h'.elim
    | some _ =>
      obtain ⟨es', hevolves', rfl⟩ := h'
      cases b₁ with
      | none =>
        obtain ⟨maxSize, es, hevolves, rfl⟩ := h
        exact ⟨maxSize, es ++ es', hevolves.append hevolves', List.filterMap_append⟩
      | some _ =>
        obtain ⟨es, hevolves, rfl⟩ := h
        exact ⟨es ++ es', hevolves.append hevolves', List.filterMap_append⟩

theorem edit {e : Edit} (he : e.Makes b b') : Recounts (some b) e.record?.toList (some b') := by
  refine ⟨[e], .single he, ?_⟩
  cases e <;> rfl

end Recounts

def World.Alone (buffer : String) (w : World) : Prop :=
  ∀ name b, w.buffers.get? name = some b → name = buffer

/-- If there is no other buffer, there is none afterwards, and what the log tells of code is what
has become of this one. -/
def Charted (buffer : String) (w : World) (trace : List Happening) (w' : World) : Prop :=
  w.Alone buffer → w'.Alone buffer ∧
    Recounts (w.buffers.get? buffer) (codeLog trace) (w'.buffers.get? buffer)

namespace Charted

theorem law : Law (Charted buffer) where
  refl _ h := ⟨h, .refl _⟩
  trans h h' halone := by
    obtain ⟨halone', hrecounts⟩ := h halone
    obtain ⟨halone'', hrecounts'⟩ := h' halone'
    rw [codeLog_append]
    exact ⟨halone'', hrecounts.trans hrecounts'⟩

/-- What leaves code alone, and tells of none. -/
theorem of_aside (hlog : codeLog trace = []) (hsame : w'.buffers = w.buffers) :
    Charted buffer w trace w' := by
  intro halone
  rw [hlog, hsame]
  exact ⟨fun name b hb => halone name b (hsame ▸ hb), .refl _⟩

/-- What changes at most this buffer. -/
theorem of_update {f : CodeBuffer → CodeBuffer}
    (hsame : w'.buffers = w.buffers.update buffer f)
    (hrecounts : ∀ b, w.buffers.get? buffer = some b →
      Recounts (some b) (codeLog trace) (some (f b)))
    (hnone : w.buffers.get? buffer = none → codeLog trace = []) : Charted buffer w trace w' := by
  intro halone
  refine ⟨fun name b hb => ?_, ?_⟩
  · rw [hsame, Table.get?_update] at hb
    split at hb
    · assumption
    · exact halone name b hb
  · rw [hsame, Table.get?_update_self]
    cases hb : w.buffers.get? buffer with
    | none => exact hnone hb
    | some b => exact hrecounts b hb

/-- Another buffer would have to be there. -/
theorem of_absent {other : String} {f : CodeBuffer → CodeBuffer} (hne : other ≠ buffer)
    (hsame : w'.buffers = w.buffers.update other f) (hlog : codeLog trace = []) :
    Charted buffer w trace w' := by
  intro halone
  have hget (name : String) : w'.buffers.get? name = w.buffers.get? name := by
    rw [hsame, Table.get?_update]
    split
    · subst name
      cases hb : w.buffers.get? other with
      | none => rfl
      | some b => exact absurd (halone other b hb) hne
    · rfl
  rw [hlog, hget]
  exact ⟨fun name b hb => halone name b (hget name ▸ hb), .refl _⟩

end Charted

/-! ### Operations -/

/-- Only what is there is live. -/
theorem World.get?_of_live {name : String} (h : (w.buffer name).freed = false) :
    w.buffers.get? name = some (w.buffer name) := by
  rw [buffer] at h ⊢
  cases hb : w.buffers.get? name with
  | none =>
    rw [hb] at h
    cases h
  | some b => rfl

/-- An operation that changes code as its line in the log says. -/
theorem Changes.charted {name : String} {admission : Except CodeError α}
    {f : CodeBuffer → CodeBuffer} {record : α → Record} {x : Step (Except CodeError α)}
    (h : Changes p name thread w admission f record x) (hcode : ∀ a, (record a).ofCode = true)
    (hmakes : ∀ a, admission = .ok a → ∃ e : Edit, e ≠ .freed ∧
      e.Makes (w.buffer name) (f (w.buffer name)) ∧ e.record? = some (record a)) :
    Charted buffer w (x w).trace (x w).state := by
  intro halone
  cases hadmitted : admission with
  | error e =>
    rw [h.refused e hadmitted]
    exact Charted.law.refl w halone
  | ok a =>
    obtain ⟨e, hwrites, he, hrecord⟩ := hmakes a hadmitted
    -- Only what is live is changed. So it is there, and there is no other buffer.
    have hb := World.get?_of_live (he.live hwrites)
    obtain rfl := halone name _ hb
    have hopens : Obeys Bystander (Guard.enter p .scope .active .write thread) := .enter _ _ _ _
    have hopening := hopens w
    generalize henter : Guard.enter p .scope .active .write thread w = r at hopening
    obtain ⟨outcome, w₁, opening⟩ := r
    cases outcome with
    | error cause =>
      refine Charted.of_aside ((h.logged hcode).unopened cause w₁ opening henter) ?_ halone
      rw [h.unopened hadmitted henter]
      exact hopening.buffers
    | ok g =>
      have hlog := ((h.logged hcode).once a g w₁ opening hadmitted henter).1
      have hcloses : Obeys Bystander (Guard.leave p .scope false g) := .leave _ _ _
      refine Charted.of_update (f := f) ?_ (fun b' hb' => ?_) (fun hnone => ?_) halone
      · rw [h.opened hadmitted henter]
        refine ((hcloses _).buffers).trans ?_
        rw [World.changing, hopening.buffers]
      · obtain rfl : w.buffer name = b' := Option.some.inj (hb.symm.trans hb')
        rw [hlog]
        have hedit := Recounts.edit he
        rwa [hrecord] at hedit
      · rw [hb] at hnone
        cases hnone

/-- The operation makes no other buffer, and no self-check of code does. -/
def Operation.Single (buffer : String) : Operation → Prop
  | newBuffer name _ => name = buffer
  | selfCheck choice => ∃ check, choice = some check ∧ check.ofCode = false
  | _ => True

namespace Charted

theorem emit (name : String) (thread : Option String) (data : ByteArray) :
    Obeys (Charted buffer) (Code.emit p name thread data) :=
  fun w => (emit_changes p name thread data w).charted (fun _ => rfl) fun offset hadmitted =>
    ⟨.emitted offset data, nofun, ⟨hadmitted, rfl⟩, rfl⟩

theorem patch (name : String) (thread : Option String) (offset : UInt64) (data : ByteArray) :
    Obeys (Charted buffer) (Code.patch p name thread offset data) :=
  fun w => (patch_changes p name thread offset data w).charted (fun _ => rfl) fun _ hadmitted =>
    ⟨.patched offset data, nofun, ⟨hadmitted, rfl⟩, rfl⟩

theorem free (name : String) : Obeys (Charted buffer) (onBuffer name (·.free)) := by
  refine .modify fun w => ?_
  by_cases hname : name = buffer
  · subst hname
    have hfreed (b : CodeBuffer) : Edit.freed.Makes b b.free := rfl
    exact of_update rfl (fun b _ => .edit (hfreed b)) fun _ => rfl
  · exact of_absent hname rfl rfl

theorem newBuffer (maxSize : UInt64) : Obeys (Charted buffer)
    (create buffer fun w => { w with buffers := w.buffers.add buffer { maxSize } }) := by
  refine .modify fun w halone => ?_
  split
  · exact law.refl w halone
  · refine ⟨fun name b hb => ?_, ?_⟩
    · rcases Table.of_get?_add hb with hb | ⟨rfl, -⟩
      · exact halone name b hb
      · rfl
    · rw [Table.get?_add_self]
      cases w.buffers.get? buffer with
      | none => exact ⟨maxSize, [], .nil, rfl⟩
      | some b => exact .refl (some b)

theorem mark {m : Mark} (hm : m.ofChange = false) : Obeys (Charted buffer) (mark m) :=
  fun w => of_aside (Unlogged.mark hm w.snapshot) rfl

theorem enter (holder : Holder) (kind : Guard.Kind) (mode : Mode) (thread : Option String) :
    Obeys (Charted buffer) (Guard.enter p holder kind mode thread) := by
  have hopens : Obeys Bystander (Guard.enter p holder kind mode thread) := .enter _ _ _ _
  exact fun w => of_aside (Unlogged.traceLaw.enter holder kind mode thread w) (hopens w).buffers

theorem leave (holder : Holder) (failing : Bool) (g : Guard) :
    Obeys (Charted buffer) (Guard.leave p holder failing g) := by
  have hcloses : Obeys Bystander (Guard.leave p holder failing g) := .leave _ _ _
  exact fun w => of_aside (Unlogged.traceLaw.leave holder failing g w) (hcloses w).buffers

theorem holdingLaw : HoldingLaw p (Charted buffer) where
  law := law
  holding _ _ _ _ hbody :=
    .bracket law (enter _ _ _ _) (.trivial _) (fun failing g _ => leave _ failing g) hbody

/-- Each operation is told as what it does to the buffer, or leaves all code alone. -/
theorem perform (running : List String) {op : Operation} (hop : op.Single buffer) :
    Obeys (Charted buffer) (perform p running op) := by
  have aside (hplain : op.Plain) (hkept : Obeys CodeKept (WriteXorExecute.perform p running op)) :
      Obeys (Charted buffer) (WriteXorExecute.perform p running op) :=
    fun w => of_aside (Unlogged.perform running hplain w) (hkept w)
  cases op with
  | emit name thread data =>
    simp only [WriteXorExecute.perform]
    split
    · exact .pure law _
    · exact .bind law (emit name thread data) fun _ => .pure law _
  | patch name thread offset data =>
    simp only [WriteXorExecute.perform]
    split
    · exact .pure law _
    · exact .bind law (patch name thread offset data) fun _ => .pure law _
  | free name =>
    simp only [WriteXorExecute.perform]
    split
    · exact .pure law _
    · exact .bind law (free name) fun _ => .pure law _
  | newBuffer name maxSize =>
    obtain rfl : name = buffer := hop
    exact .bind law (newBuffer _) fun _ => .pure law _
  | newThread | newToggle =>
    refine aside True.intro (.bind CodeKept.law (.modify fun w => ?_) fun _ => .pure CodeKept.law _)
    split <;> rfl
  | selfCheck => exact aside hop (CodeKept.perform running rfl rfl)
  | _ => exact aside True.intro (CodeKept.perform running rfl rfl)

theorem stepwise : StepwiseLaw p (Operation.Single buffer) (Charted buffer) where
  toHoldingLaw := holdingLaw
  step running _ hop := .bind law (perform running hop) fun _ => mark rfl
  complete _ _ _ := mark rfl

theorem runToEnd {program : Program} (hprogram : program.All (Operation.Single buffer)) :
    Obeys (Charted buffer) (runToEnd p program) :=
  stepwise.runToEnd (fun _ => .modify fun _ => of_aside rfl rfl)
    (fun holder g (_ : True) => leave holder false g) (fun _ hkept => absurd True.intro hkept)
    program hprogram

end Charted

/-! ## Sizes and offsets -/

/-- How many bytes are told to have been emitted. -/
def covered : List Record → Nat
  | [] => 0
  | .emitted count _ :: rs => count + covered rs
  | _ :: rs => covered rs

/-- What is told to have been emitted lies end to end from `start` on, and what is told to have been
patched lies inside what has been told to be emitted before. -/
def Trail : (start : Nat) → List Record → Prop
  | _, [] => True
  | start, .emitted count offset :: rs => offset.toNat = start ∧ Trail (start + count) rs
  | start, .patched count offset :: rs => offset.toNat + count ≤ start ∧ Trail start rs
  | start, _ :: rs => Trail start rs

/-- All that is told can be counted in a word. -/
structure Countable (rs : List Record) : Prop where
  emitted : covered rs < UInt64.size
  patched : ∀ count offset, .patched count offset ∈ rs → count < UInt64.size

theorem covered_append (rs rs' : List Record) :
    covered (rs ++ rs') = covered rs + covered rs' := by
  induction rs with
  | nil => simp [covered]
  | cons r rs ih =>
    cases r <;> simp only [List.cons_append, covered, ih, Nat.add_assoc]

theorem trail_append {start : Nat} {rs rs' : List Record} (h : Trail start rs)
    (h' : Trail (start + covered rs) rs') : Trail start (rs ++ rs') := by
  induction rs generalizing start with
  | nil => exact h'
  | cons r rs ih =>
    cases r with
    | emitted count offset =>
      refine ⟨h.1, ih h.2 ?_⟩
      rwa [Nat.add_assoc]
    | patched count offset => exact ⟨h.1, ih h.2 h'⟩
    | initializing | lateInitialization | modeChange =>
      have hrest : Trail start rs := h
      exact ih hrest h'

/-- **What is told of edits** is where they have been made, and how much code there is. -/
theorem Evolves.trail {maxSize : UInt64} {es : List Edit} (h : Evolves { maxSize } es b)
    (hcount : Countable (es.filterMap Edit.record?)) :
    Trail 0 (es.filterMap Edit.record?) ∧
      (b.freed = false → b.bytes.size = covered (es.filterMap Edit.record?)) := by
  induction h with
  | nil => exact ⟨True.intro, fun _ => rfl⟩
  | @snoc b b' es e _ he ih =>
    rw [List.filterMap_append] at hcount ⊢
    have hless : covered (es.filterMap Edit.record?) < UInt64.size := by
      have := hcount.emitted
      rw [covered_append] at this
      omega
    obtain ⟨htrail, hsize⟩ := ih ⟨hless, fun count offset hmem =>
      hcount.patched count offset (List.mem_append_left _ hmem)⟩
    -- What is edited is live, so what has been told of it gives its size.
    cases e with
    | emitted offset data =>
      have hsize := hsize (he.live nofun)
      obtain ⟨hadmitted, rfl⟩ := he
      obtain ⟨-, rfl⟩ := CodeBuffer.of_admitEmit hadmitted
      have hoffset : b.size.toNat = b.bytes.size := UInt64.toNat_ofNat_of_lt' (hsize ▸ hless)
      refine ⟨trail_append htrail ⟨?_, True.intro⟩, fun _ => ?_⟩
      · rw [hoffset, hsize, Nat.zero_add]
      · rw [CodeBuffer.size_append, covered_append, hsize]
        rfl
    | patched offset data =>
      have hsize := hsize (he.live nofun)
      obtain ⟨hadmitted, rfl⟩ := he
      have hdata : data.size < UInt64.size :=
        hcount.patched data.size offset (List.mem_append_right _ List.mem_cons_self)
      obtain ⟨-, hinside⟩ := CodeBuffer.of_admitPatch hadmitted (hsize ▸ hless) hdata
      refine ⟨trail_append htrail ⟨?_, True.intro⟩, fun _ => ?_⟩
      · rwa [Nat.zero_add, ← hsize]
      · rw [CodeBuffer.size_overwrite_of_within hinside, covered_append, hsize]
        rfl
    | freed =>
      obtain rfl := he
      exact ⟨trail_append htrail True.intro, nofun⟩

/-- If what the log tells of code can be counted in words, then what has been emitted lies end to
end from 0 on, as long as the buffer is, and only inside it has been patched. -/
def Audited (buffer : String) (trace : List Happening) (w : World) : Prop :=
  Countable (codeLog trace) → Trail 0 (codeLog trace) ∧
    ∀ b, w.buffers.get? buffer = some b → b.freed = false → b.bytes.size = covered (codeLog trace)

theorem Charted.audited (h : Charted buffer .empty trace w) : Audited buffer trace w := by
  intro hcount
  have hempty : World.empty.Alone buffer := fun name b hb => by simp [World.empty] at hb
  obtain ⟨-, hrecounts⟩ := h hempty
  have hnone : World.empty.buffers.get? buffer = none := rfl
  rw [hnone] at hrecounts
  cases hb : w.buffers.get? buffer with
  | none =>
    rw [hb] at hrecounts
    have hnothing : codeLog trace = [] := hrecounts
    rw [hnothing]
    exact ⟨True.intro, fun _ hb' => by cases hb'⟩
  | some b =>
    rw [hb] at hrecounts
    obtain ⟨maxSize, es, hevolves, hes⟩ := hrecounts
    rw [← hes] at hcount ⊢
    obtain ⟨htrail, hsize⟩ := hevolves.trail hcount
    refine ⟨htrail, fun b' hb' => ?_⟩
    obtain rfl := Option.some.inj hb'
    exact hsize

structure AuditTrail (p : Platform) : Prop where
  /-- Each change of mode is announced just before the backend is called, and no other is. -/
  modes : ∀ program, Announced (history p program)
  /-- So it is inside the self-checks, of which only the lines are heard. -/
  modesOfChecks : ∀ check, ∀ trial ∈ SelfCheck.trials p check,
    (∃ x, trial = SelfCheck.apart x ∧ ∀ w, Announced (x w).trace ∧
      logLines (trial w).trace = logLines (x .empty).trace) ∨ ∃ verdict, trial = pure verdict
  /-- Code that is emitted is told once, in its scope. -/
  emits : ∀ buffer thread data w,
    Logged p buffer thread w ((w.buffer buffer).admitEmit data.size) (.emitted data.size)
      (Code.emit p buffer thread data)
  /-- So is code that is patched. -/
  patches : ∀ buffer thread offset data w,
    Logged p buffer thread w ((w.buffer buffer).admitPatch offset data.size)
      (fun _ => .patched data.size offset) (Code.patch p buffer thread offset data)
  /-- What puts nothing into a buffer tells of no code. -/
  others : ∀ running op w, op.Plain → codeLog (perform p running op w).trace = []
  /-- Wherever a program with one buffer has come to, the log covers the buffer. -/
  covers : ∀ buffer way before place, Leads p way { world := .empty } before place →
    (∀ f ∈ way, f.All (Operation.Single buffer)) → Audited buffer before place.world
  /-- So it does in the end. -/
  coversAll : ∀ buffer program, program.All (Operation.Single buffer) →
    Audited buffer (history p program) (runToEnd p program .empty).state

/-- **The log is an audit trail** on every platform, whatever threads and toggles do, and however
the program ends. -/
theorem log_is_audit_trail (p : Platform) : AuditTrail p where
  modes := history_announced p
  modesOfChecks check trial htrial := by
    refine (Announced.traceLaw.trial Announced.changed htrial).imp_left ?_
    rintro ⟨x, rfl, hannounced⟩
    exact ⟨x, rfl, fun w => ⟨hannounced w, logLines_apart x w⟩⟩
  emits buffer thread data w := (emit_changes p buffer thread data w).logged fun _ => rfl
  patches buffer thread offset data w :=
    (patch_changes p buffer thread offset data w).logged fun _ => rfl
  others running op w hop := Unlogged.perform running hop w
  covers buffer way before place hlead hway :=
    (hlead.obeys Charted.stepwise (Charted.enter .scope) hway).audited
  coversAll buffer program hprogram := (Charted.runToEnd hprogram .empty).audited

/-- A toggle that panics when a scope is entered and when one is left, a thread that calls back and
then fails, and code that is emitted, patched and refused. -/
def tampered : Program :=
  .step (.newBuffer "b" (some 20)) <|
  .step (.newToggle "d" { mode := .exec, failures := [0, 2] }) <|
  .step (.newThread "t" (.scripted [⟨2, .enable .write⟩, ⟨3, .fail⟩]) (some .exec) none) <|
  .attempt (.step (.emit "b" (some "d") ⟨#[0x90]⟩) .done) <|
  .attempt (.step (.emit "b" (some "d") .empty) .done) <|
  .attempt (.step (.emit "b" (some "t") ⟨Array.replicate 17 0x90⟩) .done) <|
  .step (.emit "b" (some "t") ⟨#[0xCC, 0xC3]⟩) <|
  .step (.patch "b" none 18 ⟨#[0x90, 0x90]⟩) <|
  .step (.patch "b" none 16 ⟨#[0x90, 0x90]⟩) <|
  .step (.free "b") <|
  .step (.emit "b" none ⟨#[0x90]⟩) .done

def tamperedLog : List String :=
  ["[KPIO WX] Emitted 0 bytes at 0x0", "[KPIO WX] enable_wx before init_wx, initializing",
    "[KPIO WX] Initializing thread W^X state (exec)", "[KPIO WX] Thread mode -> exec",
    "[KPIO WX] Thread mode -> write", "[KPIO WX] Emitted 17 bytes at 0x0",
    "[KPIO WX] Thread mode -> exec", "[KPIO WX] Thread mode -> write",
    "[KPIO WX] Emitted 2 bytes at 0x11", "[KPIO WX] Patched 2 bytes at 0x10"]

theorem log_is_audit_trail_tampered :
    let t := history { target := .macos } tampered
    logLines t = tamperedLog ∧
      codeLog t = [.emitted 0 0, .emitted 17 0, .emitted 2 17, .patched 2 16] ∧
      Announced t ∧ Trail 0 (codeLog t) ∧
      (logLines (history { target := .macos } stubbornProgram)).drop 3
        = ["[KPIO WX] Thread mode -> write", "[KPIO WX] Thread mode -> exec"] ∧
      Announced (history { target := .macos } stubbornProgram) := by
  intro t
  have htrail := log_is_audit_trail { target := .macos }
  have hlines : logLines t = tamperedLog := by decide +kernel
  have hcode : codeLog t = [.emitted 0 0, .emitted 17 0, .emitted 2 17, .patched 2 16] := by
    rw [codeLog, hlines]
    decide +kernel
  have hcount : Countable (codeLog t) := by
    rw [hcode]
    refine ⟨by decide, fun count offset hmem => ?_⟩
    obtain ⟨rfl, -⟩ : count = 2 ∧ offset = 16 := by simpa using hmem
    decide
  have hsingle : tampered.All (Operation.Single "b") := by
    simp [tampered, Program.All, Operation.Single]
  exact ⟨hlines, hcode, htrail.modes tampered, (htrail.coversAll "b" tampered hsingle hcount).1,
    by decide +kernel, htrail.modes stubbornProgram⟩

end WriteXorExecute
