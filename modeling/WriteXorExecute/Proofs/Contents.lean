import WriteXorExecute.Proofs.Edits
import WriteXorExecute.Proofs.Success
/-!
# The contents of code buffers

What a run tells of its edits of a buffer accounts for the buffer: wherever a program has come to,
and whatever else it has done, the buffer is what these edits have made of it (`edited_at`). So its
bytes are the ones that were written last, this is the code that is told and that is run, and
running it changes nothing (`Aside.runCode`).

The edits are read off the replies. For this to account for the buffer, a change that has been made
has to be replied to; so nothing that is asked on that occasion may panic. Whatever else the program
asks may.
-/
namespace WriteXorExecute

open Procedure

variable {α : Type} {p : Platform} {buffer : String} {names : String → Prop} {w w' : World}
  {trace : List Happening} {b : CodeBuffer}

/-! ## What a run tells of its edits -/

/-- The edit of the buffer that is told of here, if one is. -/
def Happening.edit? (buffer : String) : Happening → Option Edit
  | mark (.completed (.operation (.emit other _ data)) (.emitted (.ok offset))) _ =>
    if other = buffer then some (.emitted offset data) else none
  | mark (.completed (.operation (.patch other _ offset data)) (.patched (.ok _))) _ =>
    if other = buffer then some (.patched offset data) else none
  | mark (.completed (.operation (.free other)) .nothing) _ =>
    if other = buffer then some .freed else none
  | _ => none

def edits (buffer : String) (trace : List Happening) : List Edit :=
  trace.filterMap (Happening.edit? buffer)

@[simp] theorem edits_append (t₁ t₂ : List Happening) :
    edits buffer (t₁ ++ t₂) = edits buffer t₁ ++ edits buffer t₂ :=
  List.filterMap_append

/-- Only replies to operations that change the buffer tell of an edit. -/
theorem Happening.edit?_of_completed {label : Label} {reply : Reply} {now : Snapshot}
    (h : ∀ op, label = .operation op → op.changes? ≠ some buffer) :
    (mark (.completed label reply) now).edit? buffer = none := by
  unfold edit?
  split
  case h_4 => rfl
  all_goals
    rename_i hmark
    cases hmark
    exact if_neg fun hbuffer => h _ rfl (congrArg some hbuffer)

/-! ## What is done elsewhere -/

/-- No edit of the buffer is told of, and if there is such a buffer it stays as it is. -/
structure Aside (buffer : String) (w : World) (trace : List Happening) (w' : World) : Prop where
  edits : edits buffer trace = []
  kept : ∀ b, w.buffers.get? buffer = some b → w'.buffers.get? buffer = some b

namespace Aside

theorem law : Law (Aside buffer) where
  refl _ := ⟨rfl, fun _ hb => hb⟩
  trans h h' := ⟨by rw [edits_append, h.edits, h'.edits, List.append_nil],
    fun b hb => h'.kept b (h.kept b hb)⟩

/-- What leaves buffers alone, and gives no reply. -/
theorem of_same (hevents : ∀ x ∈ trace, x.edit? buffer = none) (hsame : w'.buffers = w.buffers) :
    Aside buffer w trace w' :=
  ⟨List.filterMap_eq_nil_iff.2 hevents, fun b hb => by rw [hsame]; exact hb⟩

theorem mark {m : Mark} (h : ∀ now, (Happening.mark m now).edit? buffer = none) :
    Obeys (Aside buffer) (mark m) :=
  fun _ => of_same (by simpa using h _) rfl

theorem complete (label : Label) (reply : Reply) (h : label.around) :
    Obeys (Aside buffer) (complete label reply) := by
  refine mark fun now => Happening.edit?_of_completed fun op hlabel => ?_
  subst hlabel
  cases h

theorem elementaryLaw : ElementaryLaw p (fun _ => True) (Aside buffer) where
  law := law
  processor := True.intro
  issue _ _ := .note fun _ => of_same (by simp [Happening.edit?]) rfl
  mark m h := by
    cases m with
    | completed label reply => exact complete label reply h
    | opened | closed | forgotten | changed => exact mark fun _ => rfl
  onThread name x _ := .atThread law fun _ _ _ => of_same (by simp [Happening.edit?]) rfl
  onToggle name failing mode :=
    .atToggle law fun _ _ _ => of_same (by simp [Happening.edit?]) rfl
  apart x w := by
    refine of_same (fun event hevent => ?_) rfl
    obtain ⟨_, -, hrecord⟩ := List.mem_filterMap.1 hevent
    obtain ⟨r, -, rfl⟩ := Option.map_eq_some_iff.1 hrecord
    rfl
  keep _ _ _ := .modify fun _ => of_same (by simp) rfl
  discard _ := .modify fun _ => of_same (by simp) rfl
  others _ hissues := absurd (Guard.issues_of_forall (fun _ => True.intro) _) hissues

theorem holdingLaw : HoldingLaw p (Aside buffer) :=
  elementaryLaw.holdingLaw True.intro

theorem enter (holder : Holder) (kind : Guard.Kind) (mode : Mode) (thread : Option String) :
    Obeys (Aside buffer) (Guard.enter p holder kind mode thread) :=
  elementaryLaw.enter (fun _ => True.intro) holder mode thread

theorem release (failing : Bool) (g : Guard) : Obeys (Aside buffer) (Guard.release p failing g) :=
  elementaryLaw.release (Guard.issues_of_forall (fun _ => True.intro) g) failing

theorem leave (holder : Holder) (failing : Bool) (g : Guard) :
    Obeys (Aside buffer) (Guard.leave p holder failing g) :=
  elementaryLaw.leave (Guard.issues_of_forall (fun _ => True.intro) g) holder failing

/-! ### Operations -/

theorem create {name : String} {add : World → World}
    (h : ∀ w b, w.buffers.get? buffer = some b → (add w).buffers.get? buffer = some b) :
    Obeys (Aside buffer) (create name add) := by
  refine .modify fun w => ⟨rfl, fun b hb => ?_⟩
  split
  · exact hb
  · exact h w b hb

theorem perform {op : Operation} (h : op.changes? ≠ some buffer) (running : List String) :
    Obeys (Aside buffer) (perform p running op) := by
  cases hmakes : op.makes with
  | false =>
    refine elementaryLaw.perform holdingLaw running
      (Operation.issues_of_forall (fun _ => True.intro) op) hmakes fun other hother change => ?_
    have hne : buffer ≠ other := fun hsame => h (hsame ▸ hother)
    refine .modify fun w => ⟨rfl, fun b hb => ?_⟩
    rw [Table.get?_update_of_ne hne]
    exact hb
  | true =>
    cases op with
    | newThread | newToggle =>
      exact .bind law (create fun _ _ hb => hb) fun _ => .pure law _
    | newBuffer name maxSize =>
      refine .bind law (create fun w b hb => ?_) fun _ => .pure law _
      -- A buffer that is there is not made again.
      by_cases hname : buffer = name
      · subst hname
        simp [Table.get?_add_self, hb]
      · rw [Table.get?_add_of_ne hname]
        exact hb
    | _ => cases hmakes

theorem runStep {op : Operation} (h : op.changes? ≠ some buffer) (running : List String) :
    Obeys (Aside buffer) (runStep p running op) := by
  refine .bind law (perform h running) fun reply => mark fun now => ?_
  refine Happening.edit?_of_completed fun other hother => ?_
  cases hother
  exact h

/-- While its code is running, a buffer is not changed. -/
theorem runStep_of_running {running : List String} (h : buffer ∈ running) (op : Operation) :
    Obeys (Aside buffer) (WriteXorExecute.runStep p running op) := by
  by_cases hop : op.changes? = some buffer
  · have hbusy : WriteXorExecute.perform p running op = pure .busy := by
      cases op with
      | emit | patch | free =>
        obtain rfl := Option.some.inj hop
        rw [WriteXorExecute.perform, if_pos h]
      | _ => cases hop
    rw [WriteXorExecute.runStep, hbusy, pure_bind]
    refine mark fun now => ?_
    cases op <;> rfl
  · exact runStep hop running

theorem run {running : List String} (h : buffer ∈ running) (program : Program) :
    Obeys (Aside buffer) (run p running program) :=
  holdingLaw.run (fun _ running (hmem : buffer ∈ running) => List.mem_cons_of_mem _ hmem)
    (fun _ op hmem (_ : True) => runStep_of_running hmem op) complete program
    (program.all_of_forall fun _ => True.intro) running h

/-- **Running code does not change it**, whatever else happens meanwhile. -/
theorem runCode (running : List String) (thread : Option String) (body : Program) :
    Obeys (Aside buffer) (runCode p running buffer thread body) :=
  holdingLaw.execute buffer thread fun _ =>
    .bind law (complete _ _ rfl) fun _ =>
      .bind law (run List.mem_cons_self body) fun _ => .pure law _

end Aside

/-! ## Edits of a buffer -/

/-- What the operation asks in order to change the code of the buffer. -/
def Operation.asksFor? (buffer : String) : Operation → Option String
  | emit other thread _ | patch other thread _ _ => if other = buffer then thread else none
  | _ => none

/-- What the operation asks in order to change the code of the buffer has one of these names, and
what it makes under one of them does not panic. -/
structure Operation.Obliging (p : Platform) (names : String → Prop) (buffer : String)
    (op : Operation) : Prop where
  makes : op.Of p (.obliging p names)
  asks : ∀ name, op.asksFor? buffer = some name → names name

/-- The edits that are told of have made the buffer what it is. -/
def Accounted (buffer : String) (b : CodeBuffer) (trace : List Happening) (w : World) : Prop :=
  ∃ b', w.buffers.get? buffer = some b' ∧ Evolves b (edits buffer trace) b'

/-- The edits that are told of make the buffer what it becomes, if objects are of these kinds. -/
def Edited (k : Kinds) (buffer : String) (w : World) (trace : List Happening) (w' : World) : Prop :=
  w.Of k → w'.Of k ∧ ∀ b, w.buffers.get? buffer = some b → Accounted buffer b trace w'

namespace Edited

variable {k : Kinds}

theorem law : Law (Edited k buffer) where
  refl _ h := ⟨h, fun b hb => ⟨b, hb, .nil⟩⟩
  trans {w₁ w₂ w₃ t₁ t₂} h h' hof := by
    obtain ⟨hof₂, h⟩ := h hof
    obtain ⟨hof₃, h'⟩ := h' hof₂
    refine ⟨hof₃, fun b hb => ?_⟩
    obtain ⟨b₂, hb₂, hevolves⟩ := h b hb
    obtain ⟨b₃, hb₃, hevolves'⟩ := h' b₂ hb₂
    exact ⟨b₃, hb₃, by rw [edits_append]; exact hevolves.append hevolves'⟩

theorem of_aside {x : Step α} (haside : Obeys (Aside buffer) x)
    (hkeeps : Obeys (Keeps (World.Of k)) x) : Obeys (Edited k buffer) x := by
  refine fun w hof => ⟨hkeeps w hof, fun b hb => ⟨b, (haside w).kept b hb, ?_⟩⟩
  rw [(haside w).edits]
  exact .nil

theorem enter (holder : Holder) (kind : Guard.Kind) (mode : Mode) (thread : Option String) :
    Obeys (Edited k buffer) (Guard.enter p holder kind mode thread) :=
  of_aside (Aside.enter holder kind mode thread) (World.Of.lasting.enter holder kind mode thread)

theorem holdingLaw : HoldingLaw p (Edited k buffer) where
  law := law
  holding kind mode thread _ hbody :=
    .bracket law (enter .scope kind mode thread) (.trivial _)
      (fun failing g _ => of_aside (Aside.leave .scope failing g)
        (World.Of.lasting.elementaryLaw.leave (Guard.issues_of_forall (fun _ => True.intro) g) _ _))
      hbody

/-! ### One operation -/

/-- The bytes of the buffer are changed, and a line in the log tells so. -/
def Alters (buffer : String) (f : CodeBuffer → CodeBuffer) (change : Step Unit) : Prop :=
  ∀ w, ∃ r w', change w = ⟨.ok (), w', [.mark (.changed buffer r) w'.snapshot]⟩ ∧
    w' = { w with buffers := w.buffers.update buffer f }

/-- The run has made this of the buffer, and has not yet told so. -/
structure Made (buffer : String) (b : CodeBuffer) (r : Run World Happening Panic Unit) : Prop where
  returned : r.outcome = .ok ()
  holds : r.state.buffers.get? buffer = some b
  untold : edits buffer r.trace = []

/-- If nothing is asked that panics, the change is made. -/
theorem holding_made {thread : Option String} {change : Step Unit} {f : CodeBuffer → CodeBuffer}
    (hchange : Alters buffer f change) (hthread : ∀ name, thread = some name → names name)
    (hof : w.Of (.obliging p names)) (hb : w.buffers.get? buffer = some b) :
    Made buffer (f b) (holding p .active .write thread (fun _ => change) w) := by
  have hanswers : ∀ name, thread = some name → Answers p (World.Of (.obliging p names)) name :=
    fun name hname => World.Of.answers (hthread name hname)
  have hbody : Succeeds (World.Of (.obliging p names)) change := by
    intro w hof
    obtain ⟨r, w', hrun, hw'⟩ := hchange w
    rw [hrun, hw']
    exact ⟨⟨(), rfl⟩, World.Of.lasting.buffers _ hof⟩
  obtain ⟨⟨_, hreturns⟩, -⟩ := Succeeds.holding hanswers .active .write (fun _ => hbody) w hof
  obtain ⟨g, w₁, opening, henter, -⟩ := (Succeeds.enter hanswers .scope .active .write).run_eq hof
  have hopening : Aside buffer w opening w₁ := by
    have hopens : Obeys (Aside buffer) (Guard.enter p .scope .active .write thread) :=
      Aside.enter _ _ _ _
    have := hopens w
    rwa [henter] at this
  -- What is asked before and after leaves the buffer as it is.
  obtain ⟨r, w₂, hrun, hw₂⟩ := hchange w₁
  have hchanged : w₂.buffers.get? buffer = some (f b) := by
    rw [hw₂, Table.get?_update_self, hopening.kept b hb, Option.map_some]
  have hclosing : Aside buffer w₂ (Guard.release p false g w₂).trace
      (Guard.release p false g w₂).state := Aside.release false g w₂
  rw [holding_of_entered henter, hrun] at hreturns ⊢
  simp only [Run.failed] at hreturns ⊢
  refine ⟨hreturns, hclosing.kept _ hchanged, ?_⟩
  have hmark {m : Mark} {now : Snapshot} (h : (Happening.mark m now).edit? buffer = none) :
      edits buffer [.mark m now] = [] := by
    simp [edits, h]
  rw [edits_append, edits_append, edits_append, hopening.edits, hclosing.edits,
    hmark (by rfl), hmark (by rfl)]
  rfl

/-- The reply tells of it. -/
theorem Made.accounted {r : Run World Happening Panic Unit} {e : Edit} {b' : CodeBuffer}
    {op : Operation} {reply : Reply} (h : Made buffer b' r) (he : e.Makes b b')
    (hreply : ∀ now,
      (Happening.mark (.completed (.operation op) reply) now).edit? buffer = some e) :
    let q := r.andThen fun _ => WriteXorExecute.complete (.operation op) reply
    Accounted buffer b q.trace q.state := by
  obtain ⟨outcome, w', trace⟩ := r
  obtain rfl : outcome = .ok () := h.returned
  have htold : edits buffer (trace ++ [.mark (.completed (.operation op) reply) w'.snapshot])
      = [e] := by
    rw [edits_append, h.untold, edits, List.filterMap_cons_some (hreply _), List.filterMap_nil,
      List.nil_append]
  refine ⟨b', h.holds, ?_⟩
  rw [Run.andThen_ok, WriteXorExecute.complete, mark_apply, htold]
  exact .single he

section

variable {running : List String} {thread : Option String} {offset : UInt64} {data : ByteArray}
  (hrunning : buffer ∉ running) (hb : w.buffers.get? buffer = some b)

include hrunning hb

theorem runStep_emit (hthread : ∀ name, thread = some name → names name)
    (hof : w.Of (.obliging p names)) :
    let r := runStep p running (.emit buffer thread data) w
    Accounted buffer b r.trace r.state := by
  have hbuffer : w.buffer buffer = b := by rw [World.buffer, hb, Option.getD_some]
  have hstep : runStep p running (.emit buffer thread data) w =
      (Code.emit p buffer thread data w).andThen fun result =>
        complete (.operation (.emit buffer thread data)) (.emitted result) := by
    simp only [runStep, perform, if_neg hrunning, bind_apply, Run.andThen_assoc, pure_bind]
  rw [hstep]
  cases hadmitted : b.admitEmit data.size with
  | error e =>
    rw [Code.emit_of_refused (by rw [hbuffer, hadmitted])]
    exact ⟨b, hb, .nil⟩
  | ok offset =>
    rw [Code.emit_of_admitted (by rw [hbuffer, hadmitted]), Run.andThen_assoc]
    simp only [pure_bind]
    have halters : Alters buffer (·.append data) (Code.store buffer offset data) :=
      fun w => ⟨_, _, rfl, rfl⟩
    have hmakes : (Edit.emitted offset data).Makes b (b.append data) := ⟨hadmitted, rfl⟩
    exact (holding_made halters hthread hof hb).accounted hmakes fun _ => if_pos rfl

theorem runStep_patch (hthread : ∀ name, thread = some name → names name)
    (hof : w.Of (.obliging p names)) :
    let r := runStep p running (.patch buffer thread offset data) w
    Accounted buffer b r.trace r.state := by
  have hbuffer : w.buffer buffer = b := by rw [World.buffer, hb, Option.getD_some]
  have hstep : runStep p running (.patch buffer thread offset data) w =
      (Code.patch p buffer thread offset data w).andThen fun result =>
        complete (.operation (.patch buffer thread offset data)) (.patched result) := by
    simp only [runStep, perform, if_neg hrunning, bind_apply, Run.andThen_assoc, pure_bind]
  rw [hstep]
  cases hadmitted : b.admitPatch offset data.size with
  | error e =>
    rw [Code.patch_of_refused (by rw [hbuffer, hadmitted])]
    exact ⟨b, hb, .nil⟩
  | ok _ =>
    rw [Code.patch_of_admitted (by rw [hbuffer, hadmitted]), Run.andThen_assoc]
    simp only [pure_bind]
    have halters : Alters buffer (·.overwrite offset data) (Code.replace buffer offset data) :=
      fun w => ⟨_, _, rfl, rfl⟩
    have hmakes : (Edit.patched offset data).Makes b (b.overwrite offset data) := ⟨hadmitted, rfl⟩
    exact (holding_made halters hthread hof hb).accounted hmakes fun _ => if_pos rfl

theorem runStep_free :
    let r := runStep p running (.free buffer) w
    Accounted buffer b r.trace r.state := by
  have hstep : runStep p running (.free buffer) w = (onBuffer buffer (·.free) w).andThen fun _ =>
      complete (.operation (.free buffer)) .nothing := by
    simp only [runStep, perform, if_neg hrunning, bind_apply, Run.andThen_assoc, pure_bind]
  have hfreed : (w.buffers.update buffer fun b => b.free).get? buffer = some b.free := by
    rw [Table.get?_update_self, hb, Option.map_some]
  have hmade : Made buffer b.free (onBuffer buffer (·.free) w) := ⟨rfl, hfreed, rfl⟩
  have hmakes : Edit.freed.Makes b b.free := rfl
  rw [hstep]
  exact hmade.accounted hmakes fun _ => if_pos rfl

end

/-- An operation that changes the buffer makes of it what its reply tells. -/
theorem runStep_accounted {running : List String} {op : Operation}
    (hop : op.Obliging p names buffer) (hchanges : op.changes? = some buffer)
    (hrunning : buffer ∉ running) (hof : w.Of (.obliging p names))
    (hb : w.buffers.get? buffer = some b) :
    Accounted buffer b (runStep p running op w).trace (runStep p running op w).state := by
  cases op with
  | emit other thread data =>
    obtain rfl : other = buffer := Option.some.inj hchanges
    exact runStep_emit hrunning hb (fun name hname => hop.asks name ((if_pos rfl).trans hname)) hof
  | patch other thread offset data =>
    obtain rfl : other = buffer := Option.some.inj hchanges
    exact runStep_patch hrunning hb (fun name hname => hop.asks name ((if_pos rfl).trans hname)) hof
  | free other =>
    obtain rfl : other = buffer := Option.some.inj hchanges
    exact runStep_free hrunning hb
  | _ => cases hchanges

theorem stepwise : StepwiseLaw p (Operation.Obliging p names buffer)
    (Edited (.obliging p names) buffer) where
  toHoldingLaw := holdingLaw
  step running op hop := by
    have hkeeps : Obeys (Keeps (World.Of (.obliging p names))) (runStep p running op) :=
      World.Of.stepwise.step running op hop.makes
    -- Whether the object kinds last does not depend on what the operation does to the buffer.
    by_cases hchanges : op.changes? = some buffer
    · by_cases hrunning : buffer ∈ running
      · exact of_aside (Aside.runStep_of_running hrunning op) hkeeps
      · exact fun w hof =>
          ⟨hkeeps w hof, fun b hb => runStep_accounted hop hchanges hrunning hof hb⟩
    · exact of_aside (Aside.runStep hchanges running) hkeeps
  complete label reply h :=
    of_aside (Aside.complete label reply h) fun _ hof => hof

end Edited

/-! ## Wherever a program has come to -/

/-- **Edits account for a buffer.** -/
theorem edited_at {way : List Frame} {start place : Place} {before : List Happening}
    (hlead : Leads p way start before place)
    (hops : ∀ f ∈ way, f.All (Operation.Obliging p names buffer))
    (hof : start.world.Of (.obliging p names)) (hb : start.world.buffers.get? buffer = some b) :
    Accounted buffer b before place.world :=
  (hlead.obeys Edited.stepwise (Edited.enter .scope) hops hof).2 b hb

/-- The bytes of the buffer are the code that is told, and the code that is run. -/
structure Serves (p : Platform) (buffer : String) (w : World) (b : CodeBuffer) : Prop where
  code : (Question.code buffer).answer p w = .code (.ok b.bytes)
  extent : (Question.extent buffer).answer p w = .extent b.bytes.size b.bytes.isEmpty b.maxSize
  execute : ∀ {α : Type} thread (body : ByteArray → Step α), Code.execute p buffer thread body w =
    if b.bytes.isEmpty then ⟨.ok (.error .empty), w, []⟩
    else (holding p .active .exec thread (fun _ => body b.bytes) w).andThen fun a => pure (.ok a)

/-- A buffer that has not been freed serves its bytes. -/
theorem Serves.of_live (h : (w.buffer buffer).freed = false) :
    Serves p buffer w (w.buffer buffer) where
  code := by
    have hcode : (w.buffer buffer).code = .ok (w.buffer buffer).bytes := by
      rw [CodeBuffer.code, CodeBuffer.requireLive, h]
      rfl
    rw [Question.answer, hcode]
  extent := rfl
  execute thread body := by
    have hadmission := CodeBuffer.admitRun_of_live h
    by_cases hempty : (w.buffer buffer).bytes.isEmpty = true
    · rw [if_pos hempty] at hadmission ⊢
      exact Code.execute_of_refused hadmission
    · rw [if_neg hempty] at hadmission ⊢
      exact Code.execute_of_admitted hadmission

/-- **The bytes that were written last.** Wherever a program has come to, a buffer that started
empty serves its bytes until it is freed, and from then on it is empty. Its bytes are what its edits
have written, as long as they can be counted in a word. Running its code leaves it as it is,
whatever the body does and however it ends. -/
theorem last_written_code {way : List Frame} {start place : Place} {before : List Happening}
    {maxSize : UInt64} (hlead : Leads p way start before place)
    (hops : ∀ f ∈ way, f.All (Operation.Obliging p names buffer))
    (hof : start.world.Of (.obliging p names))
    (hb : start.world.buffers.get? buffer = some { maxSize }) :
    let b := place.world.buffer buffer
    let es := edits buffer before
    (.freed ∉ es →
        Serves p buffer place.world b ∧ (b.bytes.size < UInt64.size → Written es b)) ∧
      (.freed ∈ es → b.bytes = .empty ∧ b.freed = true) ∧
      ∀ thread body,
        (runCode p place.running buffer thread body place.world).state.buffer buffer = b := by
  intro b es
  obtain ⟨b', hb', hevolves⟩ := edited_at hlead hops hof hb
  obtain rfl : b' = b := by simp only [b, World.buffer, hb', Option.getD_some]
  refine ⟨fun hlive => ⟨.of_live (hevolves.live hlive), hevolves.written rfl hlive⟩,
    hevolves.of_freed, fun thread body => ?_⟩
  have hcode : Obeys (Aside buffer) (runCode p place.running buffer thread body) :=
    Aside.runCode place.running thread body
  rw [World.buffer, (hcode place.world).kept b hb', Option.getD_some]

/-- A thread whose backend calls back, and code that is emitted, patched and run. The patches
overlap, one of them is refused, and the code panics while it runs. -/
def editing : Program :=
  .step (.newThread "t" (.scripted [⟨0, .enable .exec⟩]) none none) <|
  .step (.emit "b" (some "t") ⟨#[0xE8, 0, 0]⟩) <|
  .step (.emit "b" none .empty) <|
  .step (.patch "b" (some "t") 1 ⟨#[0x10, 0x20]⟩) <|
  .step (.emit "b" none ⟨#[0xC3]⟩) <|
  .step (.patch "b" none 2 ⟨#[0x30, 0x40]⟩) <|
  .step (.patch "b" none 3 ⟨#[0x50, 0x60]⟩) <|
  .execute "b" (some "t") (.step (.emit "b" none ⟨#[0x90]⟩) <| .step (.panic "late") .done) .done

def blank : World :=
  { buffers := Table.add ∅ "b" { maxSize := 8 } }

theorem last_written_code_overlapping :
    let p : Platform := { target := .macos }
    ∃ before place, Leads p [.past (.attempt editing)] { world := blank } before place ∧
      edits "b" before = [.emitted 0 ⟨#[0xE8, 0, 0]⟩, .emitted 3 .empty,
        .patched 1 ⟨#[0x10, 0x20]⟩, .emitted 3 ⟨#[0xC3]⟩, .patched 2 ⟨#[0x30, 0x40]⟩] ∧
      (place.world.buffer "b").bytes = ⟨#[0xE8, 0x10, 0x30, 0x40]⟩ ∧
      Serves p "b" place.world (place.world.buffer "b") ∧
      Written (edits "b" before) (place.world.buffer "b") := by
  intro p
  have hreturns : ((Item.attempt editing).run p [] blank).failed = false := by decide +kernel
  have hedits : edits "b" (((Item.attempt editing).run p [] blank).trace ++ []) =
      [.emitted 0 ⟨#[0xE8, 0, 0]⟩, .emitted 3 .empty, .patched 1 ⟨#[0x10, 0x20]⟩,
        .emitted 3 ⟨#[0xC3]⟩, .patched 2 ⟨#[0x30, 0x40]⟩] := by
    decide +kernel
  have hbytes : (((Item.attempt editing).run p [] blank).state.buffer "b").bytes
      = ⟨#[0xE8, 0x10, 0x30, 0x40]⟩ := by decide +kernel
  have hlead := Leads.past_of_not_failed hreturns (.here _)
  generalize ((Item.attempt editing).run p [] blank).trace ++ [] = before at hedits hlead
  generalize ((Item.attempt editing).run p [] blank).state = edited at hbytes hlead
  have hother (op : Operation) (hop : op.makes = false) :
      op.Obliging p (fun _ => True) "b" := by
    refine ⟨?_, fun _ _ => True.intro⟩
    cases op with
    | newThread | newToggle => cases hop
    | _ => exact True.intro
  have hops : ∀ f ∈ [Frame.past (.attempt editing)],
      f.All (Operation.Obliging p (fun _ => True) "b") := by
    have hthread : (Operation.newThread "t" (.scripted [⟨0, .enable .exec⟩]) none none).Obliging p
        (fun _ => True) "b" := ⟨fun _ => .of_script (by decide), fun _ _ => True.intro⟩
    refine List.forall_mem_singleton.2 ⟨hthread, ?_⟩
    exact ⟨hother _ rfl, hother _ rfl, hother _ rfl, hother _ rfl, hother _ rfl, hother _ rfl,
      ⟨hother _ rfl, hother _ rfl, True.intro⟩, True.intro⟩
  have hof : blank.Of (.obliging p fun _ => True) := by
    constructor <;> exact fun _ _ ht => by cases ht
  have hlive : Edit.freed ∉ edits "b" before := by
    rw [hedits]
    decide
  have hsize : (edited.buffer "b").bytes.size < UInt64.size := by
    rw [hbytes]
    decide
  have hb : blank.buffers.get? "b" = some { maxSize := 8 } := rfl
  obtain ⟨hserves, hwritten⟩ := (last_written_code hlead hops hof hb).1 hlive
  exact ⟨before, _, hlead, hedits, hbytes, hserves, hwritten hsize⟩

end WriteXorExecute
