import WriteXorExecute.Proofs.CodeChanges
import WriteXorExecute.Proofs.Disorder
import WriteXorExecute.Proofs.Pieces
/-!
# Code that is written piece by piece

A program that writes pieces of code into a buffer gets for each of them the answer of the buffer,
and makes of the buffer what the pieces make of it, whoever is asked for `write` meanwhile, as long
as nothing that is asked panics (`run_writing`). So the laws of pieces are laws of such programs
(`written_piecewise`): code can be emitted in parts, patched in any order, and patched again.
-/
namespace WriteXorExecute

open Procedure

variable {α : Type} {p : Platform} {running : List String} {buffer : String} {names : String → Prop}
  {w : World} {b : CodeBuffer} {thread : Option String} {data : ByteArray} {xs ys : List Piece}

/-- A piece of code that is to be written, and who is asked for `write`. -/
structure Task where
  piece : Piece
  thread : Option String

def Task.operation (buffer : String) : Task → Operation
  | ⟨.emit data, thread⟩ => .emit buffer thread data
  | ⟨.patch offset data, thread⟩ => .patch buffer thread offset data

def pieces (tasks : List Task) : List Piece :=
  tasks.map (·.piece)

/-- Only these names are asked. -/
def Task.Asks (names : String → Prop) (t : Task) : Prop :=
  ∀ name, t.thread = some name → names name

def Program.writing (buffer : String) (tasks : List Task) : Program :=
  .sequence (tasks.map (·.operation buffer))

def Happening.reply? : Happening → Option Reply
  | mark (.completed _ reply) _ => some reply
  | _ => none

/-- The program returns, these are its replies, and this is the buffer then. -/
structure Writes (p : Platform) (running : List String) (buffer : String) (w : World)
    (tasks : List Task) (replies : List Reply) (b : CodeBuffer) : Prop where
  returned : (run p running (.writing buffer tasks) w).outcome = .ok ()
  replied : (run p running (.writing buffer tasks) w).trace.filterMap Happening.reply? = replies
  left : (run p running (.writing buffer tasks) w).state.buffers.get? buffer = some b

/-! ## One piece -/

theorem Untold.replies {trace : List Happening} (h : ∀ x ∈ trace, x.isReply = false) :
    trace.filterMap Happening.reply? = [] := by
  refine List.filterMap_eq_nil_iff.2 fun x hx => ?_
  have hnone := h x hx
  unfold Happening.reply?
  split
  · cases hnone
  · rfl

/-- The whole run. -/
theorem Edited.Made.run_eq {r : Run World Happening Panic Unit} (h : Made buffer b r) :
    ∃ w' trace, r = ⟨.ok (), w', trace⟩ ∧ w'.buffers.get? buffer = some b := by
  obtain ⟨outcome, w', trace⟩ := r
  obtain rfl : outcome = .ok () := h.returned
  exact ⟨w', trace, rfl, h.holds⟩

section

variable (hof : w.Of (.obliging p names)) (hrunning : buffer ∉ running)
  (hb : w.buffers.get? buffer = some b)

include hof hb

/-- A change of code that is admitted is made, and returned from. -/
theorem Changes.writes {admission : Except CodeError α} {f : CodeBuffer → CodeBuffer}
    {record : α → Record} {x : Step (Except CodeError α)}
    (h : Changes p buffer thread w admission f record x)
    (hthread : ∀ name, thread = some name → names name) :
    ∃ w' trace, x w = ⟨.ok admission, w', trace⟩ ∧
      w'.buffers.get? buffer = some (if admission.isOk then f b else b) := by
  cases hadmitted : admission with
  | error e => exact ⟨w, [], h.refused e hadmitted, hb⟩
  | ok a =>
    have halters : Edited.Alters buffer f (change buffer f (record a)) := fun w => ⟨_, _, rfl, rfl⟩
    obtain ⟨w', trace, hrun, hw'⟩ := (Edited.holding_made halters hthread hof hb).run_eq
    refine ⟨w', trace, ?_, hw'⟩
    rw [h.accepted a hadmitted, hrun, Run.andThen_return]
    rfl

include hrunning

/-- The reply is what the buffer answers, and the buffer becomes what the piece makes of it. -/
theorem perform_writes {t : Task} (ht : t.Asks names) :
    ∃ w' trace, perform p running (t.operation buffer) w = ⟨.ok (b.reply t.piece), w', trace⟩ ∧
      w'.buffers.get? buffer = some (b.write t.piece) := by
  have hbuffer : w.buffer buffer = b := by rw [World.buffer, hb, Option.getD_some]
  obtain ⟨piece, thread⟩ := t
  cases piece with
  | emit data =>
    obtain ⟨w', trace, hrun, hw'⟩ := (emit_changes p buffer thread data w).writes hof hb ht
    rw [hbuffer] at hrun hw'
    refine ⟨w', trace, ?_, hw'⟩
    simp only [Task.operation, perform, if_neg hrunning, bind_apply, hrun, Run.andThen_return]
    rfl
  | patch offset data =>
    obtain ⟨w', trace, hrun, hw'⟩ := (patch_changes p buffer thread offset data w).writes hof hb ht
    rw [hbuffer] at hrun hw'
    refine ⟨w', trace, ?_, hw'⟩
    simp only [Task.operation, perform, if_neg hrunning, bind_apply, hrun, Run.andThen_return]
    rfl

theorem runStep_writes {t : Task} (ht : t.Asks names) :
    ∃ w' trace, runStep p running (t.operation buffer) w = ⟨.ok (), w', trace⟩ ∧
      w'.Of (.obliging p names) ∧ w'.buffers.get? buffer = some (b.write t.piece) ∧
      trace.filterMap Happening.reply? = [b.reply t.piece] := by
  obtain ⟨w', trace, hperform, hw'⟩ := perform_writes hof hrunning hb ht
  have hrun : runStep p running (t.operation buffer) w = ⟨.ok (), w',
      trace ++ [.mark (.completed (.operation (t.operation buffer)) (b.reply t.piece))
        w'.snapshot]⟩ := by
    simp only [runStep, bind_apply, hperform, Run.andThen_ok, complete, mark_apply]
  have hmakes : (t.operation buffer).Of p (.obliging p names) := by
    obtain ⟨piece, thread⟩ := t
    cases piece <;> exact True.intro
  have hof' := World.Of.stepwise.step running _ hmakes w hof
  -- The only reply is the one that the end of the operation gives.
  have huntold := Untold.perform (p := p) running (t.operation buffer) w
  rw [hperform] at huntold
  rw [hrun] at hof'
  refine ⟨w', _, hrun, hof', hw', ?_⟩
  rw [List.filterMap_append, Untold.replies huntold]
  rfl

/-! ## Many pieces -/

/-- **Programs that write pieces** do to the buffer what the pieces do to it. -/
theorem run_writing {tasks : List Task} (htasks : ∀ t ∈ tasks, t.Asks names) :
    Writes p running buffer w tasks (b.replies (pieces tasks)) (b.writeAll (pieces tasks)) := by
  induction tasks generalizing w b with
  | nil => exact ⟨rfl, rfl, hb⟩
  | cons t tasks ih =>
    obtain ⟨ht, htasks⟩ := List.forall_mem_cons.1 htasks
    obtain ⟨w', trace, hstep, hof', hb', hreply⟩ := runStep_writes hof hrunning hb ht
    obtain ⟨hreturned, hreplied, hleft⟩ := ih hof' hb' htasks
    have hrun : run p running (.writing buffer (t :: tasks)) w =
        (runStep p running (t.operation buffer) w).andThen fun _ =>
          run p running (.writing buffer tasks) := by
      change run p running (.step (t.operation buffer) (.writing buffer tasks)) w = _
      rw [run_step, bind_apply]
    rw [hstep, Run.andThen_ok] at hrun
    constructor
    · rw [hrun]
      exact hreturned
    · rw [hrun, List.filterMap_append, hreply, hreplied]
      rfl
    · rw [hrun]
      exact hleft

end

/-! ## The laws of pieces -/

/-- Of two lists of pieces with their replies: all are accepted, each with the same answer in both,
and what is emitted starts at the same offsets, one piece after another. -/
structure Rearranged (xs : List Piece) (replies : List Reply) (ys : List Piece)
    (replies' : List Reply) : Prop where
  accepted : ∀ reply ∈ replies, reply.refuses = false
  answers : (xs.zip replies).Perm (ys.zip replies')
  offsets : (xs.zip replies).filter (·.1.emits) = (ys.zip replies').filter (·.1.emits)

/-- Pieces that change places are answered so, as long as what is emitted keeps its order. -/
theorem rearranged_answers (hperm : xs.Perm ys)
    (hemits : xs.filter Piece.emits = ys.filter Piece.emits) (size : Nat) :
    Rearranged xs (answers size xs) ys (answers size ys) where
  accepted _ := refuses_of_mem_answers
  answers := answers_perm hperm hemits size
  offsets := by rw [filter_emits_zip_answers, filter_emits_zip_answers, hemits]

/-- What programs make of a live buffer that write pieces of code into it, and ask only these
names. -/
structure Piecewise (p : Platform) (running : List String) (buffer : String)
    (names : String → Prop) (w : World) (b : CodeBuffer) : Prop where
  /-- Code that is emitted in parts is the code that is emitted at once, and each part starts where
  the one before it ends. -/
  chunked : ∀ tasks thread, (∀ t ∈ tasks, t.Asks names ∧ t.piece.emits = true) →
    (∀ name, thread = some name → names name) → b.Fits (pieces tasks) →
    let all := joined (pieces tasks)
    ∃ replies, Writes p running buffer w tasks replies (b.append all) ∧
      Writes p running buffer w [⟨.emit all, thread⟩] [.emitted (.ok b.size)] (b.append all) ∧
      ∀ i < tasks.length, ∃ offset, replies[i]? = some (.emitted (.ok offset)) ∧
        offset.toNat = b.bytes.size + (joined ((pieces tasks).take i)).size
  /-- Of pieces that fit, none is refused exactly if each patch comes after the code that it is
  for. -/
  accepted : ∀ tasks, (∀ t ∈ tasks, t.Asks names) → b.Fits (pieces tasks) →
    (∀ offset data, .patch offset data ∈ pieces tasks → data.size < UInt64.size) →
    ∃ replies b', Writes p running buffer w tasks replies b' ∧
      ((∀ reply ∈ replies, reply.refuses = false) ↔ Late b.bytes.size (pieces tasks))
  /-- Patches that do not meet can be made in every order, before and after anything that is
  emitted, if each comes after the code that it is for. -/
  rearranged : ∀ tasks tasks', (∀ t ∈ tasks, t.Asks names) → (∀ t ∈ tasks', t.Asks names) →
    (pieces tasks).Perm (pieces tasks') →
    (pieces tasks).filter Piece.emits = (pieces tasks').filter Piece.emits →
    (pieces tasks).Pairwise Piece.Apart → b.Fits (pieces tasks) →
    Late b.bytes.size (pieces tasks) → Late b.bytes.size (pieces tasks') →
    ∃ replies replies' b', Writes p running buffer w tasks replies b' ∧
      Writes p running buffer w tasks' replies' b' ∧
      Rearranged (pieces tasks) replies (pieces tasks') replies'
  /-- Code that has its bytes patched in is the code that is emitted with these bytes, if each place
  is patched, or has been emitted as it is to be in the end. -/
  filled : ∀ tasks thread final, (∀ t ∈ tasks, t.Asks names) →
    (∀ name, thread = some name → names name) → (joined (pieces tasks)).size = final.size →
    b.Fits (pieces tasks) → Late b.bytes.size (pieces tasks) →
    (∀ x ∈ pieces tasks, ∀ i byte, x.patched? i = some byte →
      (b.bytes ++ final)[i]? = some byte) →
    (∀ i : Nat, (∀ x ∈ pieces tasks, x.patched? i = none) →
      (b.bytes ++ joined (pieces tasks))[i]? = (b.bytes ++ final)[i]?) →
    ∃ replies, Writes p running buffer w tasks replies (b.append final) ∧
      Writes p running buffer w [⟨.emit final, thread⟩] [.emitted (.ok b.size)] (b.append final)
  /-- A patch that is made again at once changes nothing, and gets the same answer. -/
  repeated : ∀ thread thread' offset data, (∀ name, thread = some name → names name) →
    (∀ name, thread' = some name → names name) → data.size < UInt64.size →
    ∃ reply b', Writes p running buffer w [⟨.patch offset data, thread⟩] [reply] b' ∧
      Writes p running buffer w [⟨.patch offset data, thread⟩, ⟨.patch offset data, thread'⟩]
        [reply, reply] b'
  /-- Of two patches the later one decides where both put a byte, and nowhere else. -/
  overlapped : ∀ thread thread' offset offset' data data',
    (∀ name, thread = some name → names name) → (∀ name, thread' = some name → names name) →
    offset.toNat + data.size ≤ b.bytes.size → offset'.toNat + data'.size ≤ b.bytes.size →
    ∃ b', Writes p running buffer w [⟨.patch offset data, thread⟩, ⟨.patch offset' data', thread'⟩]
        [.patched (.ok ()), .patched (.ok ())] b' ∧
      ∀ i, b'.bytes[i]? =
        if offset'.toNat ≤ i ∧ i < offset'.toNat + data'.size then data'[i - offset'.toNat]?
        else if offset.toNat ≤ i ∧ i < offset.toNat + data.size then data[i - offset.toNat]?
        else b.bytes[i]?

section

variable (hof : w.Of (.obliging p names)) (hrunning : buffer ∉ running)
  (hb : w.buffers.get? buffer = some b) (hlive : b.freed = false)

include hof hrunning hb hlive

/-- Pieces that are accepted are written. -/
theorem writes_of_late {tasks : List Task} (htasks : ∀ t ∈ tasks, t.Asks names)
    (hfits : b.Fits (pieces tasks)) (hlate : Late b.bytes.size (pieces tasks)) :
    ∃ b', Writes p running buffer w tasks (answers b.bytes.size (pieces tasks)) b' ∧
      b.Took (pieces tasks) b' := by
  obtain ⟨hreplies, htook⟩ := CodeBuffer.Takes.taken ⟨hlive, hfits, hlate⟩
  refine ⟨_, ?_, htook⟩
  rw [← hreplies]
  exact run_writing hof hrunning hb htasks

/-- What is emitted at once, if it fits. -/
theorem writes_emit (hthread : ∀ name, thread = some name → names name)
    (hfits : b.bytes.size + data.size ≤ b.maxSize.toNat) :
    Writes p running buffer w [⟨.emit data, thread⟩] [.emitted (.ok b.size)] (b.append data) := by
  have hwrites := run_writing hof hrunning hb (List.forall_mem_singleton.2
    (show Task.Asks names ⟨.emit data, thread⟩ from hthread))
  have hadmitted := CodeBuffer.admitEmit_of_fits hlive hfits
  simpa [pieces, CodeBuffer.replies, CodeBuffer.reply, CodeBuffer.writeAll, CodeBuffer.write,
    hadmitted, CodeBuffer.size, Except.isOk, Except.toBool] using hwrites

/-- **Code that is written piece by piece** into a live buffer is the code that its pieces make,
however it is cut, and in whatever order it is patched. This is so on every platform, and whoever is
asked for `write`, as long as nothing that is asked panics. -/
theorem written_piecewise (hsize : b.bytes.size < UInt64.size) :
    Piecewise p running buffer names w b where
  chunked tasks thread htasks hthread hfits := by
    intro all
    have hemits : ∀ x ∈ pieces tasks, x.emits = true :=
      List.forall_mem_map.2 fun t ht => (htasks t ht).2
    obtain ⟨b', hwrites, htook⟩ := writes_of_late hof hrunning hb hlive
      (fun t ht => (htasks t ht).1) hfits (late_of_emits hemits)
    obtain rfl : b' = b.append all := htook.eq_append
      (fun x hx i byte hbyte => by cases (Piece.patched?_of_emits (hemits x hx)).symm.trans hbyte)
      fun _ _ => rfl
    refine ⟨_, hwrites, writes_emit hof hrunning hb hlive hthread hfits, fun i hi => ?_⟩
    exact offset_of_answers hemits hfits (by rwa [pieces, List.length_map])
  accepted tasks htasks hfits hcount :=
    ⟨_, _, run_writing hof hrunning hb htasks,
      CodeBuffer.replies_refuse_none_iff hlive hfits hcount⟩
  rearranged tasks tasks' htasks htasks' hperm hemits hapart hfits hlate hlate' := by
    obtain ⟨b', hwrites, htook⟩ := writes_of_late hof hrunning hb hlive htasks hfits hlate
    obtain ⟨b'', hwrites', htook'⟩ :=
      writes_of_late hof hrunning hb hlive htasks' (hfits.of_emits hemits) hlate'
    obtain rfl : b' = b'' := htook.eq_of_perm htook' hapart hperm hemits
    exact ⟨_, _, b', hwrites, hwrites', rearranged_answers hperm hemits _⟩
  filled tasks thread final htasks hthread hfinal hfits hlate hpatched hother := by
    obtain ⟨b', hwrites, htook⟩ := writes_of_late hof hrunning hb hlive htasks hfits hlate
    obtain rfl : b' = b.append final := htook.eq_append hpatched hother
    rw [CodeBuffer.Fits, hfinal] at hfits
    exact ⟨_, hwrites, writes_emit hof hrunning hb hlive hthread hfits⟩
  repeated thread thread' offset data hthread hthread' hcount := by
    have hone : Task.Asks names ⟨.patch offset data, thread⟩ := hthread
    have htwo : Task.Asks names ⟨.patch offset data, thread'⟩ := hthread'
    have hfirst := run_writing hof hrunning hb (List.forall_mem_singleton.2 hone)
    have hboth := run_writing hof hrunning hb
      (List.forall_mem_cons.2 ⟨hone, List.forall_mem_singleton.2 htwo⟩)
    obtain ⟨hreply, hwrite⟩ := CodeBuffer.write_again hsize hcount offset
    refine ⟨_, _, hfirst, ?_⟩
    simpa only [pieces, List.map_cons, List.map_nil, CodeBuffer.replies, CodeBuffer.writeAll,
      List.foldl_cons, List.foldl_nil, hreply, hwrite] using hboth
  overlapped thread thread' offset offset' data data' hthread hthread' hwithin hwithin' := by
    have hasks : ∀ t ∈ [Task.mk (.patch offset data) thread, ⟨.patch offset' data', thread'⟩],
        t.Asks names :=
      List.forall_mem_cons.2 ⟨hthread, List.forall_mem_singleton.2 hthread'⟩
    have hsame := CodeBuffer.size_overwrite_of_within hwithin
    have hlive' : (b.overwrite offset data).freed = false := hlive
    have hfirst := CodeBuffer.admitPatch_of_within hlive hsize hwithin
    rw [← hsame] at hsize hwithin'
    have hsecond := CodeBuffer.admitPatch_of_within hlive' hsize hwithin'
    refine ⟨(b.overwrite offset data).overwrite offset' data', ?_, fun i => ?_⟩
    · simpa [pieces, CodeBuffer.replies, CodeBuffer.reply, CodeBuffer.writeAll, CodeBuffer.write,
        hfirst, hsecond, Except.isOk, Except.toBool] using run_writing hof hrunning hb hasks
    · rw [CodeBuffer.getElem?_overwrite hwithin', CodeBuffer.getElem?_overwrite hwithin]

end

/-- A world with a thread whose backend calls back, a toggle that lies, and code in a buffer. -/
def drafting : World where
  threads := Table.add ∅ "t"
    { backend := .scripted [⟨0, .enable .exec⟩, ⟨2, .init⟩], config := { checkAtSync := true } }
  toggles := Table.add ∅ "d" { mode := .exec, answers := [some .write, none, some .write] }
  buffers := Table.add ∅ "b" { bytes := ⟨#[0x90]⟩, maxSize := 6 }

/-- Code that is patched as it is emitted, over the code that was there and up to the end. One of
the patches is empty. -/
def asEmitted : List Task :=
  [⟨.emit ⟨#[0xE8, 0, 0]⟩, some "t"⟩, ⟨.patch 0 ⟨#[0x50, 0x55]⟩, some "d"⟩, ⟨.patch 3 .empty, none⟩,
    ⟨.emit ⟨#[0, 0]⟩, some "t"⟩, ⟨.patch 4 ⟨#[0x58, 0xC3]⟩, some "t"⟩,
    ⟨.patch 2 ⟨#[0x10, 0x20]⟩, some "d"⟩]

/-- The same code, patched after all of it has been emitted. -/
def afterwards : List Task :=
  [⟨.emit ⟨#[0xE8, 0, 0]⟩, none⟩, ⟨.emit ⟨#[0, 0]⟩, some "d"⟩,
    ⟨.patch 2 ⟨#[0x10, 0x20]⟩, some "t"⟩, ⟨.patch 4 ⟨#[0x58, 0xC3]⟩, none⟩,
    ⟨.patch 3 .empty, some "t"⟩, ⟨.patch 0 ⟨#[0x50, 0x55]⟩, some "t"⟩]

theorem written_piecewise_patched :
    let p : Platform := { target := .macos, checks := false }
    ∃ replies replies' b, Writes p [] "b" drafting asEmitted replies b ∧
      Writes p [] "b" drafting afterwards replies' b ∧
      Rearranged (pieces asEmitted) replies (pieces afterwards) replies' ∧
      b.bytes = ⟨#[0x50, 0x55, 0x10, 0x20, 0x58, 0xC3]⟩ := by
  intro p
  have hof : drafting.Of (.obliging p fun _ => True) := by
    refine ⟨fun name t ht _ => ?_, fun name d hd _ => ?_⟩
    · rcases Table.of_get?_add ht with ht | ⟨-, rfl⟩
      · cases ht
      · exact .of_script (by decide)
    · rcases Table.of_get?_add hd with hd | ⟨-, rfl⟩
      · cases hd
      · exact nofun
  have hasks (tasks : List Task) : ∀ t ∈ tasks, t.Asks fun _ => True :=
    fun _ _ _ _ => True.intro
  have hb : drafting.buffers.get? "b" = some { bytes := ⟨#[0x90]⟩, maxSize := 6 } := rfl
  have hlaws := written_piecewise hof List.not_mem_nil hb rfl (by decide)
  obtain ⟨replies, replies', b, hwrites, hwrites', hrearranged⟩ := hlaws.rearranged asEmitted
    afterwards (hasks _) (hasks _) (by decide) (by decide) (by decide) (by decide) (by decide)
    (by decide)
  have hbytes : ((run p [] (.writing "b" asEmitted) drafting).state.buffers.get? "b").map (·.bytes)
      = some ⟨#[0x50, 0x55, 0x10, 0x20, 0x58, 0xC3]⟩ := by decide +kernel
  rw [hwrites.left] at hbytes
  exact ⟨replies, replies', b, hwrites, hwrites', hrearranged, Option.some.inj hbytes⟩

end WriteXorExecute
