import WriteXorExecute.Proofs.Edits
import WriteXorExecute.Proofs.Replacement
/-!
# Forms of holding a mode

The platform's own guard is held around a body in three forms: unseen, as a guard that the body can
ask, and as the guard around code that is run. They do the same. If the guard cannot be made the
body is not run at all; if it is made, the body is run once, from the same world, and the guard is
ended once, whatever the body does. Only the replies before and after the body tell the forms apart.
This holds whatever is asked: threads whose backends fail or call back, toggles that answer
anything, and no thread at all.

A change of code is the bare change with its line in the log, made in the same way.

- **Every form** (`Form.around_of_refused`, `Form.around_of_entered`).
- **Code that is run** (`run_of_spared`): a body that changes no code of the buffer does not notice
  that the code is running.
- **In any program** (`Form.rewords`): one form can stand for the other.
-/
namespace WriteXorExecute

open Procedure

variable {α : Type} {p : Platform} {mode : Mode} {thread : Option String} {w w₁ : World}
  {running running' : List String} {g : Guard} {opening : List Happening} {buffer : String}

/-! ## Every form -/

/-- Holds a mode around a body by the platform's own guard, unseen. -/
def withMode (p : Platform) (mode : Mode) (thread : Option String) (x : Step α) : Step α :=
  holding p .active mode thread fun _ => x

/-- How a mode is held around a body: what is replied before it and after it. -/
structure Form where
  begun : Label
  first : Guard → Reply
  ended : Label
  last : Guard → Reply

namespace Form

/-- The guard is unseen. -/
def closure (mode : Mode) : Form where
  begun := .entered
  first _ := .nothing
  ended := .left
  last _ := .mode mode

/-- The guard tells what it knows. -/
def guarded : Form where
  begun := .entered
  first := .ofGuard
  ended := .left
  last := .ofGuard

/-- The code of a buffer is run. -/
def code (bytes : ByteArray) : Form where
  begun := .started
  first _ := .bytes bytes
  ended := .executed
  last _ := .executed (.ok (Code.value bytes))

def before (f : Form) (g : Guard) (now : Snapshot) : Happening :=
  .mark (.completed f.begun (f.first g)) now

def after (f : Form) (g : Guard) (now : Snapshot) : Happening :=
  .mark (.completed f.ended (f.last g)) now

/-- Holds a mode around a body in this form. -/
def around (f : Form) (p : Platform) (mode : Mode) (thread : Option String) (x : Step Unit) :
    Step Unit := do
  let reply ← holding p .active mode thread fun g => do
    complete f.begun (f.first g)
    x
    return f.last g
  complete f.ended reply

variable {f f' : Form} {x : Step Unit}

/-- If the guard cannot be made, the body is not run. -/
theorem around_of_refused {cause : Panic}
    (h : Guard.enter p .scope .active mode thread w = ⟨.error cause, w₁, opening⟩) :
    f.around p mode thread x w = ⟨.error cause, w₁, opening⟩ := by
  rw [around, bind_apply, holding, bracket_of_refused h, Run.andThen_error]

/-- If it is made, the body is run once and the guard is ended once. A failure of the body is the
one reported, and otherwise that of the ending. -/
theorem around_of_entered
    (h : Guard.enter p .scope .active mode thread w = ⟨.ok g, w₁, opening⟩) :
    f.around p mode thread x w =
      let r := x w₁
      let e := Guard.leave p .scope r.failed g r.state
      let outcome := r.outcome.bind fun _ => e.outcome
      ⟨outcome, e.state,
        opening ++ f.before g w₁.snapshot :: (r.trace ++ e.trace)
          ++ if outcome.isOk then [f.after g e.state.snapshot] else []⟩ := by
  rw [around, bind_apply, holding, bracket_of_acquired h]
  simp only [complete, bind_apply, mark_apply, Run.andThen_ok]
  generalize x w₁ = r
  obtain ⟨outcome, w₂, within⟩ := r
  cases outcome with
  | error cause =>
    rcases he : Guard.leave p .scope true g w₂ with ⟨ending, w₃, closing⟩
    simp [Run.failed, he, before, Except.bind, Except.isOk, Except.toBool]
  | ok _ =>
    rcases he : Guard.leave p .scope false g w₂ with ⟨ending, w₃, closing⟩
    cases ending <;>
      simp [Run.failed, he, before, after, Except.bind, Except.map, Except.isOk, Except.toBool]

end Form

/-! ## Code that is run -/

theorem Program.All.imp {good good' : Operation → Prop} (h : ∀ op, good op → good' op)
    {program : Program} (hprogram : program.All good) : program.All good' := by
  induction program with
  | done => exact True.intro
  | step op rest ih => exact ⟨h op hprogram.1, ih hprogram.2⟩
  | scope _ body rest ihb ihr | attempt body rest ihb ihr | execute _ _ body rest ihb ihr =>
    exact ⟨ihb hprogram.1, ihr hprogram.2⟩

/-- Which code is running is noticed only by what changes code. -/
theorem perform_congr {op : Operation}
    (h : ∀ b, op.changes? = some b → (b ∈ running ↔ b ∈ running')) :
    perform p running op = perform p running' op := by
  cases op with
  | emit b | patch b | free b => simp only [perform, h b rfl]
  | selfCheck check => cases check <;> rfl
  | _ => rfl

theorem run_congr {body : Program}
    (h : body.All fun op => ∀ b, op.changes? = some b → (b ∈ running ↔ b ∈ running')) :
    run p running body = run p running' body := by
  induction body generalizing running running' with
  | done => rfl
  | step op rest ih => rw [run_step, run_step, runStep, runStep, perform_congr h.1, ih h.2]
  | scope s body rest ihb ihr =>
    rw [run_scope, run_scope, runScope, runScope, ihb h.1, ihr h.2]
  | attempt body rest ihb ihr => rw [run, run, ihb h.1, ihr h.2]
  | execute b thread body rest ihb ihr =>
    rw [run_execute, run_execute, runCode, runCode, ihr h.2]
    have hbody : run p (b :: running) body = run p (b :: running') body :=
      ihb (h.1.imp fun op hop b' hb' => by simp only [List.mem_cons, hop b' hb'])
    rw [hbody]

/-- A body that changes no code of the buffer does not notice that the code is running. -/
theorem run_of_spared {body : Program} (h : body.All fun op => op.changes? ≠ some buffer) :
    run p (buffer :: running) body = run p running body := by
  refine run_congr (h.imp fun op hop b hb => ?_)
  have hne : b ≠ buffer := fun he => hop (he ▸ hb)
  simp [hne]

/-! ## The forms -/

/-- What a body returns can be changed after the guard has been ended. -/
theorem holding_map {β : Type} {kind : Guard.Kind} (f : α → β) (body : Guard → Step α) (w : World) :
    holding p kind mode thread (fun g => do return f (← body g)) w =
      (holding p kind mode thread body w).andThen fun a => pure (f a) := by
  rcases henter : Guard.enter p .scope kind mode thread w with ⟨outcome, w₁, opening⟩
  cases outcome with
  | error cause => rw [holding, holding, bracket_of_refused henter, bracket_of_refused henter,
      Run.andThen_error]
  | ok g =>
    rw [holding_of_entered henter, holding_of_entered henter, Run.andThen_return]
    dsimp only [bind_apply]
    rcases body g w₁ with ⟨outcome, w₂, within⟩
    cases outcome with
    | error cause => rfl
    | ok a =>
      simp only [Run.andThen_ok, pure_apply, Run.failed, List.append_nil]
      cases (Guard.release p false g w₂).outcome <;> rfl

namespace Form

/-- The closure is run under the guard, between two replies. -/
theorem closure_around (p : Platform) (mode : Mode) (thread : Option String) (x : Step Unit) :
    (closure mode).around p mode thread x = (do
      withMode p mode thread do
        complete .entered .nothing
        x
      complete .left (.mode mode) : Step Unit) := by
  have hbody (g : Guard) : (do
      complete .entered .nothing
      x
      return .mode mode : Step Reply) = (do
        let _ ← (do
          complete .entered .nothing
          x : Step Unit)
        return .mode mode) := by
    simp only [bind_assoc]
  funext w
  simp only [around, closure, withMode, bind_apply, funext hbody, holding_map, Run.andThen_assoc,
    pure_bind]

theorem run_closure (body rest : Program) :
    run p running (.scope ⟨.closure, mode, thread⟩ body rest) = (do
      (closure mode).around p mode thread (run p running body)
      run p running rest : Step Unit) := by
  rw [run_scope, around, bind_assoc]
  rfl

theorem run_guarded (body rest : Program) :
    run p running (.scope ⟨.guarded .active, mode, thread⟩ body rest) = (do
      guarded.around p mode thread (run p running body)
      run p running rest : Step Unit) := by
  rw [run_scope, around, bind_assoc]
  rfl

theorem run_code {body : Program} (hlive : (w.buffer buffer).freed = false)
    (hsome : (w.buffer buffer).bytes.isEmpty = false)
    (hbody : body.All fun op => op.changes? ≠ some buffer) (rest : Program) :
    run p running (.execute buffer thread body rest) w = (do
      (code (w.buffer buffer).bytes).around p .exec thread (run p running body)
      run p running rest : Step Unit) w := by
  have hadmitted : (w.buffer buffer).admitRun = .ok () := by
    rw [CodeBuffer.admitRun_of_live hlive, hsome]
    rfl
  have hinside (g : Guard) : (do
      complete .started (.bytes (w.buffer buffer).bytes)
      run p running body
      return (code (w.buffer buffer).bytes).last g : Step Reply) = (do
        let value ← (do
          complete .started (.bytes (w.buffer buffer).bytes)
          run p running body
          return Code.value (w.buffer buffer).bytes : Step UInt32)
        return .executed (.ok value)) := by
    simp only [bind_assoc, pure_bind]
    rfl
  rw [run_execute, around, bind_assoc, bind_apply, bind_apply, runCode,
    Code.execute_of_admitted hadmitted, run_of_spared hbody, Run.andThen_assoc]
  simp only [code] at hinside ⊢
  rw [funext hinside, holding_map, Run.andThen_assoc]
  simp only [pure_bind]

/-- The two traces are the same, or they differ in what is replied before the body and after it in
the two forms. After a body that has failed, or a guard whose ending has, there is no reply. -/
def Rewords (f f' : Form) (trace trace' : List Happening) : Prop :=
  trace = trace' ∨ ∃ (g : Guard) (now : Snapshot) (after : Option Snapshot)
    (opening within later : List Happening),
    trace = opening ++ f.before g now :: within ++ after.toList.map (f.after g) ++ later ∧
      trace' = opening ++ f'.before g now :: within ++ after.toList.map (f'.after g) ++ later

theorem Rewords.extends : Extends (Rewords f f') := by
  rintro _ _ more (rfl | ⟨g, now, after, opening, within, later, rfl, rfl⟩)
  · exact .inl rfl
  · exact .inr ⟨g, now, after, opening, within, later ++ more, by simp, by simp⟩

/-- **One form and another.** -/
theorem rewords (f f' : Form) (p : Platform) (mode : Mode) (thread : Option String)
    (x : Step Unit) (w : World) :
    Run.Agrees (Rewords f f') (f.around p mode thread x w) (f'.around p mode thread x w) := by
  rcases henter : Guard.enter p .scope .active mode thread w with ⟨outcome, w₁, opening⟩
  cases outcome with
  | error cause =>
    rw [around_of_refused henter, around_of_refused henter]
    exact ⟨rfl, rfl, .inl rfl⟩
  | ok g =>
    rw [around_of_entered henter, around_of_entered henter]
    dsimp only
    -- The body, the ending of the guard and what comes of them do not depend on the form.
    generalize Guard.leave p .scope (x w₁).failed g (x w₁).state = e
    generalize ((x w₁).outcome.bind fun _ => e.outcome) = outcome
    refine ⟨rfl, rfl, .inr ⟨g, w₁.snapshot, if outcome.isOk then some e.state.snapshot else none,
      opening, (x w₁).trace ++ e.trace, [], ?_, ?_⟩⟩
    · cases outcome <;> simp [Except.isOk, Except.toBool]
    · cases outcome <;> simp [Except.isOk, Except.toBool]

end Form

namespace Code

variable {data : ByteArray} {offset : UInt64}

/-- What has been emitted was admitted. -/
theorem admitEmit_of_emitted (h : (emit p buffer thread data w).outcome = .ok (.ok offset)) :
    (w.buffer buffer).admitEmit data.size = .ok offset := by
  cases hadmitted : (w.buffer buffer).admitEmit data.size with
  | error e =>
    rw [emit_of_refused hadmitted] at h
    cases h
  | ok offset' =>
    rw [emit_of_admitted hadmitted, Run.andThen_return] at h
    generalize (holding p .active .write thread (fun _ => store buffer offset' data) w).outcome
      = outcome at h
    cases outcome with
    | error cause => cases h
    | ok _ =>
      cases h
      rfl

theorem admitPatch_of_patched (h : (patch p buffer thread offset data w).outcome = .ok (.ok ())) :
    (w.buffer buffer).admitPatch offset data.size = .ok () := by
  cases hadmitted : (w.buffer buffer).admitPatch offset data.size with
  | error e =>
    rw [patch_of_refused hadmitted] at h
    cases h
  | ok _ => rfl

end Code

/-- **Forms of holding a mode.** Whatever the form and the body: if the guard cannot be made the
body is not run, and if it is made the body is run once. An unseen guard, a guard that can be asked
and the run of code that the body does not change are such forms, and in any program they can stand
for each other, but for the replies before the body and after it. Code that has been changed was
admitted to the change, and then this is the bare change with its line in the log, made under the
unseen guard. -/
theorem forms_agree (p : Platform) (mode : Mode) (thread : Option String) :
    (∀ (f : Form) (x : Step Unit) (w w₁ : World) (opening : List Happening),
      (∀ cause, Guard.enter p .scope .active mode thread w = ⟨.error cause, w₁, opening⟩ →
        f.around p mode thread x w = ⟨.error cause, w₁, opening⟩) ∧
      ∀ g, Guard.enter p .scope .active mode thread w = ⟨.ok g, w₁, opening⟩ →
        f.around p mode thread x w =
          let r := x w₁
          let e := Guard.leave p .scope r.failed g r.state
          let outcome := r.outcome.bind fun _ => e.outcome
          ⟨outcome, e.state, opening ++ f.before g w₁.snapshot :: (r.trace ++ e.trace)
            ++ if outcome.isOk then [f.after g e.state.snapshot] else []⟩) ∧
    (∀ x : Step Unit, (Form.closure mode).around p mode thread x = (do
      withMode p mode thread do
        complete .entered .nothing
        x
      complete .left (.mode mode) : Step Unit)) ∧
    (∀ (place : Place) (body rest : Program),
      let closed := .scope ⟨.closure, mode, thread⟩ body rest
      let guarded := .scope ⟨.guarded .active, mode, thread⟩ body rest
      run p place.running closed = (do
          (Form.closure mode).around p mode thread (run p place.running body)
          run p place.running rest : Step Unit) ∧
        run p place.running guarded = (do
          Form.guarded.around p mode thread (run p place.running body)
          run p place.running rest : Step Unit) ∧
        Interchangeable p (Form.Rewords (.closure mode) .guarded) place closed guarded) ∧
    (∀ (place : Place) (buffer : String) (body rest : Program),
      (place.world.buffer buffer).freed = false →
      (place.world.buffer buffer).bytes.isEmpty = false →
      body.All (fun op => op.changes? ≠ some buffer) →
      let bytes := (place.world.buffer buffer).bytes
      let executed := .execute buffer thread body rest
      run p place.running executed place.world = (do
          (Form.code bytes).around p .exec thread (run p place.running body)
          run p place.running rest : Step Unit) place.world ∧
        Interchangeable p (Form.Rewords (.code bytes) (.closure .exec)) place executed
          (.scope ⟨.closure, .exec, thread⟩ body rest)) ∧
    (∀ (w : World) (buffer : String) (data : ByteArray) (offset : UInt64),
      ((Code.emit p buffer thread data w).outcome = .ok (.ok offset) →
        (w.buffer buffer).admitEmit data.size = .ok offset) ∧
      ((w.buffer buffer).admitEmit data.size = .ok offset →
        Code.emit p buffer thread data w =
          (withMode p .write thread (Code.store buffer offset data) w).andThen
            fun _ => pure (.ok offset)) ∧
      ((Code.patch p buffer thread offset data w).outcome = .ok (.ok ()) →
        (w.buffer buffer).admitPatch offset data.size = .ok ()) ∧
      ((w.buffer buffer).admitPatch offset data.size = .ok () →
        Code.patch p buffer thread offset data w =
          (withMode p .write thread (Code.replace buffer offset data) w).andThen
            fun _ => pure (.ok ())) ∧
      Code.WritesOnce buffer (fun b => { b with bytes := b.bytes ++ data })
        (.emitted data.size offset) (Code.store buffer offset data) ∧
      Code.WritesOnce buffer
        (fun b => { b with
          bytes := b.bytes.extract 0 offset.toNat ++ data
            ++ b.bytes.extract (offset.toNat + data.size) b.bytes.size })
        (.patched data.size offset) (Code.replace buffer offset data)) := by
  refine ⟨fun f x w w₁ opening => ⟨fun _ h => Form.around_of_refused h,
      fun _ h => Form.around_of_entered h⟩,
    Form.closure_around p mode thread,
    fun place body rest => ⟨Form.run_closure body rest, Form.run_guarded body rest,
      .of_agrees Form.Rewords.extends ?_⟩,
    fun place buffer body rest hlive hsome hbody => ⟨Form.run_code hlive hsome hbody rest,
      .of_agrees Form.Rewords.extends ?_⟩,
    fun w buffer data offset => ⟨Code.admitEmit_of_emitted, Code.emit_of_admitted,
      Code.admitPatch_of_patched, Code.patch_of_admitted, Code.store_writesOnce _ _ _,
      Code.replace_writesOnce _ _ _⟩⟩
  · rw [Form.run_closure, Form.run_guarded]
    exact (Form.rewords _ _ p mode thread _ _).andThen Form.Rewords.extends _
  · rw [Form.run_code hlive hsome hbody, Form.run_closure]
    exact (Form.rewords _ _ p .exec thread _ _).andThen Form.Rewords.extends _

/-- A toggle whose first answer is a lie and whose last call fails, and code that can be run. -/
def intoHazard : List Frame :=
  [.past (.step (.newToggle "t" { mode := .write, answers := [some .exec], failures := [3] })),
    .past (.step (.newBuffer "b" none)), .past (.step (.emit "b" none ⟨#[0xC3]⟩))]

/-- A panic that is caught, and a scope within. -/
def hazardousBody : Program :=
  .attempt (.step (.panic "late") .done) <|
  .scope { style := .guarded .active, mode := .write, thread := some "t" }
    (.step (.patch "c" none 0 ⟨#[0x90]⟩) .done) .done

/-- The body has been run to its end when the guard around it fails to be ended. -/
theorem forms_agree_in_hazard :
    let p : Platform := { target := .macos }
    let executed := fill intoHazard (.execute "b" (some "t") hazardousBody .done)
    let closed := fill intoHazard (.scope ⟨.closure, .exec, some "t"⟩ hazardousBody .done)
    (∃ before, Run.Agrees (After before (Form.Rewords (.code ⟨#[0xC3]⟩) (.closure .exec)))
        (runToEnd p executed .empty) (runToEnd p closed .empty)) ∧
      (run p [] executed .empty).outcome = .error (.toggle "t" ⟨3⟩) := by
  intro p executed closed
  have hcode : (place? p intoHazard { world := .empty }).map (fun place =>
      ((place.world.buffer "b").freed, (place.world.buffer "b").bytes))
        = some (false, ⟨#[0xC3]⟩) := by decide +kernel
  obtain ⟨place, hplace, hcode⟩ := Option.map_eq_some_iff.1 hcode
  obtain ⟨hlive, hbytes⟩ := Prod.mk.inj hcode
  obtain ⟨before, hlead⟩ := leads_of_place? hplace
  have hspared : hazardousBody.All fun op => op.changes? ≠ some "b" := by
    simp [hazardousBody, Program.All, Operation.changes?]
  obtain ⟨-, -, -, hcodes, -⟩ := forms_agree p .exec (some "t")
  have hboth := (hcodes place "b" hazardousBody .done hlive (by rw [hbytes]; rfl) hspared).2
  rw [hbytes] at hboth
  have hagrees := hboth.runToEnd hlead rfl
  exact ⟨⟨before, hagrees⟩, by decide +kernel⟩

end WriteXorExecute
