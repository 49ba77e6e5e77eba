import WriteXorExecute.Proofs.Locality
/-!
# Laws of programs

A program is operations, and bodies that are tried or around which a mode is held. So a law that the
operations obey, and that holding a mode passes on from a body, is obeyed by the whole program, by
induction on the program.

- **From operations to programs** (`StepwiseLaw.run`, `ProgramLaw.run`): the operations may be
  restricted to a kind, so that the law is one of the programs of that kind only. An operation can
  be taken together with its reply.
- **To the last guard** (`StepwiseLaw.runToEnd`): the same for a program that is run to its end.
-/
namespace WriteXorExecute

open Procedure

/-- Whether the operation addresses an object, or a guard in a slot. Code is not addressed: what
happens to it goes through scopes. -/
def Operation.addresses : Operation → Bool
  | newThread .. | newToggle .. | newBuffer .. | init _ | enable .. | assertMode .. | hold ..
  | drop _ => true
  | _ => false

def Program.All (good : Operation → Prop) : Program → Prop
  | .done => True
  | .step op rest => good op ∧ rest.All good
  | .scope _ body rest | .attempt body rest | .execute _ _ body rest =>
    body.All good ∧ rest.All good

theorem Program.all_of_forall {good : Operation → Prop} (h : ∀ op, good op) (program : Program) :
    program.All good := by
  induction program with
  | done => exact True.intro
  | step op rest ih => exact ⟨h op, ih⟩
  | scope _ body rest ihb ihr | attempt body rest ihb ihr | execute _ _ body rest ihb ihr =>
    exact ⟨ihb, ihr⟩

/-! ## Parts of programs -/

variable {p : Platform}

/-- A scope of a program, without what follows it. -/
def runScope (p : Platform) (running : List String) (s : Scope) (body : Program) : Step Reply :=
  holding p s.kind s.mode s.thread fun g => do
    complete .entered (s.entryReply g)
    run p running body
    return s.exitReply g

theorem run_scope (running : List String) (s : Scope) (body rest : Program) :
    run p running (.scope s body rest) = (do
      let reply ← runScope p running s body
      complete .left reply
      run p running rest : Step Unit) :=
  rfl

/-- A run of code in a program, without what follows it. -/
def runCode (p : Platform) (running : List String) (buffer : String) (thread : Option String)
    (body : Program) : Step (Except CodeError UInt32) :=
  Code.execute p buffer thread fun bytes => do
    complete .started (.bytes bytes)
    run p (buffer :: running) body
    return Code.value bytes

theorem run_execute (running : List String) (buffer : String) (thread : Option String)
    (body rest : Program) :
    run p running (.execute buffer thread body rest) = (do
      let result ← runCode p running buffer thread body
      complete .executed (.executed result)
      run p running rest : Step Unit) :=
  rfl

def endGuard (p : Platform) (e : String × Guard) : Step Unit := do
  modify fun w => w.discard e.1
  match ← attempt (Guard.leave p (.slot e.1) false e.2) with
  | .ok _ => complete .ended (.slot e.1)
  | .error cause => complete .ended (.panicked cause)

theorem endGuards_cons (e : String × Guard) (rest : List (String × Guard)) :
    endGuards p (e :: rest) = (do
      endGuard p e
      endGuards p rest : Step Unit) := by
  simp only [endGuards, endGuard, bind_assoc]
  congr 1
  funext _
  congr 1
  funext ending
  cases ending <;> rfl

/-! ## Laws -/

def runStep (p : Platform) (running : List String) (op : Operation) : Step Unit := do
  complete (.operation op) (← perform p running op)

theorem run_step (running : List String) (op : Operation) (rest : Program) :
    run p running (.step op rest) = (do
      runStep p running op
      run p running rest : Step Unit) := by
  simp only [run, runStep, bind_assoc]

/-- What is completed is more than an operation. -/
def Label.around : Label → Bool
  | .operation _ => false
  | _ => true

/-- A law that holding a mode obeys if its body does. -/
structure HoldingLaw (p : Platform) (R : World → List Happening → World → Prop) : Prop where
  law : Law R
  holding : ∀ {α : Type} kind mode thread (body : Guard → Step α), (∀ g, Obeys R (body g)) →
    Obeys R (holding p kind mode thread body)

namespace HoldingLaw

variable {R : World → List Happening → World → Prop}

theorem emit (h : HoldingLaw p R) {buffer : String} {data : ByteArray}
    (hstore : ∀ offset, Obeys R (Code.store buffer offset data)) (thread : Option String) :
    Obeys R (Code.emit p buffer thread data) := by
  refine .bind h.law (.get h.law) fun w => ?_
  split
  · exact .pure h.law _
  · exact .bind h.law (h.holding _ _ _ _ fun _ => hstore _) fun _ => .pure h.law _

theorem patch (h : HoldingLaw p R) {buffer : String} {offset : UInt64} {data : ByteArray}
    (hreplace : Obeys R (Code.replace buffer offset data)) (thread : Option String) :
    Obeys R (Code.patch p buffer thread offset data) := by
  refine .bind h.law (.get h.law) fun w => ?_
  split
  · exact .pure h.law _
  · exact .bind h.law (h.holding _ _ _ _ fun _ => hreplace) fun _ => .pure h.law _

theorem execute {α : Type} (h : HoldingLaw p R) (buffer : String) (thread : Option String)
    {body : ByteArray → Step α} (hbody : ∀ bytes, Obeys R (body bytes)) :
    Obeys R (Code.execute p buffer thread body) := by
  refine .bind h.law (.get h.law) fun w => ?_
  dsimp only
  split
  · exact .pure h.law _
  · exact .bind h.law (h.holding _ _ _ _ fun _ => hbody _) fun _ => .pure h.law _

/-- From operations and their replies to programs. The buffers whose code is running may be of a
kind that more of them do not change. -/
theorem run (h : HoldingLaw p R) {good : Operation → Prop} {within : List String → Prop}
    (hnested : ∀ buffer running, within running → within (buffer :: running))
    (hstep : ∀ running op, within running → good op → Obeys R (runStep p running op))
    (hcomplete : ∀ label reply, label.around → Obeys R (complete label reply)) (program : Program)
    (hprogram : program.All good) (running : List String) (hrunning : within running) :
    Obeys R (run p running program) := by
  induction program generalizing running with
  | done => exact .pure h.law ()
  | step op rest ih =>
    rw [run_step]
    exact .bind h.law (hstep running op hrunning hprogram.1) fun _ => ih hprogram.2 running hrunning
  | scope s body rest ihb ihr =>
    refine .bind h.law (h.holding _ _ _ _ fun g => ?_) fun reply =>
      .bind h.law (hcomplete _ reply rfl) fun _ => ihr hprogram.2 running hrunning
    exact .bind h.law (hcomplete _ _ rfl) fun _ =>
      .bind h.law (ihb hprogram.1 running hrunning) fun _ => .pure h.law _
  | attempt body rest ihb ihr =>
    refine .bind h.law (.attempt (ihb hprogram.1 running hrunning)) fun outcome => ?_
    cases outcome with
    | ok _ =>
      exact .bind h.law (hcomplete _ _ rfl) fun _ => ihr hprogram.2 running hrunning
    | error cause =>
      exact .bind h.law (hcomplete _ _ rfl) fun _ => ihr hprogram.2 running hrunning
  | execute buffer thread body rest ihb ihr =>
    refine .bind h.law (h.execute buffer thread fun bytes => ?_) fun result =>
      .bind h.law (hcomplete _ _ rfl) fun _ => ihr hprogram.2 running hrunning
    exact .bind h.law (hcomplete _ _ rfl) fun _ =>
      .bind h.law (ihb hprogram.1 (buffer :: running) (hnested buffer running hrunning))
        fun _ => .pure h.law _

end HoldingLaw

/-- Such a law is one of programs if operations of the kind `good` obey it together with their
replies, and if the replies around bodies do. -/
structure StepwiseLaw (p : Platform) (good : Operation → Prop)
    (R : World → List Happening → World → Prop) : Prop extends HoldingLaw p R where
  step : ∀ running op, good op → Obeys R (runStep p running op)
  complete : ∀ label reply, label.around → Obeys R (complete label reply)

namespace StepwiseLaw

variable {good : Operation → Prop} {R : World → List Happening → World → Prop}

/-- From operations and their replies to programs. -/
theorem run (h : StepwiseLaw p good R) (program : Program) (hprogram : program.All good)
    (running : List String) : Obeys R (run p running program) :=
  h.toHoldingLaw.run (fun _ _ hrunning => hrunning)
    (fun running op (_ : True) hop => h.step running op hop) h.complete program hprogram running
    True.intro

/-- **To the last guard.** The guards in slots may be restricted to a kind. -/
theorem runToEnd (h : StepwiseLaw p good R) {kept : Guard → Prop}
    (hdiscard : ∀ slot, Obeys R (modify fun w => w.discard slot : Step Unit))
    (hleave : ∀ holder g, kept g → Obeys R (Guard.leave p holder false g))
    (hothers : ∀ {w e trace w'}, e ∈ w.slots → ¬kept e.2 → R w trace w') (program : Program)
    (hprogram : program.All good) : Obeys R (runToEnd p program) := by
  have endGuards (slots : List (String × Guard)) (hslots : ∀ e ∈ slots, kept e.2) :
      Obeys R (endGuards p slots) := by
    induction slots with
    | nil => exact .pure h.law ()
    | cons e rest ih =>
      have hrest := ih fun e he => hslots e (List.mem_cons_of_mem _ he)
      refine .bind h.law (hdiscard e.1) fun _ =>
        .bind h.law (.attempt (hleave (.slot e.1) e.2 (hslots e List.mem_cons_self)))
          fun outcome => ?_
      cases outcome with
      | ok _ => exact .bind h.law (h.complete _ _ rfl) fun _ => hrest
      | error cause => exact .bind h.law (h.complete _ _ rfl) fun _ => hrest
  have ending : Obeys R (do WriteXorExecute.endGuards p (← get).slots : Step Unit) := by
    intro w
    by_cases hslots : ∀ e ∈ w.slots, kept e.2
    · exact endGuards w.slots hslots w
    · obtain ⟨e, he⟩ := Classical.not_forall.1 hslots
      obtain ⟨hmem, hkept⟩ := Classical.not_imp.1 he
      exact hothers hmem hkept
  refine .bind h.law (.attempt (h.run program hprogram [])) fun outcome => ?_
  cases outcome with
  | ok _ => exact ending
  | error cause => exact .bind h.law (h.complete _ _ rfl) fun _ => ending

end StepwiseLaw

/-- A law that replies obey, and that holding a mode obeys if its body does. -/
structure ProgramLaw (p : Platform) (R : World → List Happening → World → Prop) : Prop
    extends HoldingLaw p R where
  complete : ∀ label reply, Obeys R (complete label reply)

namespace ProgramLaw

variable {R : World → List Happening → World → Prop}

/-- If the operations obey the law, so do the operations with their replies. -/
theorem stepwise (h : ProgramLaw p R) {good : Operation → Prop}
    (hperform : ∀ running op, good op → Obeys R (perform p running op)) :
    StepwiseLaw p good R where
  toHoldingLaw := h.toHoldingLaw
  step running op hop := .bind h.law (hperform running op hop) fun reply => h.complete _ reply
  complete label reply _ := h.complete label reply

/-- An operation that addresses no name obeys a law that allows what leaves some name alone. -/
theorem perform_unaddressed {name : String} (h : ProgramLaw p R)
    (huntouched : ∀ {α : Type} {x : Step α}, Obeys (Untouched name) x → Obeys R x)
    (running : List String) (op : Operation) (hop : op.addresses = false) :
    Obeys R (perform p running op) := by
  cases op with
  | newThread | newToggle | newBuffer | init | enable | assertMode | hold | drop =>
    simp [Operation.addresses] at hop
  | ask question => exact .bind h.law (.get h.law) fun w => .pure h.law _
  | forget slot => exact huntouched (.forget running slot)
  | emit buffer thread data =>
    simp only [WriteXorExecute.perform]
    split
    · exact .pure h.law _
    · exact .bind h.law (h.emit (fun _ => huntouched (.store _ _ _)) thread) fun _ => .pure h.law _
  | patch buffer thread offset data =>
    simp only [WriteXorExecute.perform]
    split
    · exact .pure h.law _
    · exact .bind h.law (h.patch (huntouched (.replace _ _ _)) thread) fun _ => .pure h.law _
  | free buffer =>
    simp only [WriteXorExecute.perform]
    split
    · exact .pure h.law _
    · exact .bind h.law (huntouched (.onBuffer _ _)) fun _ => .pure h.law _
  | fence mode => exact huntouched (.fence running mode)
  | selfCheck check =>
    cases check with
    | none =>
      exact .bind h.law (huntouched (.mapM Untouched.law .selfCheck _)) fun _ => .pure h.law _
    | some check => exact .bind h.law (huntouched (.selfCheck check)) fun _ => .pure h.law _
  | panic message => exact .fail h.law _

/-- **From operations to programs.** -/
theorem run (h : ProgramLaw p R) {good : Operation → Prop}
    (hperform : ∀ running op, good op → Obeys R (perform p running op)) (program : Program)
    (hprogram : program.All good) (running : List String) :
    Obeys R (run p running program) :=
  (h.stepwise hperform).run program hprogram running

theorem runToEnd (h : ProgramLaw p R)
    (hperform : ∀ running op, Obeys R (perform p running op))
    (hdiscard : ∀ slot, Obeys R (modify fun w => w.discard slot : Step Unit))
    (hleave : ∀ holder g, Obeys R (Guard.leave p holder false g)) (program : Program) :
    Obeys R (runToEnd p program) := by
  have hstepwise : StepwiseLaw p (fun _ => True) R := h.stepwise fun running op _ =>
    hperform running op
  exact hstepwise.runToEnd hdiscard (fun holder g (_ : True) => hleave holder g)
    (fun _ hkept => absurd True.intro hkept) program (program.all_of_forall fun _ => True.intro)

end ProgramLaw

end WriteXorExecute
