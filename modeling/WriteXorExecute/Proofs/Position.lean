import WriteXorExecute.Proofs.OperationLaw
/-!
# Positions in a program

A position is named by the way that leads to it from the program's beginning: past what has been
done before, and into the bodies that are around it. A run comes to a position in a certain world,
after certain happenings, whatever stands there (`Leads`). This is how a state that a run can reach
is spoken of, inside any open scopes and after any history.

- **Runs pass through positions** (`Leads.run_fill`): what a program does is what leads to the
  position, what stands there does, and what comes after.
- **Laws up to a position** (`Leads.obeys`): a law of operations and of the beginnings of scopes
  holds of what leads to a position.
-/
namespace WriteXorExecute

open Procedure

variable {p : Platform}

/-! ## Items -/

/-- One thing that a program does before the rest of it. -/
inductive Item where
  | step (op : Operation)
  | scope (s : Scope) (body : Program)
  | attempt (body : Program)
  | execute (buffer : String) (thread : Option String) (body : Program)

namespace Item

def followedBy : Item → Program → Program
  | step op, rest => .step op rest
  | scope s body, rest => .scope s body rest
  | attempt body, rest => .attempt body rest
  | execute buffer thread body, rest => .execute buffer thread body rest

def All (good : Operation → Prop) : Item → Prop
  | step op => good op
  | scope _ body | attempt body | execute _ _ body => body.All good

def run (p : Platform) (running : List String) (i : Item) : Step Unit :=
  WriteXorExecute.run p running (i.followedBy .done)

theorem run_followedBy (running : List String) (i : Item) (rest : Program) :
    WriteXorExecute.run p running (i.followedBy rest) = (do
      i.run p running
      WriteXorExecute.run p running rest : Step Unit) := by
  cases i with
  | step op => simp only [run, followedBy, run_step, bind_assoc, WriteXorExecute.run, pure_bind]
  | scope s body =>
    simp only [run, followedBy, run_scope, bind_assoc, WriteXorExecute.run, pure_bind]
  | attempt body =>
    simp only [run, followedBy, WriteXorExecute.run, bind_assoc]
    congr 1
    funext outcome
    cases outcome <;> simp only [bind_assoc, pure_bind]
  | execute buffer thread body =>
    simp only [run, followedBy, run_execute, bind_assoc, WriteXorExecute.run, pure_bind]

end Item

/-! ## Ways -/

/-- A stretch of the way to a position: past an item, or into a body. -/
inductive Frame where
  | past (i : Item)
  | inScope (s : Scope) (rest : Program)
  | inAttempt (rest : Program)
  | inCode (buffer : String) (thread : Option String) (rest : Program)

namespace Frame

/-- The program with this on the way to `inner`. -/
def fill : Frame → Program → Program
  | past i, inner => i.followedBy inner
  | inScope s rest, inner => .scope s inner rest
  | inAttempt rest, inner => .attempt inner rest
  | inCode buffer thread rest, inner => .execute buffer thread inner rest

/-- Every operation that has been done on the way is of the kind `good`. -/
def All (good : Operation → Prop) : Frame → Prop
  | past i => i.All good
  | inScope .. | inAttempt _ | inCode .. => True

end Frame

theorem Frame.all_of_forall {good : Operation → Prop} (h : ∀ op, good op) (f : Frame) :
    f.All good := by
  cases f with
  | past i =>
    cases i with
    | step op => exact h op
    | scope _ body | attempt body | execute _ _ body => exact body.all_of_forall h
  | inScope | inAttempt | inCode => exact True.intro

/-- The program with `inner` at the end of the way. -/
def fill (way : List Frame) (inner : Program) : Program :=
  way.foldr Frame.fill inner

@[simp] theorem fill_nil (inner : Program) : fill [] inner = inner := rfl

@[simp] theorem fill_cons (f : Frame) (way : List Frame) (inner : Program) :
    fill (f :: way) inner = f.fill (fill way inner) := rfl

@[simp] theorem fill_append (outer way : List Frame) (inner : Program) :
    fill (outer ++ way) inner = fill outer (fill way inner) :=
  List.foldr_append

/-- Where a run stands: the buffers whose code is running, and the world. -/
structure Place where
  running : List String := []
  world : World

/-- A run that stands at the first place comes to the second one on this way, and this is what
happens until then. -/
inductive Leads (p : Platform) : List Frame → Place → List Happening → Place → Prop
  | here (a : Place) : Leads p [] a [] a
  /-- The item is done, and not broken off by a panic. -/
  | past {i : Item} {way : List Frame} {running : List String} {w w' : World} {b : Place}
    {first later : List Happening} (h : i.run p running w = ⟨.ok (), w', first⟩)
    (hway : Leads p way ⟨running, w'⟩ later b) :
    Leads p (.past i :: way) ⟨running, w⟩ (first ++ later) b
  /-- The guard is made, and the reply tells what it knows. -/
  | inScope {s : Scope} {rest : Program} {way : List Frame} {running : List String}
    {w w₁ : World} {b : Place} {g : Guard} {opening later : List Happening}
    (h : Guard.enter p .scope s.kind s.mode s.thread w = ⟨.ok g, w₁, opening⟩)
    (hway : Leads p way ⟨running, w₁⟩ later b) :
    Leads p (.inScope s rest :: way) ⟨running, w⟩
      (opening ++ .mark (.completed .entered (s.entryReply g)) w₁.snapshot :: later) b
  | inAttempt {rest : Program} {way : List Frame} {a b : Place} {later : List Happening}
    (hway : Leads p way a later b) : Leads p (.inAttempt rest :: way) a later b
  /-- There is code to run, the guard is made, and the reply tells the code. -/
  | inCode {buffer : String} {thread : Option String} {rest : Program} {way : List Frame}
    {running : List String} {w w₁ : World} {b : Place} {g : Guard}
    {opening later : List Happening} (hadmitted : (w.buffer buffer).admitRun = .ok ())
    (h : Guard.enter p .scope .active .exec thread w = ⟨.ok g, w₁, opening⟩)
    (hway : Leads p way ⟨buffer :: running, w₁⟩ later b) :
    Leads p (.inCode buffer thread rest :: way) ⟨running, w⟩
      (opening ++ .mark (.completed .started (.bytes (w.buffer buffer).bytes)) w₁.snapshot :: later)
      b

/-! ## What a scope does whose guard has been made -/

theorem runScope_of_entered {s : Scope} {g : Guard} {w w₁ : World} {opening : List Happening}
    (running : List String) (body : Program)
    (h : Guard.enter p .scope s.kind s.mode s.thread w = ⟨.ok g, w₁, opening⟩) :
    runScope p running s body w =
      let r := run p running body w₁
      let q := Guard.release p r.failed g r.state
      ⟨r.outcome.bind fun _ => q.outcome.map fun _ => s.exitReply g, q.state,
        opening ++ .mark (.completed .entered (s.entryReply g)) w₁.snapshot :: r.trace ++ q.trace
          ++ [.mark (.closed .scope g) q.state.snapshot]⟩ := by
  rw [runScope, holding_of_entered h]
  simp only [complete, bind_apply, mark_apply, Run.andThen_ok]
  generalize run p running body w₁ = r
  obtain ⟨outcome, w₂, within⟩ := r
  cases outcome <;> simp [Run.failed, Except.bind]

/-- The same of code that is run. -/
theorem runCode_of_entered {buffer : String} {thread : Option String} {g : Guard} {w w₁ : World}
    {opening : List Happening} (running : List String) (body : Program)
    (hadmitted : (w.buffer buffer).admitRun = .ok ())
    (h : Guard.enter p .scope .active .exec thread w = ⟨.ok g, w₁, opening⟩) :
    runCode p running buffer thread body w =
      let r := run p (buffer :: running) body w₁
      let q := Guard.release p r.failed g r.state
      ⟨r.outcome.bind fun _ => q.outcome.map fun _ => .ok (Code.value (w.buffer buffer).bytes),
        q.state,
        opening ++ .mark (.completed .started (.bytes (w.buffer buffer).bytes)) w₁.snapshot
          :: r.trace ++ q.trace ++ [.mark (.closed .scope g) q.state.snapshot]⟩ := by
  rw [runCode, Code.execute_of_admitted hadmitted, Run.andThen_return, holding_of_entered h]
  simp only [complete, bind_apply, mark_apply, Run.andThen_ok]
  generalize run p (buffer :: running) body w₁ = r
  obtain ⟨outcome, w₂, within⟩ := r
  cases outcome with
  | error cause => simp [Run.failed, Except.bind, Except.map]
  | ok _ =>
    rcases hq : Guard.release p false g w₂ with ⟨ending, w₃, closing⟩
    cases ending <;> simp [Run.failed, Except.bind, Except.map, hq]

/-! ## Runs and their positions -/

theorem Run.andThen_trace {σ ε φ α β : Type} (r : Run σ ε φ α) (next : α → Procedure σ ε φ β) :
    ∃ more, (r.andThen next).trace = r.trace ++ more := by
  obtain ⟨outcome, s, trace⟩ := r
  cases outcome with
  | ok a => exact ⟨(next a s).trace, rfl⟩
  | error cause => exact ⟨[], by simp⟩

namespace Leads

variable {way way' : List Frame} {a b c : Place} {before later : List Happening}

/-- **Runs pass through positions.** -/
theorem run_fill (h : Leads p way a before b) (inner : Program) : ∃ after,
    (run p a.running (fill way inner) a.world).trace
      = before ++ (run p b.running inner b.world).trace ++ after := by
  induction h with
  | here a => exact ⟨[], by simp⟩
  | @past i way running w w' b first later hi _ ih =>
    obtain ⟨after, ih⟩ := ih
    refine ⟨after, ?_⟩
    rw [fill_cons, Frame.fill, Item.run_followedBy, bind_apply, hi, Run.andThen_ok, ih]
    simp
  | @inScope s rest way running w w₁ b g opening later hg _ ih =>
    obtain ⟨after, ih⟩ := ih
    rw [fill_cons, Frame.fill, run_scope, bind_apply, runScope_of_entered _ _ hg]
    obtain ⟨more, hmore⟩ := Run.andThen_trace _ _
    exact ⟨_, by rw [hmore]; simp [ih]; rfl⟩
  | @inAttempt rest way a b later _ ih =>
    obtain ⟨after, ih⟩ := ih
    rw [fill_cons, Frame.fill, run, bind_apply, attempt_apply, Run.andThen_ok]
    exact ⟨_, by simp [ih]; rfl⟩
  | @inCode buffer thread rest way running w w₁ b g opening later hadmitted hg _ ih =>
    obtain ⟨after, ih⟩ := ih
    rw [fill_cons, Frame.fill, run_execute, bind_apply, runCode_of_entered _ _ hadmitted hg]
    obtain ⟨more, hmore⟩ := Run.andThen_trace _ _
    exact ⟨_, by rw [hmore]; simp [ih]; rfl⟩

/-- One way can be gone after another. -/
theorem append (h : Leads p way a before b) (h' : Leads p way' b later c) :
    Leads p (way ++ way') a (before ++ later) c := by
  induction h with
  | here a => exact h'
  | past hi _ ih =>
    rw [List.append_assoc]
    exact .past hi (ih h')
  | inScope hg _ ih =>
    rw [List.append_assoc, List.cons_append]
    exact .inScope hg (ih h')
  | inAttempt _ ih => exact .inAttempt (ih h')
  | inCode hadmitted hg _ ih =>
    rw [List.append_assoc, List.cons_append]
    exact .inCode hadmitted hg (ih h')

/-- An item is past if its run did not fail. -/
theorem past_of_not_failed {i : Item} {running : List String} {w : World}
    (h : (i.run p running w).failed = false)
    (hway : Leads p way ⟨running, (i.run p running w).state⟩ later b) :
    Leads p (.past i :: way) ⟨running, w⟩ ((i.run p running w).trace ++ later) b := by
  refine .past ?_ hway
  generalize i.run p running w = r at h
  obtain ⟨outcome, w', trace⟩ := r
  cases outcome with
  | ok _ => rfl
  | error cause => simp [Run.failed] at h

/-- **Laws up to a position.** -/
theorem obeys {good : Operation → Prop} {R : World → List Happening → World → Prop}
    (hlaw : StepwiseLaw p good R)
    (henter : ∀ kind mode thread, Obeys R (Guard.enter p .scope kind mode thread))
    (h : Leads p way a before b) (hway : ∀ f ∈ way, f.All good) : R a.world before b.world := by
  have entered {kind : Guard.Kind} {mode : Mode} {thread : Option String} {label : Label}
      {reply : Reply} {g : Guard} {w w₁ w₂ : World} {opening later : List Happening}
      (hlabel : label.around) (hg : Guard.enter p .scope kind mode thread w = ⟨.ok g, w₁, opening⟩)
      (hlater : R w₁ later w₂) :
      R w (opening ++ .mark (.completed label reply) w₁.snapshot :: later) w₂ := by
    have hopening : R w opening w₁ := by
      have := henter kind mode thread w
      rwa [hg] at this
    have hreply : R w₁ [.mark (.completed label reply) w₁.snapshot] w₁ :=
      hlaw.complete label reply hlabel w₁
    exact hlaw.law.trans hopening (hlaw.law.trans hreply hlater)
  induction h with
  | here a => exact hlaw.law.refl a.world
  | @past i way running w w' b first later hi _ ih =>
    have hitem : Obeys R (i.run p running) := by
      refine hlaw.run _ ?_ running
      have := hway _ List.mem_cons_self
      cases i with
      | step op => exact ⟨this, True.intro⟩
      | scope s body | attempt body | execute buffer thread body => exact ⟨this, True.intro⟩
    have hfirst := hitem w
    rw [hi] at hfirst
    exact hlaw.law.trans hfirst (ih fun f hf => hway f (List.mem_cons_of_mem _ hf))
  | inScope hg _ ih => exact entered rfl hg (ih fun f hf => hway f (List.mem_cons_of_mem _ hf))
  | inAttempt _ ih => exact ih fun f hf => hway f (List.mem_cons_of_mem _ hf)
  | inCode _ hg _ ih => exact entered rfl hg (ih fun f hf => hway f (List.mem_cons_of_mem _ hf))

end Leads

/-! ## Finding places -/

def Frame.place? (p : Platform) (a : Place) : Frame → Option Place
  | past i =>
    let r := i.run p a.running a.world
    r.outcome.toOption.map fun _ => ⟨a.running, r.state⟩
  | inScope s _ =>
    let r := Guard.enter p .scope s.kind s.mode s.thread a.world
    r.outcome.toOption.map fun _ => ⟨a.running, r.state⟩
  | inAttempt _ => some a
  | inCode buffer thread _ =>
    let r := Guard.enter p .scope .active .exec thread a.world
    (a.world.buffer buffer).admitRun.toOption.bind fun _ =>
      r.outcome.toOption.map fun _ => ⟨buffer :: a.running, r.state⟩

/-- Where the way leads, if it can be gone. -/
def place? (p : Platform) : List Frame → Place → Option Place
  | [], a => some a
  | f :: way, a => (f.place? p a).bind (place? p way)

theorem of_toOption_map {σ ε φ α β : Type} {r : Run σ ε φ α} {f : α → β} {b : β}
    (h : r.outcome.toOption.map f = some b) :
    ∃ a, r = ⟨.ok a, r.state, r.trace⟩ ∧ f a = b := by
  obtain ⟨outcome, s, trace⟩ := r
  cases outcome with
  | error cause => cases h
  | ok a => exact ⟨a, rfl, Option.some.inj h⟩

/-- A place that is found is one that a run comes to. -/
theorem leads_of_place? {way : List Frame} {a b : Place} (h : place? p way a = some b) :
    ∃ before, Leads p way a before b := by
  induction way generalizing a with
  | nil =>
    obtain rfl : a = b := Option.some.inj h
    exact ⟨[], .here a⟩
  | cons f way ih =>
    obtain ⟨c, hc, hway⟩ := Option.bind_eq_some_iff.1 h
    obtain ⟨later, hlater⟩ := ih hway
    cases f with
    | past i =>
      obtain ⟨_, hi, rfl⟩ := of_toOption_map hc
      exact ⟨_, .past hi hlater⟩
    | inScope s rest =>
      obtain ⟨g, henter, rfl⟩ := of_toOption_map hc
      exact ⟨_, .inScope henter hlater⟩
    | inAttempt rest =>
      obtain rfl : a = c := Option.some.inj hc
      exact ⟨_, .inAttempt hlater⟩
    | inCode buffer thread rest =>
      obtain ⟨_, hadmitted, hmade⟩ := Option.bind_eq_some_iff.1 hc
      obtain ⟨g, henter, rfl⟩ := of_toOption_map hmade
      refine ⟨_, .inCode ?_ henter hlater⟩
      generalize (a.world.buffer buffer).admitRun = admission at hadmitted
      cases admission with
      | error e => cases hadmitted
      | ok _ => rfl

end WriteXorExecute
