import WriteXorExecute.Proofs.Replacement
import WriteXorExecute.Proofs.Success
/-!
# A panic cuts a program off

Where no backend and no toggle fails, a panic does nothing but to cut the program off. The scopes
that it leaves do what they do when they are left after the last operation of their bodies, in the
same order and with the same effects. So the program behaves as the one that is cut off where the
panic is raised: nothing follows there, nor in any of the bodies around it, up to the one that is
tried or to the whole program.

- **One scope** (`BrokenOff.holding`): it is left by a panic as it is left otherwise.
- **All scopes around a position** (`Leads.brokenOff`), by induction on the way to it.
- **What comes after** (`Leads.alike`): two bodies that do the same where they stand can stand for
  each other.
- **Where a panic comes from** (`run_breaks`): a program that fails does so at a position.
-/
namespace WriteXorExecute

open Procedure

variable {α β γ : Type} {p : Platform} {w : World} {cause : Panic}

/-! ## Effects -/

def Happening.isReply : Happening → Bool
  | mark (.completed ..) _ => true
  | _ => false

def effects (trace : List Happening) : List Happening :=
  trace.filter fun x => !x.isReply

@[simp] theorem effects_append (t₁ t₂ : List Happening) :
    effects (t₁ ++ t₂) = effects t₁ ++ effects t₂ :=
  List.filter_append ..

@[simp] theorem effects_reply (label : Label) (reply : Reply) (now : Snapshot)
    (trace : List Happening) :
    effects (.mark (.completed label reply) now :: trace) = effects trace := rfl

@[simp] theorem effects_nil : effects [] = [] := rfl

/-- Two runs that differ in replies only. -/
structure Alike (r r' : Run World Happening Panic α) : Prop where
  outcome : r.outcome = r'.outcome
  state : r.state = r'.state
  effects : effects r.trace = effects r'.trace

/-- Two traces that differ in replies only. -/
def SameEffects (t t' : List Happening) : Prop :=
  effects t = effects t'

theorem SameEffects.extends : Extends SameEffects :=
  fun t t' later (h : effects t = effects t') => by
    rw [SameEffects, effects_append, effects_append, h]

theorem alike_iff_agrees {r r' : Run World Happening Panic α} :
    Alike r r' ↔ r.Agrees SameEffects r' :=
  ⟨fun h => ⟨h.outcome, h.state, h.effects⟩, fun h => ⟨h.outcome, h.state, h.trace⟩⟩

/-! ## Runs that are broken off -/

/-- The first run is broken off by a panic where the second one returns. Otherwise they have done
the same, and `slots` are the guards in slots. -/
structure BrokenOff (cause : Panic) (slots : List (String × Guard))
    (r : Run World Happening Panic α) (r' : Run World Happening Panic β) : Prop where
  failed : r.outcome = .error cause
  returned : ∃ a, r'.outcome = .ok a
  state : r.state = r'.state
  effects : effects r.trace = WriteXorExecute.effects r'.trace
  slots : r.state.slots = slots

/-- The ending of a guard does not reach the guards in slots. -/
theorem release_slots (failing : Bool) (g : Guard) (w : World) :
    (Guard.release p failing g w).state.slots = w.slots := by
  have hlaw : Law fun (w : World) (_ : List Happening) (w' : World) => w'.slots = w.slots :=
    ⟨fun _ => rfl, fun h h' => h'.trans h⟩
  have hswitch (name : String) (mode : Mode) :
      Obeys (fun w _ w' => w'.slots = w.slots) (switch p failing name mode) := by
    refine .bind hlaw (.atThread hlaw fun _ _ _ => rfl) fun answer => ?_
    cases answer with
    | some previous => exact .pure hlaw previous
    | none => exact .bind hlaw (.atToggle hlaw fun _ _ _ => rfl) fun _ => .pure hlaw _
  cases g with
  | delegated mode thread previous =>
    cases thread with
    | none => rfl
    | some name => exact (Obeys.bind hlaw (hswitch name previous) fun _ => .pure hlaw ()) w
  | barrier b mode =>
    simp only [Guard.release]
    split <;> rfl
  | noop => rfl

namespace BrokenOff

variable {slots : List (String × Guard)}

/-- What would have come after a run that is broken off may be left out. -/
theorem andThen {δ : Type} {r : Run World Happening Panic α} {r' : Run World Happening Panic β}
    (h : BrokenOff cause slots r r') (next : α → Step γ) {next' : β → Step δ}
    (hnext : ∀ a w, ∃ b replies, next' a w = ⟨.ok b, w, replies⟩ ∧
      WriteXorExecute.effects replies = []) :
    BrokenOff cause slots (r.andThen next) (r'.andThen next') := by
  obtain ⟨outcome, w₁, trace⟩ := r
  obtain ⟨outcome', w₁', trace'⟩ := r'
  obtain ⟨rfl, ⟨a, rfl⟩, rfl, heffects, hslots⟩ := h
  obtain ⟨b, replies, hb, hreplies⟩ := hnext a w₁
  rw [Run.andThen_error, Run.andThen_ok, hb]
  exact ⟨rfl, ⟨b, rfl⟩, rfl, by simp only [effects_append, hreplies, heffects, List.append_nil],
    hslots⟩

/-- What comes first, and is the same, does not matter. -/
theorem after {x : Step γ} {c : γ} {w' : World} {trace : List Happening}
    {next : γ → Step α} {next' : γ → Step β} (hx : x w = ⟨.ok c, w', trace⟩)
    (h : BrokenOff cause slots (next c w') (next' c w')) :
    BrokenOff cause slots ((x >>= next) w) ((x >>= next') w) := by
  simp only [bind_apply, hx, Run.andThen_ok]
  exact ⟨h.failed, h.returned, h.state, by simp only [effects_append, h.effects], h.slots⟩

/-- **One scope.** A body that is broken off is followed by the same ending of the guard. -/
theorem holding {kind : Guard.Kind} {mode : Mode} {thread : Option String} {g : Guard} {w₁ : World}
    {opening : List Happening} {body : Guard → Step α} {body' : Guard → Step β}
    (henter : Guard.enter p .scope kind mode thread w = ⟨.ok g, w₁, opening⟩)
    (h : BrokenOff cause slots (body g w₁) (body' g w₁)) (hcalm : (body' g w₁).state.Calm) :
    BrokenOff cause slots (WriteXorExecute.holding p kind mode thread body w)
      (WriteXorExecute.holding p kind mode thread body' w) := by
  obtain ⟨hfailed, ⟨a, hreturned⟩, hstate, heffects, hslots⟩ := h
  have hfail : (body g w₁).failed = true := by simp only [Run.failed, hfailed]
  have hreturn : (body' g w₁).failed = false := by simp only [Run.failed, hreturned]
  obtain ⟨hsame, hreleased⟩ := hcalm.release (p := p) true g
  have hleft := release_slots (p := p) true g (body' g w₁).state
  rw [holding_of_entered henter, holding_of_entered henter]
  simp only [hfail, hreturn, hfailed, hreturned, hstate, ← hsame, hreleased]
  refine ⟨rfl, ⟨a, rfl⟩, rfl, by simp only [effects_append, heffects], ?_⟩
  rw [hleft, ← hstate, hslots]

end BrokenOff

/-! ## Positions -/

def Frame.isAttempt : Frame → Bool
  | inAttempt _ => true
  | past _ | inScope .. | inCode .. => false

/-- The program with this on the way to `inner`, and nothing after the body that it enters. -/
def Frame.cut : Frame → Program → Program
  | past i, inner => i.followedBy inner
  | inScope s _, inner => .scope s inner .done
  | inAttempt _, inner => .attempt inner .done
  | inCode buffer thread _, inner => .execute buffer thread inner .done

/-- The program that ends where the way does. -/
def cutOff (way : List Frame) : Program :=
  way.foldr Frame.cut .done

theorem Item.all_followedBy {good : Operation → Prop} {i : Item} {rest : Program} (hi : i.All good)
    (hrest : rest.All good) : (i.followedBy rest).All good := by
  cases i with
  | step | scope | attempt | execute => exact ⟨hi, hrest⟩

/-- No operation stands in the program that the way has not gone past. -/
theorem all_cutOff {good : Operation → Prop} {way : List Frame} (h : ∀ f ∈ way, f.All good) :
    (cutOff way).All good := by
  induction way with
  | nil => exact True.intro
  | cons f way ih =>
    have hrest := ih fun f hf => h f (List.mem_cons_of_mem _ hf)
    cases f with
    | past i => exact Item.all_followedBy (h _ List.mem_cons_self) hrest
    | inScope | inAttempt | inCode => exact ⟨hrest, True.intro⟩

theorem cutOff_cons (f : Frame) (way : List Frame) : cutOff (f :: way) = f.cut (cutOff way) := rfl

/-- A body with a reply before it, in a scope. -/
theorem BrokenOff.inside {slots : List (String × Guard)} {kind : Guard.Kind} {mode : Mode}
    {thread : Option String} {g : Guard} {w₁ : World} {opening : List Happening}
    {running : List String} {body cut : Program} {label : Label} (hlabel : label.around)
    (reply : Guard → Reply) (result : Guard → α) (hcalm : w.Calm) (hcut : cut.All Operation.Calm)
    (henter : Guard.enter p .scope kind mode thread w = ⟨.ok g, w₁, opening⟩)
    (h : w₁.Calm → BrokenOff cause slots (run p running body w₁) (run p running cut w₁)) :
    BrokenOff cause slots
      (WriteXorExecute.holding p kind mode thread (fun g => do
        complete label (reply g)
        run p running body
        return result g) w)
      (WriteXorExecute.holding p kind mode thread (fun g => do
        complete label (reply g)
        run p running cut
        return result g) w) := by
  have hentered : w₁.Calm := by
    have := World.Calm.lasting.enter (p := p) .scope kind mode thread w hcalm
    rwa [henter] at this
  have hstepwise : StepwiseLaw p Operation.Calm (Keeps World.Calm) := World.Calm.stepwise
  have hleft : Obeys (Keeps World.Calm) (do
      complete label (reply g)
      run p running cut
      return result g) :=
    .bind Keeps.law (hstepwise.complete label _ hlabel) fun _ =>
      .bind Keeps.law (hstepwise.run cut hcut running) fun _ => .pure Keeps.law _
  refine .holding henter (.after rfl ?_) (hleft w₁ hentered)
  exact (h hentered).andThen _ fun _ w => ⟨_, [], rfl, rfl⟩

/-- **All scopes around a position.** What fails there at once, and does nothing, cuts the program
off. -/
theorem Leads.brokenOff {way : List Frame} {a b : Place} {before : List Happening}
    {inner : Program} (h : Leads p way a before b) (hcalm : a.world.Calm)
    (hway : ∀ f ∈ way, f.All Operation.Calm) (htry : ∀ f ∈ way, f.isAttempt = false)
    (hinner : run p b.running inner b.world = ⟨.error cause, b.world, []⟩) :
    BrokenOff cause b.world.slots (run p a.running (fill way inner) a.world)
      (run p a.running (cutOff way) a.world) := by
  induction h with
  | here a =>
    rw [fill_nil, hinner]
    exact ⟨rfl, ⟨(), rfl⟩, rfl, rfl, rfl⟩
  | @past i way running w w' b first later hi _ ih =>
    have hleft := fun f hf => hway f (List.mem_cons_of_mem _ hf)
    have hitem : (i.followedBy .done).All Operation.Calm :=
      Item.all_followedBy (hway _ List.mem_cons_self) True.intro
    have hcalm' : w'.Calm := by
      have : (run p running (i.followedBy .done) w).state.Calm := hcalm.run hitem
      rwa [← Item.run, hi] at this
    rw [fill_cons, cutOff_cons, Frame.fill, Frame.cut, Item.run_followedBy, Item.run_followedBy]
    exact .after hi (ih hcalm' hleft (fun f hf => htry f (List.mem_cons_of_mem _ hf)) hinner)
  | @inScope s rest way running w w₁ b g opening later hg _ ih =>
    have hleft := fun f hf => hway f (List.mem_cons_of_mem _ hf)
    rw [fill_cons, cutOff_cons, Frame.fill, Frame.cut, run_scope, run_scope]
    refine .andThen (.inside rfl s.entryReply s.exitReply hcalm (all_cutOff hleft) hg fun hcalm₁ =>
      ih hcalm₁ hleft (fun f hf => htry f (List.mem_cons_of_mem _ hf)) hinner) _ fun reply w => ?_
    exact ⟨(), _, rfl, rfl⟩
  | inAttempt => exact absurd (htry _ List.mem_cons_self) (by simp [Frame.isAttempt])
  | @inCode buffer thread rest way running w w₁ b g opening later hadmitted hg _ ih =>
    have hleft := fun f hf => hway f (List.mem_cons_of_mem _ hf)
    rw [fill_cons, cutOff_cons, Frame.fill, Frame.cut, run_execute, run_execute]
    refine .andThen ?_ _ fun result w => ⟨(), _, rfl, rfl⟩
    rw [runCode, runCode, Code.execute_of_admitted hadmitted, Code.execute_of_admitted hadmitted]
    refine .andThen (.inside rfl (fun _ => _) (fun _ => _) hcalm (all_cutOff hleft) hg fun hcalm₁ =>
      ih hcalm₁ hleft (fun f hf => htry f (List.mem_cons_of_mem _ hf)) hinner) _ fun result w => ?_
    exact ⟨_, [], rfl, rfl⟩

/-! ## What comes after -/

/-- **What comes after.** Programs that do the same at a position, replies apart, can stand for each
other there. -/
theorem Leads.alike {way : List Frame} {a b : Place} {before : List Happening}
    {inner inner' : Program} (h : Leads p way a before b)
    (hsame : Alike (run p b.running inner b.world) (run p b.running inner' b.world)) :
    Alike (run p a.running (fill way inner) a.world)
      (run p a.running (fill way inner') a.world) := by
  have hagrees := h.agrees SameEffects.extends (alike_iff_agrees.1 hsame)
  refine alike_iff_agrees.2 (hagrees.imp ?_)
  rintro _ _ ⟨u, u', rfl, rfl, hu⟩
  rw [SameEffects, effects_append, effects_append, hu]

/-- A tried body that is broken off, and then goes on as one that returns. -/
theorem BrokenOff.attempt {slots : List (String × Guard)} {running : List String}
    {body body' : Program}
    (h : BrokenOff cause slots (run p running body w) (run p running body' w)) (later : Program) :
    Alike (run p running (.attempt body later) w) (run p running (.attempt body' later) w) := by
  obtain ⟨hfailed, ⟨a, hreturned⟩, hstate, heffects, -⟩ := h
  simp only [run, bind_apply, attempt_apply, Run.andThen_ok, hfailed, hreturned, hstate, complete,
    mark_apply]
  exact ⟨rfl, rfl, by simp [heffects]⟩

/-- The same of a whole program. -/
theorem BrokenOff.runToEnd {slots : List (String × Guard)} {body body' : Program}
    (h : BrokenOff cause slots (run p [] body w) (run p [] body' w)) :
    Alike (runToEnd p body w) (runToEnd p body' w) := by
  obtain ⟨hfailed, ⟨a, hreturned⟩, hstate, heffects, -⟩ := h
  simp only [WriteXorExecute.runToEnd, bind_apply, attempt_apply, Run.andThen_ok, hfailed,
    hreturned, hstate, complete, mark_apply, get_apply]
  exact ⟨rfl, rfl, by simp [heffects]⟩

theorem Alike.runToEnd {program program' : Program}
    (h : Alike (run p [] program w) (run p [] program' w)) :
    Alike (runToEnd p program w) (runToEnd p program' w) :=
  alike_iff_agrees.2 ((alike_iff_agrees.1 h).runToEnd SameEffects.extends)

/-! ## Where panics are raised -/

/-- On the way from the place `tried`, which enters no tried body, the operation raises the panic at
the place `raised`. -/
structure Raises (p : Platform) (way : List Frame) (op : Operation) (cause : Panic) (tried : Place)
    (before : List Happening) (raised : Place) : Prop where
  leads : Leads p way tried before raised
  untried : ∀ f ∈ way, f.isAttempt = false
  raises : op.raises = true
  failed : (perform p raised.running op raised.world).outcome = .error cause

/-- Somewhere in the program, run from this place on, the panic is raised and not caught. -/
def Breaks (p : Platform) (program : Program) (cause : Panic) (tried : Place) : Prop :=
  ∃ way op rest before raised, program = fill way (.step op rest) ∧
    (∀ f ∈ way, f.All Operation.Calm) ∧ Raises p way op cause tried before raised

namespace Breaks

variable {running : List String} {body rest : Program} {w₁ : World} {g : Guard}
  {opening : List Happening}

theorem here {op : Operation} (hraises : op.raises = true)
    (hfailed : (perform p running op w).outcome = .error cause) :
    Breaks p (.step op rest) cause ⟨running, w⟩ :=
  ⟨[], op, rest, [], ⟨running, w⟩, rfl, by simp, ⟨.here _, by simp, hraises, hfailed⟩⟩

theorem past {i : Item} (hitem : i.All Operation.Calm)
    (hreturns : (i.run p running w).failed = false)
    (h : Breaks p rest cause ⟨running, (i.run p running w).state⟩) :
    Breaks p (i.followedBy rest) cause ⟨running, w⟩ := by
  obtain ⟨way, op, later, before, raised, rfl, hcalm, hraises⟩ := h
  refine ⟨.past i :: way, op, later, _, raised, rfl, ?_,
    ⟨.past_of_not_failed hreturns hraises.leads, ?_, hraises.raises, hraises.failed⟩⟩
  · exact List.forall_mem_cons.2 ⟨hitem, hcalm⟩
  · exact List.forall_mem_cons.2 ⟨rfl, hraises.untried⟩

theorem inScope {s : Scope}
    (henter : Guard.enter p .scope s.kind s.mode s.thread w = ⟨.ok g, w₁, opening⟩)
    (h : Breaks p body cause ⟨running, w₁⟩) :
    Breaks p (.scope s body rest) cause ⟨running, w⟩ := by
  obtain ⟨way, op, later, before, raised, rfl, hcalm, hraises⟩ := h
  refine ⟨.inScope s rest :: way, op, later, _, raised, rfl, ?_,
    ⟨.inScope henter hraises.leads, ?_, hraises.raises, hraises.failed⟩⟩
  · exact List.forall_mem_cons.2 ⟨True.intro, hcalm⟩
  · exact List.forall_mem_cons.2 ⟨rfl, hraises.untried⟩

theorem inCode {buffer : String} {thread : Option String}
    (hadmitted : (w.buffer buffer).admitRun = .ok ())
    (henter : Guard.enter p .scope .active .exec thread w = ⟨.ok g, w₁, opening⟩)
    (h : Breaks p body cause ⟨buffer :: running, w₁⟩) :
    Breaks p (.execute buffer thread body rest) cause ⟨running, w⟩ := by
  obtain ⟨way, op, later, before, raised, rfl, hcalm, hraises⟩ := h
  refine ⟨.inCode buffer thread rest :: way, op, later, _, raised, rfl, ?_,
    ⟨.inCode hadmitted henter hraises.leads, ?_, hraises.raises, hraises.failed⟩⟩
  · exact List.forall_mem_cons.2 ⟨True.intro, hcalm⟩
  · exact List.forall_mem_cons.2 ⟨rfl, hraises.untried⟩

/-- What comes after does not fail. -/
theorem failed_of_andThen {r : Run World Happening Panic α} {next : α → Step β}
    (hnext : ∀ a w, (next a w).failed = false) (h : (r.andThen next).outcome = .error cause) :
    r.outcome = .error cause := by
  obtain ⟨outcome, w', trace⟩ := r
  cases outcome with
  | error other => exact congrArg Except.error (Except.error.inj h)
  | ok a =>
    have hreturns := hnext a w'
    simp only [Run.andThen_ok] at h
    simp [Run.failed, h] at hreturns

/-- Nor does the ending of a guard. -/
theorem failed_of_released {r : Run World Happening Panic α} {f : α → β} (hcalm : r.state.Calm)
    (h : (r.outcome.bind fun a => (Guard.release p r.failed g r.state).outcome.map fun _ => f a)
      = .error cause) : r.outcome = .error cause := by
  rw [(hcalm.release r.failed g).2] at h
  generalize r.outcome = outcome at h
  cases outcome with
  | error other => exact congrArg Except.error (Except.error.inj h)
  | ok a => cases h

/-- A program fails in its first item, or the item returns and the rest fails. -/
theorem of_item {i : Item} (h : w.Calm) (hitem : i.All Operation.Calm)
    (hfirst : (i.run p running w).outcome = .error cause →
      Breaks p (i.followedBy rest) cause ⟨running, w⟩)
    (hrest : ∀ {w : World}, w.Calm → (run p running rest w).outcome = .error cause →
      Breaks p rest cause ⟨running, w⟩)
    (hfailed : (run p running (i.followedBy rest) w).outcome = .error cause) :
    Breaks p (i.followedBy rest) cause ⟨running, w⟩ := by
  have hcalm : (i.run p running w).state.Calm := h.run (Item.all_followedBy hitem True.intro)
  rw [Item.run_followedBy, bind_apply] at hfailed
  cases hi : (i.run p running w).outcome with
  | error other =>
    refine hfirst ?_
    generalize i.run p running w = r at hi hfailed
    obtain ⟨outcome, w', trace⟩ := r
    obtain rfl : outcome = .error other := hi
    exact hfailed
  | ok _ =>
    refine past hitem (by simp [Run.failed, hi]) (hrest hcalm ?_)
    generalize i.run p running w = r at hi hfailed
    obtain ⟨outcome, w', trace⟩ := r
    obtain rfl : outcome = .ok _ := hi
    exact hfailed

end Breaks

/-- **Where a panic comes from.** A program that fails in a calm world does so at a position that is
in no tried body, where a panic is raised. -/
theorem run_breaks (h : w.Calm) {program : Program} (hprogram : program.All Operation.Calm)
    {running : List String} (hfailed : (run p running program w).outcome = .error cause) :
    Breaks p program cause ⟨running, w⟩ := by
  induction program generalizing w running with
  | done => cases hfailed
  | step op rest ih =>
    refine Breaks.of_item (i := .step op) h hprogram.1 (fun hfirst => ?_)
      (fun h hfailed => ih h hprogram.2 hfailed) hfailed
    have hperform : (perform p running op w).outcome = .error cause :=
      Breaks.failed_of_andThen (fun _ _ => rfl) hfirst
    exact .here (h.raises_of_failed hprogram.1 hperform) hperform
  | scope s body rest ihb ihr =>
    refine Breaks.of_item (i := .scope s body) h hprogram.1 (fun hfirst => ?_)
      (fun h hfailed => ihr h hprogram.2 hfailed) hfailed
    obtain ⟨g, w₁, opening, henter, hcalm⟩ := h.entered (p := p) .scope s.kind s.mode s.thread
    have hscope : (runScope p running s body w).outcome = .error cause :=
      Breaks.failed_of_andThen (fun _ _ => rfl) hfirst
    rw [runScope_of_entered running body henter] at hscope
    exact .inScope henter (ihb hcalm hprogram.1
      (Breaks.failed_of_released (hcalm.run hprogram.1) hscope))
  | attempt body rest ihb ihr =>
    refine Breaks.of_item (i := .attempt body) h hprogram.1 (fun hfirst => ?_)
      (fun h hfailed => ihr h hprogram.2 hfailed) hfailed
    -- Whatever the body does, trying it does not fail.
    simp only [Item.run, Item.followedBy, run, bind_apply, attempt_apply, Run.andThen_ok] at hfirst
    generalize (run p running body w).outcome = outcome at hfirst
    cases outcome <;> cases hfirst
  | execute buffer thread body rest ihb ihr =>
    refine Breaks.of_item (i := .execute buffer thread body) h hprogram.1 (fun hfirst => ?_)
      (fun h hfailed => ihr h hprogram.2 hfailed) hfailed
    have hcode : (runCode p running buffer thread body w).outcome = .error cause :=
      Breaks.failed_of_andThen (fun _ _ => rfl) hfirst
    cases hadmitted : (w.buffer buffer).admitRun with
    | error e =>
      rw [runCode, Code.execute_of_refused hadmitted] at hcode
      cases hcode
    | ok _ =>
      obtain ⟨g, w₁, opening, henter, hcalm⟩ := h.entered (p := p) .scope .active .exec thread
      rw [runCode_of_entered running body hadmitted henter] at hcode
      exact .inCode hadmitted henter (ihb hcalm hprogram.1
        (Breaks.failed_of_released (hcalm.run hprogram.1) hcode))

/-! ## Truncation -/

/-- **A panic cuts a program off.** In a calm world, the body in which a panic is raised behaves as
the one that is cut off there, except that it fails. Where it is tried, and where it is the whole
program, this makes no other difference than that of a reply, up to the end of the last guard. The
guards in slots are those that are there when the panic is raised. -/
theorem panic_is_truncation {outer way : List Frame} {op : Operation} {rest : Program}
    {start tried raised : Place} {earlier before : List Happening} (hcalm : start.world.Calm)
    (houter : Leads p outer start earlier tried)
    (hraises : Raises p way op cause tried before raised)
    (hways : ∀ f ∈ outer ++ way, f.All Operation.Calm) :
    let broken := fill way (.step op rest)
    BrokenOff cause raised.world.slots (run p tried.running broken tried.world)
        (run p tried.running (cutOff way) tried.world) ∧
      (∀ later, Alike (run p start.running (fill outer (.attempt broken later)) start.world)
        (run p start.running (fill outer (.attempt (cutOff way) later)) start.world)) ∧
      (start.running = [] → ∀ later,
        Alike (runToEnd p (fill outer (.attempt broken later)) start.world)
          (runToEnd p (fill outer (.attempt (cutOff way) later)) start.world)) ∧
      (tried.running = [] → Alike (runToEnd p broken tried.world)
        (runToEnd p (cutOff way) tried.world)) := by
  intro broken
  have hstepwise : StepwiseLaw p Operation.Calm (Keeps World.Calm) := World.Calm.stepwise
  have hcalm₁ : tried.world.Calm :=
    houter.obeys hstepwise (World.Calm.lasting.enter .scope)
      (fun f hf => hways f (List.mem_append_left _ hf)) hcalm
  have hcalm₂ : raised.world.Calm :=
    hraises.leads.obeys hstepwise (World.Calm.lasting.enter .scope)
      (fun f hf => hways f (List.mem_append_right _ hf)) hcalm₁
  have hinner : run p raised.running (.step op rest) raised.world
      = ⟨.error cause, raised.world, []⟩ := by
    rw [run, bind_apply, hcalm₂.raised hraises.raises hraises.failed, Run.andThen_error]
  have hbroken : BrokenOff cause raised.world.slots (run p tried.running broken tried.world)
      (run p tried.running (cutOff way) tried.world) :=
    hraises.leads.brokenOff hcalm₁ (fun f hf => hways f (List.mem_append_right _ hf))
      hraises.untried hinner
  have halike (later : Program) := houter.alike (hbroken.attempt later)
  refine ⟨hbroken, halike, fun hrunning later => ?_, fun hrunning => ?_⟩
  · have := halike later
    rw [hrunning] at this
    exact this.runToEnd
  · rw [hrunning] at hbroken
    exact hbroken.runToEnd

/-- A thread, and code that can be run. -/
def equipped : Program :=
  .step (.newThread "t" .null none none) <|
  .step (.newBuffer "b" none) <|
  .step (.emit "b" none ⟨#[0xC3]⟩) .done

/-- Into a scope that keeps a guard in a slot, and into code that runs there. -/
def intoCode : List Frame :=
  [.inScope { style := .guarded .delegated, mode := .write, thread := some "t" } .done,
    .past (.step (.hold "g" .delegated .exec (some "t"))), .inCode "b" (some "t") .done]

theorem panic_is_truncation_in_code :
    let p : Platform := { target := .macos }
    ∃ tried before raised,
      Raises p intoCode (.panic "late") (.explicit "late") tried before raised ∧
      Alike (runToEnd p (.attempt equipped <|
          .attempt (fill intoCode (.step (.panic "late") .done)) .done) .empty)
        (runToEnd p (.attempt equipped <| .attempt (cutOff intoCode) .done) .empty) := by
  intro p
  have hplace : ((place? p [.past (.attempt equipped)] { world := .empty }).bind
      (place? p intoCode)).isSome := by decide +kernel
  obtain ⟨raised, hraised⟩ := Option.isSome_iff_exists.1 hplace
  obtain ⟨tried, htried, hraised⟩ := Option.bind_eq_some_iff.1 hraised
  obtain ⟨earlier, houter⟩ := leads_of_place? htried
  obtain ⟨before, hway⟩ := leads_of_place? hraised
  have hraises : Raises p intoCode (.panic "late") (.explicit "late") tried before raised :=
    ⟨hway, by simp [intoCode, Frame.isAttempt], rfl, rfl⟩
  have hcalm : ∀ f ∈ [.past (.attempt equipped)] ++ intoCode, f.All Operation.Calm := by
    simp [intoCode, equipped, Frame.All, Item.All, Program.All, Operation.Calm, Backend.script]
  exact ⟨tried, before, raised, hraises,
    (panic_is_truncation World.calm_empty houter hraises hcalm).2.2.1 rfl .done⟩

end WriteXorExecute
