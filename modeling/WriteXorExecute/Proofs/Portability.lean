import WriteXorExecute.Proofs.Simulation
import WriteXorExecute.Proofs.Success
/-!
# Code on every platform

How a guard holds a mode is up to the platform; what becomes of code is not. A program whose threads
keep still and whose toggles do not fail changes and runs the same code on every two platforms, with
the same results and the same panics, inside any scopes. What may differ is what is told of modes,
and what happens in between to threads, toggles and barriers.

Programs that initialise threads or assert modes are left out: these panic as the mode of a thread
has it, and the mode depends on the platform. So are self-checks.

- **Guards are bystanders** (`Bystander`): making and ending a guard leaves the code alone.
- **Programs** (`code_is_portable`).
-/
namespace WriteXorExecute

open Procedure Correspondence

variable {α β : Type} {p p' : Platform} {w w' : World}

/-! ## What is told of modes -/

/-- Whether the answer depends on a mode, a thread or the platform. -/
def Question.ofModes : Question → Bool
  | status _ | check _ _ | sync _ | config _ | guard _ | strategy | support | strategyTexts => true
  | _ => false

def Operation.ofModes : Operation → Bool
  | ask question => question.ofModes
  | enable .. | hold .. => true
  | _ => false

/-- Whether the reply can differ from one platform to the other. -/
def Label.ofModes : Label → Bool
  | operation op => op.ofModes
  | entered | left => true
  | _ => false

/-- The operation makes no object that fails, does not panic as the mode of a thread has it, and is
no self-check. -/
def Operation.Portable : Operation → Prop
  | init _ | assertMode _ _ | selfCheck _ => False
  | op => op.Calm

theorem Operation.Portable.calm {op : Operation} (h : op.Portable) : op.Calm := by
  cases op with
  | init | assertMode | selfCheck => exact h.elim
  | _ => exact h

/-- What is seen of code: its changes, and what is completed, with the sizes of all buffers. Replies
that tell of modes are not looked at. -/
inductive CodeSight where
  | changed (buffer : String) (r : Record) (sizes : Table Nat)
  | completed (label : Label) (reply : Option Reply) (sizes : Table Nat)

def Happening.codeSight : Happening → List CodeSight
  | mark (.changed buffer r) now => [.changed buffer r now.buffers]
  | mark (.completed label reply) now =>
    [.completed label (if label.ofModes then none else some reply) now.buffers]
  | _ => []

/-! ## Guards are bystanders -/

/-- Nothing is seen of code, all code is as before, and objects and guards are where they were. -/
structure Bystander (w : World) (trace : List Happening) (w' : World) : Prop where
  unseen : trace.flatMap Happening.codeSight = []
  buffers : w'.buffers = w.buffers
  threads : ∀ name, w'.threads.contains name = w.threads.contains name
  toggles : ∀ name, w'.toggles.contains name = w.toggles.contains name
  slots : w'.slots = w.slots

theorem Table.contains_update {α : Type} (t : Table α) (name other : String) (change : α → α) :
    (t.update name change).contains other = t.contains other := by
  rw [contains, contains, get?_update]
  split <;> simp

theorem Table.contains_add {α : Type} (t : Table α) (name other : String) (a : α) :
    (t.add name a).contains other = (decide (other = name) || t.contains other) := by
  by_cases hother : other = name
  · simp [contains, hother, get?_add_self]
  · simp [contains, hother, get?_add_of_ne]

namespace Bystander

theorem law : Law Bystander where
  refl _ := ⟨rfl, rfl, fun _ => rfl, fun _ => rfl, rfl⟩
  trans h h' := ⟨by rw [List.flatMap_append, h.unseen, h'.unseen, List.append_nil],
    h'.buffers.trans h.buffers, fun name => (h'.threads name).trans (h.threads name),
    fun name => (h'.toggles name).trans (h.toggles name), h'.slots.trans h.slots⟩

theorem note {event : Happening} (h : event.codeSight = []) :
    Obeys Bystander (note event : Step Unit) :=
  .note fun _ => ⟨by simp [h], rfl, fun _ => rfl, fun _ => rfl, rfl⟩

theorem mark {m : Mark} (h : ∀ now, (Happening.mark m now).codeSight = []) :
    Obeys Bystander (mark m) :=
  fun _ => ⟨by simp [h], rfl, fun _ => rfl, fun _ => rfl, rfl⟩

theorem switch (failing : Bool) (name : String) (mode : Mode) :
    Obeys Bystander (switch p failing name mode) := by
  have honThread {α : Type} (x : Thread.Step α) : Obeys Bystander (onThread name x) :=
    .atThread law fun w t _ => ⟨List.flatMap_eq_nil_iff.2 fun e he => by
        obtain ⟨event, -, rfl⟩ := List.mem_map.1 he
        rfl, rfl, fun other => Table.contains_update _ _ other _, fun _ => rfl, rfl⟩
  have honToggle {α : Type} (x : Toggle.Step α) : Obeys Bystander (onToggle name x) :=
    .atToggle law fun w t _ => ⟨List.flatMap_eq_nil_iff.2 fun e he => by
        obtain ⟨event, -, rfl⟩ := List.mem_map.1 he
        rfl, rfl, fun _ => rfl, fun other => Table.contains_update _ _ other _, rfl⟩
  refine .bind law (honThread _) fun answer => ?_
  cases answer with
  | some previous => exact .pure law _
  | none => exact .bind law (honToggle _) fun _ => .pure law _

theorem acquireBarrier (b : Barrier) (mode : Mode) :
    Obeys Bystander (Guard.acquireBarrier b mode) :=
  Guard.acquireBarrier_obeys law (note rfl) mode

theorem enter (holder : Holder) (kind : Guard.Kind) (mode : Mode) (thread : Option String) :
    Obeys Bystander (Guard.enter p holder kind mode thread) :=
  .bind law (Guard.acquire_obeys law (fun _ _ => note rfl) fun _ name _ => switch false name mode)
    fun _ => .bind law (mark fun _ => rfl) fun _ => .pure law _

theorem release (failing : Bool) (g : Guard) : Obeys Bystander (Guard.release p failing g) :=
  Guard.release_obeys law (fun _ _ _ => note rfl) fun name mode _ => switch failing name mode

theorem leave (holder : Holder) (failing : Bool) (g : Guard) :
    Obeys Bystander (Guard.leave p holder failing g) :=
  .bind law (.attempt (release failing g)) fun _ =>
    .bind law (mark fun _ => rfl) fun _ => .ofOutcome law _

end Bystander

/-! ## Worlds with the same code -/

/-- The same code, the same names of objects, and guards in the same slots. -/
structure SameLayout (w w' : World) : Prop where
  buffers : w.buffers = w'.buffers
  threads : ∀ name, w.threads.contains name = w'.threads.contains name
  toggles : ∀ name, w.toggles.contains name = w'.toggles.contains name
  slots : List.Forall₂ (fun e e' => e.1 = e'.1) w.slots w'.slots

/-- The same name is taken in both worlds. -/
theorem SameLayout.made (h : SameLayout w w') (name : String) {v v' : World}
    (hmade : SameLayout v v') :
    SameLayout (if w.knows name then w else v) (if w'.knows name then w' else v') := by
  have hknows : w.knows name = w'.knows name := by
    rw [World.knows, World.knows, h.threads, h.toggles, h.buffers]
  rw [hknows]
  split
  · exact h
  · exact hmade

/-- Calm worlds with the same code. -/
structure SameCode (w w' : World) : Prop extends SameLayout w w' where
  calm : w.Calm
  calm' : w'.Calm

/-- What is compared: code, and replies that do not tell of modes. -/
def sameCode : Comparison CodeSight where
  states := SameCode
  seen := Happening.codeSight
  guards _ _ := True
  replies label reply reply' := label.ofModes = false → reply = reply'

namespace SameCode

theorem guard (h : SameCode w w') (slot : String) :
    Option.Rel (fun _ _ => True) (w.guard? slot) (w'.guard? slot) := by
  have hslots := h.slots
  simp only [World.guard?]
  generalize w.slots = slots at hslots ⊢
  generalize w'.slots = slots' at hslots ⊢
  induction hslots with
  | nil => exact .none
  | @cons e e' _ _ he _ ih =>
    obtain ⟨key, g⟩ := e
    obtain ⟨key', g'⟩ := e'
    obtain rfl : key = key' := he
    rw [List.lookup_cons, List.lookup_cons]
    cases slot == key with
    | true => exact .some True.intro
    | false => exact ih

theorem withSlots (h : SameCode w w') {slots slots' : List (String × Guard)}
    (hslots : List.Forall₂ (fun e e' => e.1 = e'.1) slots slots') :
    SameCode { w with slots } { w' with slots := slots' } :=
  ⟨⟨h.buffers, h.threads, h.toggles, hslots⟩, World.Calm.lasting.slots slots h.calm,
    World.Calm.lasting.slots slots' h.calm'⟩

theorem discard (h : SameCode w w') (slot : String) :
    SameCode (w.discard slot) (w'.discard slot) := by
  refine h.withSlots ?_
  have hslots := h.slots
  generalize w.slots = slots at hslots ⊢
  generalize w'.slots = slots' at hslots ⊢
  induction hslots with
  | nil => exact .nil
  | @cons e e' _ _ he hrest ih =>
    obtain ⟨key, g⟩ := e
    obtain ⟨key', g'⟩ := e'
    obtain rfl : key = key' := he
    by_cases hkey : key = slot
    · simpa [hkey] using hrest
    · simpa [hkey] using ih

theorem withBuffers (h : SameCode w w') (change : Table CodeBuffer → Table CodeBuffer) :
    SameCode { w with buffers := change w.buffers } { w' with buffers := change w'.buffers } :=
  ⟨⟨congrArg change h.buffers, h.threads, h.toggles, h.slots⟩,
    World.Calm.lasting.buffers _ h.calm, World.Calm.lasting.buffers _ h.calm'⟩

/-- What returns, and is a bystander on either side, is done alike. -/
theorem mirrors {x : Step α} {y : Step β} (hx : Succeeds World.Calm x) (hx' : Obeys Bystander x)
    (hy : Succeeds World.Calm y) (hy' : Obeys Bystander y) :
    sameCode.Mirrors (fun _ _ => True) x y := by
  intro w w' h
  obtain ⟨a, w₁, trace, hrun, hcalm⟩ := hx.run_eq h.calm
  obtain ⟨b, w₁', trace', hrun', hcalm'⟩ := hy.run_eq h.calm'
  have hbeside := hx' w
  have hbeside' := hy' w'
  rw [hrun] at hbeside ⊢
  rw [hrun'] at hbeside' ⊢
  refine ⟨.ok True.intro, ⟨⟨?_, fun name => ?_, fun name => ?_, ?_⟩, hcalm, hcalm'⟩, ?_⟩
  · rw [hbeside.buffers, hbeside'.buffers, h.buffers]
  · rw [hbeside.threads, hbeside'.threads, h.threads]
  · rw [hbeside.toggles, hbeside'.toggles, h.toggles]
  · rw [hbeside.slots, hbeside'.slots]
    exact h.slots
  · exact hbeside.unseen.trans hbeside'.unseen.symm

theorem mark {m m' : Mark} (h : sameCode.Marks m m') :
    sameCode.Mirrors Eq (mark m) (mark m') := by
  intro w w' hw
  have hsizes : w.snapshot.buffers = w'.snapshot.buffers := by
    rw [World.snapshot, World.snapshot, hw.buffers]
  refine ⟨.ok rfl, hw, ?_⟩
  cases h with
  | opened | closed | forgotten => rfl
  | changed buffer r => simp [sameCode, Happening.codeSight, hsizes]
  | completed label hreply =>
    cases hlabel : label.ofModes with
    | true => simp [sameCode, Happening.codeSight, hsizes, hlabel]
    | false => simp [sameCode, Happening.codeSight, hsizes, hlabel, hreply hlabel]

/-- An object is made on both sides, or on none. -/
theorem made {op : Operation} (hop : op.Calm) (hmakes : op.makes = true) (running : List String) :
    sameCode.Mirrors Eq (perform p running op) (perform p' running op) := by
  intro w w' h
  have hcalm := World.Calm.make (p := p) running hop hmakes w h.calm
  have hcalm' := World.Calm.make (p := p') running hop hmakes w' h.calm'
  cases op with
  | newThread name backend initialMode checkAtSync =>
    refine ⟨.ok rfl, ⟨h.toSameLayout.made name ?_, hcalm, hcalm'⟩, rfl⟩
    exact ⟨h.buffers, fun other => by simp [Table.contains_add, h.threads], h.toggles, h.slots⟩
  | newToggle name toggle =>
    refine ⟨.ok rfl, ⟨h.toSameLayout.made name ?_, hcalm, hcalm'⟩, rfl⟩
    exact ⟨h.buffers, h.threads, fun other => by simp [Table.contains_add, h.toggles], h.slots⟩
  | newBuffer name maxSize =>
    refine ⟨.ok rfl, ⟨h.toSameLayout.made name ?_, hcalm, hcalm'⟩, rfl⟩
    exact ⟨congrArg (Table.add · name _) h.buffers, h.threads, h.toggles, h.slots⟩
  | _ => cases hmakes

theorem ask {question : Question} (h : SameCode w w') (hq : question.ofModes = false) :
    question.answer p w = question.answer p' w' := by
  have hbuffer (buffer : String) : w.buffer buffer = w'.buffer buffer := by
    rw [World.buffer, World.buffer, h.buffers]
  cases question with
  | code | extent | display => simp only [Question.answer, hbuffer]
  | defaultMaxSize | modeTexts | modeErrorTexts | codeErrorTexts | sameError | finding => rfl
  | _ => cases hq

theorem fence (running : List String) (mode : Mode) :
    sameCode.Mirrors Eq (perform p running (.fence mode)) (perform p' running (.fence mode)) := by
  have barrier (p : Platform) : Succeeds World.Calm (do
        issue .processor
        let g ← Guard.acquireBarrier .processor mode
        Guard.release p false g : Step Unit) ∧ Obeys Bystander (do
        issue .processor
        let g ← Guard.acquireBarrier .processor mode
        Guard.release p false g : Step Unit) :=
    ⟨.bind (.note _) fun _ => .bind (.acquireBarrier _ mode) fun g =>
        .release (fun name _ => World.Calm.answers name) false,
      .bind Bystander.law (Bystander.note rfl) fun _ =>
        .bind Bystander.law (Bystander.acquireBarrier _ mode) fun g => Bystander.release false g⟩
  have hbarrier := mirrors (barrier p).1 (barrier p).2 (barrier p').1 (barrier p').2
  have hreply := hbarrier.bind (W := Eq) fun _ _ _ => .pure (a := Reply.mode mode) rfl
  simpa only [perform, bind_assoc] using hreply

theorem simulation (p p' : Platform) :
    Simulation p p' { plain := Operation.Portable } sameCode where
  mark := mark
  enter holder kind mode thread _ :=
    mirrors (.enter (fun name _ => World.Calm.answers name) holder kind mode)
      (Bystander.enter holder kind mode thread)
      (.enter (fun name _ => World.Calm.answers name) holder kind mode)
      (Bystander.enter holder kind mode thread)
  leave holder failing g g' _ :=
    (mirrors (.leave (fun name _ => World.Calm.answers name) holder failing)
      (Bystander.leave holder failing g)
      (.leave (fun name _ => World.Calm.answers name) holder failing)
      (Bystander.leave holder failing g')).imp fun _ _ _ => rfl
  guard _ h := SameCode.guard h _
  keep _ _ h := SameCode.withSlots h (.cons rfl h.toSameLayout.slots)
  discard _ h := SameCode.discard h _
  buffer _ h := by rw [World.buffer, World.buffer, h.toSameLayout.buffers]
  onBuffer change _ := .modify fun _ _ h => SameCode.withBuffers h (·.update _ change)
  plain running op hplain hop := by
    cases op with
    | ask question =>
      refine .get_bind fun w w' h => ⟨.ok fun hq => ask h hq, h, rfl⟩
    | newThread | newToggle | newBuffer =>
      exact (made (Operation.Portable.calm hop) rfl running).imp fun _ _ hr _ => hr
    | enable name mode =>
      refine (mirrors (World.Calm.answers name false mode) (Bystander.switch false name mode)
        (World.Calm.answers name false mode) (Bystander.switch false name mode)).bind
          fun _ _ _ => .pure nofun
    | fence mode => exact (fence running mode).imp fun _ _ hr _ => hr
    | panic message => exact .fail _
    | init | assertMode | selfCheck => exact hop.elim
    | hold | drop | forget | emit | patch | free => cases hplain
  reply _ _ _ := rfl
  held _ h := by cases h
  entered _ h := by cases h
  left _ h := by cases h

end SameCode

/-! ## Programs -/

/-- Two runs come to the same as far as code is concerned: they end alike, leave the same code, and
show the same of it on the way. -/
structure SameCodeRun (V : α → β → Prop) (r : Run World Happening Panic α)
    (r' : Run World Happening Panic β) : Prop where
  outcome : Together V r.outcome r'.outcome
  buffers : r.state.buffers = r'.state.buffers
  seen : r.trace.flatMap Happening.codeSight = r'.trace.flatMap Happening.codeSight

theorem SameCodeRun.of_alike {V : α → β → Prop} {r : Run World Happening Panic α}
    {r' : Run World Happening Panic β} (h : sameCode.Alike V r r') : SameCodeRun V r r' :=
  ⟨h.outcome, h.states.toSameLayout.buffers, h.view⟩

theorem sameCode_empty : SameCode .empty .empty :=
  ⟨⟨rfl, fun _ => rfl, fun _ => rfl, .nil⟩, World.calm_empty, World.calm_empty⟩

/-- **Programs.** What leads to a position on one platform leads there on the other, with the same
code. There, operations, scopes, runs of code and whole programs come to the same. -/
theorem code_is_portable {way : List Frame} {place : Place} {before : List Happening}
    (p' : Platform) (hlead : Leads p way { world := .empty } before place)
    (hway : ∀ f ∈ way, f.All Operation.Portable) :
    ∃ before' place', Leads p' way { world := .empty } before' place' ∧
      place'.running = place.running ∧ place.world.buffers = place'.world.buffers ∧
      before.flatMap Happening.codeSight = before'.flatMap Happening.codeSight ∧
      (∀ op, op.Portable → SameCodeRun (fun r r' => op.ofModes = false → r = r')
        (perform p place.running op place.world) (perform p' place.running op place'.world)) ∧
      (∀ s body, body.All Operation.Portable →
        SameCodeRun (fun r r' => s.style = .closure → r = r')
          (runScope p place.running s body place.world)
          (runScope p' place.running s body place'.world)) ∧
      (∀ buffer thread body, body.All Operation.Portable →
        SameCodeRun Eq (runCode p place.running buffer thread body place.world)
          (runCode p' place.running buffer thread body place'.world)) ∧
      (∀ program, program.All Operation.Portable →
        SameCodeRun Eq (run p place.running program place.world)
            (run p' place.running program place'.world) ∧
          SameCodeRun Eq (runToEnd p program place.world) (runToEnd p' program place'.world)) := by
  have h := SameCode.simulation p p'
  obtain ⟨before', place', hlead', hrunning, hplaces, hseen⟩ :=
    h.leads hlead (fun f hf => (hway f hf).in_plain) sameCode_empty
  refine ⟨before', place', hlead', hrunning, hplaces.toSameLayout.buffers, hseen, fun op hop => ?_,
    fun s body hbody => ?_, fun buffer thread body hbody => ?_, fun program hprogram => ⟨?_, ?_⟩⟩
  · exact .of_alike (h.perform _ (Operation.in_plain hop) _ _ hplaces)
  · have hscope := h.runScope (s := s) True.intro (h.run body hbody.in_plain place.running)
    refine .of_alike (hscope.imp (fun reply reply' hreply hstyle => ?_) _ _ hplaces)
    obtain ⟨g, g', -, rfl, rfl⟩ := hreply
    simp only [Scope.exitReply, hstyle]
  · have hbody' := h.run body hbody.in_plain (buffer :: place.running)
    exact .of_alike (h.runCode True.intro True.intro hbody' _ _ hplaces)
  · exact .of_alike (h.run program hprogram.in_plain _ _ _ hplaces)
  · have hslots {w w' : World} (hw : SameCode w w') :
        List.Forall₂ (fun e e' => e.1 = e'.1 ∧ True) w.slots w'.slots :=
      hw.toSameLayout.slots.imp fun _ _ he => ⟨he, True.intro⟩
    exact .of_alike (h.runToEnd (fun _ => True.intro) (fun _ _ => hslots) program hprogram.in_plain
      _ _ hplaces)

/-- Code is emitted by a thread while a guard on a toggle that does not tell the truth is kept. -/
def mixedProgram : Program :=
  .step (.newThread "t" .null none none) <|
  .step (.newToggle "d" { mode := .write, answers := [some .exec] }) <|
  .step (.newBuffer "b" none) <|
  .step (.hold "g" .active .write (some "d")) <|
  .step (.emit "b" (some "t") ⟨#[0xC3]⟩) .done

/-- The world that it leaves where guards do nothing. -/
def mixedWorld : World :=
  ((Item.attempt mixedProgram).run {} [] .empty).state

/-- While the code is running, a change of it is refused, and a panic is caught. -/
def panickingProgram : Program :=
  .attempt (.step (.emit "b" (some "t") ⟨#[0x90]⟩) (.step (.panic "stop") .done)) .done

theorem code_is_portable_mixed : ∃ before before' place',
    Leads {} [.past (.attempt mixedProgram), .inCode "b" (some "t") .done] { world := .empty }
        before { running := ["b"], world := mixedWorld } ∧
      Leads { target := .macos } [.past (.attempt mixedProgram), .inCode "b" (some "t") .done]
        { world := .empty } before' place' ∧
      SameCodeRun Eq (run {} ["b"] panickingProgram mixedWorld)
        (run { target := .macos } ["b"] panickingProgram place'.world) := by
  have hadmitted : (mixedWorld.buffer "b").admitRun = .ok () := by
    have h : (mixedWorld.buffer "b").admitRun.toOption = some () := by decide +kernel
    cases hb : (mixedWorld.buffer "b").admitRun with
    | error e => simp [hb, Except.toOption] at h
    | ok _ => rfl
  have hlead : Leads {} [.past (.attempt mixedProgram), .inCode "b" (some "t") .done]
      { world := .empty } _ { running := ["b"], world := mixedWorld } :=
    .past_of_not_failed (by decide +kernel) (.inCode hadmitted rfl (.here _))
  have hway : ∀ f ∈ [Frame.past (.attempt mixedProgram), .inCode "b" (some "t") .done],
      f.All Operation.Portable := by
    simp [Frame.All, Item.All, mixedProgram, Program.All, Operation.Portable, Operation.Calm,
      Backend.script, Toggle.Reliable]
  have hprogram : panickingProgram.All Operation.Portable :=
    ⟨⟨True.intro, True.intro, True.intro⟩, True.intro⟩
  obtain ⟨before', place', hlead', -, -, -, -, -, -, hrun⟩ :=
    code_is_portable { target := .macos } hlead hway
  exact ⟨_, before', place', hlead, hlead', (hrun panickingProgram hprogram).1⟩

end WriteXorExecute
