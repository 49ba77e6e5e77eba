import WriteXorExecute.Proofs.Counterpart
import WriteXorExecute.Proofs.Position
/-!
# One program, run twice

A program is run on two platforms, or from two worlds, or both. If its guards are made and ended
alike, its slots hold guards that correspond, the code that it looks at is the same, and each of its
other operations is done alike, then both runs are alike to the end: the program goes the same way
in both.

- **From operations to programs** (`Simulation.run`, `Simulation.runToEnd`).
- **The same way** (`Simulation.leads`): what leads to a position in one run leads there in the
  other.
-/
namespace WriteXorExecute

open Procedure Correspondence

variable {ο : Type} {p p' : Platform}

/-! ## What a program consists of -/

/-- The operations of programs, and what their guards and their code are. -/
structure Vocabulary where
  /-- Operations other than those on guards and on code. -/
  plain : Operation → Prop
  thread : Option String → Prop := fun _ => True
  slot : String → Prop := fun _ => True
  code : String → Prop := fun _ => True

def Operation.In (v : Vocabulary) : Operation → Prop
  | hold slot _ _ thread => v.slot slot ∧ v.thread thread
  | drop slot | forget slot => v.slot slot
  | emit buffer thread _ | patch buffer thread _ _ => v.code buffer ∧ v.thread thread
  | free buffer => v.code buffer
  | op => v.plain op

/-- So is every operation of the program, and what its scopes use. -/
def Program.In (v : Vocabulary) : Program → Prop
  | .done => True
  | .step op rest => op.In v ∧ rest.In v
  | .scope s body rest => v.thread s.thread ∧ body.In v ∧ rest.In v
  | .attempt body rest => body.In v ∧ rest.In v
  | .execute buffer thread body rest =>
    (v.code buffer ∧ v.thread thread) ∧ body.In v ∧ rest.In v

def Item.In (v : Vocabulary) (i : Item) : Prop :=
  (i.followedBy .done).In v

def Frame.In (v : Vocabulary) : Frame → Prop
  | past i => i.In v
  | inScope s _ => v.thread s.thread
  | inAttempt _ => True
  | inCode buffer thread _ => v.code buffer ∧ v.thread thread

/-! ### The same program -/

/-- What is in the vocabulary matches itself, and nothing else. -/
def Vocabulary.dictionary (v : Vocabulary) : Dictionary where
  plain op op' := op = op' ∧ v.plain op
  thread _ thread thread' := thread = thread' ∧ v.thread thread
  slot := v.slot
  code := v.code

theorem Operation.In.matches {v : Vocabulary} {op : Operation} (h : op.In v) :
    op.Matches v.dictionary op := by
  cases op with
  | hold => exact .hold h.1 ⟨rfl, h.2⟩
  | drop => exact .drop h
  | forget => exact .forget h
  | emit => exact .emit h.1 ⟨rfl, h.2⟩
  | patch => exact .patch h.1 ⟨rfl, h.2⟩
  | free => exact .free h
  | ask | newThread | newToggle | newBuffer | init | enable | assertMode | fence | selfCheck
  | panic => exact .plain rfl ⟨rfl, h⟩

theorem Program.In.matches {v : Vocabulary} {program : Program} (h : program.In v) :
    program.Matches v.dictionary program := by
  induction program with
  | done => exact .done
  | step op rest ih => exact .step h.1.matches (ih h.2)
  | scope s body rest ihb ihr => exact .scope ⟨rfl, h.1⟩ (ihb h.2.1) (ihr h.2.2)
  | attempt body rest ihb ihr => exact .attempt (ihb h.1) (ihr h.2)
  | execute buffer thread body rest ihb ihr =>
    exact .execute h.1.1 ⟨rfl, h.1.2⟩ (ihb h.2.1) (ihr h.2.2)

/-! ### Any guards and any code -/

section

variable {good : Operation → Prop}

theorem Operation.in_plain {op : Operation} (h : good op) : op.In { plain := good } := by
  cases op with
  | hold | emit | patch => exact ⟨True.intro, True.intro⟩
  | drop | forget | free => exact True.intro
  | ask | newThread | newToggle | newBuffer | init | enable | assertMode | fence | selfCheck
  | panic => exact h

/-- Where guards and code are not restricted, a program is one of its operations. -/
theorem Program.All.in_plain {program : Program} (h : program.All good) :
    program.In { plain := good } := by
  induction program with
  | done => exact True.intro
  | step op rest ih => exact ⟨Operation.in_plain h.1, ih h.2⟩
  | scope s body rest ihb ihr => exact ⟨True.intro, ihb h.1, ihr h.2⟩
  | attempt body rest ihb ihr => exact ⟨ihb h.1, ihr h.2⟩
  | execute buffer thread body rest ihb ihr =>
    exact ⟨⟨True.intro, True.intro⟩, ihb h.1, ihr h.2⟩

theorem Frame.All.in_plain {f : Frame} (h : f.All good) : f.In { plain := good } := by
  cases f with
  | past i =>
    have hall : (i.followedBy .done).All good := by
      cases i with
      | step op => exact ⟨h, True.intro⟩
      | scope s body | attempt body | execute buffer thread body => exact ⟨h, True.intro⟩
    exact hall.in_plain
  | inScope s rest | inAttempt rest => exact True.intro
  | inCode buffer thread rest => exact ⟨True.intro, True.intro⟩

end

/-! ## What is compared -/

/-- Which worlds, guards and replies correspond, and what is seen of a happening. -/
structure Comparison (ο : Type) extends Correspondence World Happening ο where
  guards : Guard → Guard → Prop := Eq
  replies : Label → Reply → Reply → Prop := fun _ => Eq

/-- Two marks of the same kind whose guards or replies correspond. -/
inductive Comparison.Marks (C : Comparison ο) : Mark → Mark → Prop
  | opened (holder : Holder) {g g' : Guard} (h : C.guards g g') :
    Marks C (.opened holder g) (.opened holder g')
  | closed (holder : Holder) {g g' : Guard} (h : C.guards g g') :
    Marks C (.closed holder g) (.closed holder g')
  | forgotten (slot : String) {g g' : Guard} (h : C.guards g g') :
    Marks C (.forgotten slot g) (.forgotten slot g')
  | changed (buffer : String) (r : Record) : Marks C (.changed buffer r) (.changed buffer r)
  | completed (label : Label) {reply reply' : Reply} (h : C.replies label reply reply') :
    Marks C (.completed label reply) (.completed label reply')

/-- The replies of a scope are those of guards that correspond. -/
def Comparison.Replies (C : Comparison ο) (s : Scope) (reply reply' : Reply) : Prop :=
  ∃ g g', C.guards g g' ∧ reply = s.exitReply g ∧ reply' = s.exitReply g'

/-- On the platforms `p` and `p'`, the steps of a program of the vocabulary `v` are done alike. -/
structure Simulation (p p' : Platform) (v : Vocabulary) (C : Comparison ο) : Prop where
  mark : ∀ {m m'}, C.Marks m m' → C.Mirrors Eq (mark m) (mark m')
  enter : ∀ holder kind mode {thread}, v.thread thread →
    C.Mirrors C.guards (Guard.enter p holder kind mode thread)
      (Guard.enter p' holder kind mode thread)
  leave : ∀ holder failing {g g'}, C.guards g g' →
    C.Mirrors Eq (Guard.leave p holder failing g) (Guard.leave p' holder failing g')
  /-- Corresponding worlds have corresponding guards in a slot. -/
  guard : ∀ {w w' slot}, v.slot slot → C.states w w' →
    Option.Rel C.guards (w.guard? slot) (w'.guard? slot)
  keep : ∀ {w w' slot g g'}, v.slot slot → C.guards g g' → C.states w w' →
    C.states (w.keep slot g) (w'.keep slot g')
  discard : ∀ {w w' slot}, v.slot slot → C.states w w' →
    C.states (w.discard slot) (w'.discard slot)
  /-- Corresponding worlds have the same code in a buffer. -/
  buffer : ∀ {w w' buffer}, v.code buffer → C.states w w' → w.buffer buffer = w'.buffer buffer
  onBuffer : ∀ {buffer} change, v.code buffer →
    C.Mirrors Eq (onBuffer buffer change) (onBuffer buffer change)
  plain : ∀ running {op}, op.isPlain = true → v.plain op →
    C.Mirrors (C.replies (.operation op)) (perform p running op) (perform p' running op)
  reply : ∀ label reply, C.replies label reply reply
  held : ∀ {slot kind mode thread g g'}, C.guards g g' →
    C.replies (.operation (.hold slot kind mode thread)) (.ofGuard g) (.ofGuard g')
  entered : ∀ {s : Scope} {g g'}, C.guards g g' →
    C.replies .entered (s.entryReply g) (s.entryReply g')
  left : ∀ {s : Scope} {g g'}, C.guards g g' →
    C.replies .left (s.exitReply g) (s.exitReply g')

namespace Simulation

variable {v : Vocabulary} {C : Comparison ο} (h : Simulation p p' v C)

include h

theorem complete (label : Label) {reply reply' : Reply} (hreply : C.replies label reply reply') :
    C.Mirrors Eq (complete label reply) (complete label reply') :=
  h.mark (.completed label hreply)

/-- Operations that match are the same. -/
theorem counterparts : Counterparts p p' v.dictionary C.guards C.toCorrespondence .none where
  enter holder kind mode _ _ hthread := by
    obtain ⟨rfl, hthread⟩ := hthread
    exact (h.enter holder kind mode hthread).unless
  leave holder failing _ _ hg := (h.leave holder failing hg).unless
  guard := h.guard
  keep := h.keep
  discard := h.discard
  forgotten slot _ _ hg := h.mark (.forgotten slot hg)
  buffer := h.buffer
  onBuffer := h.onBuffer
  changed buffer r := h.mark (.changed buffer r)
  plain running _ _ hplain hop := by
    obtain ⟨rfl, hop⟩ := hop
    exact ((h.plain running hplain hop).bind fun _ _ hreply => h.complete _ hreply).unless
  told reply _ _ hplain hop := by
    obtain rfl := hop.eq_of hplain fun _ _ _ h => h.1
    exact h.complete _ (h.reply _ _)
  held slot mode _ _ _ _ _ hthread hg := by
    obtain ⟨rfl, -⟩ := hthread
    exact h.complete _ (h.held hg)
  entered _ _ _ hg := h.complete .entered (h.entered hg)
  left _ _ _ hg := h.complete .left (h.left hg)
  around label reply _ := h.complete label (h.reply _ _)
  panicked _ hcause := hcause.elim

theorem perform (running : List String) {op : Operation} (hop : op.In v) :
    C.Mirrors (C.replies (.operation op)) (perform p running op) (perform p' running op) := by
  cases hplain : op.isPlain with
  | true => exact h.plain running hplain (hop.matches.plain_of hplain).2
  | false =>
    refine (h.counterparts.perform running hop.matches hplain).mirrors.imp fun _ _ hreply => ?_
    cases hreply with
    | hold hg => exact h.held hg
    | same reply => exact h.reply _ _

theorem runScope {running : List String} {s : Scope} (hthread : v.thread s.thread)
    {body : Program} (hbody : C.Mirrors Eq (run p running body) (run p' running body)) :
    C.Mirrors (C.Replies s) (runScope p running s body) (runScope p' running s body) :=
  (h.counterparts.runScope ⟨rfl, hthread⟩ hbody.unless).mirrors

theorem runCode {running : List String} {buffer : String} {thread : Option String}
    (hcode : v.code buffer) (hthread : v.thread thread) {body : Program}
    (hbody : C.Mirrors Eq (run p (buffer :: running) body) (run p' (buffer :: running) body)) :
    C.Mirrors Eq (runCode p running buffer thread body)
      (runCode p' running buffer thread body) :=
  (h.counterparts.runCode hcode ⟨rfl, hthread⟩ hbody.unless).mirrors

/-- **From operations to programs.** -/
theorem run (program : Program) (hprogram : program.In v) (running : List String) :
    C.Mirrors Eq (run p running program) (run p' running program) :=
  (h.counterparts.run hprogram.matches running).mirrors

theorem runItem (i : Item) (hi : i.In v) (running : List String) :
    C.Mirrors Eq (i.run p running) (i.run p' running) :=
  h.run _ hi running

theorem endGuard {e e' : String × Guard} (hslot : v.slot e.1) (hname : e.1 = e'.1)
    (hg : C.guards e.2 e'.2) : C.Mirrors Eq (endGuard p e) (endGuard p' e') :=
  (h.counterparts.endGuard hslot hname hg).mirrors

/-- **To the last guard**, if there are corresponding guards in all the slots. -/
theorem runToEnd (hslot : ∀ slot, v.slot slot)
    (hslots : ∀ w w', C.states w w' →
      List.Forall₂ (fun e e' => e.1 = e'.1 ∧ C.guards e.2 e'.2) w.slots w'.slots)
    (program : Program) (hprogram : program.In v) :
    C.Mirrors Eq (runToEnd p program) (runToEnd p' program) :=
  (h.counterparts.runToEnd hslot hslots hprogram.matches).mirrors

/-! ## Positions -/

/-- What has been acquired and told alike in both runs. -/
theorem of_enter {kind : Guard.Kind} {mode : Mode} {thread : Option String} {g : Guard}
    {w w₁ w' : World} {opening : List Happening} (hthread : v.thread thread) (hw : C.states w w')
    (henter : Guard.enter p .scope kind mode thread w = ⟨.ok g, w₁, opening⟩) :
    ∃ g' w₁' opening', Guard.enter p' .scope kind mode thread w' = ⟨.ok g', w₁', opening'⟩ ∧
      C.guards g g' ∧ C.states w₁ w₁' ∧ opening.flatMap C.seen = opening'.flatMap C.seen' := by
  have halike := h.enter .scope kind mode hthread w w' hw
  rw [henter] at halike
  generalize Guard.enter p' .scope kind mode thread w' = r' at halike ⊢
  obtain ⟨outcome', w₁', opening'⟩ := r'
  obtain ⟨houtcome, hstates, hview⟩ := halike
  cases houtcome with
  | ok hg => exact ⟨_, w₁', opening', rfl, hg, hstates, hview⟩

/-- What a reply tells is seen alike. -/
theorem view_complete {label : Label} {reply reply' : Reply} {w w' : World}
    (hreply : C.replies label reply reply') (hw : C.states w w') :
    C.seen (.mark (.completed label reply) w.snapshot)
      = C.seen' (.mark (.completed label reply') w'.snapshot) := by
  have := (h.complete label hreply w w' hw).view
  simpa [WriteXorExecute.complete] using this

/-- **The same way.** -/
theorem leads {way : List Frame} {a b : Place} {before : List Happening}
    (hlead : Leads p way a before b) (hway : ∀ f ∈ way, f.In v) {w' : World}
    (hw : C.states a.world w') :
    ∃ before' b', Leads p' way ⟨a.running, w'⟩ before' b' ∧ b'.running = b.running ∧
      C.states b.world b'.world ∧ before.flatMap C.seen = before'.flatMap C.seen' := by
  induction hlead generalizing w' with
  | here a => exact ⟨[], _, .here _, rfl, hw, rfl⟩
  | @past i way running w w₁ b first later hi _ ih =>
    have halike := h.runItem i (hway _ List.mem_cons_self) running w w' hw
    rw [hi] at halike
    generalize hr' : i.run p' running w' = r' at halike
    obtain ⟨outcome', w₁', first'⟩ := r'
    obtain ⟨houtcome, hstates, hview⟩ := halike
    obtain rfl : .ok () = outcome' := houtcome.eq
    obtain ⟨later', b', hlead', hrunning, hb, hlater⟩ :=
      ih (fun f hf => hway f (List.mem_cons_of_mem _ hf)) hstates
    refine ⟨_, b', .past hr' hlead', hrunning, hb, ?_⟩
    rw [List.flatMap_append, List.flatMap_append, hview, hlater]
  | @inScope s rest way running w w₁ b g opening later henter _ ih =>
    obtain ⟨g', w₁', opening', henter', hg, hstates, hview⟩ :=
      h.of_enter (hway _ List.mem_cons_self) hw henter
    obtain ⟨later', b', hlead', hrunning, hb, hlater⟩ :=
      ih (fun f hf => hway f (List.mem_cons_of_mem _ hf)) hstates
    refine ⟨_, b', .inScope henter' hlead', hrunning, hb, ?_⟩
    rw [List.flatMap_append, List.flatMap_append, List.flatMap_cons, List.flatMap_cons, hview,
      hlater, h.view_complete (h.entered hg) hstates]
  | inAttempt _ ih =>
    obtain ⟨later', b', hlead', hrest⟩ := ih (fun f hf => hway f (List.mem_cons_of_mem _ hf)) hw
    exact ⟨later', b', .inAttempt hlead', hrest⟩
  | @inCode buffer thread rest way running w w₁ b g opening later hadmitted henter _ ih =>
    obtain ⟨hcode, hthread⟩ := hway _ List.mem_cons_self
    have hbuffer := h.buffer hcode hw
    obtain ⟨g', w₁', opening', henter', -, hstates, hview⟩ := h.of_enter hthread hw henter
    obtain ⟨later', b', hlead', hrunning, hb, hlater⟩ :=
      ih (fun f hf => hway f (List.mem_cons_of_mem _ hf)) hstates
    refine ⟨_, b', .inCode (hbuffer ▸ hadmitted) henter' hlead', hrunning, hb, ?_⟩
    rw [List.flatMap_append, List.flatMap_append, List.flatMap_cons, List.flatMap_cons, hview,
      hlater, hbuffer, h.view_complete (h.reply _ _) hstates]

end Simulation

end WriteXorExecute
