import Mathlib.Data.List.Forall2
import Mathlib.Data.Option.Defs
import WriteXorExecute.Proofs.Excuse
import WriteXorExecute.Proofs.ProgramLaw
/-!
# Two programs, step by step

Two programs of the same shape are run on two platforms, or from two worlds, or both. If each step
of the one does what the matching step of the other does, then so do the programs, to the end of the
last guard. The steps may be excused; an excuse that lies in a panic has to be told by the reply
that reports the panic, as a body that is tried goes on after it.

- **Programs that match** (`Program.Matches`): a dictionary says which operations match, and which
  threads may be given to guards.
- **From steps to programs** (`Counterparts.run`, `Counterparts.runToEnd`).
-/
namespace WriteXorExecute

open Procedure Correspondence

variable {α β ο : Type} {p p' : Platform}

/-! ## Steps on no object -/

/-- Whether this happens under one of these names, or under no name at all. -/
def Happening.Under (names : String → Prop) : Happening → Prop
  | thread name _ | toggle name _ => names name
  | barrier _ | selfCheck _ => True
  | mark .. => False

/-- What happens under no name is seen alike. -/
def Correspondence.Impartial (C : Correspondence World Happening ο) : Prop :=
  ∀ happening : Happening, happening.Under (fun _ => False) →
    C.seen happening = C.seen' happening

namespace Correspondence.Impartial

variable {C : Correspondence World Happening ο} (h : C.Impartial)

include h

theorem issue (b : Barrier) : C.Mirrors Eq (issue b) (issue b) :=
  .note (h (.barrier b) True.intro)

theorem acquireBarrier (b : Barrier) (mode : Mode) :
    C.Mirrors Eq (Guard.acquireBarrier b mode) (Guard.acquireBarrier b mode) := by
  unfold Guard.acquireBarrier
  split
  · exact (h.issue b).bind_same fun _ => .pure rfl
  · exact .pure rfl

/-- A guard that gives no mode back is ended alike on all platforms. -/
theorem release (failing : Bool) {g : Guard} (hg : g.holds? = none) :
    C.Mirrors Eq (Guard.release p failing g) (Guard.release p' failing g) := by
  cases g with
  | delegated mode thread previous =>
    obtain rfl : thread = none := hg
    exact .pure rfl
  | barrier b mode =>
    simp only [Guard.release]
    split
    · exact h.issue b
    · exact .pure rfl
  | noop => exact .pure rfl

theorem fence (running : List String) (mode : Mode) :
    C.Mirrors Eq (perform p running (.fence mode)) (perform p' running (.fence mode)) := by
  refine (h.issue .processor).bind_same fun _ => ((h.acquireBarrier .processor mode).of_returns
    (Guard.acquireBarrier_holds _ mode)).bind fun g g' hg => ?_
  obtain ⟨rfl, hnone⟩ := hg
  exact (h.release false hnone).bind_same fun _ => .pure rfl

/-- A self-check works on objects of its own. -/
theorem selfCheck (check : SelfCheck) : C.Mirrors Eq (check.run p) (check.run p) := by
  have htrials : ∀ trial ∈ check.trials p, C.Mirrors Eq trial trial := by
    intro trial htrial
    rcases SelfCheck.mem_trials htrial with ⟨x, rfl⟩ | ⟨verdict, rfl⟩
    · refine fun w v hw => ⟨.of_eq rfl, hw, List.flatMap_congr fun e he => ?_⟩
      obtain ⟨event, -, hevent⟩ := List.mem_filterMap.1 he
      obtain ⟨r, -, rfl⟩ := Option.map_eq_some_iff.1 hevent
      exact h _ True.intro
    · exact .pure rfl
  refine .bind_same (x := SelfCheck.allOf _) (y := SelfCheck.allOf _) ?_ fun _ => .pure rfl
  generalize check.trials p = trials at htrials
  induction trials with
  | nil => exact .pure rfl
  | cons trial rest ih =>
    refine (htrials trial List.mem_cons_self).bind_same fun verdict => ?_
    cases verdict with
    | pass => exact ih fun trial ht => htrials trial (List.mem_cons_of_mem _ ht)
    | fail reason => exact .pure rfl

theorem selfChecks (running : List String) (check : Option SelfCheck) :
    C.Mirrors Eq (perform p running (.selfCheck check)) (perform p running (.selfCheck check)) := by
  cases check with
  | none => exact Mirrors.bind_same (.mapM h.selfCheck _) fun _ => .pure rfl
  | some check => exact (h.selfCheck check).bind_same fun _ => .pure rfl

end Correspondence.Impartial

/-! ## Programs that match -/

/-- Whether the operation is on no guard and on no code. -/
def Operation.isPlain : Operation → Bool
  | hold .. | drop _ | forget _ | emit .. | patch .. | free _ => false
  | _ => true

/-- What may stand in the one program where the other has something else, and which slots and
buffers the programs use. -/
structure Dictionary where
  /-- Operations other than those on guards and on code. -/
  plain : Operation → Operation → Prop
  /-- What guards of this kind are given. -/
  thread : Guard.Kind → Option String → Option String → Prop
  slot : String → Prop := fun _ => True
  code : String → Prop := fun _ => True

inductive Operation.Matches (d : Dictionary) : Operation → Operation → Prop
  | hold {slot : String} {kind : Guard.Kind} {mode : Mode} {thread thread' : Option String}
    (hslot : d.slot slot) (hthread : d.thread kind thread thread') :
    Matches d (.hold slot kind mode thread) (.hold slot kind mode thread')
  | drop {slot : String} (hslot : d.slot slot) : Matches d (.drop slot) (.drop slot)
  | forget {slot : String} (hslot : d.slot slot) : Matches d (.forget slot) (.forget slot)
  | emit {buffer : String} {thread thread' : Option String} {data : ByteArray}
    (hcode : d.code buffer) (hthread : d.thread .active thread thread') :
    Matches d (.emit buffer thread data) (.emit buffer thread' data)
  | patch {buffer : String} {thread thread' : Option String} {offset : UInt64} {data : ByteArray}
    (hcode : d.code buffer) (hthread : d.thread .active thread thread') :
    Matches d (.patch buffer thread offset data) (.patch buffer thread' offset data)
  | free {buffer : String} (hcode : d.code buffer) : Matches d (.free buffer) (.free buffer)
  | plain {op op' : Operation} (hplain : op.isPlain = true) (h : d.plain op op') :
    Matches d op op'

theorem Operation.Matches.plain_of {d : Dictionary} {op op' : Operation} (h : op.Matches d op')
    (hplain : op.isPlain = true) : d.plain op op' := by
  cases h with
  | plain _ h => exact h
  | hold | drop | forget | emit | patch | free => cases hplain

/-- Operations on guards and on code that match are the same if their threads are. -/
theorem Operation.Matches.eq_of {d : Dictionary} {op op' : Operation} (h : op.Matches d op')
    (hplain : op.isPlain = false)
    (hthread : ∀ kind thread thread', d.thread kind thread thread' → thread = thread') :
    op = op' := by
  cases h with
  | hold _ h | emit _ h | patch _ h => rw [hthread _ _ _ h]
  | drop | forget | free => rfl
  | plain h _ => simp [h] at hplain

/-- What the operation answers is the same, or it is what two guards that correspond answer. -/
inductive Operation.Replies (guards : Guard → Guard → Prop) : Operation → Reply → Reply → Prop
  | hold {slot : String} {kind : Guard.Kind} {mode : Mode} {thread : Option String} {g g' : Guard}
    (h : guards g g') : Replies guards (.hold slot kind mode thread) (.ofGuard g) (.ofGuard g')
  | same {op : Operation} (reply : Reply) : Replies guards op reply reply

inductive Program.Matches (d : Dictionary) : Program → Program → Prop
  | done : Matches d .done .done
  | step {op op' : Operation} {rest rest' : Program} (hop : op.Matches d op')
    (hrest : Matches d rest rest') : Matches d (.step op rest) (.step op' rest')
  | scope {s : Scope} {thread' : Option String} {body body' rest rest' : Program}
    (hthread : d.thread s.kind s.thread thread') (hbody : Matches d body body')
    (hrest : Matches d rest rest') :
    Matches d (.scope s body rest) (.scope { s with thread := thread' } body' rest')
  | attempt {body body' rest rest' : Program} (hbody : Matches d body body')
    (hrest : Matches d rest rest') : Matches d (.attempt body rest) (.attempt body' rest')
  | execute {buffer : String} {thread thread' : Option String} {body body' rest rest' : Program}
    (hcode : d.code buffer) (hthread : d.thread .active thread thread')
    (hbody : Matches d body body') (hrest : Matches d rest rest') :
    Matches d (.execute buffer thread body rest) (.execute buffer thread' body' rest')

/-! ## Steps that match -/

/-- On the platforms `p` and `p'`, steps that match are done alike, unless excused. -/
structure Counterparts (p p' : Platform) (d : Dictionary) (guards : Guard → Guard → Prop)
    (C : Correspondence World Happening ο) (E : Excuse Happening Panic) : Prop where
  enter : ∀ holder kind mode {thread thread'}, d.thread kind thread thread' →
    C.MirrorsUnless E guards (Guard.enter p holder kind mode thread)
      (Guard.enter p' holder kind mode thread')
  /-- While a panic is on its way, a second one is no excuse. -/
  leave : ∀ holder failing {g g'}, guards g g' → C.MirrorsUnless (E.during failing) Eq
    (Guard.leave p holder failing g) (Guard.leave p' holder failing g')
  /-- Corresponding worlds have corresponding guards in a slot. -/
  guard : ∀ {w w' slot}, d.slot slot → C.states w w' →
    Option.Rel guards (w.guard? slot) (w'.guard? slot)
  keep : ∀ {w w' slot g g'}, d.slot slot → guards g g' → C.states w w' →
    C.states (w.keep slot g) (w'.keep slot g')
  discard : ∀ {w w' slot}, d.slot slot → C.states w w' →
    C.states (w.discard slot) (w'.discard slot)
  forgotten : ∀ slot {g g'}, guards g g' →
    C.Mirrors Eq (mark (.forgotten slot g)) (mark (.forgotten slot g'))
  /-- Corresponding worlds have the same code in a buffer. -/
  buffer : ∀ {w w' buffer}, d.code buffer → C.states w w' → w.buffer buffer = w'.buffer buffer
  onBuffer : ∀ {buffer} change, d.code buffer →
    C.Mirrors Eq (onBuffer buffer change) (onBuffer buffer change)
  changed : ∀ buffer r, C.Mirrors Eq (mark (.changed buffer r)) (mark (.changed buffer r))
  plain : ∀ running {op op'}, op.isPlain = true → d.plain op op' →
    C.MirrorsUnless E Eq (runStep p running op) (runStep p' running op')
  /-- Operations on guards and on code tell the same. -/
  told : ∀ reply {op op'}, op.isPlain = false → op.Matches d op' →
    C.Mirrors Eq (complete (.operation op) reply) (complete (.operation op') reply)
  held : ∀ slot mode {kind thread thread' g g'}, d.thread kind thread thread' → guards g g' →
    C.Mirrors Eq (complete (.operation (.hold slot kind mode thread)) (.ofGuard g))
      (complete (.operation (.hold slot kind mode thread')) (.ofGuard g'))
  entered : ∀ (s : Scope) {g g'}, guards g g' →
    C.Mirrors Eq (complete .entered (s.entryReply g)) (complete .entered (s.entryReply g'))
  left : ∀ (s : Scope) {g g'}, guards g g' →
    C.Mirrors Eq (complete .left (s.exitReply g)) (complete .left (s.exitReply g'))
  around : ∀ label reply, label.around = true →
    C.Mirrors Eq (complete label reply) (complete label reply)
  /-- A panic that is an excuse is reported as one. -/
  panicked : ∀ cause, E.cause cause → ∀ label now,
    E.event (.mark (.completed label (.panicked cause)) now)

namespace Counterparts

variable {d : Dictionary} {guards : Guard → Guard → Prop} {C : Correspondence World Happening ο}
  {E : Excuse Happening Panic} (h : Counterparts p p' d guards C E)

include h

/-- What reports a panic that is an excuse is not free of excuses. -/
theorem not_free {cause : Panic} (hcause : E.cause cause) {label : Label} {next : Unit → Step α}
    (w : World) : ¬E.Free ((complete label (.panicked cause) >>= next) w) := by
  intro hfree
  have htrace := hfree.first.trace
  simp only [complete, mark_apply, List.mem_singleton, forall_eq] at htrace
  exact htrace (h.panicked cause hcause label w.snapshot)

/-! ## Guards and code -/

theorem holding {V : α → β → Prop} {kind : Guard.Kind} (mode : Mode)
    {thread thread' : Option String} (hthread : d.thread kind thread thread')
    {body : Guard → Step α} {body' : Guard → Step β}
    (hbody : ∀ g g', guards g g' → C.MirrorsUnless E V (body g) (body' g')) :
    C.MirrorsUnless E V (WriteXorExecute.holding p kind mode thread body)
      (WriteXorExecute.holding p' kind mode thread' body') :=
  (h.enter .scope kind mode hthread).bracket (fun failing _ _ hg => h.leave .scope failing hg) hbody

/-- A guard is ended while no panic is on its way. -/
theorem leave_false (holder : Holder) {g g' : Guard} (hg : guards g g') :
    C.MirrorsUnless E Eq (Guard.leave p holder false g) (Guard.leave p' holder false g') :=
  (h.leave holder false hg).mono (E.during_within false)

theorem store {buffer : String} (hcode : d.code buffer) (offset : UInt64) (data : ByteArray) :
    C.Mirrors Eq (Code.store buffer offset data) (Code.store buffer offset data) :=
  (h.onBuffer _ hcode).bind_same fun _ => h.changed buffer _

theorem replace {buffer : String} (hcode : d.code buffer) (offset : UInt64) (data : ByteArray) :
    C.Mirrors Eq (Code.replace buffer offset data) (Code.replace buffer offset data) :=
  (h.onBuffer _ hcode).bind_same fun _ => h.changed buffer _

section

variable {buffer : String} {thread thread' : Option String} (hcode : d.code buffer)
  (hthread : d.thread .active thread thread')

include hcode hthread

theorem emit (data : ByteArray) :
    C.MirrorsUnless E Eq (Code.emit p buffer thread data) (Code.emit p' buffer thread' data) := by
  refine .get_bind fun w w' hw hfree => ?_
  rw [h.buffer hcode hw] at hfree ⊢
  cases hadmitted : (w'.buffer buffer).admitEmit data.size with
  | error e => exact Mirrors.pure rfl w w' hw
  | ok offset =>
    have hholding := h.holding .write hthread fun _ _ _ => (h.store hcode offset data).unless
    rw [hadmitted] at hfree
    exact MirrorsUnless.bind_same hholding (fun _ => .pure rfl) w w' hw hfree

theorem patch (offset : UInt64) (data : ByteArray) :
    C.MirrorsUnless E Eq (Code.patch p buffer thread offset data)
      (Code.patch p' buffer thread' offset data) := by
  refine .get_bind fun w w' hw hfree => ?_
  rw [h.buffer hcode hw] at hfree ⊢
  cases hadmitted : (w'.buffer buffer).admitPatch offset data.size with
  | error e => exact Mirrors.pure rfl w w' hw
  | ok _ =>
    have hholding := h.holding .write hthread fun _ _ _ => (h.replace hcode offset data).unless
    rw [hadmitted] at hfree
    exact MirrorsUnless.bind_same hholding (fun _ => .pure rfl) w w' hw hfree

theorem execute {body body' : ByteArray → Step α}
    (hbody : ∀ bytes, C.MirrorsUnless E Eq (body bytes) (body' bytes)) :
    C.MirrorsUnless E Eq (Code.execute p buffer thread body)
      (Code.execute p' buffer thread' body') := by
  refine .get_bind fun w w' hw hfree => ?_
  rw [h.buffer hcode hw] at hfree ⊢
  cases hadmitted : (w'.buffer buffer).admitRun with
  | error e => exact Mirrors.pure rfl w w' hw
  | ok _ =>
    have hholding := h.holding .exec hthread fun _ _ _ => hbody (w'.buffer buffer).bytes
    rw [hadmitted] at hfree
    exact MirrorsUnless.bind_same hholding (fun _ => .pure rfl) w w' hw hfree

end

/-! ## Operations -/

/-- A guard is taken out of its slot, and the same is done with it in both runs. -/
theorem taken {slot : String} (hslot : d.slot slot) {reply : Reply} {next next' : Guard → Step Unit}
    (hnext : ∀ g g', guards g g' → C.MirrorsUnless E Eq (next g) (next' g')) :
    C.MirrorsUnless E Eq (do
      match (← get).guard? slot with
      | none => return .gone
      | some g =>
        modify fun w => w.discard slot
        next g
        return reply : Step Reply) (do
      match (← get).guard? slot with
      | none => return .gone
      | some g =>
        modify fun w => w.discard slot
        next' g
        return reply : Step Reply) := by
  refine .get_bind fun w w' hw hfree => ?_
  have hguard := h.guard hslot hw
  generalize w.guard? slot = found at hguard hfree ⊢
  generalize w'.guard? slot = found' at hguard ⊢
  cases hguard with
  | none => exact Mirrors.pure rfl w w' hw
  | some hg =>
    have hdiscard : C.Mirrors Eq (modify fun w => w.discard slot : Step Unit)
        (modify fun w => w.discard slot) := .modify fun _ _ hw => h.discard hslot hw
    exact MirrorsUnless.bind_same hdiscard.unless (fun _ =>
      (hnext _ _ hg).bind_same fun _ => .pure rfl) w w' hw hfree

/-- Operations on guards and on code that match are done alike. -/
theorem perform (running : List String) {op op' : Operation} (hop : op.Matches d op')
    (hplain : op.isPlain = false) :
    C.MirrorsUnless E (op.Replies guards) (perform p running op) (perform p' running op') := by
  -- Apart from that of `hold`, the reply is the same on both sides.
  have same (hperform : C.MirrorsUnless E Eq (WriteXorExecute.perform p running op)
      (WriteXorExecute.perform p' running op')) :
      C.MirrorsUnless E (op.Replies guards) (WriteXorExecute.perform p running op)
        (WriteXorExecute.perform p' running op') :=
    hperform.imp fun reply _ hreply => hreply ▸ .same reply
  cases hop with
  | hold hslot hthread =>
    exact (h.enter (.slot _) _ _ hthread).bind fun g g' hg =>
      .bind (.modify fun _ _ hw => h.keep hslot hg hw) fun _ _ _ =>
        .pure (.hold hg)
  | drop hslot => exact same (h.taken hslot fun _ _ hg => h.leave_false _ hg)
  | forget hslot => exact same (h.taken hslot fun _ _ hg => (h.forgotten _ hg).unless)
  | emit hcode hthread =>
    refine same ?_
    simp only [WriteXorExecute.perform]
    split
    · exact .pure rfl
    · exact (h.emit hcode hthread _).bind_same fun _ => .pure rfl
  | patch hcode hthread =>
    refine same ?_
    simp only [WriteXorExecute.perform]
    split
    · exact .pure rfl
    · exact (h.patch hcode hthread _ _).bind_same fun _ => .pure rfl
  | free hcode =>
    refine same ?_
    simp only [WriteXorExecute.perform]
    split
    · exact .pure rfl
    · exact (h.onBuffer _ hcode).unless.bind_same fun _ => .pure rfl
  | plain hop _ => simp [hop] at hplain

/-- Operations that match are done alike, with their replies. -/
theorem runStep (running : List String) {op op' : Operation} (hop : op.Matches d op') :
    C.MirrorsUnless E Eq (runStep p running op) (runStep p' running op') := by
  cases hplain : op.isPlain with
  | true => exact h.plain running hplain (hop.plain_of hplain)
  | false =>
    refine (h.perform running hop hplain).bind fun reply reply' hreply => ?_
    cases hreply with
    | same reply => exact (h.told reply hplain hop).unless
    | hold hg =>
      cases hop with
      | hold _ hthread => exact (h.held _ _ hthread hg).unless
      | plain hop _ => simp [hop] at hplain

/-! ## Programs -/

theorem runScope {running : List String} {s : Scope} {thread' : Option String}
    (hthread : d.thread s.kind s.thread thread') {body body' : Program}
    (hbody : C.MirrorsUnless E Eq (run p running body) (run p' running body')) :
    C.MirrorsUnless E
      (fun reply reply' => ∃ g g', guards g g' ∧ reply = s.exitReply g ∧ reply' = s.exitReply g')
      (runScope p running s body) (runScope p' running { s with thread := thread' } body') := by
  refine h.holding s.mode hthread fun g g' hg => ?_
  exact (h.entered s hg).unless.bind_same fun _ =>
    hbody.bind_same fun _ => .pure ⟨g, g', hg, rfl, rfl⟩

theorem runCode {running : List String} {buffer : String} {thread thread' : Option String}
    (hcode : d.code buffer) (hthread : d.thread .active thread thread') {body body' : Program}
    (hbody : C.MirrorsUnless E Eq (run p (buffer :: running) body)
      (run p' (buffer :: running) body')) :
    C.MirrorsUnless E Eq (runCode p running buffer thread body)
      (runCode p' running buffer thread' body') :=
  h.execute hcode hthread fun _ => (h.around .started _ rfl).unless.bind_same fun _ =>
    hbody.bind_same fun _ => .pure rfl

/-- **From steps to programs.** -/
theorem run {program program' : Program} (hprogram : program.Matches d program')
    (running : List String) :
    C.MirrorsUnless E Eq (run p running program) (run p' running program') := by
  induction hprogram generalizing running with
  | done => exact .pure rfl
  | step hop _ ih =>
    rw [run_step, run_step]
    exact (h.runStep running hop).bind_same fun _ => ih running
  | @scope s _ _ _ _ _ hthread _ _ ihb ihr =>
    rw [run_scope, run_scope]
    refine (h.runScope hthread (ihb running)).bind fun reply reply' hreply => ?_
    obtain ⟨g, g', hg, rfl, rfl⟩ := hreply
    exact (h.left s hg).unless.bind_same fun _ => ihr running
  | attempt _ _ ihb ihr =>
    refine (ihb running).attempt_bind (fun _ h => h) (fun cause hcause w => h.not_free hcause w)
      fun ending ending' hending => ?_
    cases hending with
    | ok _ => exact (h.around .tried _ rfl).unless.bind_same fun _ => ihr running
    | error cause => exact (h.around .tried _ rfl).unless.bind_same fun _ => ihr running
  | execute hcode hthread _ _ ihb ihr =>
    rw [run_execute, run_execute]
    exact (h.runCode hcode hthread (ihb _)).bind_same fun _ =>
      (h.around .executed _ rfl).unless.bind_same fun _ => ihr running

theorem endGuard {e e' : String × Guard} (hslot : d.slot e.1) (hname : e.1 = e'.1)
    (hg : guards e.2 e'.2) : C.MirrorsUnless E Eq (endGuard p e) (endGuard p' e') := by
  obtain ⟨slot, g⟩ := e
  obtain ⟨slot', g'⟩ := e'
  obtain rfl : slot = slot' := hname
  have hdiscard : C.Mirrors Eq (modify fun w => w.discard slot : Step Unit)
      (modify fun w => w.discard slot) := .modify fun _ _ hw => h.discard hslot hw
  refine hdiscard.unless.bind fun _ _ _ => (h.leave_false (.slot slot) hg).attempt_bind
    (fun _ h => h) (fun cause hcause w hfree => ?_) fun ending ending' hending => ?_
  · exact h.not_free hcause w (by rwa [bind_pure])
  · cases hending with
    | ok _ => exact (h.around .ended _ rfl).unless
    | error cause => exact (h.around .ended _ rfl).unless

theorem endGuards (hslot : ∀ slot, d.slot slot) {slots slots' : List (String × Guard)}
    (hslots : List.Forall₂ (fun e e' => e.1 = e'.1 ∧ guards e.2 e'.2) slots slots') :
    C.MirrorsUnless E Eq (endGuards p slots) (endGuards p' slots') := by
  induction hslots with
  | nil => exact .pure rfl
  | cons he _ ih =>
    rw [endGuards_cons, endGuards_cons]
    exact (h.endGuard (hslot _) he.1 he.2).bind_same fun _ => ih

/-- **To the last guard**, if there are corresponding guards in all the slots. -/
theorem runToEnd (hslot : ∀ slot, d.slot slot)
    (hslots : ∀ w w', C.states w w' →
      List.Forall₂ (fun e e' => e.1 = e'.1 ∧ guards e.2 e'.2) w.slots w'.slots)
    {program program' : Program} (hprogram : program.Matches d program') :
    C.MirrorsUnless E Eq (runToEnd p program) (runToEnd p' program') := by
  have ending : C.MirrorsUnless E Eq (do WriteXorExecute.endGuards p (← get).slots : Step Unit)
      (do WriteXorExecute.endGuards p' (← get).slots : Step Unit) :=
    .get_bind fun w w' hw => h.endGuards hslot (hslots w w' hw) w w' hw
  refine (h.run hprogram []).attempt_bind (fun _ h => h) (fun cause hcause w => h.not_free hcause w)
    fun result result' hresult => ?_
  cases hresult with
  | ok _ => exact ending
  | error cause => exact (h.around .uncaught _ rfl).unless.bind_same fun _ => ending

end Counterparts

end WriteXorExecute
