import WriteXorExecute.Proofs.Counterpart
import WriteXorExecute.Proofs.ThreadRecasting
/-!
# Threads recast

A program can be run with other threads in the same parts, on a platform with the same strategy. If
the threads that it makes are exchanged for others that do the same, so does the program. What is
answered about the threads may have to be excused, and so may misuse, where only one of the
platforms checks for it.

- **Programs that make other threads** (`exchange`).
- **From threads to programs** (`Recasting.counterparts`, `Recasting.runToEnd`).
-/
namespace WriteXorExecute

open Procedure Correspondence

variable {α ο : Type} {p p' : Platform}

/-! ## Tables -/

/-- The tables have the same names in the same order, and what they have under them is related. -/
def Table.Related {α β : Type} (R : String → α → β → Prop) (t : Table α) (t' : Table β) : Prop :=
  List.Forall₂ (fun e e' => e.1 = e'.1 ∧ R e.1 e.2 e'.2) t.entries t'.entries

namespace Table.Related

variable {β γ : Type} {R : String → α → β → Prop} {t : Table α} {t' : Table β} {name : String}

theorem get? (h : t.Related R t') (name : String) : Option.Rel (R name) (t.get? name) (t'.get? name)
    := by
  obtain ⟨entries⟩ := t
  obtain ⟨entries'⟩ := t'
  simp only [Related, Table.get?] at h ⊢
  induction h with
  | nil => exact .none
  | @cons e e' entries entries' he _ ih =>
    obtain ⟨key, a⟩ := e
    obtain ⟨key', a'⟩ := e'
    obtain ⟨rfl, ha⟩ := he
    by_cases hname : name = key
    · subst hname
      simpa only [List.lookup_cons_self] using Option.Rel.some ha
    · simpa only [List.lookup_cons, beq_false_of_ne hname] using ih

theorem contains (h : t.Related R t') (name : String) : t.contains name = t'.contains name := by
  have hget := h.get? name
  unfold Table.contains
  generalize t.get? name = found at hget
  generalize t'.get? name = found' at hget
  cases hget <;> rfl

theorem add (h : t.Related R t') {a : α} {a' : β} (ha : R name a a') :
    (t.add name a).Related R (t'.add name a') := by
  unfold Table.add
  rw [h.contains name]
  split
  · exact h
  · exact List.rel_append h (.cons ⟨rfl, ha⟩ .nil)

theorem update (h : t.Related R t') {change : α → α} {change' : β → β}
    (hchange : ∀ a a', R name a a' → R name (change a) (change' a')) :
    (t.update name change).Related R (t'.update name change') := by
  refine List.forall₂_map_left_iff.2 (List.forall₂_map_right_iff.2 (h.imp fun e e' he => ?_))
  obtain ⟨key, a⟩ := e
  obtain ⟨key', a'⟩ := e'
  obtain ⟨rfl, ha⟩ := he
  dsimp only at ha ⊢
  split
  · rename_i hname
    subst hname
    exact ⟨rfl, hchange a a' ha⟩
  · exact ⟨rfl, ha⟩

theorem map_eq (h : t.Related R t') {f : α → γ} {f' : β → γ}
    (hf : ∀ name a a', R name a a' → f a = f' a') : t.map f = t'.map f' := by
  obtain ⟨entries⟩ := t
  obtain ⟨entries'⟩ := t'
  simp only [Related, Table.map, Table.mk.injEq] at h ⊢
  induction h with
  | nil => rfl
  | cons he _ ih => rw [List.map_cons, List.map_cons, he.1, hf _ _ _ he.2, ih]

end Table.Related

/-! ## Self-checks -/

namespace SelfCheck

/-- What is told of a trial. -/
def told (trial : Step Verdict) : Except Panic Verdict × List Record :=
  ((trial .empty).outcome, (trial .empty).trace.filterMap Happening.record?)

/-- Threads of the self-checks are not misused, and reach nothing. -/
theorem told_trials (target : Target) (check : SelfCheck) : ∀ a b c d : Bool,
    (check.trials ⟨target, a, b, c, d⟩).map told
      = (check.trials ⟨target, a, b, true, true⟩).map told := by
  cases target <;> cases check <;> decide +kernel

/-- What is told of a trial is all there is to it. -/
theorem trial_eq {check : SelfCheck} {trial : Step Verdict} (h : trial ∈ check.trials p) :
    trial = fun w => ⟨(told trial).1, w, (told trial).2.map .selfCheck⟩ := by
  rcases mem_trials h with ⟨x, rfl⟩ | ⟨verdict, rfl⟩
  · funext w
    simp only [told, apart, Run.mk.injEq, true_and]
    rw [List.filterMap_filterMap, List.map_filterMap]
    refine List.filterMap_congr fun happening _ => ?_
    cases happening.record? <;> rfl
  · rfl

theorem trials_eq (p : Platform) (checks switchSupported : Bool) (check : SelfCheck) :
    check.trials { p with checks, switchSupported } = check.trials p := by
  obtain ⟨target, a, b, c, d⟩ := p
  have htold : (check.trials ⟨target, a, b, checks, switchSupported⟩).map told
      = (check.trials ⟨target, a, b, c, d⟩).map told := by
    rw [told_trials target check a b checks, told_trials target check a b c]
  -- A trial can be built again from what is told of it.
  have hself (q : Platform) : check.trials q = ((check.trials q).map told).map fun result =>
      (fun w => ⟨result.1, w, result.2.map .selfCheck⟩ : Step Verdict) := by
    rw [List.map_map]
    exact (List.map_id'' (fun trial => rfl) _).symm.trans
      (List.map_congr_left fun trial htrial => trial_eq htrial)
  rw [hself, htold, ← hself]

theorem perform_eq (p : Platform) (checks switchSupported : Bool) (running : List String)
    (check : Option SelfCheck) :
    perform { p with checks, switchSupported } running (.selfCheck check)
      = perform p running (.selfCheck check) := by
  have hrun (check : SelfCheck) : check.run { p with checks, switchSupported } = check.run p := by
    rw [run, run, trials_eq]
  cases check with
  | none => simp only [perform, runAll, funext hrun]
  | some check => simp only [perform, hrun]

end SelfCheck

/-! ## Worlds -/

/-- The threads of the second world play the parts of those of the first. All else is the same.
Whether a thread has to be checked alike may depend on its name. -/
structure World.Recast (backends : Backend → Backend → Prop) (flags : String → Bool → Bool → Prop)
    (w w' : World) : Prop where
  threads : w.threads.Related (fun name => Thread.Recast backends (flags name)) w'.threads
  toggles : w.toggles = w'.toggles
  buffers : w.buffers = w'.buffers
  slots : w.slots = w'.slots

def World.recast (backends : Backend → Backend → Prop) (flags : String → Bool → Bool → Prop)
    (view : Happening → ο) : Correspondence World Happening ο where
  states := World.Recast backends flags
  seen happening := [view happening]

/-- An excuse, as far as it lies in the thread of a name. -/
def Excuse.under (E : Excuse Happening Panic) (name : String) :
    Excuse Thread.Event Thread.Fault where
  event event := E.event (.thread name event)
  cause fault := E.cause (.thread name fault)

def Operation.makesThread : Operation → Bool
  | newThread .. => true
  | _ => false

/-- The operations are the same, or they make threads with backends that can be exchanged. -/
inductive Operation.Exchanged (backends : Backend → Backend → Prop) : Operation → Operation → Prop
  | newThread {name : String} {backend backend' : Backend} (initialMode : Option Mode)
    (checkAtSync : Option Bool) (h : backends backend backend') :
    Exchanged backends (.newThread name backend initialMode checkAtSync)
      (.newThread name backend' initialMode checkAtSync)
  | same {op : Operation} (h : op.makesThread = false) : Exchanged backends op op

/-- Programs match if they make threads with backends that can be exchanged. -/
def exchange (backends : Backend → Backend → Prop) : Dictionary where
  plain := Operation.Exchanged backends
  thread _ thread thread' := thread = thread'

theorem Operation.matches_exchange {backends : Backend → Backend → Prop} (h : ∀ b, backends b b)
    (op : Operation) : op.Matches (exchange backends) op := by
  cases op with
  | hold => exact .hold True.intro rfl
  | drop => exact .drop True.intro
  | forget => exact .forget True.intro
  | emit => exact .emit True.intro rfl
  | patch => exact .patch True.intro rfl
  | free => exact .free True.intro
  | newThread name backend initialMode checkAtSync =>
    exact .plain rfl (.newThread initialMode checkAtSync (h backend))
  | ask | newToggle | newBuffer | init | enable | assertMode | fence | selfCheck | panic =>
    exact .plain rfl (.same rfl)

/-- If every backend can be exchanged for itself, every program matches itself. -/
theorem Program.matches_exchange {backends : Backend → Backend → Prop} (h : ∀ b, backends b b)
    (program : Program) : program.Matches (exchange backends) program := by
  induction program with
  | done => exact .done
  | step op rest ih => exact .step (op.matches_exchange h) ih
  | scope s body rest ihb ihr => exact .scope rfl ihb ihr
  | attempt body rest ihb ihr => exact .attempt ihb ihr
  | execute buffer thread body rest ihb ihr => exact .execute True.intro rfl ihb ihr

/-- Threads can be recast in programs on the platforms `p` and `p'`, unless excused. -/
structure Recasting (p p' : Platform) (backends : Backend → Backend → Prop)
    (flags : String → Bool → Bool → Prop) (view : Happening → ο) (E : Excuse Happening Panic) :
    Prop where
  platform : p' = { p with checks := p'.checks, switchSupported := p'.switchSupported }
  thread : ∀ name, Thread.Recasting p p' backends fun event => view (.thread name event)
  misuse : ∀ name, (Thread.misuse p p').Within (E.under name)
  panicked : ∀ cause, E.cause cause → ∀ label now,
    E.event (.mark (.completed label (.panicked cause)) now)
  told : ∀ name {backend backend'} initialMode checkAtSync now, backends backend backend' →
    view (.mark (.completed
        (.operation (.newThread name backend initialMode checkAtSync)) .nothing) now)
      = view (.mark (.completed
        (.operation (.newThread name backend' initialMode checkAtSync)) .nothing) now)
  /-- A new thread is checked alike, or that is excused. -/
  made : ∀ name backend initialMode checkAtSync now,
    flags name (Config.requested p initialMode checkAtSync).checkAtSync
        (Config.requested p' initialMode checkAtSync).checkAtSync ∨
      E.event (.mark (.completed
        (.operation (.newThread name backend initialMode checkAtSync)) .nothing) now)
  /-- A question is answered alike, or that is excused. -/
  answer : ∀ (question : Question) {w w' : World}, w.Recast backends flags w' → ∀ now,
    view (.mark (.completed (.operation (.ask question)) (question.answer p w)) now)
        = view (.mark (.completed (.operation (.ask question)) (question.answer p' w')) now) ∨
      E.event (.mark (.completed (.operation (.ask question)) (question.answer p w)) now)

namespace World.Recast

variable {backends : Backend → Backend → Prop} {flags : String → Bool → Bool → Prop} {w w' : World}

theorem snapshot (h : w.Recast backends flags w') : w.snapshot = w'.snapshot := by
  have hthreads : w.threads.map Thread.status = w'.threads.map Thread.status :=
    h.threads.map_eq fun _ _ _ ht => ht.status
  simp only [World.snapshot, hthreads, h.toggles, h.buffers]

theorem knows (h : w.Recast backends flags w') (name : String) : w.knows name = w'.knows name := by
  rw [World.knows, World.knows, h.threads.contains name, h.toggles, h.buffers]

theorem guard (h : w.Recast backends flags w') (slot : String) :
    w.guard? slot = w'.guard? slot := by
  rw [World.guard?, World.guard?, h.slots]

theorem buffer (h : w.Recast backends flags w') (buffer : String) :
    w.buffer buffer = w'.buffer buffer := by
  rw [World.buffer, World.buffer, h.buffers]

/-- What is answered about a thread is answered about the one that plays its part. -/
theorem ofThread (h : w.Recast backends flags w') {thread : String} {answer : Thread → Reply}
    (hanswer : ∀ t t' : Thread, t.Recast backends (flags thread) t' → answer t = answer t') :
    Question.ofThread w thread answer = Question.ofThread w' thread answer := by
  have hget := h.threads.get? thread
  unfold Question.ofThread
  generalize w.threads.get? thread = found at hget ⊢
  generalize w'.threads.get? thread = found' at hget ⊢
  cases hget with
  | none => rfl
  | some ht => exact hanswer _ _ ht

/-- Questions are answered alike, as long as what they are about has not been changed. -/
theorem answer (h : w.Recast backends flags w') {question : Question}
    (hstrategy : p'.strategy = p.strategy)
    (hsupport : question = .support → p'.switchSupported = p.switchSupported)
    (hflags : ∀ thread, question = .sync thread ∨ question = .config thread →
      ∀ flag flag', flags thread flag flag' → flag = flag') :
    question.answer p w = question.answer p' w' := by
  cases question with
  | status thread => exact h.ofThread fun t t' ht => by rw [ht.status]
  | check thread mode =>
    refine h.ofThread fun t t' ht => ?_
    rw [Thread.check, Thread.check, ht.mode]
  | sync thread =>
    refine h.ofThread fun t t' ht => ?_
    rw [Thread.sync, Thread.sync, hflags thread (.inl rfl) _ _ ht.checkAtSync, Thread.check,
      Thread.check, ht.mode]
  | config thread =>
    refine h.ofThread fun t t' ht => congrArg Reply.config ?_
    exact congrArg₂ Config.mk ht.initialMode (hflags thread (.inr rfl) _ _ ht.checkAtSync)
  | guard slot => simp only [Question.answer, h.guard]
  | code buffer | extent buffer | display buffer => simp only [Question.answer, h.buffer]
  | support => simp only [Question.answer, hsupport rfl]
  | strategy | strategyTexts => simp only [Question.answer, hstrategy]
  | defaultMaxSize | modeTexts | modeErrorTexts | codeErrorTexts | sameError | finding => rfl

theorem empty : World.empty.Recast backends flags .empty :=
  ⟨.nil, rfl, rfl, rfl⟩

end World.Recast

namespace Recasting

variable {backends : Backend → Backend → Prop} {flags : String → Bool → Bool → Prop}
  {view : Happening → ο} {E : Excuse Happening Panic}

/-! ### Steps that are the same on both platforms -/

theorem impartial : (World.recast backends flags view).Impartial :=
  fun _ _ => rfl

theorem mark (m : Mark) : (World.recast backends flags view).Mirrors Eq (mark m) (mark m) := by
  intro w w' h
  refine ⟨.ok rfl, h, ?_⟩
  rw [mark_apply, mark_apply, h.snapshot]
  rfl

theorem create (name : String) {add add' : World → World} (h : ∀ w w',
      w.Recast backends flags w' → (add w).Recast backends flags (add' w')) :
    (World.recast backends flags view).Mirrors Eq (create name add) (create name add') := by
  refine .modify fun w w' hw => ?_
  rw [World.Recast.knows hw name]
  split
  · exact hw
  · exact h w w' hw

theorem onBuffer (buffer : String) (change : CodeBuffer → CodeBuffer) :
    (World.recast backends flags view).Mirrors Eq (onBuffer buffer change)
      (onBuffer buffer change) :=
  .modify fun _ _ hw => { hw with buffers := congrArg (Table.update · buffer change) hw.buffers }

/-- What is done alike to the thread of a name is done alike in the world. -/
theorem onThread {name : String} {x y : Thread.Step α}
    (h : (Thread.recast backends (flags name) fun event => view (.thread name event)).MirrorsUnless
      (E.under name) Eq x y) :
    (World.recast backends flags view).MirrorsUnless E Eq (onThread name x) (onThread name y) := by
  intro w w' hw hfree
  have hget := hw.threads.get? name
  cases ht : w.threads.get? name with
  | none =>
    rw [ht] at hget
    have ht' : w'.threads.get? name = none := by
      generalize w'.threads.get? name = found at hget
      cases hget
      rfl
    rw [onThread_of_none ht, onThread_of_none ht']
    exact ⟨.ok rfl, hw, rfl⟩
  | some t =>
    obtain ⟨t', ht', hrecast⟩ : ∃ t', w'.threads.get? name = some t' ∧
        t.Recast backends (flags name) t' := by
      rw [ht] at hget
      generalize w'.threads.get? name = found at hget
      cases hget with
      | some hrecast => exact ⟨_, rfl, hrecast⟩
    rw [onThread_of_some ht] at hfree ⊢
    rw [onThread_of_some ht']
    have hunder : (E.under name).Free (x t) := by
      refine ⟨fun event he => hfree.trace _ (List.mem_map_of_mem he), fun fault hend => ?_⟩
      exact hfree.outcome (.thread name fault) (by rw [hend]; rfl)
    obtain ⟨houtcome, hstates, hview⟩ := h t t' hrecast hunder
    refine ⟨?_, { hw with threads := hw.threads.update fun _ _ _ => hstates }, ?_⟩
    · exact .of_eq (by rw [houtcome.eq])
    · simpa [World.recast, Thread.recast, List.flatMap_map] using hview

theorem onToggle (name : String) (x : Toggle.Step α) :
    (World.recast backends flags view).Mirrors Eq (onToggle name x) (onToggle name x) := by
  intro w w' hw
  cases ht : w.toggles.get? name with
  | none =>
    rw [onToggle_of_none ht, onToggle_of_none (hw.toggles ▸ ht)]
    exact ⟨.ok rfl, hw, rfl⟩
  | some t =>
    rw [onToggle_of_some ht, onToggle_of_some (hw.toggles ▸ ht)]
    have htoggles := congrArg (fun table => table.update name fun _ => (x t).state) hw.toggles
    exact ⟨.of_eq rfl, { hw with toggles := htoggles }, rfl⟩

variable (h : Recasting p p' backends flags view E)

include h

/-! ### Guards -/

/-- A name is asked for a mode. -/
theorem switch (failing : Bool) (name : String) (mode : Mode) :
    (World.recast backends flags view).MirrorsUnless (E.during failing) Eq
      (switch p failing name mode) (switch p' failing name mode) := by
  have hthread : (World.recast backends flags view).MirrorsUnless (E.during failing) Eq
      (WriteXorExecute.onThread name (Thread.enable p failing mode))
      (WriteXorExecute.onThread name (Thread.enable p' failing mode)) :=
    onThread (((h.thread name).enable failing mode).mono ((h.misuse name).during failing))
  refine hthread.bind_same fun answer => ?_
  cases answer with
  | some previous => exact .pure rfl
  | none => exact Mirrors.unless ((onToggle name _).bind_same fun _ => .pure rfl)

/-- A name is asked for a mode while no panic is on its way. -/
theorem switch_false (name : String) (mode : Mode) :
    (World.recast backends flags view).MirrorsUnless E Eq (WriteXorExecute.switch p false name mode)
      (WriteXorExecute.switch p' false name mode) :=
  (h.switch false name mode).mono (E.during_within false)

theorem strategy : p'.strategy = p.strategy := by
  rw [h.platform]
  rfl

theorem acquire (kind : Guard.Kind) (mode : Mode) (thread : Option String) :
    (World.recast backends flags view).MirrorsUnless E Eq (Guard.acquire p kind mode thread)
      (Guard.acquire p' kind mode thread) := by
  have hdelegated : (World.recast backends flags view).MirrorsUnless E Eq
      (Guard.acquireDelegated p mode thread) (Guard.acquireDelegated p' mode thread) := by
    cases thread with
    | none => exact .pure rfl
    | some name =>
      exact (h.switch_false name mode).bind_same fun _ => .pure rfl
  cases kind with
  | delegated => exact hdelegated
  | barrier => exact (impartial.acquireBarrier .counted mode).unless
  | noop => exact .pure rfl
  | active =>
    simp only [Guard.acquire, h.strategy]
    cases p.strategy with
    | delegated => exact hdelegated
    | barrierOnly => exact (impartial.acquireBarrier .processor mode).unless
    | noop => exact .pure rfl

theorem enter (holder : Holder) (kind : Guard.Kind) (mode : Mode) (thread : Option String) :
    (World.recast backends flags view).MirrorsUnless E Eq (Guard.enter p holder kind mode thread)
      (Guard.enter p' holder kind mode thread) :=
  (h.acquire kind mode thread).bind_same fun g => (mark (.opened holder g)).unless.bind_same
    fun _ => .pure rfl

theorem release (failing : Bool) (g : Guard) :
    (World.recast backends flags view).MirrorsUnless (E.during failing) Eq
      (Guard.release p failing g) (Guard.release p' failing g) := by
  cases hholds : g.holds? with
  | none => exact (impartial.release failing hholds).unless
  | some name =>
    obtain ⟨mode, previous, rfl⟩ := Guard.eq_delegated_of_holds hholds
    exact (h.switch failing name previous).bind_same fun _ => .pure rfl

theorem leave (holder : Holder) (failing : Bool) (g : Guard) :
    (World.recast backends flags view).MirrorsUnless (E.during failing) Eq
      (Guard.leave p holder failing g) (Guard.leave p' holder failing g) := by
  refine (h.release failing g).attempt_bind (fun _ h => h) (fun cause hcause w hfree => ?_)
    fun ending ending' hending => ?_
  · exact hfree.outcome cause rfl hcause
  · exact Mirrors.unless ((mark _).bind_same fun _ => .ofOutcome hending)

/-! ### Operations -/

omit h in
/-- What is done alike is told alike. -/
theorem runStep {running : List String} {op : Operation}
    (hperform : (World.recast backends flags view).MirrorsUnless E Eq (perform p running op)
      (perform p' running op)) :
    (World.recast backends flags view).MirrorsUnless E Eq (runStep p running op)
      (runStep p' running op) :=
  hperform.bind_same fun reply => (mark (.completed (.operation op) reply)).unless

theorem newThread (running : List String) {name : String} {backend backend' : Backend}
    (initialMode : Option Mode) (checkAtSync : Option Bool) (hbackend : backends backend backend') :
    (World.recast backends flags view).MirrorsUnless E Eq
      (WriteXorExecute.runStep p running (.newThread name backend initialMode checkAtSync))
      (WriteXorExecute.runStep p' running (.newThread name backend' initialMode checkAtSync)) := by
  intro w w' hw hfree
  have hflag := (h.made name backend initialMode checkAtSync _).resolve_right
    (hfree.trace _ (List.mem_singleton.2 rfl))
  have hnew : Thread.Recast backends (flags name)
      { backend, config := .requested p initialMode checkAtSync }
      { backend := backend', config := .requested p' initialMode checkAtSync } :=
    ⟨hbackend, rfl, hflag, rfl, rfl, rfl⟩
  have hadd (v v' : World) (hv : v.Recast backends flags v') :
      ({ v with threads := v.threads.add name _ } : World).Recast backends flags
        { v' with threads := v'.threads.add name _ } :=
    ⟨hv.threads.add hnew, hv.toggles, hv.buffers, hv.slots⟩
  have hcreate : (World.recast backends flags view).Alike Eq (WriteXorExecute.create name _ w)
      (WriteXorExecute.create name _ w') := create name hadd w w' hw
  have htold (now : Snapshot) := h.told name initialMode checkAtSync now hbackend
  refine ⟨.ok rfl, hcreate.states, congrArg (fun seen => [seen]) ((htold _).trans ?_)⟩
  exact congrArg (fun now => view (.mark _ now)) (World.Recast.snapshot hcreate.states)

theorem ask (running : List String) (question : Question) :
    (World.recast backends flags view).MirrorsUnless E Eq
      (WriteXorExecute.runStep p running (.ask question))
      (WriteXorExecute.runStep p' running (.ask question)) := by
  intro w w' hw hfree
  have hanswer := (h.answer question hw w.snapshot).resolve_right
    (hfree.trace _ (List.mem_singleton.2 rfl))
  refine ⟨.ok rfl, hw, congrArg (fun seen => [seen]) (hanswer.trans ?_)⟩
  rw [World.Recast.snapshot hw]
  rfl

theorem plain (running : List String) {op op' : Operation} (hplain : op.isPlain = true)
    (hop : op.Exchanged backends op') : (World.recast backends flags view).MirrorsUnless E Eq
      (WriteXorExecute.runStep p running op) (WriteXorExecute.runStep p' running op') := by
  cases hop with
  | newThread initialMode checkAtSync hbackend =>
    exact h.newThread running initialMode checkAtSync hbackend
  | same hmakes =>
    cases op with
    | newThread => cases hmakes
    | ask question => exact h.ask running question
    | newToggle name toggle =>
      refine runStep (Mirrors.unless ((create name fun w w' hw => ?_).bind_same fun _ => .pure rfl))
      exact { hw with toggles := congrArg (Table.add · name toggle) hw.toggles }
    | newBuffer name maxSize =>
      refine runStep (Mirrors.unless ((create name fun w w' hw => ?_).bind_same fun _ => .pure rfl))
      exact { hw with buffers := congrArg (Table.add · name _) hw.buffers }
    | init thread =>
      exact runStep ((onThread ((h.thread thread).init (h.misuse thread))).bind_same
        fun _ => .pure rfl)
    | enable name mode =>
      exact runStep ((h.switch_false name mode).bind_same fun _ => .pure rfl)
    | assertMode thread mode =>
      exact runStep ((onThread ((h.thread thread).assertMode (h.misuse thread) mode)).bind_same
        fun _ => .pure rfl)
    | fence mode => exact runStep (impartial.fence running mode).unless
    | selfCheck check =>
      have hsame : perform p' running (.selfCheck check) = perform p running (.selfCheck check) :=
        (congrArg (perform · running _) h.platform).trans (SelfCheck.perform_eq p _ _ running check)
      refine runStep ?_
      rw [hsame]
      exact (impartial.selfChecks running check).unless
    | panic message => exact runStep (.fail _)
    | hold | drop | forget | emit | patch | free => cases hplain

/-- **From steps to programs.** -/
theorem counterparts : Counterparts p p' (exchange backends) Eq
    (World.recast backends flags view) E where
  enter holder kind mode _ _ hthread := hthread ▸ h.enter holder kind mode _
  leave holder failing g _ hg := hg ▸ h.leave holder failing g
  guard {w _ slot} _ hw := by
    rw [← World.Recast.guard hw slot]
    cases w.guard? slot with
    | none => exact .none
    | some g => exact .some rfl
  keep {_ _ slot g _} _ hg hw := hg ▸ { hw with slots := congrArg ((slot, g) :: ·) hw.slots }
  discard {_ _ slot} _ hw :=
    { hw with slots := congrArg (fun slots => slots.eraseP fun s => s.1 = slot) hw.slots }
  forgotten slot _ _ hg := hg ▸ mark _
  buffer _ hw := World.Recast.buffer hw _
  onBuffer change _ := onBuffer _ change
  changed buffer r := mark (.changed buffer r)
  plain running _ _ hplain hop := h.plain running hplain hop
  told reply _ _ hplain hop := by
    obtain rfl := hop.eq_of hplain fun _ _ _ h => h
    exact mark _
  held slot mode _ _ _ g _ hthread hg := hthread ▸ hg ▸ mark _
  entered s _ _ hg := hg ▸ mark _
  left s _ _ hg := hg ▸ mark _
  around label reply _ := mark (.completed label reply)
  panicked := h.panicked

/-- **Whole programs**, from worlds with threads that play the same parts. -/
theorem runToEnd {program program' : Program}
    (hmatch : program.Matches (exchange backends) program') :
    (World.recast backends flags view).MirrorsUnless E Eq (runToEnd p program)
      (runToEnd p' program') := by
  refine h.counterparts.runToEnd (fun _ => True.intro) (fun w w' hw => ?_) hmatch
  have hslots : w.slots = w'.slots := hw.slots
  exact hslots ▸ List.forall₂_same.2 fun _ _ => ⟨rfl, rfl⟩

end Recasting

end WriteXorExecute
