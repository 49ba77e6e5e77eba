import WriteXorExecute.Proofs.Portability
import WriteXorExecute.Proofs.Throughout
import WriteXorExecute.Proofs.Unwinding
/-!
# Refused operations on code

An operation on code that gives an error has decided so before anything else: it has asked nobody,
told nothing and changed nothing, whatever it would have asked, and what was to run has not been
looked at. So in the history of a program an error is told directly after the reply before it.

- **One operation** (`Atomic`).
- **Whole programs** (`run_paced`): between two replies something may happen, but not if the second
  one is an error. The induction is on the program; replies are given before and after every body,
  so that what happens around bodies lies between two replies as well.
-/
namespace WriteXorExecute

open Procedure

variable {α β : Type} {p : Platform} {buffer : String} {thread : Option String} {w : World}
  {offset : UInt64} {data : ByteArray} {first : Option Snapshot} {t₁ t₂ trace : List Happening}
  {label : Label} {reply : Reply} {now : Snapshot}

/-! ## One operation -/

/-- If the operation gives an error, it has done nothing. If it has made a guard, or done anything
else, it does not give an error. -/
structure Atomic (x : Step (Except CodeError α)) (w : World) : Prop where
  refused : ∀ e, (x w).outcome = .ok (.error e) → (x w).state = w ∧ (x w).trace = []
  acted : ∀ happening ∈ (x w).trace, ∀ e, (x w).outcome ≠ .ok (.error e)

theorem Atomic.of_refused {x : Step (Except CodeError α)} {e : CodeError}
    (h : x w = ⟨.ok (.error e), w, []⟩) : Atomic x w := by
  refine ⟨fun _ _ => by rw [h]; exact ⟨rfl, rfl⟩, fun happening hmem => ?_⟩
  rw [h] at hmem
  cases hmem

/-- What has been accepted gives no error. -/
theorem Atomic.of_accepted {x : Step (Except CodeError α)} {r : Run World Happening Panic β}
    {value : β → α} (h : x w = r.andThen fun b => pure (.ok (value b))) : Atomic x w := by
  have hne : ∀ e, (x w).outcome ≠ .ok (.error e) := by
    intro e
    rw [h, Run.andThen_return]
    cases r.outcome <;> simp [Except.map]
  exact ⟨fun e he => absurd he (hne e), fun _ _ => hne⟩

namespace Code

theorem emit_atomic (p : Platform) (buffer : String) (thread : Option String) (data : ByteArray)
    (w : World) : Atomic (emit p buffer thread data) w := by
  cases hadmitted : (w.buffer buffer).admitEmit data.size with
  | error e => exact .of_refused (emit_of_refused hadmitted)
  | ok offset => exact .of_accepted (emit_of_admitted hadmitted)

theorem patch_atomic (p : Platform) (buffer : String) (thread : Option String) (offset : UInt64)
    (data : ByteArray) (w : World) : Atomic (patch p buffer thread offset data) w := by
  cases hadmitted : (w.buffer buffer).admitPatch offset data.size with
  | error e => exact .of_refused (patch_of_refused hadmitted)
  | ok _ => exact .of_accepted (patch_of_admitted hadmitted)

theorem execute_atomic (p : Platform) (buffer : String) (thread : Option String)
    (body : ByteArray → Step α) (w : World) : Atomic (execute p buffer thread body) w := by
  cases hadmitted : (w.buffer buffer).admitRun with
  | error e => exact .of_refused (execute_of_refused hadmitted)
  | ok _ => exact .of_accepted (execute_of_admitted hadmitted)

/-- What was to run has not been looked at: in its place anything else is refused in the same
way. -/
theorem execute_of_error {body : ByteArray → Step α} {e : CodeError}
    (h : (execute p buffer thread body w).outcome = .ok (.error e))
    (body' : ByteArray → Step β) :
    execute p buffer thread body' w = ⟨.ok (.error e), w, []⟩ := by
  cases hadmitted : (w.buffer buffer).admitRun with
  | error e' =>
    rw [execute_of_refused hadmitted] at h
    obtain rfl : e' = e := by simpa using h
    exact execute_of_refused hadmitted
  | ok _ =>
    rw [execute_of_admitted hadmitted, Run.andThen_return] at h
    cases hrun : (holding p .active .exec thread
      (fun _ => body (w.buffer buffer).bytes) w).outcome <;> simp [hrun, Except.map] at h

end Code

/-! ## Replies that are errors -/

def Reply.refuses : Reply → Bool
  | emitted (.error _) | patched (.error _) | executed (.error _) | code (.error _) => true
  | _ => false

@[simp] theorem Reply.refuses_ofGuard (g : Guard) : (ofGuard g).refuses = false := by
  cases g <;> rfl

/-- Only what concerns code can be refused. -/
def Operation.concernsCode : Operation → Bool
  | emit .. | patch .. | ask _ => true
  | _ => false

theorem perform_not_refused (running : List String) {op : Operation}
    (hop : op.concernsCode = false) :
    Returns (fun reply => reply.refuses = false) (perform p running op) := by
  have gone (done : Option Unit) : (done.elim Reply.gone fun _ => .nothing).refuses = false := by
    cases done <;> rfl
  cases op with
  | ask | emit | patch => cases hop
  | newThread | newToggle | newBuffer | enable => exact .bind fun _ => .pure rfl
  | fence => exact .bind fun _ => .bind fun _ => .bind fun _ => .pure rfl
  | init | assertMode => exact .bind fun done => .pure (gone done)
  | hold => exact .bind fun g => .bind fun _ => .pure (Reply.refuses_ofGuard g)
  | drop slot | forget slot =>
    refine .bind fun w => ?_
    split
    · exact .pure rfl
    · exact .bind fun _ => .bind fun _ => .pure rfl
  | free buffer =>
    simp only [perform]
    split
    · exact .pure rfl
    · exact .bind fun _ => .pure rfl
  | selfCheck check => cases check <;> exact .bind fun _ => .pure rfl
  | panic message =>
    intro w reply hreply
    cases hreply

/-- A reply that tells of an error tells that nothing has been done. -/
theorem Atomic.replied {x : Step (Except CodeError α)} {answer : Except CodeError α → Reply}
    (hx : Atomic x w) (hanswer : ∀ a, (answer (.ok a)).refuses = false)
    (h : ((x w).andThen fun result => pure (answer result)).outcome = .ok reply)
    (hrefuses : reply.refuses = true) :
    (x w).andThen (fun result => pure (answer result)) = ⟨.ok reply, w, []⟩ := by
  rw [Run.andThen_return] at h ⊢
  cases hrun : (x w).outcome with
  | error cause => simp [hrun, Except.map] at h
  | ok result =>
    obtain rfl : answer result = reply := by simpa [hrun, Except.map] using h
    cases result with
    | ok a =>
      rw [hanswer a] at hrefuses
      cases hrefuses
    | error e =>
      obtain ⟨hstate, htrace⟩ := hx.refused e hrun
      rw [hstate, htrace]
      rfl

/-- **A refused operation** of a program has done nothing. -/
theorem perform_of_refused {running : List String} {op : Operation}
    (h : (perform p running op w).outcome = .ok reply) (hrefuses : reply.refuses = true) :
    perform p running op w = ⟨.ok reply, w, []⟩ := by
  cases hop : op.concernsCode with
  | false =>
    have hreply : reply.refuses = false := perform_not_refused running hop w reply h
    rw [hreply] at hrefuses
    cases hrefuses
  | true =>
    cases op with
    | ask question =>
      obtain rfl : question.answer p w = reply := by simpa [perform] using h
      rfl
    | emit buffer thread data =>
      by_cases hrunning : buffer ∈ running
      · simp only [perform, if_pos hrunning, pure_apply, Except.ok.injEq] at h
        subst h
        cases hrefuses
      · simp only [perform, if_neg hrunning, bind_apply] at h ⊢
        exact (Code.emit_atomic p buffer thread data w).replied (fun _ => rfl) h hrefuses
    | patch buffer thread offset data =>
      by_cases hrunning : buffer ∈ running
      · simp only [perform, if_pos hrunning, pure_apply, Except.ok.injEq] at h
        subst h
        cases hrefuses
      · simp only [perform, if_neg hrunning, bind_apply] at h ⊢
        exact (Code.patch_atomic p buffer thread offset data w).replied (fun _ => rfl) h hrefuses
    | _ => cases hop

/-! ## What gives no replies -/

def Untold (_ : World) (trace : List Happening) (_ : World) : Prop :=
  ∀ x ∈ trace, x.isReply = false

namespace Untold

theorem nil (w w' : World) : Untold w [] w' :=
  fun _ hx => absurd hx List.not_mem_nil

theorem law : Law Untold where
  refl w := nil w w
  trans h h' x hx := (List.mem_append.1 hx).elim (h x) (h' x)

/-- Guards give none. -/
theorem of_bystander {x : Step α} (h : Obeys Bystander x) : Obeys Untold x := by
  intro w happening hmem
  have hunseen := List.flatMap_eq_nil_iff.1 (h w).unseen happening hmem
  unfold Happening.isReply
  split
  · cases hunseen
  · rfl

theorem mark {m : Mark} (h : ∀ now, (Happening.mark m now).isReply = false) :
    Obeys Untold (mark m) :=
  fun _ x hx => by
    obtain rfl := List.mem_singleton.1 hx
    exact h _

theorem modify (change : World → World) : Obeys Untold (modify change : Step Unit) :=
  .modify fun _ => nil _ _

theorem onThread (name : String) (x : Thread.Step α) : Obeys Untold (onThread name x) :=
  .atThread law fun _ _ _ event hevent => by
    obtain ⟨_, -, rfl⟩ := List.mem_map.1 hevent
    rfl

theorem holdingLaw : HoldingLaw p Untold where
  law := law
  holding _ _ _ _ hbody :=
    .bracket law (of_bystander (Bystander.enter _ _ _ _)) (.trivial _)
      (fun _ _ _ => of_bystander (Bystander.leave _ _ _)) hbody

theorem selfCheck (check : SelfCheck) : Obeys Untold (check.run p) := by
  refine SelfCheck.run_obeys law (fun x w event hevent => ?_) check
  obtain ⟨_, -, hrecord⟩ := List.mem_filterMap.1 hevent
  obtain ⟨r, -, rfl⟩ := Option.map_eq_some_iff.1 hrecord
  rfl

/-- Neither do operations, before they are completed. -/
theorem perform (running : List String) (op : Operation) : Obeys Untold (perform p running op) := by
  cases op with
  | ask question => exact .bind law (.get law) fun _ => .pure law _
  | newThread | newToggle | newBuffer => exact .bind law (modify _) fun _ => .pure law _
  | init | assertMode => exact .bind law (onThread _ _) fun _ => .pure law _
  | enable name mode =>
    exact .bind law (of_bystander (Bystander.switch false name mode)) fun _ => .pure law _
  | hold slot kind mode thread =>
    exact .bind law (of_bystander (Bystander.enter _ kind mode thread)) fun _ =>
      .bind law (modify _) fun _ => .pure law _
  | drop slot =>
    refine .bind law (.get law) fun w => ?_
    split
    · exact .pure law _
    · exact .bind law (modify _) fun _ =>
        .bind law (of_bystander (Bystander.leave _ false _)) fun _ => .pure law _
  | forget slot =>
    refine .bind law (.get law) fun w => ?_
    split
    · exact .pure law _
    · exact .bind law (modify _) fun _ => .bind law (mark fun _ => rfl) fun _ => .pure law _
  | emit buffer thread data =>
    simp only [WriteXorExecute.perform]
    split
    · exact .pure law _
    · exact .bind law (holdingLaw.emit (fun _ => .bind law (modify _) fun _ => mark fun _ => rfl)
        thread) fun _ => .pure law _
  | patch buffer thread offset data =>
    simp only [WriteXorExecute.perform]
    split
    · exact .pure law _
    · exact .bind law (holdingLaw.patch (.bind law (modify _) fun _ => mark fun _ => rfl) thread)
        fun _ => .pure law _
  | free buffer =>
    simp only [WriteXorExecute.perform]
    split
    · exact .pure law _
    · exact .bind law (modify _) fun _ => .pure law _
  | fence mode =>
    exact .bind law (of_bystander (Bystander.note rfl)) fun _ =>
      .bind law (of_bystander (Bystander.acquireBarrier .processor mode)) fun _ =>
        .bind law (of_bystander (Bystander.release false _)) fun _ => .pure law _
  | selfCheck check =>
    cases check with
    | none => exact .bind law (.mapM law selfCheck _) fun _ => .pure law _
    | some check => exact .bind law (selfCheck check) fun _ => .pure law _
  | panic message => exact .fail law _

end Untold

/-! ## Between two replies -/

/-- What was to be seen when this reply was given, if it is one. -/
def Happening.repliedAt? : Happening → Option Snapshot
  | mark (.completed ..) now => some now
  | _ => none

/-- What was to be seen at the latest reply, or at first, if nothing has happened since. -/
def resting (first : Option Snapshot) (before : List Happening) : Option Snapshot :=
  before.getLast?.elim first Happening.repliedAt?

theorem resting_append (first : Option Snapshot) (t₁ t₂ : List Happening) :
    resting first (t₁ ++ t₂) = resting (resting first t₁) t₂ := by
  unfold resting
  rw [List.getLast?_append]
  cases t₂.getLast? <;> rfl

/-- Wherever an error is told, nothing has happened since the latest reply, and all that can be seen
is as it was then. -/
def Undisturbed (first : Option Snapshot) (trace : List Happening) : Prop :=
  Throughout (fun before x => ∀ label reply now, x = .mark (.completed label reply) now →
    reply.refuses = true → resting first before = some now) trace

namespace Undisturbed

theorem append_iff : Undisturbed first (t₁ ++ t₂) ↔
    Undisturbed first t₁ ∧ Undisturbed (resting first t₁) t₂ := by
  unfold Undisturbed
  simp only [Throughout.append_iff, resting_append]

theorem of_untold (h : ∀ x ∈ trace, x.isReply = false) : Undisturbed first trace := by
  refine .of_mem fun before x hx label reply now he => ?_
  subst he
  exact absurd (h _ hx) nofun

theorem of_reply (h : reply.refuses = true → first = some now) :
    Undisturbed first [.mark (.completed label reply) now] := by
  refine .singleton fun label' reply' now' he hrefuses => ?_
  cases he
  exact h hrefuses

end Undisturbed

/-- The run tells errors undisturbed, and where it returns it has ended with a reply, if anything
has happened in it. -/
structure Paced (w : World) (r : Run World Happening Panic α) : Prop where
  undisturbed : Undisturbed (some w.snapshot) r.trace
  rests : r.failed = false → resting (some w.snapshot) r.trace = some r.state.snapshot

namespace Paced

theorem pure (a : α) (w : World) : Paced w ((Pure.pure a : Step α) w) :=
  ⟨Throughout.nil, fun _ => rfl⟩

theorem andThen {r : Run World Happening Panic α} {next : α → Step β} (h : Paced w r)
    (hnext : ∀ a w', Paced w' (next a w')) : Paced w (r.andThen next) := by
  obtain ⟨outcome, w', trace⟩ := r
  cases outcome with
  | error cause => exact ⟨h.undisturbed, nofun⟩
  | ok a =>
    have hrests := h.rests rfl
    have hlater := hnext a w'
    refine ⟨Undisturbed.append_iff.2 ⟨h.undisturbed, ?_⟩, fun hreturned => ?_⟩
    · rw [hrests]
      exact hlater.undisturbed
    · rw [Run.andThen_ok, resting_append, hrests]
      exact hlater.rests hreturned

/-- What tells errors undisturbed is followed by a reply, which is no error unless nothing has been
done. -/
theorem completed {r : Run World Happening Panic α} {answer : α → Reply}
    (h : Undisturbed (some w.snapshot) r.trace)
    (hanswer : ∀ a, r.outcome = .ok a → (answer a).refuses = true →
      r = ⟨.ok a, w, []⟩) (label : Label) :
    Paced w (r.andThen fun a => complete label (answer a)) := by
  obtain ⟨outcome, w', trace⟩ := r
  cases outcome with
  | error cause => exact ⟨h, nofun⟩
  | ok a =>
    refine ⟨Undisturbed.append_iff.2 ⟨h, .of_reply fun hrefuses => ?_⟩, fun _ => ?_⟩
    · obtain ⟨-, rfl, rfl⟩ := Run.mk.inj (hanswer a rfl hrefuses)
      rfl
    · rw [Run.andThen_ok, resting_append]
      rfl

end Paced

/-- What happens around a body is told as little as what happens in it. -/
theorem Undisturbed.holding {kind : Guard.Kind} {mode : Mode} {body : Guard → Step α}
    (hbody : ∀ g w₁ first, Undisturbed first (body g w₁).trace) (w : World) :
    Undisturbed first (holding p kind mode thread body w).trace := by
  have hopens : Obeys Untold (Guard.enter p .scope kind mode thread) :=
    Untold.of_bystander (Bystander.enter _ _ _ _)
  have hopening := hopens w
  generalize henter : Guard.enter p .scope kind mode thread w = r at hopening
  obtain ⟨outcome, w₁, opening⟩ := r
  cases outcome with
  | error cause =>
    rw [WriteXorExecute.holding, bracket_of_refused henter]
    exact .of_untold hopening
  | ok g =>
    have hcloses : Obeys Untold (Guard.leave p .scope (body g w₁).failed g) :=
      Untold.of_bystander (Bystander.leave _ _ _)
    rw [WriteXorExecute.holding, bracket_of_acquired henter]
    exact append_iff.2 ⟨append_iff.2 ⟨.of_untold hopening, hbody g w₁ _⟩, .of_untold (hcloses _)⟩

/-- A body that begins with a reply. -/
theorem Undisturbed.replied {body : Step Unit} (hbody : ∀ w, Paced w (body w))
    (hreply : reply.refuses = false) (label : Label) (a : α) (w : World) :
    Undisturbed first ((do
      complete label reply
      body
      return a : Step α) w).trace := by
  simp only [bind_apply, complete, mark_apply, Run.andThen_ok, Run.andThen_return]
  refine append_iff.2 ⟨.of_reply fun hrefuses => ?_, (hbody w).undisturbed⟩
  rw [hreply] at hrefuses
  cases hrefuses

/-- What is returned from a scope is what the body returns. -/
theorem Procedure.Returns.holding {good : α → Prop} {kind : Guard.Kind} {mode : Mode}
    {body : Guard → Step α} (hbody : ∀ g, Returns good (body g)) :
    Returns good (holding p kind mode thread body) := by
  refine .bind fun g => ?_
  have hattempt : Returns (fun outcome => ∀ a, outcome = .ok a → good a) (attempt (body g)) := by
    intro w outcome houtcome a ha
    obtain rfl : (body g w).outcome = outcome := by simpa using houtcome
    exact hbody g w a ha
  refine .bind_of_returns hattempt fun outcome houtcome => ?_
  cases outcome with
  | ok a => exact .bind fun _ => .pure (houtcome a rfl)
  | error cause => exact .bind fun _ => fun _ _ => nofun

theorem runScope_not_refused (running : List String) (s : Scope) (body : Program) :
    Returns (fun reply => reply.refuses = false) (runScope p running s body) := by
  refine .holding fun g => .bind fun _ => .bind fun _ => .pure ?_
  unfold Scope.exitReply
  split
  · exact Reply.refuses_ofGuard g
  · rfl

/-- The code that runs replies first. -/
theorem Undisturbed.runCode {running : List String} {body : Program}
    (hbody : ∀ w, Paced w (run p (buffer :: running) body w)) (w : World) :
    Undisturbed first (runCode p running buffer thread body w).trace := by
  rw [WriteXorExecute.runCode]
  cases hadmitted : (w.buffer buffer).admitRun with
  | error e =>
    rw [Code.execute_of_refused hadmitted]
    exact Throughout.nil
  | ok _ =>
    rw [Code.execute_of_admitted hadmitted, Run.andThen_return]
    exact .holding (fun _ w₁ _ => .replied hbody rfl _ _ w₁) w

def Reply.ofTrial : Except Panic Unit → Reply
  | .ok _ => .nothing
  | .error cause => .panicked cause

theorem run_attempt (running : List String) (body rest : Program) :
    run p running (.attempt body rest) = (do
      let outcome ← attempt (run p running body)
      complete .tried (.ofTrial outcome)
      run p running rest : Step Unit) := by
  simp only [run]
  congr 1
  funext outcome
  cases outcome <;> rfl

/-- **Whole programs.** By induction on the program: each of its items is followed by a reply, so
that the next one starts with nothing having happened since. -/
theorem run_paced (program : Program) (running : List String) (w : World) :
    Paced w (run p running program w) := by
  induction program generalizing running w with
  | done => exact .pure () w
  | step op rest ih =>
    rw [run_step]
    refine .andThen (.completed (.of_untold (Untold.perform running op w)) ?_ _) fun _ => ih running
    exact fun reply hreply => perform_of_refused hreply
  | scope s body rest ihb ihr =>
    rw [run_scope, bind_apply, ← Run.andThen_assoc]
    refine .andThen (.completed (.holding (fun g w₁ _ => ?_) w) ?_ _) fun _ => ihr running
    · refine .replied (ihb running) ?_ _ _ w₁
      unfold Scope.entryReply
      split
      · exact Reply.refuses_ofGuard g
      · rfl
    · intro reply hreply hrefuses
      rw [runScope_not_refused running s body w reply hreply] at hrefuses
      cases hrefuses
  | attempt body rest ihb ihr =>
    have htried : Undisturbed (some w.snapshot) (attempt (run p running body) w).trace :=
      (ihb running w).undisturbed
    rw [run_attempt, bind_apply, ← Run.andThen_assoc]
    refine .andThen (.completed htried ?_ _) fun _ => ihr running
    intro outcome _ hrefuses
    cases outcome <;> cases hrefuses
  | execute buffer thread body rest ihb ihr =>
    rw [run_execute, bind_apply, ← Run.andThen_assoc]
    refine .andThen (.completed (.runCode (ihb (buffer :: running)) w) ?_ _) fun _ => ihr running
    intro result hresult hrefuses
    cases result with
    | ok value => cases hrefuses
    | error e => exact Code.execute_of_error hresult _

/-! ## All of it -/

/-- Whatever the objects of the world would do, operations on code fail silently in it. -/
structure FailsSilently (p : Platform) (w : World) : Prop where
  emit : ∀ buffer thread data, Atomic (Code.emit p buffer thread data) w
  patch : ∀ buffer thread offset data, Atomic (Code.patch p buffer thread offset data) w
  execute : ∀ {α : Type} buffer thread (body : ByteArray → Step α),
    Atomic (Code.execute p buffer thread body) w
  /-- What is refused is refused whatever was to run. -/
  unread : ∀ {α β : Type} buffer thread (body : ByteArray → Step α) e,
    (Code.execute p buffer thread body w).outcome = .ok (.error e) →
      ∀ body' : ByteArray → Step β,
        Code.execute p buffer thread body' w = ⟨.ok (.error e), w, []⟩
  /-- If it makes a difference what was to run, then it has been run, and there is no error. -/
  read : ∀ {α : Type} buffer thread (body body' : ByteArray → Step α),
    Code.execute p buffer thread body w ≠ Code.execute p buffer thread body' w →
      ∀ e, (Code.execute p buffer thread body w).outcome ≠ .ok (.error e)
  code : ∀ running buffer, perform p running (.ask (.code buffer)) w
    = ⟨.ok (.code (w.buffer buffer).code), w, []⟩

theorem FailsSilently.of_world (p : Platform) (w : World) : FailsSilently p w where
  emit _ _ _ := Code.emit_atomic ..
  patch _ _ _ _ := Code.patch_atomic ..
  execute _ _ _ := Code.execute_atomic ..
  unread _ _ _ _ h := Code.execute_of_error h
  read _ _ body body' hne _ h :=
    hne ((Code.execute_of_error h body).trans (Code.execute_of_error h body').symm)
  code _ _ := rfl

/-- **Refused operations are silent.** In every world, operations on code that give an error have
done nothing, and those that have done anything give none. So in every run of a program an error is
told directly after the latest reply, and all that can be seen is as it was then. -/
theorem refusals_are_silent (p : Platform) (w : World) :
    FailsSilently p w ∧ ∀ running program,
      Undisturbed (some w.snapshot) (run p running program w).trace :=
  ⟨.of_world p w, fun running program => (run_paced program running w).undisturbed⟩

/-- A thread that has not been initialised, with a backend that panics, a toggle that panics, and a
buffer that is full. -/
def hostile : World where
  threads := Table.add ∅ "t"
    { backend := .scripted [⟨0, .fail⟩], config := { checkAtSync := true } }
  toggles := Table.add ∅ "d" { mode := .write, failures := [0] }
  buffers := Table.add ∅ "b" { bytes := ⟨#[0xC3]⟩, maxSize := 1 }

/-- None of them is asked. What is accepted does ask them, and gives no error. -/
theorem refusals_are_silent_hostile :
    let p : Platform := { target := .macos }
    (Code.emit p "b" (some "t") ⟨#[0x90]⟩ hostile).outcome = .ok (.error .exceedsMaxSize) ∧
      (Code.emit p "b" (some "t") ⟨#[0x90]⟩ hostile).state = hostile ∧
      (Code.patch p "b" (some "d") 0 ⟨#[0x90]⟩ hostile).trace.length = 1 ∧
      ∀ e, (Code.patch p "b" (some "d") 0 ⟨#[0x90]⟩ hostile).outcome ≠ .ok (.error e) := by
  intro p
  have hsilent := (refusals_are_silent p hostile).1
  have hadmission : (hostile.buffer "b").admitEmit (⟨#[0x90]⟩ : ByteArray).size
      = .error .exceedsMaxSize := by
    decide +kernel
  have hrefused : (Code.emit p "b" (some "t") ⟨#[0x90]⟩ hostile).outcome
      = .ok (.error .exceedsMaxSize) := by
    rw [Code.emit_of_refused hadmission]
  have hlength : (Code.patch p "b" (some "d") 0 ⟨#[0x90]⟩ hostile).trace.length = 1 := by
    decide +kernel
  obtain ⟨happening, htrace⟩ := List.length_eq_one_iff.1 hlength
  have hmem : happening ∈ (Code.patch p "b" (some "d") 0 ⟨#[0x90]⟩ hostile).trace := by
    rw [htrace]
    exact List.mem_singleton_self happening
  exact ⟨hrefused, ((hsilent.emit "b" (some "t") ⟨#[0x90]⟩).refused _ hrefused).1, hlength,
    (hsilent.patch "b" (some "d") 0 ⟨#[0x90]⟩).acted happening hmem⟩

end WriteXorExecute
