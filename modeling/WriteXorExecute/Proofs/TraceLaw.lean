import WriteXorExecute.Proofs.Brackets
import WriteXorExecute.Proofs.CodeChanges
/-!
# Laws of what is recorded

Some laws say nothing of states, only of what is recorded. Such a law is obeyed by guards and by
operations if it allows what threads and toggles record, barriers, and marks, one after another.
What is recorded of changes of code is left to each law, and so are the self-checks.

- **From what is recorded to programs** (`TraceLaw.stepwise`).
- **Inside the self-checks** (`TraceLaw.trial_plain`, `TraceLaw.trial`): on the objects of their
  own, too, they do nothing else.
-/
namespace WriteXorExecute

open Procedure

variable {α : Type} {p : Platform} {T : List Happening → Prop} {good : Operation → Prop}

/-- What is recorded is of the kind `T`. -/
def Told (T : List Happening → Prop) (_ : World) (trace : List Happening) (_ : World) : Prop :=
  T trace

def Operation.writes : Operation → Bool
  | emit .. | patch .. => true
  | _ => false

def Mark.ofChange : Mark → Bool
  | changed .. => true
  | _ => false

/-- Whether the check is of code, and works on buffers of its own. -/
def SelfCheck.ofCode : SelfCheck → Bool
  | code | shared | publish => true
  | restore | nesting | untracked => false

/-- A kind of traces that a trace is of if its parts are, and that what threads and toggles record
is of, barriers, and marks other than of changes. -/
structure TraceLaw (p : Platform) (T : List Happening → Prop) : Prop where
  nil : T []
  append : ∀ {t₁ t₂}, T t₁ → T t₂ → T (t₁ ++ t₂)
  mark : ∀ m now, m.ofChange = false → T [.mark m now]
  barrier : ∀ b, T [.barrier b]
  toggle : ∀ name event, T [.toggle name event]
  init : ∀ name t, T ((Thread.init p false t).trace.map (.thread name))
  enable : ∀ name failing mode t, T ((Thread.enable p failing mode t).trace.map (.thread name))

namespace TraceLaw

variable (h : TraceLaw p T)

include h

theorem law : Law (Told T) :=
  ⟨fun _ => h.nil, h.append⟩

theorem modify (change : World → World) : Obeys (Told T) (modify change : Step Unit) :=
  .modify fun _ => h.nil

theorem obeys_mark {m : Mark} (hm : m.ofChange = false) :
    Obeys (Told T) (WriteXorExecute.mark m) :=
  fun w => h.mark m w.snapshot hm

theorem issue (b : Barrier) : Obeys (Told T) (issue b) :=
  .note fun _ => h.barrier b

/-! ## Guards -/

theorem onThread_init (name : String) : Obeys (Told T) (onThread name (Thread.init p false)) :=
  .atThread h.law fun _ t _ => h.init name t

theorem switch (failing : Bool) (name : String) (mode : Mode) :
    Obeys (Told T) (switch p failing name mode) := by
  refine .bind h.law (.atThread h.law fun _ t _ => h.enable name failing mode t) fun answer => ?_
  cases answer with
  | some previous => exact .pure h.law previous
  | none =>
    refine .bind h.law (.atToggle h.law fun w t _ => ?_) fun _ => .pure h.law _
    rw [Toggle.enable_apply]
    exact h.toggle name _

theorem enter (holder : Holder) (kind : Guard.Kind) (mode : Mode) (thread : Option String) :
    Obeys (Told T) (Guard.enter p holder kind mode thread) :=
  .bind h.law (Guard.acquire_obeys h.law (fun b _ => h.issue b) fun _ name _ =>
    h.switch false name mode) fun _ => .bind h.law (h.obeys_mark rfl) fun _ => .pure h.law _

theorem release (failing : Bool) (g : Guard) : Obeys (Told T) (Guard.release p failing g) :=
  Guard.release_obeys h.law (fun b _ _ => h.issue b) fun name mode _ => h.switch failing name mode

theorem leave (holder : Holder) (failing : Bool) (g : Guard) :
    Obeys (Told T) (Guard.leave p holder failing g) :=
  .bind h.law (.attempt (h.release failing g)) fun ending =>
    .bind h.law (h.obeys_mark rfl) fun _ => .ofOutcome h.law ending

theorem holdingLaw : HoldingLaw p (Told T) where
  law := h.law
  holding _ _ _ _ hbody :=
    .bracket h.law (h.enter _ _ _ _) (.trivial _) (fun failing g _ => h.leave _ failing g) hbody

theorem change (hchanged : ∀ buffer r now, T [.mark (.changed buffer r) now]) (buffer : String)
    (f : CodeBuffer → CodeBuffer) (r : Record) :
    Obeys (Told T) (WriteXorExecute.change buffer f r) :=
  .bind h.law (h.modify _) fun _ w => hchanged buffer r w.snapshot

/-! ## Programs -/

theorem perform (hchanged : ∀ op, good op → op.writes = true →
      ∀ buffer r now, T [.mark (.changed buffer r) now])
    (hcheck : ∀ choice, good (.selfCheck choice) → ∀ check, (∀ c, choice = some c → check = c) →
      Obeys (Told T) (check.run p))
    (running : List String) {op : Operation} (hop : good op) :
    Obeys (Told T) (perform p running op) := by
  have hlaw := h.law
  cases op with
  | ask question => exact .bind hlaw (.get hlaw) fun _ => .pure hlaw _
  | newThread | newToggle | newBuffer => exact .bind hlaw (h.modify _) fun _ => .pure hlaw _
  | init thread => exact .bind hlaw (h.onThread_init thread) fun _ => .pure hlaw _
  | assertMode thread mode =>
    refine .bind hlaw (.atThread hlaw fun _ t _ => ?_) fun _ => .pure hlaw _
    rw [(Thread.assertMode_same mode t).1]
    exact h.nil
  | enable name mode => exact .bind hlaw (h.switch false name mode) fun _ => .pure hlaw _
  | hold slot kind mode thread =>
    exact .bind hlaw (h.enter _ kind mode thread) fun _ =>
      .bind hlaw (h.modify _) fun _ => .pure hlaw _
  | drop slot =>
    refine .bind hlaw (.get hlaw) fun w => ?_
    split
    · exact .pure hlaw _
    · exact .bind hlaw (h.modify _) fun _ => .bind hlaw (h.leave _ _ _) fun _ => .pure hlaw _
  | forget slot =>
    refine .bind hlaw (.get hlaw) fun w => ?_
    split
    · exact .pure hlaw _
    · exact .bind hlaw (h.modify _) fun _ => .bind hlaw (h.obeys_mark rfl) fun _ => .pure hlaw _
  | emit buffer thread data =>
    simp only [WriteXorExecute.perform]
    split
    · exact .pure hlaw _
    · exact .bind hlaw (h.holdingLaw.emit (fun _ => h.change (hchanged _ hop rfl) _ _ _) thread)
        fun _ => .pure hlaw _
  | patch buffer thread offset data =>
    simp only [WriteXorExecute.perform]
    split
    · exact .pure hlaw _
    · exact .bind hlaw (h.holdingLaw.patch (h.change (hchanged _ hop rfl) _ _ _) thread)
        fun _ => .pure hlaw _
  | free buffer =>
    simp only [WriteXorExecute.perform]
    split
    · exact .pure hlaw _
    · exact .bind hlaw (h.modify _) fun _ => .pure hlaw _
  | fence mode =>
    exact .bind hlaw (h.issue .processor) fun _ =>
      .bind hlaw (Guard.acquireBarrier_obeys hlaw (h.issue _) mode) fun _ =>
        .bind hlaw (h.release false _) fun _ => .pure hlaw _
  | selfCheck choice =>
    cases choice with
    | none =>
      exact .bind hlaw (.mapM hlaw (fun check => hcheck none hop check fun _ hc => by cases hc) _)
        fun _ => .pure hlaw _
    | some check =>
      exact .bind hlaw (hcheck (some check) hop check fun _ hc => Option.some.inj hc)
        fun _ => .pure hlaw _
  | panic message => exact .fail hlaw _

/-- **From what is recorded to programs.** -/
theorem stepwise (hchanged : ∀ op, good op → op.writes = true →
      ∀ buffer r now, T [.mark (.changed buffer r) now])
    (hcheck : ∀ choice, good (.selfCheck choice) → ∀ check, (∀ c, choice = some c → check = c) →
      Obeys (Told T) (check.run p)) : StepwiseLaw p good (Told T) where
  toHoldingLaw := h.holdingLaw
  step running _ hop :=
    .bind h.law (h.perform hchanged hcheck running hop) fun _ => h.obeys_mark rfl
  complete _ _ _ := h.obeys_mark rfl

/-- To the last guard. -/
theorem runToEnd (hstepwise : StepwiseLaw p good (Told T)) {program : Program}
    (hprogram : program.All good) : Obeys (Told T) (runToEnd p program) :=
  hstepwise.runToEnd (fun _ => h.modify _) (fun holder g (_ : True) => h.leave holder false g)
    (fun _ hkept => absurd True.intro hkept) program hprogram

/-! ## Inside the self-checks -/

theorem attach (name : String) : Obeys (Told T) (SelfCheck.attach p name) :=
  .bind h.law (h.modify _) fun _ => .bind h.law (h.onThread_init name) fun _ => .pure h.law _

theorem status? (name : String) : Obeys (Told T) (SelfCheck.status? name) :=
  .bind h.law (.get h.law) fun _ => .pure h.law _

theorem check (name : String) (mode : Mode) : Obeys (Told T) (SelfCheck.check name mode) :=
  .bind h.law (h.status? name) fun _ => .pure h.law _

theorem nest (thread : String) (level more : Nat) :
    Obeys (Told T) (SelfCheck.nest p thread level more) := by
  induction more generalizing level with
  | zero => exact .pure h.law ()
  | succ more ih => exact h.holdingLaw.holding _ _ _ _ fun _ => ih (level + 1)

/-- A verdict that depends on the mode of a thread. -/
theorem verdict (name : String) (mode : Mode) {otherwise : Step SelfCheck.Verdict}
    (hotherwise : Obeys (Told T) otherwise) : Obeys (Told T) (do
      if ← SelfCheck.check name mode then
        return .pass
      otherwise : Step SelfCheck.Verdict) := by
  refine .bind h.law (h.check name mode) fun passed => ?_
  split
  · exact .pure h.law _
  · exact hotherwise

theorem restoreTrial (prior requested : Mode) :
    ∃ x, SelfCheck.restoreTrial p prior requested = SelfCheck.apart x ∧ Obeys (Told T) x := by
  refine ⟨_, rfl, .bind h.law (h.attach _) fun _ => .bind h.law (h.switch _ _ _) fun _ =>
    .bind h.law (h.holdingLaw.holding _ _ _ _ fun g => ?_) fun inside => ?_⟩
  · dsimp only
    split
    · exact .pure h.law _
    · refine .bind h.law (h.check _ _) fun entered => ?_
      split <;> exact .pure h.law _
  · cases inside with
    | fail reason => exact .pure h.law _
    | pass => exact h.verdict _ _ (.bind h.law (h.status? _) fun _ => .pure h.law _)

theorem nestingTrial :
    ∃ x, SelfCheck.nestingTrial p = SelfCheck.apart x ∧ Obeys (Told T) x := by
  refine ⟨_, rfl, .bind h.law (h.attach _) fun _ => SelfCheck.allOf_obeys h.law fun trial ht => ?_⟩
  obtain ⟨n, -, rfl⟩ := List.mem_map.1 ht
  exact .bind h.law (h.nest _ _ _) fun _ => h.verdict _ _ (.pure h.law _)

theorem untrackedTrial :
    ∃ x, SelfCheck.untrackedTrial p = SelfCheck.apart x ∧ Obeys (Told T) x := by
  refine ⟨_, rfl, .bind h.law (h.attach _) fun _ => .bind h.law (h.status? _) fun before =>
    .bind h.law (h.holdingLaw.holding _ _ _ _ fun _ => .pure h.law _) fun _ =>
    .bind h.law (h.holdingLaw.holding _ _ _ _ fun _ => .pure h.law _) fun _ =>
    .bind h.law (h.status? _) fun after => ?_⟩
  split <;> exact .pure h.law _

/-- So does every trial of a check without code. -/
theorem trial_plain {check : SelfCheck} (hcheck : check.ofCode = false)
    {trial : Step SelfCheck.Verdict} (ht : trial ∈ check.trials p) :
    ∃ x, trial = SelfCheck.apart x ∧ Obeys (Told T) x := by
  cases check with
  | code | shared | publish => cases hcheck
  | restore =>
    obtain ⟨prior, -, ht⟩ := List.mem_flatMap.1 ht
    obtain ⟨requested, -, rfl⟩ := List.mem_map.1 ht
    exact h.restoreTrial prior requested
  | nesting =>
    obtain rfl := List.mem_singleton.1 ht
    exact h.nestingTrial
  | untracked =>
    obtain rfl := List.mem_singleton.1 ht
    exact h.untrackedTrial

section

variable (hchanged : ∀ buffer r now, T [.mark (.changed buffer r) now])

include hchanged

theorem codeTrial :
    ∃ x, SelfCheck.codeTrial p = SelfCheck.apart x ∧ Obeys (Told T) x := by
  refine ⟨_, rfl, .bind h.law (h.attach _) fun _ => .bind h.law (h.modify _) fun _ =>
    .bind h.law (h.holdingLaw.emit (fun _ => h.change hchanged _ _ _) _) fun emitted => ?_⟩
  cases emitted with
  | error e => exact .pure h.law _
  | ok offset =>
    refine .bind h.law (h.holdingLaw.patch (h.change hchanged _ _ _) _) fun patched => ?_
    cases patched with
    | error e => exact .pure h.law _
    | ok _ =>
      refine .bind h.law (h.holdingLaw.execute _ _ fun _ => .pure h.law _) fun operand => ?_
      split
      · exact .pure h.law _
      · exact h.verdict _ _ (.pure h.law _)

theorem sharedTrial :
    ∃ x, SelfCheck.sharedTrial p = SelfCheck.apart x ∧ Obeys (Told T) x := by
  refine ⟨_, rfl, .bind h.law (h.modify _) fun _ => .bind h.law (h.attach _) fun _ =>
    .bind h.law (h.holdingLaw.emit (fun _ => h.change hchanged _ _ _) _) fun emitted => ?_⟩
  cases emitted with
  | error e => exact .pure h.law _
  | ok offset =>
    refine .bind h.law (h.attach _) fun _ =>
      .bind h.law (h.holdingLaw.execute _ _ fun _ => .pure h.law _) fun seen => ?_
    split <;> exact .pure h.law _

/-- **Every trial**, on the objects that it works on, records as the law has it. -/
theorem trial {check : SelfCheck} {trial : Step SelfCheck.Verdict} (ht : trial ∈ check.trials p) :
    (∃ x, trial = SelfCheck.apart x ∧ Obeys (Told T) x) ∨ ∃ verdict, trial = pure verdict := by
  cases check with
  | restore | nesting | untracked => exact .inl (h.trial_plain rfl ht)
  | code =>
    obtain rfl := List.mem_singleton.1 ht
    exact .inl (h.codeTrial hchanged)
  | shared =>
    obtain rfl := List.mem_singleton.1 ht
    exact .inl (h.sharedTrial hchanged)
  | publish =>
    obtain rfl := List.mem_singleton.1 ht
    exact .inr ⟨_, rfl⟩

end

end TraceLaw

end WriteXorExecute
