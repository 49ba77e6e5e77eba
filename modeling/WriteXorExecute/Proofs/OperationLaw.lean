import WriteXorExecute.Proofs.ProgramLaw
import WriteXorExecute.Proofs.Switching
/-!
# Laws of operations

An operation is made of a few kinds of steps: something is done to one thread or toggle, a barrier
is issued, a guard is put into a slot or taken out of it, code is changed, a mark is set. So a law
that each kind of step obeys is obeyed by the operations (`ElementaryLaw.perform`). A law may be one
of guards that issue barriers of certain kinds only, and then it says nothing of other guards.

What makes an object, or changes code, is left to each law: laws differ in it.
-/
namespace WriteXorExecute

open Procedure

variable {α : Type} {p : Platform} {bars : Barrier → Prop}

/-- Whether the barriers that the guard issues are of the kinds `bars`. -/
def Guard.Issues (bars : Barrier → Prop) : Guard → Prop
  | barrier b _ => bars b
  | delegated .. | noop => True

/-- Whether the mark is one that surrounds operations, and is of guards that issue barriers of the
kinds `bars` only. -/
def Mark.Issues (bars : Barrier → Prop) : Mark → Prop
  | opened _ g | closed _ g | forgotten _ g => g.Issues bars
  | changed .. => True
  | completed label _ => label.around

/-- Whether the guards that the operation keeps issue barriers of the kinds `bars` only. -/
def Operation.Issues (bars : Barrier → Prop) : Operation → Prop
  | hold _ kind _ _ => kind = .barrier → bars .counted
  | _ => True

theorem Guard.issues_of_forall (h : ∀ b, bars b) (g : Guard) : g.Issues bars := by
  cases g with
  | barrier b mode => exact h b
  | delegated | noop => exact True.intro

theorem Operation.issues_of_forall (h : ∀ b, bars b) (op : Operation) : op.Issues bars := by
  cases op with
  | hold => exact fun _ => h .counted
  | _ => exact True.intro

def Operation.makes : Operation → Bool
  | newThread .. | newToggle .. | newBuffer .. => true
  | _ => false

def Operation.changes? : Operation → Option String
  | emit buffer .. | patch buffer .. | free buffer => some buffer
  | _ => none

/-- A law that the steps obey of which operations are made. The processor's own barrier can be
issued by every program. -/
structure ElementaryLaw (p : Platform) (bars : Barrier → Prop)
    (R : World → List Happening → World → Prop) : Prop where
  law : Law R
  processor : bars .processor
  issue : ∀ b, bars b → Obeys R (issue b)
  mark : ∀ m, m.Issues bars → Obeys R (mark m)
  onThread : ∀ {α : Type} name (x : Thread.Step α), Obeys Thread.Onward x →
    Obeys R (onThread name x)
  onToggle : ∀ name failing mode, Obeys R (onToggle name (Toggle.enable failing mode))
  apart : ∀ {α : Type} (x : Step α), Obeys R (SelfCheck.apart x)
  keep : ∀ slot g, g.Issues bars → Obeys R (modify fun w => w.keep slot g : Step Unit)
  discard : ∀ slot, Obeys R (modify fun w => w.discard slot : Step Unit)
  /-- The law says nothing of a world whose slots hold other guards. -/
  others : ∀ {w e trace w'}, e ∈ w.slots → ¬e.2.Issues bars → R w trace w'

namespace ElementaryLaw

variable {R : World → List Happening → World → Prop} (h : ElementaryLaw p bars R)

include h

/-! ## Guards -/

theorem switch (failing : Bool) (name : String) (mode : Mode) :
    Obeys R (switch p failing name mode) := by
  have honThread : Obeys R (WriteXorExecute.onThread name (Thread.enable p failing mode)) :=
    h.onThread name _ (Thread.enable_onward p failing mode)
  refine .bind h.law honThread fun answer => ?_
  cases answer with
  | some previous => exact .pure h.law previous
  | none => exact .bind h.law (h.onToggle name failing mode) fun _ => .pure h.law _

theorem acquireBarrier {b : Barrier} (hb : bars b) (mode : Mode) :
    Obeys R (Guard.acquireBarrier b mode) :=
  Guard.acquireBarrier_obeys h.law (h.issue b hb) mode

theorem bars_of_kind {kind : Guard.Kind} (hkind : kind = .barrier → bars .counted) {b : Barrier}
    (hb : b = .counted → kind = .barrier) : bars b := by
  cases b with
  | counted => exact hkind (hb rfl)
  | processor => exact h.processor

theorem acquire {kind : Guard.Kind} (hkind : kind = .barrier → bars .counted) (mode : Mode)
    (thread : Option String) : Obeys R (Guard.acquire p kind mode thread) :=
  Guard.acquire_obeys h.law (fun b hb => h.issue b (h.bars_of_kind hkind hb)) fun _ name _ =>
    h.switch false name mode

omit h in
theorem acquireBarrier_issues {b : Barrier} (hb : bars b) (mode : Mode) :
    Returns (Guard.Issues bars) (Guard.acquireBarrier b mode) := by
  unfold Guard.acquireBarrier
  split
  · exact .bind fun _ => .pure hb
  · exact .pure hb

/-- The guard that is made issues barriers of the kinds `bars` only. -/
theorem acquire_issues {kind : Guard.Kind} (hkind : kind = .barrier → bars .counted) (mode : Mode)
    (thread : Option String) : Returns (Guard.Issues bars) (Guard.acquire p kind mode thread) := by
  rcases Guard.acquire_cases p kind mode with ⟨-, hmake⟩ | ⟨-, b, hb, hmake⟩ | ⟨-, hmake⟩ <;>
    rw [hmake]
  · cases thread with
    | none => exact .pure True.intro
    | some name => exact .bind fun _ => .pure True.intro
  · exact acquireBarrier_issues (h.bars_of_kind hkind hb) mode
  · exact .pure True.intro

theorem release {g : Guard} (hg : g.Issues bars) (failing : Bool) :
    Obeys R (Guard.release p failing g) := by
  refine Guard.release_obeys h.law (fun b mode he => h.issue b ?_) fun name mode _ =>
    h.switch failing name mode
  subst he
  exact hg

theorem enter_issues {kind : Guard.Kind} (hkind : kind = .barrier → bars .counted)
    (holder : Holder) (mode : Mode) (thread : Option String) :
    Returns (Guard.Issues bars) (Guard.enter p holder kind mode thread) :=
  .bind_of_returns (h.acquire_issues hkind mode thread) fun _ hg => .bind fun _ => .pure hg

theorem enter {kind : Guard.Kind} (hkind : kind = .barrier → bars .counted) (holder : Holder)
    (mode : Mode) (thread : Option String) :
    Obeys R (Guard.enter p holder kind mode thread) :=
  .bind_of_returns h.law (h.acquire hkind mode thread) (h.acquire_issues hkind mode thread)
    fun g hg => .bind h.law (h.mark (.opened holder g) hg) fun _ => .pure h.law g

theorem leave {g : Guard} (hg : g.Issues bars) (holder : Holder) (failing : Bool) :
    Obeys R (Guard.leave p holder failing g) :=
  .bind h.law (.attempt (h.release hg failing)) fun ending =>
    .bind h.law (h.mark (.closed holder g) hg) fun _ => .ofOutcome h.law ending

/-- Guards of the other kinds are held as their bodies are run. -/
theorem holding_of_kind {kind : Guard.Kind} (hkind : kind = .barrier → bars .counted) (mode : Mode)
    (thread : Option String) {body : Guard → Step α} (hbody : ∀ g, Obeys R (body g)) :
    Obeys R (WriteXorExecute.holding p kind mode thread body) :=
  .bracket h.law (h.enter hkind .scope mode thread) (h.enter_issues hkind .scope mode thread)
    (fun failing _ hg => h.leave hg .scope failing) hbody

theorem holdingLaw (hcounted : bars .counted) : HoldingLaw p R where
  law := h.law
  holding _ mode thread _ hbody := h.holding_of_kind (fun _ => hcounted) mode thread hbody

/-! ## Operations -/

theorem store {buffer : String} (hbuffer : ∀ change, Obeys R (onBuffer buffer change))
    (offset : UInt64) (data : ByteArray) : Obeys R (Code.store buffer offset data) :=
  .bind h.law (hbuffer _) fun _ => h.mark (.changed buffer _) True.intro

theorem replace {buffer : String} (hbuffer : ∀ change, Obeys R (onBuffer buffer change))
    (offset : UInt64) (data : ByteArray) : Obeys R (Code.replace buffer offset data) :=
  .bind h.law (hbuffer _) fun _ => h.mark (.changed buffer _) True.intro

/-- A guard is taken out of its slot, and something is done with it. -/
theorem taken {slot : String} {reply : Reply} {next : Guard → Step Unit}
    (hnext : ∀ g, g.Issues bars → Obeys R (next g)) : Obeys R (do
      match (← get).guard? slot with
      | none => return .gone
      | some g =>
        modify fun w => w.discard slot
        next g
        return reply : Step Reply) := by
  intro w
  simp only [bind_apply, get_apply, Run.andThen_ok, List.nil_append]
  cases hslot : w.guard? slot with
  | none => exact h.law.refl w
  | some g =>
    by_cases hg : g.Issues bars
    · exact Obeys.bind h.law (h.discard slot)
        (fun _ => .bind h.law (hnext g hg) fun _ => .pure h.law reply) w
    · exact h.others (World.mem_of_guard hslot) hg

theorem fence (mode : Mode) : Obeys R (do
    WriteXorExecute.issue .processor
    let g ← Guard.acquireBarrier .processor mode
    Guard.release p false g
    return .mode mode : Step Reply) :=
  .bind h.law (h.issue .processor h.processor) fun _ =>
    .bind_of_returns h.law (h.acquireBarrier h.processor mode)
      (acquireBarrier_issues h.processor mode) fun _ hg =>
        .bind h.law (h.release hg false) fun _ => .pure h.law _

/-- The operations obey the law, those apart that make objects. -/
theorem perform (hholding : HoldingLaw p R) (running : List String) {op : Operation}
    (hissues : op.Issues bars) (hmakes : op.makes = false)
    (hbuffer : ∀ buffer, op.changes? = some buffer → ∀ change, Obeys R (onBuffer buffer change)) :
    Obeys R (perform p running op) := by
  cases op with
  | newThread | newToggle | newBuffer => simp [Operation.makes] at hmakes
  | ask question => exact .bind h.law (.get h.law) fun w => .pure h.law _
  | init thread =>
    exact .bind h.law (h.onThread thread _ (Thread.initVia_onward Thread.send_onward))
      fun _ => .pure h.law _
  | enable name mode => exact .bind h.law (h.switch false name mode) fun _ => .pure h.law _
  | assertMode thread mode =>
    exact .bind h.law (h.onThread thread _ (Thread.assertMode_obeys Thread.Onward.law mode))
      fun _ => .pure h.law _
  | hold slot kind mode thread =>
    exact .bind_of_returns h.law (h.enter hissues _ mode thread)
      (h.enter_issues hissues _ mode thread) fun g hg =>
        .bind h.law (h.keep slot g hg) fun _ => .pure h.law _
  | drop slot => exact h.taken fun g hg => h.leave hg (.slot slot) false
  | forget slot => exact h.taken fun g hg => h.mark (.forgotten slot g) hg
  | emit buffer thread data =>
    simp only [WriteXorExecute.perform]
    split
    · exact .pure h.law _
    · exact .bind h.law (hholding.emit (fun offset => h.store (hbuffer buffer rfl) offset data)
        thread) fun _ => .pure h.law _
  | patch buffer thread offset data =>
    simp only [WriteXorExecute.perform]
    split
    · exact .pure h.law _
    · exact .bind h.law (hholding.patch (h.replace (hbuffer buffer rfl) offset data) thread)
        fun _ => .pure h.law _
  | free buffer =>
    simp only [WriteXorExecute.perform]
    split
    · exact .pure h.law _
    · exact .bind h.law (hbuffer buffer rfl _) fun _ => .pure h.law _
  | fence mode => exact h.fence mode
  | selfCheck check =>
    have hcheck (check : SelfCheck) : Obeys R (check.run p) :=
      SelfCheck.run_obeys h.law h.apart check
    cases check with
    | none => exact .bind h.law (.mapM h.law hcheck _) fun _ => .pure h.law _
    | some check => exact .bind h.law (hcheck check) fun _ => .pure h.law _
  | panic message => exact .fail h.law _

end ElementaryLaw

end WriteXorExecute
