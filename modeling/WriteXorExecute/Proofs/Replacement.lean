import WriteXorExecute.Proofs.Position
/-!
# One program in place of another

At a position of a program, what stands there can be replaced by something else that ends in the
same way and in the same state. Then all that comes after is the same as well, and what happens
differs as much as it does at the position. How much that is, is a relation of traces that what
comes later does not disturb.

- **At one position** (`Leads.agrees`), by induction on the way to it.
- **At every position with the same world** (`Interchangeable.of_agrees`).
-/
namespace WriteXorExecute

open Procedure

variable {σ ε φ α β : Type} {S : List ε → List ε → Prop}

/-- Two runs that end in the same way and in the same state, and whose traces are related. -/
structure Run.Agrees (S : List ε → List ε → Prop) (r r' : Run σ ε φ α) : Prop where
  outcome : r.outcome = r'.outcome
  state : r.state = r'.state
  trace : S r.trace r'.trace

/-- What comes later, and is the same, does not disturb the relation of two traces. -/
def Extends (S : List ε → List ε → Prop) : Prop :=
  ∀ t t' later, S t t' → S (t ++ later) (t' ++ later)

/-- Two traces that begin in the same way and are related from there on. -/
def After (before : List ε) (S : List ε → List ε → Prop) (t t' : List ε) : Prop :=
  ∃ u u', t = before ++ u ∧ t' = before ++ u' ∧ S u u'

theorem Extends.after (h : Extends S) (before : List ε) : Extends (After before S) := by
  rintro _ _ later ⟨u, u', rfl, rfl, hu⟩
  exact ⟨u ++ later, u' ++ later, List.append_assoc .., List.append_assoc .., h u u' later hu⟩

theorem After.append {t₁ t₂ t t' : List ε} (h : After t₁ (After t₂ S) t t') :
    After (t₁ ++ t₂) S t t' := by
  obtain ⟨_, _, rfl, rfl, u, u', rfl, rfl, hu⟩ := h
  exact ⟨u, u', (List.append_assoc ..).symm, (List.append_assoc ..).symm, hu⟩

namespace Run.Agrees

variable {r r' : Run σ ε φ α}

theorem imp {S' : List ε → List ε → Prop} (h : Agrees S r r') (himp : ∀ {t t'}, S t t' → S' t t') :
    Agrees S' r r' :=
  ⟨h.outcome, h.state, himp h.trace⟩

/-- What comes after is the same. -/
theorem andThen (hS : Extends S) (h : Agrees S r r') (next : α → Procedure σ ε φ β) :
    Agrees S (r.andThen next) (r'.andThen next) := by
  obtain ⟨outcome, s, trace⟩ := r
  obtain ⟨outcome', s', trace'⟩ := r'
  obtain ⟨rfl, rfl, htrace⟩ := h
  cases outcome with
  | error cause => exact ⟨rfl, rfl, htrace⟩
  | ok a => exact ⟨rfl, rfl, hS _ _ _ htrace⟩

theorem attempt {x x' : Procedure σ ε φ α} {s : σ} (h : Agrees S (x s) (x' s)) :
    Agrees S (Procedure.attempt x s) (Procedure.attempt x' s) :=
  ⟨congrArg Except.ok h.outcome, h.state, h.trace⟩

/-- What comes before is the same. -/
theorem after {x : Procedure σ ε φ β} {next next' : β → Procedure σ ε φ α} {b : β} {s s' : σ}
    {trace : List ε} (hx : x s = ⟨.ok b, s', trace⟩) (h : Agrees S (next b s') (next' b s')) :
    Agrees (After trace S) ((x >>= next) s) ((x >>= next') s) := by
  simp only [bind_apply, hx, Run.andThen_ok]
  exact ⟨h.outcome, h.state, _, _, rfl, rfl, h.trace⟩

end Run.Agrees

variable {p : Platform} {w w₁ : World} {S : List Happening → List Happening → Prop}

/-- A mode is held around both. -/
theorem Run.Agrees.holding {kind : Guard.Kind} {mode : Mode} {thread : Option String} {g : Guard}
    {opening : List Happening} {body body' : Guard → Step α} (hS : Extends S)
    (henter : Guard.enter p .scope kind mode thread w = ⟨.ok g, w₁, opening⟩)
    (h : Agrees S (body g w₁) (body' g w₁)) :
    Agrees (After opening S) (WriteXorExecute.holding p kind mode thread body w)
      (WriteXorExecute.holding p kind mode thread body' w) := by
  rw [holding_of_entered henter, holding_of_entered henter]
  obtain ⟨houtcome, hstate, htrace⟩ := h
  have hfailed : (body g w₁).failed = (body' g w₁).failed := by simp only [Run.failed, houtcome]
  dsimp only
  rw [houtcome, hstate, hfailed]
  simp only [List.append_assoc]
  exact ⟨rfl, rfl, _, _, rfl, rfl, hS _ _ _ htrace⟩

/-- A reply is given first, and another one returned. -/
theorem Run.Agrees.replied {kind : Guard.Kind} {mode : Mode} {thread : Option String} {g : Guard}
    {opening : List Happening} {running : List String} {inner inner' : Program} (hS : Extends S)
    (henter : Guard.enter p .scope kind mode thread w = ⟨.ok g, w₁, opening⟩)
    (h : Agrees S (run p running inner w₁) (run p running inner' w₁)) (label : Label)
    (reply : Guard → Reply) (result : Guard → α) :
    Agrees (After opening (After [.mark (.completed label (reply g)) w₁.snapshot] S))
      (WriteXorExecute.holding p kind mode thread (fun g => do
        complete label (reply g)
        run p running inner
        return result g) w)
      (WriteXorExecute.holding p kind mode thread (fun g => do
        complete label (reply g)
        run p running inner'
        return result g) w) :=
  .holding (hS.after _) henter (.after rfl (h.andThen hS _))

/-- **Replacement.** -/
theorem Leads.agrees {way : List Frame} {a b : Place} {before : List Happening}
    {inner inner' : Program} (hS : Extends S) (h : Leads p way a before b)
    (hsame : Run.Agrees S (run p b.running inner b.world) (run p b.running inner' b.world)) :
    Run.Agrees (After before S) (run p a.running (fill way inner) a.world)
      (run p a.running (fill way inner') a.world) := by
  induction h with
  | here a => exact hsame.imp fun hu => ⟨_, _, rfl, rfl, hu⟩
  | past hi _ ih =>
    rw [fill_cons, fill_cons, Frame.fill, Frame.fill, Item.run_followedBy, Item.run_followedBy]
    exact (Run.Agrees.after hi (ih hsame)).imp After.append
  | @inScope s rest way running w w₁ b g opening later hg _ ih =>
    rw [fill_cons, fill_cons, Frame.fill, Frame.fill, run_scope, run_scope]
    have hbody := Run.Agrees.replied (hS.after later) hg (ih hsame) .entered s.entryReply
      s.exitReply
    exact (hbody.andThen (((hS.after _).after _).after _) _).imp fun hu =>
      List.append_cons .. ▸ hu.append.append
  | inAttempt _ ih =>
    rw [fill_cons, fill_cons, Frame.fill, Frame.fill, run, run, bind_apply, bind_apply]
    exact (ih hsame).attempt.andThen (hS.after _) _
  | @inCode buffer thread rest way running w w₁ b g opening later hadmitted hg _ ih =>
    rw [fill_cons, fill_cons, Frame.fill, Frame.fill, run_execute, run_execute, bind_apply,
      bind_apply, runCode, runCode, Code.execute_of_admitted hadmitted,
      Code.execute_of_admitted hadmitted]
    have hbody := Run.Agrees.replied (hS.after later) hg (ih hsame) .started
      (fun _ => .bytes (w.buffer buffer).bytes) fun _ => Code.value (w.buffer buffer).bytes
    have hextends := ((hS.after later).after [.mark (.completed .started
      (.bytes (w.buffer buffer).bytes)) w₁.snapshot]).after opening
    exact ((hbody.andThen hextends _).andThen hextends _).imp fun hu =>
      List.append_cons .. ▸ hu.append.append

/-- The same of a whole program, up to the end of the last guard. -/
theorem Run.Agrees.runToEnd {program program' : Program} (hS : Extends S)
    (h : Agrees S (run p [] program w) (run p [] program' w)) :
    Agrees S (runToEnd p program w) (runToEnd p program' w) := by
  rw [WriteXorExecute.runToEnd, WriteXorExecute.runToEnd, bind_apply, bind_apply]
  exact h.attempt.andThen hS _

/-- The one program can be put in place of the other one at this place, wherever the place is: what
happens before is the same, what happens from there on is related, and a run ends in the same way
and in the same state; so it is when the program around has been run to its end. -/
structure Interchangeable (p : Platform) (S : List Happening → List Happening → Prop)
    (place : Place) (inner inner' : Program) : Prop where
  run : ∀ {way start before}, Leads p way start before place →
    Run.Agrees (After before S) (run p start.running (fill way inner) start.world)
      (WriteXorExecute.run p start.running (fill way inner') start.world)
  runToEnd : ∀ {way start before}, Leads p way start before place → start.running = [] →
    Run.Agrees (After before S) (runToEnd p (fill way inner) start.world)
      (WriteXorExecute.runToEnd p (fill way inner') start.world)

theorem Interchangeable.of_agrees {place : Place} {inner inner' : Program} (hS : Extends S)
    (h : Run.Agrees S (WriteXorExecute.run p place.running inner place.world)
      (WriteXorExecute.run p place.running inner' place.world)) :
    Interchangeable p S place inner inner' where
  run hlead := hlead.agrees hS h
  runToEnd hlead hrunning := by
    have hagrees := hlead.agrees hS h
    rw [hrunning] at hagrees
    exact hagrees.runToEnd (hS.after _)

end WriteXorExecute
