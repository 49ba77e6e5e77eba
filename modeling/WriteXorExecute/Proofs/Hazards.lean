import WriteXorExecute.Proofs.Position
import WriteXorExecute.Proofs.Throughout
/-!
# Barriers between writing and running

Code that has been written may be run only after a barrier. Scopes of barrier guards issue one on
entering `exec` and on leaving `write`. So wherever the innermost of these scopes is for `write`,
and for `exec` later on, a barrier lies between; it comes from the one place or from the other, as
the scopes are nested. The way back, from `exec` to `write`, costs no barrier.

What carries this is stronger and can be put together: a barrier lies between a moment at which
`write` is innermost and any later point at which it is not (`Fenced.covered`). A body does not
change the scopes around it (`Fenced.ended`), and so a guard is ended where its own scope is
innermost.
-/
namespace WriteXorExecute

open Procedure

variable {α : Type} {p : Platform} {mode : Mode} {scopes scopes' scopes'' : List Mode}
  {trace t₁ t₂ : List Happening} {w : World}

/-! ## Barrier scopes -/

/-- The scopes of guards with counted barriers that are open after something has happened, if those
of `scopes` were before: the modes that they are for, the innermost first. -/
def Happening.nestBarrier (scopes : List Mode) : Happening → List Mode
  | mark (.opened .scope (.barrier .counted mode)) _ => mode :: scopes
  | mark (.closed .scope (.barrier .counted _)) _ => scopes.tail
  | _ => scopes

/-- The scopes of such guards that are open after a trace, if those of `scopes` were before. -/
def barrierScopes (scopes : List Mode) (trace : List Happening) : List Mode :=
  trace.foldl Happening.nestBarrier scopes

@[simp] theorem barrierScopes_nil : barrierScopes scopes [] = scopes := rfl

@[simp] theorem barrierScopes_append (t₁ t₂ : List Happening) :
    barrierScopes scopes (t₁ ++ t₂) = barrierScopes (barrierScopes scopes t₁) t₂ :=
  List.foldl_append

/-- What the innermost of these scopes is for, after a trace from where `scopes` are open. -/
def innermost? (scopes : List Mode) (trace : List Happening) : Option Mode :=
  (barrierScopes scopes trace).head?

theorem innermost?_append (t₁ t₂ : List Happening) :
    innermost? scopes (t₁ ++ t₂) = innermost? (barrierScopes scopes t₁) t₂ := by
  rw [innermost?, barrierScopes_append, innermost?]

/-- A guard with counted barriers issues one just before it is there, or before it is gone. A trace
that does not stop in between stops at a moment of the program. -/
def Settled (trace : List Happening) : Prop :=
  trace.getLast? ≠ some (.barrier .counted)

theorem settled_nil : Settled [] := by simp [Settled]

theorem settled_append (h : Settled t₁) : Settled (t₁ ++ t₂) ↔ Settled t₂ := by
  cases t₂ with
  | nil => simpa [settled_nil] using h
  | cons x t₂ => simp [Settled, List.getLast?_append, List.getLast?_cons]

theorem settled_snoc {x : Happening} : Settled (t₁ ++ [x]) ↔ x ≠ .barrier .counted := by
  simp [Settled]

/-- Nothing that has to do with such guards happens here. -/
def Happening.Unbarred (x : Happening) : Prop :=
  x ≠ .barrier .counted ∧ ∀ scopes, x.nestBarrier scopes = scopes

/-- Whether a scope of such a guard is opened or closed here, one that issues a barrier on that
occasion. -/
def Happening.Fences : Happening → Prop
  | mark (.opened .scope g) _ => g = .barrier .counted .exec
  | mark (.closed .scope g) _ => g = .barrier .counted .write
  | _ => False

/-- What holds of a trace from where `scopes` are open to where `scopes'` are. -/
structure Fenced (scopes : List Mode) (trace : List Happening) (scopes' : List Mode) : Prop where
  ended : barrierScopes scopes trace = scopes'
  settled : Settled trace
  /-- Every counted barrier belongs to the opening or closing that comes next. -/
  marked : Throughout (fun before x => ¬Settled before → x.Fences) trace
  covered : ∀ before between after, trace = before ++ between ++ after → Settled before →
    innermost? scopes before = some .write → innermost? scopes (before ++ between) ≠ some .write →
    .barrier .counted ∈ between
  /-- What takes the innermost scope from `exec` to `write` issues no barrier. -/
  spared : Throughout (fun before x => innermost? scopes before = some .exec →
    innermost? scopes (before ++ [x]) = some .write → Settled before) trace

namespace Fenced

/-- What a barrier lies between in two traces in a row. -/
theorem covered_append (h₁ : Fenced scopes t₁ scopes') (h₂ : Fenced scopes' t₂ scopes'')
    {before between after : List Happening} (he : t₁ ++ t₂ = before ++ between ++ after)
    (hsettled : Settled before) (hwrite : innermost? scopes before = some .write)
    (hleft : innermost? scopes (before ++ between) ≠ some .write) :
    .barrier .counted ∈ between := by
  have hinner (t : List Happening) : innermost? scopes (t₁ ++ t) = innermost? scopes' t := by
    rw [innermost?_append, h₁.ended]
  rcases List.append_eq_append_iff.1 he with ⟨rest, hpoint, hrest⟩ | ⟨rest, hpoint, hrest⟩
  · -- The later point is in the second trace.
    rcases List.append_eq_append_iff.1 hpoint with ⟨mid, hfirst, rfl⟩ | ⟨mid, rfl, rfl⟩
    · -- The earlier one is in the first.
      by_cases hmid : innermost? scopes t₁ = some .write
      · have hlater := h₂.covered [] rest after (by simp [hrest]) settled_nil
        refine List.mem_append_right mid (hlater ?_ ?_)
        · rwa [← hinner, List.append_nil]
        · rwa [List.nil_append, ← hinner, ← hpoint]
      · exact List.mem_append_left rest
          (h₁.covered before mid [] (by simp [hfirst]) hsettled hwrite (by rwa [← hfirst]))
    · refine h₂.covered mid between after hrest ((settled_append h₁.settled).1 hsettled) ?_ ?_
      · rwa [← hinner]
      · rwa [← hinner, ← List.append_assoc]
  · exact h₁.covered before between rest hpoint hsettled hwrite hleft

theorem append (h₁ : Fenced scopes t₁ scopes') (h₂ : Fenced scopes' t₂ scopes'') :
    Fenced scopes (t₁ ++ t₂) scopes'' := by
  have hinner (t : List Happening) : innermost? scopes (t₁ ++ t) = innermost? scopes' t := by
    rw [innermost?_append, h₁.ended]
  refine ⟨?_, (settled_append h₁.settled).2 h₂.settled, ?_, ?_, ?_⟩
  · rw [barrierScopes_append, h₁.ended, h₂.ended]
  · refine .append h₁.marked (h₂.marked.imp fun before x _ hx hunsettled => hx ?_)
    rwa [settled_append h₁.settled] at hunsettled
  · exact fun before between after he => h₁.covered_append h₂ he
  · refine .append h₁.spared (h₂.spared.imp fun before x _ hx hexec hwrite => ?_)
    rw [settled_append h₁.settled]
    rw [hinner] at hexec
    rw [List.append_assoc, hinner] at hwrite
    exact hx hexec hwrite

/-- One mark without a barrier may not leave `write`. -/
theorem single {x : Happening} (hx : x ≠ .barrier .counted)
    (hstays : scopes.head? = some .write → (x.nestBarrier scopes).head? = some .write) :
    Fenced scopes [x] (x.nestBarrier scopes) := by
  refine ⟨rfl, by simpa [Settled] using hx, .singleton fun h => absurd settled_nil h, ?_,
    .singleton fun _ _ => settled_nil⟩
  intro before between after he _ hwrite hleft
  cases between with
  | nil => exact absurd hwrite (by simpa using hleft)
  | cons y between =>
    obtain ⟨rfl, rfl, rfl, rfl⟩ : before = [] ∧ x = y ∧ between = [] ∧ after = [] := by
      cases before <;> simp_all
    exact absurd (hstays hwrite) hleft

/-- A mark with its barrier may not come back to `write`. -/
theorem pair {x : Happening} (hx : x ≠ .barrier .counted) (hfences : x.Fences)
    (hspared : scopes.head? = some .exec → (x.nestBarrier scopes).head? ≠ some .write) :
    Fenced scopes [.barrier .counted, x] (x.nestBarrier scopes) := by
  have hstart : ¬Settled [.barrier .counted] := by simp [Settled]
  refine ⟨rfl, by simpa [Settled] using hx, ?_, ?_, ?_⟩
  · exact Throughout.cons_iff.2 ⟨fun h => absurd settled_nil h, .singleton fun _ => hfences⟩
  · intro before between after he hsettled hwrite hleft
    cases between with
    | nil => exact absurd hwrite (by simpa using hleft)
    | cons y between =>
      cases before with
      | nil =>
        obtain rfl := (List.cons.inj he).1
        exact List.mem_cons_self
      | cons z before =>
        obtain ⟨rfl, hrest⟩ := List.cons.inj he
        obtain rfl : before = [] := by cases before <;> simp_all
        exact absurd hsettled hstart
  · refine Throughout.cons_iff.2 ⟨fun _ _ => settled_nil, .singleton fun hexec hwrite => ?_⟩
    exact absurd hwrite (hspared hexec)

/-- What has nothing to do with such guards changes nothing. -/
theorem of_unbarred (h : ∀ x ∈ trace, x.Unbarred) : Fenced scopes trace scopes := by
  induction trace with
  | nil =>
    refine ⟨rfl, settled_nil, .nil, fun before between after he _ hwrite hleft => ?_, .nil⟩
    obtain ⟨rfl, rfl, rfl⟩ : before = [] ∧ between = [] ∧ after = [] := by simpa using he
    exact absurd hwrite hleft
  | cons x trace ih =>
    obtain ⟨hx, hnest⟩ := h x List.mem_cons_self
    have hone : Fenced scopes [x] (x.nestBarrier scopes) :=
      single hx fun hwrite => by rwa [hnest]
    rw [hnest] at hone
    exact hone.append (ih fun y hy => h y (List.mem_cons_of_mem _ hy))

/-- From one moment to the next, what takes the innermost scope from `exec` to `write` issues no
barrier: the step would be an opening or a closing with its barrier, and none of these leads from
`exec` to `write`. -/
theorem step_spared (h : Fenced scopes trace scopes') {before step after : List Happening}
    (he : trace = before ++ step ++ after)
    (hstep : ∀ first last, step = first ++ last → first ≠ [] → last ≠ [] →
      ¬Settled (before ++ first))
    (hexec : innermost? scopes before = some .exec)
    (hwrite : innermost? scopes (before ++ step) = some .write) : .barrier .counted ∉ step := by
  cases step with
  | nil =>
    rw [List.append_nil, hexec] at hwrite
    cases hwrite
  | cons x step =>
    cases step with
    | nil =>
      -- A barrier alone leaves the scopes as they are.
      intro hmem
      obtain rfl := List.mem_singleton.1 hmem
      have hsame :
          innermost? scopes (before ++ [.barrier .counted]) = innermost? scopes before := by
        rw [innermost?_append]
        rfl
      rw [hsame, hexec] at hwrite
      cases hwrite
    | cons y step =>
      exfalso
      have hbarrier : x = .barrier .counted := by
        have := hstep [x] (y :: step) rfl (by simp) (by simp)
        rwa [settled_snoc, Classical.not_not] at this
      subst hbarrier
      have hfences : y.Fences :=
        h.marked (before ++ [.barrier .counted]) y (step ++ after) (by simp [he]) (by
          simp [settled_snoc])
      cases step with
      | nil =>
        have hsettled := h.spared (before ++ [.barrier .counted]) y after (by simp [he])
          (by rwa [innermost?_append]) (by simpa using hwrite)
        simp [settled_snoc] at hsettled
      | cons z step =>
        have hbarrier := hstep [.barrier .counted, y] (z :: step) rfl (by simp) (by simp)
        rw [List.append_cons, settled_snoc, Classical.not_not] at hbarrier
        subst hbarrier
        exact hfences

end Fenced

/-! ## Guards -/

/-- A guard with counted barriers is made. -/
theorem enter_barrier (mode : Mode) (thread : Option String) (w : World) :
    ∃ opening, Guard.enter p .scope .barrier mode thread w
        = ⟨.ok (.barrier .counted mode), w, opening⟩ ∧
      ∀ scopes, Fenced scopes opening (mode :: scopes) := by
  cases mode with
  | write => exact ⟨_, rfl, fun _ => .single (by simp) fun _ => rfl⟩
  | exec => exact ⟨_, rfl, fun _ => .pair (by simp) rfl fun _ => by simp [Happening.nestBarrier]⟩

/-- It is ended where its own scope is innermost. -/
theorem leave_barrier (failing : Bool) (mode : Mode) (w : World) :
    ∃ closing, Guard.leave p .scope failing (.barrier .counted mode) w = ⟨.ok (), w, closing⟩ ∧
      ∀ scopes, Fenced (mode :: scopes) closing scopes := by
  cases mode with
  | write => exact ⟨_, rfl, fun _ => .pair (by simp) rfl fun h => by simp at h⟩
  | exec => exact ⟨_, rfl, fun _ => .single (by simp) fun h => by simp at h⟩

/-! ## Programs -/

/-- The slots hold no guard with counted barriers. -/
def World.Unbarred (w : World) : Prop :=
  ∀ e ∈ w.slots, e.2.Issues (· = .processor)

/-- Where the slots hold no guard with counted barriers, whatever scopes are open. -/
def Barred (w : World) (trace : List Happening) (w' : World) : Prop :=
  w.Unbarred → (∀ scopes, Fenced scopes trace scopes) ∧ w'.Unbarred

namespace Barred

theorem law : Law Barred where
  refl w h := ⟨fun scopes => .of_unbarred (by simp), h⟩
  trans h₁ h₂ h := by
    obtain ⟨hfirst, h'⟩ := h₁ h
    obtain ⟨hsecond, h''⟩ := h₂ h'
    exact ⟨fun scopes => (hfirst scopes).append (hsecond scopes), h''⟩

theorem of_unbarred {w' : World} (h : ∀ x ∈ trace, x.Unbarred)
    (hslots : w.Unbarred → w'.Unbarred) : Barred w trace w' :=
  fun hw => ⟨fun _ => .of_unbarred h, hslots hw⟩

/-- A mark, unless it is of a guard with counted barriers. -/
theorem marked {m : Mark}
    (h : m.Issues (· = .processor) ∨ ∃ label reply, m = .completed label reply) (w : World) :
    Barred w [.mark m w.snapshot] w := by
  refine of_unbarred (fun x hx => ?_) id
  obtain rfl := List.mem_singleton.1 hx
  refine ⟨by simp, fun scopes => ?_⟩
  unfold Happening.nestBarrier
  split
  · rename_i he
    cases he
    simp [Mark.Issues, Guard.Issues] at h
  · rename_i he
    cases he
    simp [Mark.Issues, Guard.Issues] at h
  · rfl

theorem silent {w' : World} (h : w.Unbarred → w'.Unbarred) : Barred w [] w' :=
  of_unbarred (by simp) h

theorem elementaryLaw : ElementaryLaw p (· = .processor) Barred where
  law := law
  processor := rfl
  issue b hb w := by
    refine of_unbarred (fun x hx => ?_) id
    obtain rfl := List.mem_singleton.1 hx
    exact ⟨by simp [hb], fun _ => rfl⟩
  mark m hm w := marked (.inl hm) w
  onThread name x _ := by
    refine .atThread law fun w t _ => of_unbarred (fun y hy => ?_) id
    obtain ⟨event, -, rfl⟩ := List.mem_map.1 hy
    exact ⟨by simp, fun _ => rfl⟩
  onToggle name failing mode := by
    refine .atToggle law fun w t _ => of_unbarred (fun y hy => ?_) id
    obtain ⟨event, -, rfl⟩ := List.mem_map.1 hy
    exact ⟨by simp, fun _ => rfl⟩
  apart x w := by
    refine of_unbarred (fun y hy => ?_) id
    obtain ⟨event, -, he⟩ := List.mem_filterMap.1 hy
    obtain ⟨r, -, rfl⟩ := Option.map_eq_some_iff.1 he
    exact ⟨by simp, fun _ => rfl⟩
  keep slot g hg w := silent fun h => List.forall_mem_cons.2 ⟨hg, h⟩
  discard slot w := silent fun h e he => h e (List.mem_of_mem_eraseP he)
  others he hissues := fun h => absurd (h _ he) hissues

theorem holdingLaw : HoldingLaw p Barred where
  law := law
  holding kind mode thread body hbody := by
    by_cases hkind : kind = .barrier
    · subst hkind
      intro w hw
      obtain ⟨opening, henter, hopening⟩ := enter_barrier (p := p) mode thread w
      obtain ⟨hinside, hw'⟩ := hbody (.barrier .counted mode) w hw
      obtain ⟨closing, hleave, hclosing⟩ := leave_barrier (p := p)
        (body (.barrier .counted mode) w).failed mode (body (.barrier .counted mode) w).state
      rw [WriteXorExecute.holding, bracket_of_acquired henter]
      simp only [hleave]
      exact ⟨fun scopes => ((hopening scopes).append (hinside _)).append (hclosing scopes), hw'⟩
    · exact elementaryLaw.holding_of_kind (fun h => absurd h hkind) mode thread hbody

theorem perform (running : List String) {op : Operation} (hop : op.Issues (· = .processor)) :
    Obeys Barred (perform p running op) := by
  cases hmakes : op.makes with
  | false =>
    exact elementaryLaw.perform holdingLaw running hop hmakes fun buffer _ change =>
      .modify fun w => silent id
  | true =>
    have create (name : String) (add : World → World) (hadd : ∀ w, (add w).slots = w.slots) :
        Obeys Barred (create name add) := by
      refine .modify fun w => silent fun h => ?_
      split
      · exact h
      · rwa [World.Unbarred, hadd]
    cases op with
    | newThread | newToggle | newBuffer =>
      exact .bind law (create _ _ fun _ => rfl) fun _ => .pure law _
    | _ => simp [Operation.makes] at hmakes

theorem stepwise : StepwiseLaw p (Operation.Issues (· = .processor)) Barred :=
  ProgramLaw.stepwise ⟨holdingLaw, fun _ _ => marked (.inr ⟨_, _, rfl⟩)⟩
    fun running _ hop => perform running hop

end Barred

/-! ## What opens a barrier scope -/

/-- The open barrier scopes are those of the program. A scope of a guard with counted barriers opens
one for its own mode just before its body, and closes it after the body, however that ends. Whatever
else is done opens none that it does not close. -/
structure NestsOwn (p : Platform) : Prop where
  scope : ∀ (s : Scope) running body w, s.kind = .barrier → ∃ opening closing,
    (runScope p running s body w).trace = opening ++ (run p running body w).trace ++ closing ∧
      ∀ scopes, barrierScopes scopes opening = s.mode :: scopes ∧
        barrierScopes (s.mode :: scopes) closing = scopes
  operation : ∀ running op w, w.Unbarred → op.Issues (· = .processor) →
    ∀ scopes, barrierScopes scopes (perform p running op w).trace = scopes
  body : ∀ running (program : Program) w, w.Unbarred →
    program.All (Operation.Issues (· = .processor)) →
    ∀ scopes, barrierScopes scopes (run p running program w).trace = scopes

theorem nestsOwn (p : Platform) : NestsOwn p where
  scope s running body w hkind := by
    obtain ⟨opening, henter, hopening⟩ := enter_barrier (p := p) s.mode s.thread w
    obtain ⟨closing, hleave, hclosing⟩ := leave_barrier (p := p)
      (run p running body w).failed s.mode (run p running body w).state
    rw [← hkind] at henter
    rw [Guard.leave_apply] at hleave
    obtain rfl := congrArg Run.trace hleave
    let entered : Happening :=
      .mark (.completed .entered (s.entryReply (.barrier .counted s.mode))) w.snapshot
    refine ⟨opening ++ [entered], _, ?_, fun scopes => ⟨?_, (hclosing scopes).ended⟩⟩
    · simp [runScope_of_entered running body henter, entered]
    · rw [barrierScopes_append, (hopening scopes).ended]
      rfl
  operation running op w hw hop scopes := ((Barred.perform running hop w hw).1 scopes).ended
  body running program w hw hprogram scopes :=
    ((Barred.stepwise.run program hprogram running w hw).1 scopes).ended

/-- **Barriers between writing and running.** Where the innermost barrier scope is for `write` at
one moment and for `exec` at a later one, a counted barrier has been issued between. What takes it
from `exec` to `write`, from one moment to the next, issues none. The moments are all points but
those between a barrier and the opening or closing that it belongs to. The barrier scopes are those
of the program. -/
theorem barrier_hazards_covered {program : Program} (hw : w.Unbarred)
    (hprogram : program.All (Operation.Issues (· = .processor))) :
    let trace := (runToEnd p program w).trace
    (∀ before between after, trace = before ++ between ++ after → Settled before →
        innermost? [] before = some .write → innermost? [] (before ++ between) = some .exec →
        .barrier .counted ∈ between) ∧
      (∀ before step after, trace = before ++ step ++ after → Settled before →
        (∀ first last, step = first ++ last → first ≠ [] → last ≠ [] → ¬Settled (before ++ first)) →
        innermost? [] before = some .exec → innermost? [] (before ++ step) = some .write →
        .barrier .counted ∉ step) ∧
      Throughout (fun before x => ¬Settled before → x.Fences) trace ∧ NestsOwn p := by
  have helements : ElementaryLaw p (· = .processor) Barred := Barred.elementaryLaw
  have hrun : Obeys Barred (runToEnd p program) :=
    Barred.stepwise.runToEnd helements.discard
      (fun holder g hg => helements.leave hg holder false) helements.others program hprogram
  have hfenced := (hrun w hw).1 []
  refine ⟨fun before between after he hsettled hwrite hexec => ?_,
    fun before step after he _ hstep hexec hwrite => hfenced.step_spared he hstep hexec hwrite,
    hfenced.marked, nestsOwn p⟩
  refine hfenced.covered before between after he hsettled hwrite ?_
  rw [hexec]
  simp

/-- Scopes nested both ways, the inner one left by a panic that is caught. -/
def hazardousProgram : Program :=
  .scope { style := .guarded .barrier, mode := .write, thread := none }
    (.attempt
      (.scope { style := .guarded .barrier, mode := .exec, thread := none }
        (.scope { style := .guarded .barrier, mode := .write, thread := none }
          (.step (.panic "inner") .done) .done) .done) .done)
    (.scope { style := .guarded .barrier, mode := .exec, thread := none } .done .done)

theorem barrier_hazards_covered_nested :
    World.empty.Unbarred ∧ hazardousProgram.All (Operation.Issues (· = .processor)) ∧
      ∀ before between after, history {} hazardousProgram = before ++ between ++ after →
        Settled before → innermost? [] before = some .write →
        innermost? [] (before ++ between) = some .exec → .barrier .counted ∈ between := by
  have hw : World.empty.Unbarred := by simp [World.Unbarred, World.empty]
  have hprogram : hazardousProgram.All (Operation.Issues (· = .processor)) := by
    simp [hazardousProgram, Program.All, Operation.Issues]
  exact ⟨hw, hprogram, (barrier_hazards_covered hw hprogram).1⟩

end WriteXorExecute
