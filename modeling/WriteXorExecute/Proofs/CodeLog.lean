import WriteXorExecute.Proofs.Announcements
import WriteXorExecute.Proofs.Interruption
/-!
# What the log tells of code

An operation that changes code tells so in one line of the log, after the guard has been made and
before it is ended, also where ending it panics. What is refused, or is not begun as no guard is
made, is not told (`Changes.logged`), and no other operation tells of code (`Unlogged.perform`). All
this is so however badly threads and toggles behave.
-/
namespace WriteXorExecute

open Procedure

variable {α : Type} {p : Platform} {buffer : String} {thread : Option String} {w : World}
  {trace t₁ t₂ : List Happening}

/-! ## What the log tells -/

def logLines (trace : List Happening) : List String :=
  (trace.filterMap Happening.record?).map Record.text

/-- What is read off them of changes of code. -/
def codeLog (trace : List Happening) : List Record :=
  ((logLines trace).filterMap Record.read?).filter Record.ofCode

/-- What is read off the lines is what was recorded. -/
theorem codeLog_eq (trace : List Happening) :
    codeLog trace = (trace.filterMap Happening.record?).filter Record.ofCode := by
  have hread : (Record.read? ∘ Record.text) = some := funext Record.read?_text
  rw [codeLog, logLines, List.filterMap_map, hread, List.filterMap_some]

@[simp] theorem codeLog_append : codeLog (t₁ ++ t₂) = codeLog t₁ ++ codeLog t₂ := by
  simp only [codeLog_eq, List.filterMap_append, List.filter_append]

theorem codeLog_eq_nil_iff : codeLog trace = [] ↔
    ∀ x ∈ trace, ∀ r, x.record? = some r → r.ofCode = false := by
  rw [codeLog_eq, List.filter_eq_nil_iff]
  simp only [List.mem_filterMap, Bool.not_eq_true, forall_exists_index, and_imp]
  exact ⟨fun h x hx r hr => h r x hx hr, fun h r x hx hr => h x hx r hr⟩

/-- Threads tell of modes only. -/
theorem codeLog_thread (name : String) {events : List Thread.Event}
    (h : ∀ r, .record r ∈ events → r.ofCode = false) :
    codeLog (events.map (.thread name)) = [] := by
  refine codeLog_eq_nil_iff.2 fun x hx r hr => ?_
  obtain ⟨event, hevent, rfl⟩ := List.mem_map.1 hx
  cases event with
  | record r' =>
    obtain rfl : r' = r := Option.some.inj hr
    exact h r' hevent
  | _ => cases hr

def Unlogged (trace : List Happening) : Prop :=
  codeLog trace = []

theorem Unlogged.mark {m : Mark} (hm : m.ofChange = false) (now : Snapshot) :
    Unlogged [.mark m now] := by
  refine codeLog_eq_nil_iff.2 fun x hx r hr => ?_
  obtain rfl := List.mem_singleton.1 hx
  cases m with
  | changed => cases hm
  | _ => cases hr

/-- Only changes of code are told as such. -/
theorem Unlogged.traceLaw : TraceLaw p Unlogged where
  nil := rfl
  append h h' := by rw [Unlogged, codeLog_append, h, h']; rfl
  mark _ now hm := Unlogged.mark hm now
  barrier _ := rfl
  toggle _ _ := rfl
  init name t := codeLog_thread name ((Thread.Discreet.callLaw p).init false t)
  enable name failing mode t :=
    codeLog_thread name ((Thread.Discreet.callLaw p).enable failing mode t)

theorem codeLog_changed {r : Record} (hr : r.ofCode = true) (now : Snapshot) :
    codeLog [.mark (.changed buffer r) now] = [r] := by
  rw [codeLog_eq]
  exact List.filter_cons_of_pos hr

/-- Outside, just these lines of a self-check are heard. -/
theorem logLines_apart (x : Step α) (w : World) :
    logLines (SelfCheck.apart x w).trace = logLines (x .empty).trace := by
  have hheard (event : Happening) :
      (event.record?.map Happening.selfCheck).bind Happening.record? = event.record? := by
    cases event.record? <;> rfl
  simp only [logLines, SelfCheck.apart, List.filterMap_filterMap, hheard]

/-! ## One operation -/

structure Logged (p : Platform) (buffer : String) (thread : Option String) (w : World)
    (admission : Except CodeError α) (record : α → Record) (x : Step (Except CodeError α)) :
    Prop where
  /-- What gives an error is not told. -/
  refused : ∀ e, (x w).outcome = .ok (.error e) → codeLog (x w).trace = []
  /-- Nor is anything told where no guard is made. -/
  unopened : ∀ cause w₁ opening,
    Guard.enter p .scope .active .write thread w = ⟨.error cause, w₁, opening⟩ →
    codeLog (x w).trace = []
  /-- What is admitted, and has its guard, is told in one line, between the making of the guard and
  the ending of it, however that ends. -/
  once : ∀ a g w₁ opening, admission = .ok a →
    Guard.enter p .scope .active .write thread w = ⟨.ok g, w₁, opening⟩ →
    codeLog (x w).trace = [record a] ∧
      ∃ w₂, let ending := Guard.leave p .scope false g w₂
        (x w).trace = opening ++ .mark (.changed buffer (record a)) w₂.snapshot :: ending.trace ∧
          codeLog opening = [] ∧ codeLog ending.trace = []

theorem Changes.logged {admission : Except CodeError α} {f : CodeBuffer → CodeBuffer}
    {record : α → Record} {x : Step (Except CodeError α)}
    (h : Changes p buffer thread w admission f record x) (hcode : ∀ a, (record a).ofCode = true) :
    Logged p buffer thread w admission record x := by
  have hlaw : TraceLaw p Unlogged := Unlogged.traceLaw
  have hopens := hlaw.enter .scope .active .write thread w
  cases hadmitted : admission with
  | error e =>
    have hx := h.refused e hadmitted
    refine ⟨fun _ _ => by rw [hx]; rfl, fun _ _ _ _ => by rw [hx]; rfl, fun _ _ _ _ ha => ?_⟩
    cases ha
  | ok a =>
    refine ⟨fun e he => ?_, fun cause w₁ opening henter => ?_, fun a' g w₁ opening ha henter => ?_⟩
    · -- What is admitted gives no error.
      rw [h.accepted a hadmitted, Run.andThen_return] at he
      generalize (holding p .active .write thread (fun _ => change buffer f (record a)) w).outcome
        = outcome at he
      cases outcome <;> cases he
    · rw [henter] at hopens
      rw [h.unopened hadmitted henter]
      exact hopens
    · obtain rfl := Except.ok.inj ha
      rw [henter] at hopens
      have hcloses := hlaw.leave .scope false g (w₁.changing buffer f)
      rw [h.opened hadmitted henter]
      refine ⟨?_, _, rfl, hopens, hcloses⟩
      rw [codeLog_append, hopens, ← List.singleton_append, codeLog_append,
        codeLog_changed (hcode a), hcloses]
      rfl

/-! ## Operations that leave code alone -/

def CodeKept (w : World) (_ : List Happening) (w' : World) : Prop :=
  w'.buffers = w.buffers

theorem CodeKept.law : Law CodeKept :=
  ⟨fun _ => rfl, fun h h' => h'.trans h⟩

theorem CodeKept.elementaryLaw : ElementaryLaw p (fun _ => True) CodeKept where
  law := law
  processor := True.intro
  issue _ _ := .note fun _ => rfl
  mark _ _ _ := rfl
  onThread _ _ _ := .atThread law fun _ _ _ => rfl
  onToggle _ _ _ := .atToggle law fun _ _ _ => rfl
  apart _ _ := rfl
  keep _ _ _ _ := rfl
  discard _ _ := rfl
  others _ hissues := absurd (Guard.issues_of_forall (fun _ => True.intro) _) hissues

theorem CodeKept.perform (running : List String) {op : Operation} (hmakes : op.makes = false)
    (hchanges : op.changes? = none) : Obeys CodeKept (perform p running op) := by
  refine elementaryLaw.perform (elementaryLaw.holdingLaw True.intro) running
    (Operation.issues_of_forall (fun _ => True.intro) op) hmakes fun buffer hbuffer => ?_
  rw [hchanges] at hbuffer
  cases hbuffer

/-- A self-check without code tells of none. -/
theorem Unlogged.selfCheck {check : SelfCheck} (hcheck : check.ofCode = false) :
    Obeys (Told Unlogged) (check.run p) := by
  have hlaw : TraceLaw p Unlogged := traceLaw
  refine .bind hlaw.law (SelfCheck.allOf_obeys hlaw.law fun trial ht => ?_) fun _ =>
    .pure hlaw.law _
  obtain ⟨x, rfl, hx⟩ := hlaw.trial_plain hcheck ht
  intro w
  have hnone : codeLog (x .empty).trace = [] := hx .empty
  rwa [codeLog, ← logLines_apart x w] at hnone

/-- The operation puts nothing into a buffer, and is no self-check of code. -/
def Operation.Plain : Operation → Prop
  | emit .. | patch .. => False
  | selfCheck choice => ∃ check, choice = some check ∧ check.ofCode = false
  | _ => True

theorem Unlogged.perform (running : List String) {op : Operation} (hop : op.Plain) :
    Obeys (Told Unlogged) (perform p running op) := by
  have hchanged (op : Operation) (hop : op.Plain) (hwrites : op.writes = true) (buffer : String)
      (r : Record) (now : Snapshot) : Unlogged [.mark (.changed buffer r) now] := by
    cases op with
    | emit | patch => exact hop.elim
    | _ => cases hwrites
  refine traceLaw.perform hchanged (fun choice hchoice check hcheck => ?_) running hop
  obtain ⟨c, rfl, hc⟩ := hchoice
  obtain rfl := hcheck c rfl
  exact selfCheck hc

end WriteXorExecute
