import WriteXorExecute.Proofs.Lexical
/-!
# Calls of a toggle in brackets

A toggle need not tell the truth, and may fail in any call that is not made while a failure is on
its way. A program that uses it by scopes only calls it in brackets all the same: each scope makes
one call for its own mode, and if that call came back, one more after its body, for the mode that
the first call answered.

- **Scopes make brackets** (`holding_bracket`): whatever the toggle answers, and wherever the body
  or the calls fail.
-/
namespace WriteXorExecute

open Procedure

variable {α β γ : Type} {p : Platform} {failing : Bool} {name : String} {mode : Mode} {w : World}
  {t : Toggle}

/-! ## One call -/

namespace Toggle

def called (t : Toggle) (mode : Mode) : Toggle :=
  { t with mode := mode, calls := t.calls + 1 }

@[simp] theorem called_calls (t : Toggle) (mode : Mode) : (t.called mode).calls = t.calls + 1 := rfl

/-- Whether or not a call fails, it is counted, and it is told once. -/
theorem enable_apply (failing : Bool) (mode : Mode) (t : Toggle) :
    enable failing mode t =
      ⟨if failing = false ∧ t.calls ∈ t.failures then .error ⟨t.calls⟩ else .ok t.nextAnswer,
        t.called mode, [⟨mode, t.nextAnswer⟩]⟩ := by
  simp only [enable, bind_apply, get_apply, modify_apply, note_apply, Run.andThen_ok]
  by_cases h : failing = false ∧ t.calls ∈ t.failures
  · simp [h, called]
  · have h' : ¬(!failing && t.failures.contains t.calls) = true := by simpa using h
    simp only [if_neg h, if_neg h', pure_apply]
    rfl

end Toggle

def World.withToggle (w : World) (name : String) (t : Toggle) : World :=
  { w with toggles := w.toggles.update name fun _ => t }

/-- The name is that of a toggle, and not of a thread. -/
structure World.Toggles (w : World) (name : String) (t : Toggle) : Prop where
  thread : w.threads.get? name = none
  toggle : w.toggles.get? name = some t

theorem World.Toggles.withToggle (h : w.Toggles name t) (t' : Toggle) :
    (w.withToggle name t').Toggles name t' :=
  ⟨h.thread, by simp [World.withToggle, h.toggle]⟩

theorem switch_of_toggle (h : w.Toggles name t) (failing : Bool) (mode : Mode) :
    switch p failing name mode w =
      ⟨(Toggle.enable failing mode t).outcome.mapError (.toggle name),
        w.withToggle name (t.called mode), [.toggle name ⟨mode, t.nextAnswer⟩]⟩ := by
  have hcall := Toggle.enable_apply failing mode t
  simp only [switch, bind_apply, onThread_of_none h.thread, Run.andThen_ok,
    onToggle_of_some h.toggle, List.nil_append]
  generalize Toggle.enable failing mode t = r at hcall
  obtain ⟨outcome, t', trace⟩ := r
  obtain ⟨-, rfl, rfl⟩ := Run.mk.inj hcall
  cases outcome <;> simp [Except.map, World.withToggle]

/-- A guard on a toggle is made by one call, unless that call fails. -/
theorem enter_of_toggle {kind : Guard.Kind} (hasks : kind.asks p) (h : w.Toggles name t)
    (holder : Holder) (mode : Mode) :
    let w₁ := w.withToggle name (t.called mode)
    let g : Guard := .delegated mode (some name) t.nextAnswer
    Guard.enter p holder kind mode (some name) w =
      if t.calls ∈ t.failures then
        ⟨.error (.toggle name ⟨t.calls⟩), w₁, [.toggle name ⟨mode, t.nextAnswer⟩]⟩
      else
        ⟨.ok g, w₁, [.toggle name ⟨mode, t.nextAnswer⟩, .mark (.opened holder g) w₁.snapshot]⟩ := by
  simp only [Guard.enter, Guard.acquire_of_asks hasks, Guard.acquireDelegated, bind_apply,
    switch_of_toggle h, Toggle.enable_apply, true_and]
  split <;> rfl

/-- A guard on a toggle is ended by one call, whatever comes of it. -/
theorem release_of_toggle (h : w.Toggles name t) (failing : Bool) (mode answer : Mode) :
    (Guard.release p failing (.delegated mode (some name) answer) w).state
        = w.withToggle name (t.called answer) ∧
      (Guard.release p failing (.delegated mode (some name) answer) w).trace
        = [.toggle name ⟨answer, t.nextAnswer⟩] := by
  simp only [Guard.release, bind_apply, switch_of_toggle h, Run.andThen_return, and_self]

/-! ## Brackets -/

/-- Whether something happens to the toggle of this name, or to a guard that holds the name. -/
def Happening.Concerns (name : String) : Happening → Prop
  | toggle other _ => other = name
  | mark (.opened _ g) _ | mark (.closed _ g) _ => g.holds? = some name
  | _ => False

mutual

/-- A bracket of calls on a toggle that fails in the calls of `failures`. The first call is that of
number `n` and asks for `mode`, and the last is that before number `k`. -/
inductive Bracket (name : String) (failures : List Nat) :
    Mode → (n : Nat) → List Happening → (k : Nat) → Prop
  /-- The call fails. Then there is nothing to close. -/
  | refused {mode answer : Mode} {n : Nat} (h : n ∈ failures) :
    Bracket name failures mode n [.toggle name ⟨mode, answer⟩] (n + 1)
  /-- The call comes back. Whether the last call fails is of no importance. -/
  | scope {mode answer ignored : Mode} {n k : Nat} {body : List Happening} {first last : Snapshot}
    (h : n ∉ failures) (hbody : Brackets name failures (n + 1) body k) :
    Bracket name failures mode n
      ([.toggle name ⟨mode, answer⟩,
          .mark (.opened .scope (.delegated mode (some name) answer)) first]
        ++ body ++
        [.toggle name ⟨answer, ignored⟩,
          .mark (.closed .scope (.delegated mode (some name) answer)) last]) (k + 1)

/-- Brackets one after another, and between them what does not concern the toggle. -/
inductive Brackets (name : String) (failures : List Nat) :
    (n : Nat) → List Happening → (k : Nat) → Prop
  | others {n : Nat} {trace : List Happening} (h : ∀ x ∈ trace, ¬x.Concerns name) :
    Brackets name failures n trace n
  | one {mode : Mode} {n k : Nat} {trace : List Happening}
    (h : Bracket name failures mode n trace k) : Brackets name failures n trace k
  | append {n k l : Nat} {t₁ t₂ : List Happening} (h₁ : Brackets name failures n t₁ k)
    (h₂ : Brackets name failures k t₂ l) : Brackets name failures n (t₁ ++ t₂) l

end

/-- The toggle of a name, if there is one, is called in brackets. -/
def Bracketed (name : String) (w : World) (trace : List Happening) (w' : World) : Prop :=
  ∀ t, w.Toggles name t → ∃ t', w'.Toggles name t' ∧ t'.failures = t.failures ∧
    Brackets name t.failures t.calls trace t'.calls

theorem not_concerns_of_untouched {w' : World} {trace : List Happening}
    (h : Untouched name w trace w') : ∀ x ∈ trace, ¬x.Concerns name := by
  intro x hx
  unfold Happening.Concerns
  split
  · rintro rfl
    exact h.calls _ hx
  · exact h.opened _ _ _ hx
  · exact h.closed _ _ _ hx
  · exact id

theorem Bracketed.law : Law (Bracketed name) where
  refl w t h := ⟨t, h, rfl, .others (by simp)⟩
  trans h₁ h₂ t h := by
    obtain ⟨t', h', hfailures, hbrackets⟩ := h₁ t h
    obtain ⟨t'', h'', hfailures', hbrackets'⟩ := h₂ t' h'
    rw [hfailures] at hfailures' hbrackets'
    exact ⟨t'', h'', hfailures', hbrackets.append hbrackets'⟩

theorem Bracketed.of_untouched {w' : World} {trace : List Happening}
    (h : Untouched name w trace w') : Bracketed name w trace w' :=
  fun t ht => ⟨t, ⟨h.thread.trans ht.thread, h.toggle.trans ht.toggle⟩, rfl,
    .others (not_concerns_of_untouched h)⟩

/-! ## Scopes -/

/-- **Scopes make brackets.** -/
theorem holding_bracket {kind : Guard.Kind} {body : Guard → Step α} (hasks : kind.asks p)
    (h : w.Toggles name t)
    (hbody : ∀ g w₁ opening,
      Guard.enter p .scope kind mode (some name) w = ⟨.ok g, w₁, opening⟩ →
      Bracketed name w₁ (body g w₁).trace (body g w₁).state) :
    let r := holding p kind mode (some name) body w
    ∃ t', r.state.Toggles name t' ∧ t'.failures = t.failures ∧
      Bracket name t.failures mode t.calls r.trace t'.calls := by
  have henter := enter_of_toggle hasks h .scope mode
  dsimp only at henter
  have hcalled := h.withToggle (t.called mode)
  by_cases hfails : t.calls ∈ t.failures
  · rw [if_pos hfails] at henter
    rw [holding, bracket_of_refused henter]
    exact ⟨_, hcalled, rfl, .refused hfails⟩
  · rw [if_neg hfails] at henter
    have hinside := hbody _ _ _ henter _ hcalled
    rw [holding_of_entered henter]
    generalize body _ _ = r at hinside
    obtain ⟨t₂, h₂, hfailures, hbrackets⟩ := hinside
    obtain ⟨hstate, htrace⟩ := release_of_toggle (p := p) h₂ r.failed mode t.nextAnswer
    dsimp only
    rw [hstate, htrace]
    refine ⟨_, h₂.withToggle (t₂.called t.nextAnswer), hfailures, ?_⟩
    simpa using Bracket.scope hfails hbrackets

theorem Bracketed.lexicalLaw (p : Platform) (name : String) :
    LexicalLaw p name (Bracketed name) where
  law := law
  untouched := of_untouched
  init w t h := by
    rw [onThread_of_none h.thread]
    exact law.refl w t h
  holding kind mode body w hasks hbody t h := by
    obtain ⟨t', h', hfailures, hbracket⟩ := holding_bracket hasks h hbody
    exact ⟨t', h', hfailures, .one hbracket⟩

/-! ## Scopes and code in programs -/

/-- The law of what may be done around a toggle where the slots hold no more guards on it than those
in `kept`. -/
abbrev InBrackets (name : String) (kept : List (String × Guard)) :
    World → List Happening → World → Prop :=
  LexicalLaw.Within name kept (Bracketed name)

theorem InBrackets.law {kept : List (String × Guard)} : Law (InBrackets name kept) :=
  LexicalLaw.Within.law Bracketed.law

theorem InBrackets.of_untouched {kept : List (String × Guard)} {x : Step α}
    (hx : Obeys (Untouched name) x) : Obeys (InBrackets name kept) x := by
  intro w hstands
  have hu := hx w
  exact ⟨.of_untouched hu, hstands.untouched hu⟩

theorem InBrackets.run {kept : List (String × Guard)} {body : Program} (running : List String)
    (hbody : body.Lexical p name kept) : Obeys (InBrackets name kept) (run p running body) := by
  have hlexical := Bracketed.lexicalLaw p name
  exact hlexical.programLaw.run hlexical.perform body hbody running

/-- An operation on code that is admitted makes one bracket, and a refused one leaves the world as
it is. -/
def Gated (name : String) (t : Toggle) (mode : Mode) (w : World) (admission : Except CodeError β)
    (r : Run World Happening Panic (Except CodeError α)) : Prop :=
  match admission with
  | .error e => r = ⟨.ok (.error e), w, []⟩
  | .ok _ => (∃ k, Bracket name t.failures mode t.calls r.trace k) ∧ ∀ e, r.outcome ≠ .ok (.error e)

theorem World.Toggles.stands (h : w.Toggles name t) : w.Stands name w.slots :=
  ⟨.inr (by simp [h.toggle]), fun _ he _ => he⟩

theorem one_bracket {kind : Guard.Kind} {body : Guard → Step γ} (hasks : kind.asks p)
    (h : w.Toggles name t) (hbody : ∀ g, Obeys (InBrackets name w.slots) (body g)) :
    ∃ k, Bracket name t.failures mode t.calls (holding p kind mode (some name) body w).trace k := by
  obtain ⟨t', -, -, hbracket⟩ := holding_bracket hasks h fun g w₁ opening he =>
    (hbody g w₁ (Standing.of_entered hasks h.stands he)).1
  exact ⟨_, hbracket⟩

theorem scope_bracket {s : Scope} {body : Program} (running : List String)
    (hthread : s.thread = some name) (hasks : s.kind.asks p) (h : w.Toggles name t)
    (hbody : body.Lexical p name w.slots) :
    ∃ k, Bracket name t.failures s.mode t.calls (runScope p running s body w).trace k := by
  rw [runScope, hthread]
  exact one_bracket hasks h fun g =>
    .bind InBrackets.law (InBrackets.of_untouched (.complete _ _)) fun _ =>
      .bind InBrackets.law (InBrackets.run running hbody) fun _ => .pure InBrackets.law _

section

variable (hs : p.strategy = .delegated) (h : w.Toggles name t)

include hs h

/-- What is returned after the platform's own scope is no refusal. -/
theorem gated_holding (b : β) (result : γ → α) {body : Guard → Step γ}
    (hbody : ∀ g, Obeys (InBrackets name w.slots) (body g)) :
    Gated name t mode w (.ok b)
      ((holding p .active mode (some name) body w).andThen fun a => pure (.ok (result a))) := by
  have hasks : Guard.Kind.asks p .active := by simp [Guard.Kind.asks, hs]
  rw [Run.andThen_return]
  refine ⟨one_bracket hasks h hbody, fun e he => ?_⟩
  generalize (holding p .active mode (some name) body w).outcome = outcome at he
  cases outcome <;> simp [Except.map] at he

theorem emit_gated (buffer : String) (data : ByteArray) :
    Gated name t .write w ((w.buffer buffer).admitEmit data.size)
      (Code.emit p buffer (some name) data w) := by
  simp only [Code.emit, bind_apply, get_apply, Run.andThen_ok, List.nil_append]
  cases (w.buffer buffer).admitEmit data.size with
  | error e => rfl
  | ok offset =>
    exact gated_holding hs h offset (fun _ => offset) fun _ =>
      InBrackets.of_untouched (.store _ _ _)

theorem patch_gated (buffer : String) (offset : UInt64) (data : ByteArray) :
    Gated name t .write w ((w.buffer buffer).admitPatch offset data.size)
      (Code.patch p buffer (some name) offset data w) := by
  simp only [Code.patch, bind_apply, get_apply, Run.andThen_ok, List.nil_append]
  cases (w.buffer buffer).admitPatch offset data.size with
  | error e => rfl
  | ok _ =>
    exact gated_holding hs h () (fun _ => ()) fun _ =>
      InBrackets.of_untouched (.replace _ _ _)

theorem code_gated (running : List String) (buffer : String) {body : Program}
    (hbody : body.Lexical p name w.slots) :
    Gated name t .exec w (w.buffer buffer).admitRun
      (runCode p running buffer (some name) body w) := by
  simp only [runCode, Code.execute, bind_apply, get_apply, Run.andThen_ok, List.nil_append]
  cases (w.buffer buffer).admitRun with
  | error e => rfl
  | ok _ =>
    exact gated_holding hs h () id fun _ =>
      .bind InBrackets.law (InBrackets.of_untouched (.complete _ _)) fun _ =>
        .bind InBrackets.law (InBrackets.run (buffer :: running) hbody) fun _ =>
          .pure InBrackets.law _

end

/-- **Calls in brackets.** Whatever a toggle answers and wherever it fails, a program that uses it
by scopes only calls it in brackets. A scope makes one bracket, for its own mode, and so do the
operations on code, for `write` to change it and for `exec` to run it, unless they are refused. -/
theorem toggle_calls_balanced (h : w.Toggles name t) (running : List String) :
    (∀ program : Program, program.Lexical p name w.slots →
      ∃ t', (run p running program w).state.Toggles name t' ∧
        Brackets name t.failures t.calls (run p running program w).trace t'.calls) ∧
    (∀ (s : Scope) (body : Program), s.thread = some name → s.kind.asks p →
      body.Lexical p name w.slots →
      ∃ k, Bracket name t.failures s.mode t.calls (runScope p running s body w).trace k) ∧
    (p.strategy = .delegated → ∀ buffer,
      (∀ data, Gated name t .write w ((w.buffer buffer).admitEmit data.size)
        (Code.emit p buffer (some name) data w)) ∧
      (∀ offset data, Gated name t .write w ((w.buffer buffer).admitPatch offset data.size)
        (Code.patch p buffer (some name) offset data w)) ∧
      ∀ body : Program, body.Lexical p name w.slots →
        Gated name t .exec w (w.buffer buffer).admitRun
          (runCode p running buffer (some name) body w)) := by
  refine ⟨fun program hlexical => ?_, fun s body hthread hasks hbody => ?_, fun hs buffer => ?_⟩
  · have hrun := InBrackets.run running hlexical w h.stands
    obtain ⟨t', h', -, hbrackets⟩ := hrun.1 t h
    exact ⟨t', h', hbrackets⟩
  · exact scope_bracket running hthread hasks h hbody
  · exact ⟨emit_gated hs h buffer, patch_gated hs h buffer,
      fun body hbody => code_gated hs h running buffer hbody⟩

/-- A toggle that is in `write` and answers `exec`, and that fails in its third call. -/
def deceptiveToggle : Toggle where
  mode := .write
  answers := [some .exec, some .exec]
  failures := [2]

/-- Of the two scopes, the inner one is left by a panic, and its guard may not fail again. -/
def toggledProgram : Program :=
  .scope { style := .guarded .delegated, mode := .write, thread := some "d" }
    (.attempt
      (.scope { style := .guarded .delegated, mode := .write, thread := some "d" }
        (.step (.panic "inner") .done) .done)
      (.scope { style := .closure, mode := .exec, thread := some "d" } .done .done))
    .done

theorem toggle_calls_balanced_deceptive :
    let w : World := { toggles := (∅ : Table Toggle).add "d" deceptiveToggle }
    w.Toggles "d" deceptiveToggle ∧ toggledProgram.Lexical {} "d" w.slots ∧
      ∃ t', (run {} [] toggledProgram w).state.Toggles "d" t' ∧
        Brackets "d" [2] 0 (run {} [] toggledProgram w).trace t'.calls := by
  intro w
  have h : w.Toggles "d" deceptiveToggle := ⟨rfl, rfl⟩
  have hlexical : toggledProgram.Lexical {} "d" w.slots := by
    simp [toggledProgram, Program.Lexical, Program.All, Operation.Lexical]
  exact ⟨h, hlexical, (toggle_calls_balanced h []).1 toggledProgram hlexical⟩

end WriteXorExecute
