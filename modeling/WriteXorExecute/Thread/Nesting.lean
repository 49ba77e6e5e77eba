import WriteXorExecute.Thread.Law
/-!
# Calls inside calls

`send` bounds how deep calls of a backend are nested. The bound is never met: only the reactions of
later calls happen inside a call, and there are no more of them than the script is long.

- **No bound** (`send_eq`): passing a mode on is one call of the backend, whose reactions pass modes
  on in the same way.
-/
namespace WriteXorExecute.Thread

open Procedure

variable {α : Type}

/-! ## What no procedure on a thread undoes -/

/-- The backend and the configuration stay, calls are only added, and a thread that has a mode
keeps having one. -/
structure Onward (t : Thread) (_ : List Event) (t' : Thread) : Prop where
  backend : t'.backend = t.backend
  config : t'.config = t.config
  calls : t.calls ≤ t'.calls
  mode : t.mode.isSome → t'.mode.isSome

theorem Onward.law : Law Onward where
  refl _ := ⟨rfl, rfl, Nat.le_refl _, id⟩
  trans h h' := ⟨h'.backend.trans h.backend, h'.config.trans h.config,
    Nat.le_trans h.calls h'.calls, h'.mode ∘ h.mode⟩

theorem Onward.note (t : Thread) (event : Event) : Onward t [event] t :=
  ⟨rfl, rfl, Nat.le_refl _, id⟩

theorem Onward.taking (t : Thread) (mode : Mode) : Onward t [] { t with mode := some mode } :=
  ⟨rfl, rfl, Nat.le_refl _, fun _ => rfl⟩

section

variable {p : Platform} {failing : Bool}

theorem passOn_onward {react : Nat → Backend.Reaction → Step Unit}
    (h : ∀ call reaction, Obeys Onward (react call reaction)) (mode : Mode) :
    Obeys Onward (passOn p failing react mode) := by
  refine .bind Onward.law (.note fun t => Onward.note t _) fun _ =>
    .bind Onward.law (.get Onward.law) fun t =>
    .bind Onward.law (.note fun t => Onward.note t _) fun _ =>
    .bind Onward.law (.modify fun t => ⟨rfl, rfl, Nat.le_succ _, id⟩) fun _ =>
    .bind Onward.law (.attempt (.forM Onward.law (h _) _)) fun outcome => ?_
  cases outcome with
  | ok _ =>
    exact .bind Onward.law (.note fun t => Onward.note t _) fun _ =>
      .modify fun t => ⟨rfl, rfl, Nat.le_refl _, id⟩
  | error fault =>
    exact .bind Onward.law (.note fun t => Onward.note t _) fun _ => .fail Onward.law fault

theorem take_onward {send : Mode → Step Unit} (h : ∀ mode, Obeys Onward (send mode))
    (mode : Mode) : Obeys Onward (take send mode) :=
  .bind Onward.law (.modify fun t => Onward.taking t mode) fun _ => h mode

theorem Onward.callLaw (p : Platform) : CallLaw p Onward where
  law := Onward.law
  note event _ t := Onward.note t event
  call _ _ mode h := take_onward (passOn_onward h) mode

theorem initVia_onward {send : Mode → Step Unit} (h : ∀ mode, Obeys Onward (send mode)) :
    Obeys Onward (initVia p send) :=
  initVia_obeys Onward.law (fun event _ t => Onward.note t event) (take_onward h)

theorem enableVia_onward {send : Mode → Step Unit} (h : ∀ mode, Obeys Onward (send mode))
    (mode : Mode) : Obeys Onward (enableVia p send mode) :=
  enableVia_obeys Onward.law (fun event _ t => Onward.note t event) (take_onward h) mode

theorem react_onward {send : Mode → Step Unit} (h : ∀ mode, Obeys Onward (send mode))
    (call : Nat) (reaction : Backend.Reaction) : Obeys Onward (react p send call reaction) :=
  react_obeys Onward.law (fun event _ t => Onward.note t event) (take_onward h) call reaction

theorem sendWithin_onward (depth : Nat) (mode : Mode) :
    Obeys Onward (sendWithin p failing depth mode) := by
  induction depth generalizing failing mode with
  | zero => exact passOn_onward (fun _ _ => .pure Onward.law ()) mode
  | succ depth ih => exact passOn_onward (react_onward ih) mode

theorem send_onward (mode : Mode) : Obeys Onward (send p failing mode) :=
  .bind Onward.law (.get Onward.law) fun _ => sendWithin_onward _ mode

/-! ## Two ways of passing a mode on that agree -/

variable {P : Thread → Prop} {send₁ send₂ : Mode → Step Unit}

theorem take_agree (hP : ∀ {t trace t'}, Onward t trace t' → P t → P t')
    (h : ∀ mode, AgreeOn P (send₁ mode) (send₂ mode)) (mode : Mode) :
    AgreeOn P (take send₁ mode) (take send₂ mode) :=
  .bind .rfl (fun t ht => hP (Onward.taking t mode) ht) fun _ => h mode

theorem initVia_agree (hP : ∀ {t trace t'}, Onward t trace t' → P t → P t')
    (h : ∀ mode, AgreeOn P (send₁ mode) (send₂ mode)) :
    AgreeOn P (initVia p send₁) (initVia p send₂) := by
  refine .bind .rfl (fun _ ht => ht) fun t => ?_
  split
  · exact .rfl
  · exact .bind .rfl (fun _ ht => ht) fun _ => take_agree hP h _

theorem enableVia_agree (hP : ∀ {t trace t'}, Onward t trace t' → P t → P t')
    (h : ∀ mode, AgreeOn P (send₁ mode) (send₂ mode))
    (honward : ∀ mode, Obeys Onward (send₂ mode)) (mode : Mode) :
    AgreeOn P (enableVia p send₁ mode) (enableVia p send₂ mode) := by
  have tail (previous : Mode) : AgreeOn P (do
      if previous ≠ mode then
        take send₁ mode
      return previous : Step Mode) (do
      if previous ≠ mode then
        take send₂ mode
      return previous : Step Mode) := by
    split
    · exact .bind (take_agree hP h mode) (fun t ht => hP (take_onward honward mode t) ht)
        fun _ => .rfl
    · exact .rfl
  refine .bind .rfl (fun _ ht => ht) fun t => ?_
  split
  · exact tail _
  · exact .bind .rfl (fun _ ht => ht) fun _ => .bind (initVia_agree hP h)
      (fun t ht => hP (initVia_onward honward t) ht) fun _ => tail _

theorem react_agree (hP : ∀ {t trace t'}, Onward t trace t' → P t → P t')
    (h : ∀ mode, AgreeOn P (send₁ mode) (send₂ mode))
    (honward : ∀ mode, Obeys Onward (send₂ mode)) (call : Nat) (reaction : Backend.Reaction) :
    AgreeOn P (react p send₁ call reaction) (react p send₂ call reaction) := by
  induction reaction with
  | fail => exact .rfl
  | init =>
    exact .bind (initVia_agree hP h) (fun t ht => hP (initVia_onward honward t) ht)
      fun _ => .rfl
  | enable mode =>
    exact .bind (enableVia_agree hP h honward mode)
      (fun t ht => hP (enableVia_onward honward mode t) ht) fun _ => .rfl
  | caught reaction ih =>
    exact .bind (.attempt ih) (fun t ht => hP (react_onward honward call reaction t) ht)
      fun _ => .rfl

/-- What matters for a call is what its reactions do from the next call on. -/
theorem passOn_congr {react₁ react₂ : Nat → Backend.Reaction → Step Unit} {t : Thread}
    (mode : Mode)
    (h : (t.backend.occurring failing t.calls).forM (react₁ t.calls)
        { t with calls := t.calls + 1 }
      = (t.backend.occurring failing t.calls).forM (react₂ t.calls)
        { t with calls := t.calls + 1 }) :
    passOn p failing react₁ mode t = passOn p failing react₂ mode t := by
  simp only [List.forM_eq_forM] at h
  simp [passOn, h]

end

/-! ## The bound is never met -/

/-- How many reactions are still to come. -/
def pending (t : Thread) : Nat :=
  t.backend.script.countP fun h => t.calls ≤ h.call

theorem pending_le {t t' : Thread} {trace : List Event} (h : Onward t trace t') :
    t'.pending ≤ t.pending := by
  unfold pending
  rw [h.backend]
  refine List.countP_mono_left fun hook _ hcall => ?_
  have := h.calls
  simp only [decide_eq_true_eq] at *
  omega

theorem pending_lt {t : Thread} (h : t.backend.reactions t.calls ≠ []) :
    pending { t with calls := t.calls + 1 } < t.pending := by
  unfold pending
  unfold Backend.reactions at h
  simp only
  generalize t.backend.script = script at *
  induction script with
  | nil => simp at h
  | cons hook script ih =>
    have mono : script.countP (fun h => t.calls + 1 ≤ h.call)
        ≤ script.countP (fun h => t.calls ≤ h.call) :=
      List.countP_mono_left fun _ _ => by simp only [decide_eq_true_eq]; omega
    simp only [List.countP_cons, decide_eq_true_eq]
    by_cases hc : hook.call = t.calls
    · grind
    · have := ih (by simpa [List.filter_cons, hc] using h)
      grind

theorem pending_le_length (t : Thread) : t.pending ≤ t.backend.script.length :=
  List.countP_le_length

/-- Room for the reactions that are still to come is room enough. -/
theorem sendWithin_succ (p : Platform) (failing : Bool) (depth : Nat) (mode : Mode) :
    AgreeOn (fun t => t.pending ≤ depth) (sendWithin p failing depth mode)
      (sendWithin p failing (depth + 1) mode) := by
  induction depth generalizing failing mode with
  | zero =>
    intro t ht
    refine passOn_congr mode ?_
    by_cases h : t.backend.reactions t.calls = []
    · rw [Backend.occurring_eq_nil h]
      rfl
    · have := pending_lt h
      omega
  | succ depth ih =>
    intro t ht
    refine passOn_congr mode ?_
    by_cases h : t.backend.reactions t.calls = []
    · rw [Backend.occurring_eq_nil h]
      rfl
    · have hP {t t' : Thread} {trace : List Event} (ht : Onward t trace t')
          (hd : t.pending ≤ depth) : t'.pending ≤ depth := Nat.le_trans (pending_le ht) hd
      refine AgreeOn.forM
        (fun reaction t => hP (react_onward (sendWithin_onward _) _ reaction t))
        (react_agree hP (ih false) (sendWithin_onward _) _) _ _ ?_
      have := pending_lt h
      omega

/-- Passing a mode on is one call of the backend, whose reactions pass modes on in the same way. -/
theorem send_eq (p : Platform) (failing : Bool) (mode : Mode) :
    send p failing mode = passOn p failing (react p (send p false)) mode := by
  funext t
  change sendWithin p failing t.backend.script.length mode t = _
  rw [sendWithin_succ p failing _ mode t t.pending_le_length]
  refine passOn_congr mode ?_
  have hP {t₁ t₂ : Thread} {trace : List Event} (h : Onward t₁ trace t₂)
      (hb : t₁.backend = t.backend) : t₂.backend = t.backend := h.backend.trans hb
  refine AgreeOn.forM (fun reaction t' => hP (react_onward send_onward _ reaction t'))
    (fun reaction => react_agree hP (fun mode t' ht' => ?_) send_onward _ reaction) _ _ rfl
  change _ = sendWithin p false t'.backend.script.length mode t'
  rw [ht']

end WriteXorExecute.Thread
