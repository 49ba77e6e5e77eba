/-!
# Points of a trace

What is claimed of every point of a run is claimed of what lies before the point and of what happens
there. `Throughout` says so, and takes a trace apart in the way in which procedures put it together.
-/
namespace WriteXorExecute

variable {ε : Type}

/-- At every point of the trace, `P` holds of what lies before it and of what happens there. -/
def Throughout (P : List ε → ε → Prop) (trace : List ε) : Prop :=
  ∀ before x after, trace = before ++ x :: after → P before x

namespace Throughout

variable {P Q : List ε → ε → Prop} {t₁ t₂ : List ε}

theorem nil : Throughout P [] := by
  intro before x after h
  simp at h

theorem singleton {x : ε} (h : P [] x) : Throughout P [x] := by
  intro before y after he
  cases before with
  | nil =>
    simp only [List.nil_append, List.cons.injEq] at he
    exact he.1 ▸ h
  | cons z before => simp at he

/-- A point of two traces in a row is a point of the first, or one of the second with the first
before it. -/
theorem append_iff : Throughout P (t₁ ++ t₂) ↔
    Throughout P t₁ ∧ Throughout (fun before x => P (t₁ ++ before) x) t₂ := by
  constructor
  · intro h
    refine ⟨fun before x after he => ?_, fun before x after he => ?_⟩
    · exact h before x (after ++ t₂) (by simp [he])
    · exact h (t₁ ++ before) x after (by simp [he])
  · rintro ⟨h₁, h₂⟩ before x after he
    rcases List.append_eq_append_iff.1 he with ⟨mid, rfl, hmid⟩ | ⟨mid, rfl, hmid⟩
    · exact h₂ mid x after hmid
    · cases mid with
      | nil =>
        have := h₂ [] x after (by simpa using hmid.symm)
        simpa using this
      | cons y mid =>
        simp only [List.cons_append, List.cons.injEq] at hmid
        obtain ⟨rfl, rfl⟩ := hmid
        exact h₁ before x mid rfl

theorem cons_iff {x : ε} : Throughout P (x :: t₂) ↔
    P [] x ∧ Throughout (fun before y => P (x :: before) y) t₂ := by
  constructor
  · intro h
    have h' : Throughout P ([x] ++ t₂) := h
    exact ⟨h [] x t₂ rfl, (append_iff.1 h').2⟩
  · rintro ⟨hx, h⟩
    have h' : Throughout P ([x] ++ t₂) := append_iff.2 ⟨singleton hx, h⟩
    exact h'

theorem append (h₁ : Throughout P t₁) (h₂ : Throughout (fun before x => P (t₁ ++ before) x) t₂) :
    Throughout P (t₁ ++ t₂) :=
  append_iff.2 ⟨h₁, h₂⟩

theorem snoc {x : ε} (h : Throughout P t₁) (hx : P t₁ x) : Throughout P (t₁ ++ [x]) :=
  .append h (.singleton (by simpa using hx))

theorem imp (h : Throughout P t₁) (hPQ : ∀ before x, x ∈ t₁ → P before x → Q before x) :
    Throughout Q t₁ :=
  fun before x after he => hPQ before x (by simp [he]) (h before x after he)

theorem of_mem (h : ∀ before x, x ∈ t₁ → P before x) : Throughout P t₁ :=
  fun before x _ he => h before x (by simp [he])

/-- Every point of a trace can be looked at. -/
instance decidable : (P : List ε → ε → Prop) → [∀ before x, Decidable (P before x)] →
    (trace : List ε) → Decidable (Throughout P trace)
  | _, _, [] => .isTrue nil
  | P, _, x :: trace =>
    have := decidable (fun before y => P (x :: before) y) trace
    decidable_of_iff (P [] x ∧ Throughout (fun before y => P (x :: before) y) trace) cons_iff.symm

end Throughout

end WriteXorExecute
