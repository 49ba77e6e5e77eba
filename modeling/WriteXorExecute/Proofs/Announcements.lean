import WriteXorExecute.Proofs.Reading
import WriteXorExecute.Proofs.TraceLaw
/-!
# Changes of mode that are announced

Just before a thread calls its backend it tells so in the log, and it tells of no other change of
mode. This is so in all that a program does, whatever the backends do inside their calls and
whatever panics (`history_announced`), and it is so inside the self-checks.

What one call does is put together from what the calls inside it do (`Announced.callLaw`).
-/
namespace WriteXorExecute

open Procedure

variable {p : Platform} {t t₁ t₂ : List Happening} {mode : Mode} {r : Record}

/-- Just before each call of a backend comes the line of the log that tells of it, and just after
each such line comes the call. -/
structure Announced (t : List Happening) : Prop where
  told : ∀ i name outlet mode seen, t[i]? = some (.thread name (.begins outlet mode seen)) →
    ∃ j r, i = j + 1 ∧ t[j]? = some (.thread name (.record r)) ∧
      r.text = "[KPIO WX] Thread mode -> " ++ mode.name
  done : ∀ i name mode r, t[i]? = some (.thread name (.record r)) →
    r.text = "[KPIO WX] Thread mode -> " ++ mode.name →
    ∃ outlet seen, t[i + 1]? = some (.thread name (.begins outlet mode seen))

theorem Record.text_modeChange (mode : Mode) :
    (modeChange mode).text = "[KPIO WX] Thread mode -> " ++ mode.name := by
  cases mode <;> decide

/-- No other record looks like that. -/
theorem Record.eq_modeChange_of_text (h : r.text = "[KPIO WX] Thread mode -> " ++ mode.name) :
    r = .modeChange mode := by
  rwa [← text_modeChange, text_inj] at h

namespace Announced

theorem nil : Announced [] :=
  ⟨nofun, nofun⟩

theorem append (h₁ : Announced t₁) (h₂ : Announced t₂) : Announced (t₁ ++ t₂) where
  told i name outlet mode seen hi := by
    rw [List.getElem?_append] at hi
    split at hi
    · obtain ⟨j, r, rfl, hj, hr⟩ := h₁.told i name outlet mode seen hi
      exact ⟨j, r, rfl, by rw [List.getElem?_append_left (by omega), hj], hr⟩
    · -- The line before the call is one of the second trace.
      obtain ⟨j, r, hij, hj, hr⟩ := h₂.told _ name outlet mode seen hi
      refine ⟨t₁.length + j, r, by omega, ?_, hr⟩
      rw [List.getElem?_append_right (by omega), Nat.add_sub_cancel_left, hj]
  done i name mode r hi hr := by
    rw [List.getElem?_append] at hi
    split at hi
    · obtain ⟨outlet, seen, hnext⟩ := h₁.done i name mode r hi hr
      have hlt := (List.getElem?_eq_some_iff.1 hnext).1
      exact ⟨outlet, seen, by rw [List.getElem?_append_left hlt, hnext]⟩
    · obtain ⟨outlet, seen, hnext⟩ := h₂.done _ name mode r hi hr
      refine ⟨outlet, seen, ?_⟩
      rw [List.getElem?_append_right (by omega), ← hnext]
      congr 1
      omega

/-- A call and the line before it. -/
theorem call (name : String) (outlet : Backend.Outlet) (mode : Mode) (seen : Thread.Status) :
    Announced [.thread name (.record (.modeChange mode)), .thread name (.begins outlet mode seen)]
    where
  told i name outlet mode seen hi := by
    rcases i with _ | _ | i
    · cases hi
    · cases hi
      exact ⟨0, _, rfl, rfl, Record.text_modeChange mode⟩
    · cases hi
  done i name mode r hi hr := by
    rcases i with _ | _ | i
    · cases hi
      obtain rfl := Record.modeChange.inj (Record.eq_modeChange_of_text hr)
      exact ⟨outlet, seen, rfl⟩
    · cases hi
    · cases hi

/-- Where there is neither, nothing is to be announced. -/
theorem of_aside (hline : ∀ name mode, .thread name (.record (.modeChange mode)) ∉ t)
    (hcall : ∀ name outlet mode seen, .thread name (.begins outlet mode seen) ∉ t) :
    Announced t where
  told i name outlet mode seen hi := absurd (List.mem_of_getElem? hi) (hcall name outlet mode seen)
  done i name mode r hi hr := by
    rw [Record.eq_modeChange_of_text hr] at hi
    exact absurd (List.mem_of_getElem? hi) (hline name mode)

/-! ## Threads -/

theorem law (name : String) :
    Law fun (_ : Thread) events (_ : Thread) => Announced (events.map (.thread name)) :=
  ⟨fun _ => nil, fun h h' => by rw [List.map_append]; exact h.append h'⟩

/-- A call obeys the law if all that is done inside it does. -/
theorem callLaw (p : Platform) (name : String) :
    Thread.CallLaw p fun _ events _ => Announced (events.map (.thread name)) := by
  refine .of_ends (law name) (fun event hevent _ => of_aside ?_ ?_) (fun mode hinside => ?_)
    fun mode hinside => ?_
  · intro name' mode hmem
    cases List.mem_singleton.1 hmem
    cases hevent
  · intro name' outlet mode seen hmem
    cases List.mem_singleton.1 hmem
    cases hevent
  all_goals
    simp only [List.map_append]
    exact ((call ..).append hinside).append (of_aside (by simp) (by simp))

theorem traceLaw : TraceLaw p Announced where
  nil := nil
  append := append
  mark _ _ _ := of_aside (by simp) (by simp)
  barrier _ := of_aside (by simp) (by simp)
  toggle _ _ := of_aside (by simp) (by simp)
  init name t := (callLaw p name).init false t
  enable name failing mode t := (callLaw p name).enable failing mode t

theorem changed (buffer : String) (r : Record) (now : Snapshot) :
    Announced [.mark (.changed buffer r) now] :=
  of_aside (by simp) (by simp)

/-! ## Programs -/

/-- Outside, a self-check lets its lines be heard and no call. -/
theorem selfCheck (check : SelfCheck) : Obeys (Told Announced) (check.run p) :=
  SelfCheck.run_obeys (traceLaw (p := p)).law
    (fun x w => of_aside (by simp [SelfCheck.apart]) (by simp [SelfCheck.apart])) check

theorem stepwise : StepwiseLaw p (fun _ => True) (Told Announced) :=
  traceLaw.stepwise (fun _ _ _ => changed) fun _ _ check _ => selfCheck check

end Announced

/-- **Changes of mode are announced**, in all that happens in a program. -/
theorem history_announced (p : Platform) (program : Program) : Announced (history p program) :=
  Announced.traceLaw.runToEnd Announced.stepwise (program.all_of_forall fun _ => True.intro) .empty

end WriteXorExecute
