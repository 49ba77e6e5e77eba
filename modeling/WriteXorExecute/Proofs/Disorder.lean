import Mathlib.Data.List.Nodup
import WriteXorExecute.Proofs.Access
/-!
# Guards that end in any order

Guards on one thread may be made, ended and lost in any order, with requests for modes between. A
guard knows the mode that it found, and nothing that happens to the others changes that; when it is
ended the thread is in this mode, whatever the others are for. So the guard that is ended last
decides, and guards that are ended newest first bring back what the oldest of them found.

Out of order, the thread can be left in a mode that nobody holds any more. Of guards that were made
one after another this comes about exactly if the last one to be ended is not the first one made,
and the one made just before it was for another mode than that at the beginning.

This is for threads that have a mode and whose backends keep still.

- **One operation** (`World.Lends.step`): each leaves the guards in other slots as they are.
- **Sequences** (`World.Lends.sequence`), by induction on the operations.
- **Guards that are all ended** (`World.Lends.newest_first`, `World.Lends.consecutive`).
-/
namespace WriteXorExecute

open Procedure

variable {p : Platform} {name slot : String} {mode found : Mode} {slots : String → Bool} {w : World}
  {running : List String} {g : Guard} {t : Thread} {op : Operation} {ops : List Operation}

/-! ## Sequences of operations -/

def Program.sequence (ops : List Operation) : Program :=
  ops.foldr .step .done

def World.after (p : Platform) (running : List String) (ops : List Operation) (w : World) : World :=
  (run p running (.sequence ops) w).state

theorem run_sequence_append (running : List String) (ops later : List Operation) :
    run p running (.sequence (ops ++ later)) = (do
      run p running (.sequence ops)
      run p running (.sequence later) : Step Unit) := by
  induction ops with
  | nil => rfl
  | cons op ops ih =>
    change run p running (.step op (.sequence (ops ++ later))) = do
      run p running (.step op (.sequence ops))
      run p running (.sequence later)
    rw [run_step, run_step, ih, bind_assoc]

theorem run_sequence_cons {reply : Reply} {w' : World} {trace : List Happening}
    (h : perform p running op w = ⟨.ok reply, w', trace⟩) (ops : List Operation) :
    (run p running (.sequence (op :: ops)) w).outcome = (run p running (.sequence ops) w').outcome ∧
      w.after p running (op :: ops) = w'.after p running ops := by
  change (run p running (.step op (.sequence ops)) w).outcome = _ ∧
    (run p running (.step op (.sequence ops)) w).state = _
  simp only [run_step, runStep, bind_apply, h, Run.andThen_ok, complete, mark_apply, World.after,
    and_self]

theorem World.after_append (h : (run p running (.sequence ops) w).outcome = .ok ())
    (later : List Operation) :
    w.after p running (ops ++ later) = (w.after p running ops).after p running later := by
  simp only [after, run_sequence_append, bind_apply]
  generalize run p running (.sequence ops) w = r at h
  obtain ⟨outcome, w', trace⟩ := r
  obtain rfl : outcome = .ok () := h
  rfl

def Operation.slot? : Operation → Option String
  | hold slot .. | drop slot | forget slot => some slot
  | _ => none

/-- The operation is a question, a request for a mode of the thread of this name, or it makes, ends
or loses a guard on the thread in one of these slots. -/
def Operation.Juggles (p : Platform) (name : String) (slots : String → Bool) : Operation → Prop
  | hold slot kind _ thread => slots slot = true ∧ kind.asks p ∧ thread = some name
  | drop slot | forget slot => slots slot = true
  | enable other _ => other = name
  | ask _ => True
  | _ => False

/-- The thread of this name is in a mode and its backend keeps still, and the guards in these slots
are guards on the thread. -/
structure World.Lends (name : String) (slots : String → Bool) (found : Mode) (w : World) :
    Prop where
  thread : ∃ t, Steady name found t w
  guards : ∀ e ∈ w.slots, slots e.1 = true → e.2.holds? = some name

/-- The guards that are alive in these slots, the newest first. -/
def World.alive (slots : String → Bool) (w : World) : List (String × Guard) :=
  w.slots.filter fun e => slots e.1

/-! ## Slots -/

theorem guard?_keep_of_ne {other : String} (h : other ≠ slot) :
    (w.keep slot g).guard? other = w.guard? other := by
  simp [World.guard?, World.keep, List.lookup_cons, beq_false_of_ne h]

theorem guard?_discard_of_ne {other : String} (h : other ≠ slot) :
    (w.discard slot).guard? other = w.guard? other := by
  obtain ⟨threads, toggles, buffers, entries⟩ := w
  simp only [World.guard?, World.discard]
  induction entries with
  | nil => rfl
  | cons e entries ih =>
    obtain ⟨key, g⟩ := e
    by_cases hkey : key = slot
    · subst hkey
      simp [List.lookup_cons, beq_false_of_ne h]
    · by_cases hother : other = key
      · subst hother
        simp [hkey]
      · simpa [hkey, List.lookup_cons, beq_false_of_ne hother] using ih

/-- The newest of these guards is the newest one in its slot. -/
theorem World.alive_cons {entries : List (String × Guard)}
    (h : w.alive slots = (slot, g) :: entries) :
    slots slot = true ∧ w.guard? slot = some g ∧ (w.discard slot).alive slots = entries := by
  obtain ⟨before, after, hslots, hbefore, hslot, hafter⟩ := List.filter_eq_cons_iff.1 h
  have hothers (e : String × Guard) (he : e ∈ before) : e.1 ≠ slot := by
    rintro rfl
    exact hbefore e he hslot
  refine ⟨hslot, ?_, ?_⟩
  · refine List.lookup_eq_some_iff.2 ⟨before, after, hslots, fun e he => ?_⟩
    simpa using (hothers e he).symm
  · rw [alive, discard, hslots, List.eraseP_append_right _ (by simpa using hothers),
      List.eraseP_cons_of_pos (by simp), List.filter_append, List.filter_eq_nil_iff.2 hbefore,
      List.nil_append, hafter]

namespace World.Lends

variable (p running) (h : w.Lends name slots found)

include h

/-- What the thread reports. -/
theorem modeOf : w.snapshot.modeOf? name = some found := by
  obtain ⟨t, ht⟩ := h.thread
  rw [modeOf?_of_thread ht.thread, ht.mode]

theorem holds (hg : w.guard? slot = some g) (hslot : slots slot = true) : g.holds? = some name :=
  h.guards (slot, g) (World.mem_of_guard hg) hslot

/-! ## One operation -/

/-- A guard knows the mode that the thread was in just before. -/
theorem hold {kind : Guard.Kind} (hasks : kind.asks p) (slot : String) (mode : Mode) :
    ∃ w' trace, perform p running (.hold slot kind mode (some name)) w
        = ⟨.ok (.mode found), w', trace⟩ ∧
      w'.Lends name slots mode ∧
      w'.slots = (slot, .delegated mode (some name) found) :: w.slots := by
  obtain ⟨t, ht⟩ := h.thread
  obtain ⟨w₁, t₁, opening, hswitch, ht₁, -, hslots, -⟩ := ht.switch p false mode
  simp only [perform, bind_apply, Guard.enter_of_answered hasks hswitch, Run.andThen_ok,
    modify_apply, pure_apply]
  refine ⟨_, _, rfl, ⟨⟨t₁, ht₁.thread, ht₁.still, ht₁.mode⟩, ?_⟩, congrArg _ hslots⟩
  refine List.forall_mem_cons.2 ⟨fun _ => rfl, fun e he => ?_⟩
  exact h.guards e (hslots ▸ he)

/-- When a guard is ended the thread is in the mode that the guard knows. -/
theorem drop (hg : w.guard? slot = some g) (hslot : slots slot = true) :
    ∃ previous w' trace, g.query = some previous ∧
      perform p running (.drop slot) w = ⟨.ok .nothing, w', trace⟩ ∧
      w'.Lends name slots previous ∧ w'.slots = (w.discard slot).slots := by
  obtain ⟨t, ht⟩ := h.thread
  obtain ⟨mode, previous, rfl⟩ := Guard.eq_delegated_of_holds (h.holds hg hslot)
  have hdiscarded : Steady name found t (w.discard slot) := ⟨ht.thread, ht.still, ht.mode⟩
  obtain ⟨w₁, t₁, closing, hswitch, ht₁, -, hslots, -⟩ := hdiscarded.switch p false previous
  simp only [perform, bind_apply, get_apply, Run.andThen_ok, hg, modify_apply, Guard.leave_apply,
    Guard.release_delegated, hswitch]
  refine ⟨previous, _, _, rfl, rfl, ⟨⟨t₁, ht₁⟩, fun e he => ?_⟩, hslots⟩
  exact h.guards e (List.mem_of_mem_eraseP (hslots ▸ he))

omit h in
/-- To lose a guard is to do nothing else. -/
theorem forget (hg : w.guard? slot = some g) : perform p running (.forget slot) w =
    ⟨.ok .nothing, w.discard slot, [.mark (.forgotten slot g) (w.discard slot).snapshot]⟩ := by
  simp only [perform, bind_apply, get_apply, Run.andThen_ok, hg, modify_apply, mark_apply,
    pure_apply, List.nil_append, List.append_nil]

theorem discard (slot : String) : (w.discard slot).Lends name slots found := by
  obtain ⟨t, ht⟩ := h.thread
  exact ⟨⟨t, ht.thread, ht.still, ht.mode⟩,
    fun e he => h.guards e (List.mem_of_mem_eraseP he)⟩

theorem enable (mode : Mode) : ∃ w' trace,
    perform p running (.enable name mode) w = ⟨.ok (.mode found), w', trace⟩ ∧
      w'.Lends name slots mode ∧ w'.slots = w.slots := by
  obtain ⟨t, ht⟩ := h.thread
  obtain ⟨w₁, t₁, trace, hswitch, ht₁, -, hslots, -⟩ := ht.switch p false mode
  simp only [perform, bind_apply, hswitch, Run.andThen_ok, pure_apply]
  exact ⟨_, _, rfl, ⟨⟨t₁, ht₁⟩, fun e he => h.guards e (hslots ▸ he)⟩, hslots⟩

/-- **One operation** of these does not panic, and leaves the guards in other slots as they are. -/
theorem step (hop : op.Juggles p name slots) : ∃ reply w' trace mode,
    perform p running op w = ⟨.ok reply, w', trace⟩ ∧ w'.Lends name slots mode ∧
      ∀ slot, op.slot? ≠ some slot → w'.guard? slot = w.guard? slot := by
  have same {w' : World} (hslots : w'.slots = w.slots) (slot : String) :
      w'.guard? slot = w.guard? slot := by rw [World.guard?, World.guard?, hslots]
  cases op with
  | hold slot kind mode thread =>
    obtain ⟨hslot, hasks, rfl⟩ := hop
    obtain ⟨w', trace, hrun, hw', hslots⟩ := h.hold p running hasks slot mode
    refine ⟨_, w', trace, mode, hrun, hw', fun other hother => ?_⟩
    have hne : other ≠ slot := fun he => hother (congrArg some he.symm)
    rw [World.guard?, hslots]
    exact guard?_keep_of_ne hne
  | drop slot =>
    cases hg : w.guard? slot with
    | none => exact ⟨.gone, w, [], found, by simp [perform, hg], h, fun _ _ => rfl⟩
    | some g =>
      obtain ⟨previous, w', trace, -, hrun, hw', hslots⟩ := h.drop p running hg hop
      refine ⟨_, w', trace, previous, hrun, hw', fun other hother => ?_⟩
      have hne : other ≠ slot := fun he => hother (congrArg some he.symm)
      rw [World.guard?, hslots]
      exact guard?_discard_of_ne hne
  | forget slot =>
    cases hg : w.guard? slot with
    | none => exact ⟨.gone, w, [], found, by simp [perform, hg], h, fun _ _ => rfl⟩
    | some g =>
      refine ⟨_, _, _, found, forget p running hg, h.discard slot, fun other hother => ?_⟩
      exact guard?_discard_of_ne fun he => hother (congrArg some he.symm)
  | enable other mode =>
    obtain rfl : other = name := hop
    obtain ⟨w', trace, hrun, hw', hslots⟩ := h.enable p running mode
    exact ⟨_, w', trace, mode, hrun, hw', fun slot _ => same hslots slot⟩
  | ask question => exact ⟨question.answer p w, w, [], found, rfl, h, fun _ _ => rfl⟩
  | _ => exact hop.elim

/-! ## Many operations -/

/-- **Sequences.** -/
theorem sequence (hops : ∀ op ∈ ops, op.Juggles p name slots) :
    (run p running (.sequence ops) w).outcome = .ok () ∧
      (∃ mode, (w.after p running ops).Lends name slots mode) ∧
      ∀ slot, (∀ op ∈ ops, op.slot? ≠ some slot) →
        (w.after p running ops).guard? slot = w.guard? slot := by
  induction ops generalizing w found with
  | nil => exact ⟨rfl, ⟨found, h⟩, fun _ _ => rfl⟩
  | cons op ops ih =>
    obtain ⟨hop, hops⟩ := List.forall_mem_cons.1 hops
    obtain ⟨reply, w', trace, mode, hrun, hw', hothers⟩ := h.step p running hop
    obtain ⟨houtcome, hafter⟩ := run_sequence_cons hrun ops
    obtain ⟨hreturns, hlends, hkept⟩ := ih hw' hops
    rw [houtcome, hafter]
    refine ⟨hreturns, hlends, fun slot hslot => ?_⟩
    obtain ⟨hfirst, hlater⟩ := List.forall_mem_cons.1 hslot
    rw [hkept slot hlater, hothers slot hfirst]

/-- What follows finds the thread and the guards as they are needed. -/
theorem after_append (hops : ∀ op ∈ ops, op.Juggles p name slots) (later : List Operation) :
    w.after p running (ops ++ later) = (w.after p running ops).after p running later :=
  World.after_append (h.sequence p running hops).1 later

/-- To end a guard is to bring back the mode that it knows. -/
theorem after_drop (hg : w.guard? slot = some g) (hslot : slots slot = true) :
    ∃ previous, g.query = some previous ∧
      (w.after p running [.drop slot]).Lends name slots previous ∧
      (w.after p running [.drop slot]).slots = (w.discard slot).slots := by
  obtain ⟨previous, w', trace, hquery, hrun, hw', hslots⟩ := h.drop p running hg hslot
  rw [(run_sequence_cons hrun []).2]
  exact ⟨previous, hquery, hw', hslots⟩

/-- A guard that is made now is there until it is ended, and the mode that it knows is the one that
the thread is in now. -/
theorem after_hold {kind : Guard.Kind} (hasks : kind.asks p) (hslot : slots slot = true)
    (mode : Mode) {later : List Operation}
    (hlater : ∀ op ∈ later, op.Juggles p name slots ∧ op.slot? ≠ some slot) :
    let w' := w.after p running (.hold slot kind mode (some name) :: later)
    w'.guard? slot = some (.delegated mode (some name) found) ∧
      (w'.after p running [.drop slot]).Lends name slots found := by
  obtain ⟨w₁, trace, hrun, hw₁, hslots⟩ := h.hold p running hasks slot mode
  rw [(run_sequence_cons hrun later).2]
  obtain ⟨-, ⟨_, hlends⟩, hkept⟩ := hw₁.sequence p running fun op hop => (hlater op hop).1
  have hguard : (w₁.after p running later).guard? slot
      = some (.delegated mode (some name) found) := by
    rw [hkept slot fun op hop => (hlater op hop).2, World.guard?, hslots]
    exact List.lookup_cons_self
  obtain ⟨previous, hquery, hdropped, -⟩ := hlends.after_drop p running hguard hslot
  obtain rfl := Option.some.inj hquery
  exact ⟨hguard, hdropped⟩

/-- Of guards that are ended with nothing between, the one that is ended last decides. -/
theorem after_drops (hg : w.guard? slot = some g) {drops : List String}
    (hslots : ∀ s ∈ drops ++ [slot], slots s = true) (hlast : slot ∉ drops) :
    ∃ previous, g.query = some previous ∧
      (w.after p running ((drops ++ [slot]).map .drop)).Lends name slots previous := by
  have hdrops : ∀ op ∈ drops.map Operation.drop, op.Juggles p name slots := by
    refine List.forall_mem_map.2 fun s hs => hslots s (List.mem_append_left _ hs)
  obtain ⟨-, ⟨_, hlends⟩, hkept⟩ := h.sequence p running hdrops
  have hguard : (w.after p running (drops.map .drop)).guard? slot = some g := by
    rw [hkept slot (List.forall_mem_map.2 fun s hs he => hlast (Option.some.inj he ▸ hs)), hg]
  rw [List.map_append, h.after_append p running hdrops]
  obtain ⟨previous, hquery, hdropped, -⟩ := hlends.after_drop p running hguard
    (hslots slot (by simp))
  exact ⟨previous, hquery, hdropped⟩

/-! ## Guards that are all ended -/

/-- **Newest first.** What is brought back in the end is what the oldest guard found. -/
theorem newest_first :
    let w' := w.after p running ((w.alive slots).map fun e => .drop e.1)
    w'.alive slots = [] ∧ ∃ mode, w'.Lends name slots mode ∧
      some mode = ((w.alive slots).getLast?.map (·.2.query)).getD (some found) := by
  generalize halive : w.alive slots = entries
  induction entries generalizing w found with
  | nil => exact ⟨halive, found, h, rfl⟩
  | cons e entries ih =>
    obtain ⟨slot, g⟩ := e
    obtain ⟨hslot, hg, hrest⟩ := World.alive_cons halive
    obtain ⟨previous, w', trace, hquery, hrun, hw', hslots⟩ := h.drop p running hg hslot
    have halive' : w'.alive slots = entries := by rw [World.alive, hslots, ← hrest]; rfl
    rw [List.map_cons, (run_sequence_cons hrun _).2]
    obtain ⟨hnone, mode, hlends, hmode⟩ := ih hw' halive'
    refine ⟨hnone, mode, hlends, ?_⟩
    rw [hmode]
    cases entries with
    | nil => simp [hquery]
    | cons e entries => simp [List.getLast?_cons]

end World.Lends

/-! ## Guards made one after another -/

/-- A guard that is to be made on a thread. -/
structure Request where
  slot : String
  kind : Guard.Kind
  mode : Mode

def Request.hold (name : String) (r : Request) : Operation :=
  .hold r.slot r.kind r.mode (some name)

/-- Whether the guard will ask its thread, and live in one of these slots. -/
def Request.Fits (p : Platform) (slots : String → Bool) (r : Request) : Prop :=
  slots r.slot = true ∧ r.kind.asks p

theorem Request.Fits.juggles {r : Request} (h : r.Fits p slots) :
    (r.hold name).Juggles p name slots :=
  ⟨h.1, h.2, rfl⟩

namespace World.Lends

variable (p running) (h : w.Lends name slots found)

include h

/-- The thread is in the mode that was asked for last. -/
theorem after_holds {requests : List Request} (hfit : ∀ r ∈ requests, r.Fits p slots) :
    (w.after p running (requests.map (·.hold name))).Lends name slots
      ((requests.getLast?.map (·.mode)).getD found) := by
  induction requests generalizing w found with
  | nil => exact h
  | cons r requests ih =>
    obtain ⟨hr, hfit⟩ := List.forall_mem_cons.1 hfit
    obtain ⟨w', trace, hrun, hw', -⟩ := h.hold p running hr.2 r.slot r.mode
    rw [List.map_cons, Request.hold, (run_sequence_cons hrun _).2]
    have := ih hw' hfit
    cases requests with
    | nil => exact this
    | cons r' requests => simpa [List.getLast?_cons] using this

/-- **One after another.** In the end the thread is in the mode that was asked for just before the
guard that is ended last. -/
theorem consecutive {before later : List Request} {r : Request} {drops : List String}
    (hfit : ∀ q ∈ before ++ r :: later, q.Fits p slots)
    (hnodup : ((before ++ r :: later).map (·.slot)).Nodup)
    (hdrops : (drops ++ [r.slot]).Perm ((before ++ r :: later).map (·.slot))) :
    (w.after p running ((before ++ r :: later).map (·.hold name)
        ++ (drops ++ [r.slot]).map .drop)).Lends name slots
      ((before.getLast?.map (·.mode)).getD found) := by
  have hbefore : ∀ q ∈ before, q.Fits p slots := fun q hq => hfit q (List.mem_append_left _ hq)
  have hr : r.Fits p slots := hfit r (by simp)
  have hmade : ∀ op ∈ before.map (·.hold name), op.Juggles p name slots :=
    List.forall_mem_map.2 fun q hq => (hbefore q hq).juggles
  -- What comes between does nothing to this guard.
  have hbetween : ∀ op ∈ later.map (·.hold name) ++ drops.map Operation.drop,
      op.Juggles p name slots ∧ op.slot? ≠ some r.slot := by
    refine List.forall_mem_append.2 ⟨List.forall_mem_map.2 fun q hq => ?_,
      List.forall_mem_map.2 fun s hs => ?_⟩
    · have hne : r.slot ∉ later.map (·.slot) := by
        rw [List.map_append, List.map_cons] at hnodup
        exact (List.nodup_cons.1 hnodup.of_append_right).1
      exact ⟨(hfit q (by simp [hq])).juggles, fun he =>
        hne (List.mem_map.2 ⟨q, hq, Option.some.inj he⟩)⟩
    · have hlast : r.slot ∉ drops := fun hmem =>
        (List.nodup_append.1 (hdrops.nodup_iff.2 hnodup)).2.2 _ hmem _ (List.mem_singleton_self _)
          rfl
      obtain ⟨q, hq, rfl⟩ := List.mem_map.1 (hdrops.subset (List.mem_append_left _ hs))
      exact ⟨(hfit q hq).1, fun he => hlast (Option.some.inj he ▸ hs)⟩
  have hsplit : (before ++ r :: later).map (·.hold name) ++ (drops ++ [r.slot]).map Operation.drop
      = before.map (·.hold name) ++ (r.hold name :: (later.map (·.hold name) ++ drops.map .drop)
        ++ [.drop r.slot]) := by simp
  have hlends := h.after_holds p running hbefore
  rw [hsplit, h.after_append p running hmade, hlends.after_append p running]
  · exact (hlends.after_hold p running hr.2 hr.1 r.mode hbetween).2
  · exact List.forall_mem_cons.2 ⟨hr.juggles, fun op hop => (hbetween op hop).1⟩

end World.Lends

/-! ## In any order -/

/-- What guards on a thread do from a world on in which the thread is in the mode `found`. -/
structure EndInAnyOrder (p : Platform) (running : List String) (name : String)
    (slots : String → Bool) (found : Mode) (w : World) : Prop where
  /-- A guard that is made now answers with the mode that the thread is in, and so it does later,
  whatever is done to the thread and to other guards; ended then, it brings this mode back. -/
  made : ∀ slot kind mode later, slots slot = true → kind.asks p →
    (∀ op ∈ later, op.Juggles p name slots ∧ op.slot? ≠ some slot) →
    let hold := .hold slot kind mode (some name)
    let w' := w.after p running (hold :: later)
    (perform p running hold w).outcome = .ok (.mode found) ∧
      perform p running (.ask (.guard slot)) w' = ⟨.ok (.mode found), w', []⟩ ∧
      (w'.after p running [.drop slot]).snapshot.modeOf? name = some found
  /-- Of guards that are ended with nothing between, the one that is ended last brings back the mode
  that it knows. -/
  ended : ∀ drops slot g, (∀ s ∈ drops ++ [slot], slots s = true) → slot ∉ drops →
    w.guard? slot = some g →
    ∃ previous, g.query = some previous ∧
      (w.after p running ((drops ++ [slot]).map .drop)).snapshot.modeOf? name = some previous
  /-- To lose a guard is to do nothing else. -/
  lost : ∀ slot g, w.guard? slot = some g → perform p running (.forget slot) w =
    ⟨.ok .nothing, w.discard slot, [.mark (.forgotten slot g) (w.discard slot).snapshot]⟩
  /-- Guards that are all ended, the newest first, bring back what the oldest one knows. -/
  newestFirst :
    let w' := w.after p running ((w.alive slots).map fun e => .drop e.1)
    w'.alive slots = [] ∧ w'.snapshot.modeOf? name
      = ((w.alive slots).getLast?.map (·.2.query)).getD (some found)
  /-- Guards that are made one after another, and then ended in some order, bring back the mode of
  the beginning exactly if the one that is ended last was made first, or just after one for this
  mode. -/
  consecutive : ∀ (before later : List Request) r drops,
    (∀ q ∈ before ++ r :: later, q.Fits p slots) →
    ((before ++ r :: later).map (·.slot)).Nodup →
    (drops ++ [r.slot]).Perm ((before ++ r :: later).map (·.slot)) →
    ((w.after p running ((before ++ r :: later).map (·.hold name)
        ++ (drops ++ [r.slot]).map .drop)).snapshot.modeOf? name = some found ↔
      before = [] ∨ before.getLast?.map (·.mode) = some found)

theorem World.Lends.endInAnyOrder (h : w.Lends name slots found) :
    EndInAnyOrder p running name slots found w where
  made slot kind mode later hslot hasks hlater := by
    obtain ⟨hguard, hdropped⟩ := h.after_hold p running hasks hslot mode hlater
    obtain ⟨w₁, trace, hrun, -⟩ := h.hold p running hasks slot mode
    refine ⟨congrArg Run.outcome hrun, ?_, hdropped.modeOf⟩
    simp only [perform, bind_apply, get_apply, Run.andThen_ok, Question.answer, hguard, pure_apply,
      List.append_nil]
    rfl
  ended drops slot g hslots hlast hg := by
    obtain ⟨previous, hquery, hlends⟩ := h.after_drops p running hg hslots hlast
    exact ⟨previous, hquery, hlends.modeOf⟩
  lost _ _ hg := World.Lends.forget p running hg
  newestFirst := by
    obtain ⟨hnone, mode, hlends, hmode⟩ := h.newest_first p running
    exact ⟨hnone, hlends.modeOf.trans hmode⟩
  consecutive before later r drops hfit hnodup hdrops := by
    rw [(h.consecutive p running hfit hnodup hdrops).modeOf]
    cases hlast : before.getLast? with
    | none => simp [List.getLast?_eq_none_iff.1 hlast]
    | some q =>
      have hne : before ≠ [] := by
        rintro rfl
        cases hlast
      simp [hne]

/-- **Guards that end in any order.** Whatever is done to the thread and the guards on it, none of
it panics, and from there on the guards that there are and those that are made can end in any
order. -/
theorem guards_end_in_any_order (h : w.Lends name slots found)
    (hops : ∀ op ∈ ops, op.Juggles p name slots) (running : List String) :
    (run p running (.sequence ops) w).outcome = .ok () ∧
      ∃ now, (w.after p running ops).snapshot.modeOf? name = some now ∧
        EndInAnyOrder p running name slots now (w.after p running ops) := by
  obtain ⟨hreturns, ⟨now, hlends⟩, -⟩ := h.sequence p running hops
  exact ⟨hreturns, now, hlends.modeOf, hlends.endInAnyOrder⟩

def writingThread : Thread where
  backend := .scripted []
  config := { checkAtSync := true }
  mode := some .write

/-- A guard that is lost, a direct request, and two guards that are ended oldest first: the thread
stays in `exec`, which no guard asks for any more. -/
theorem guards_end_oldest_first :
    let p : Platform := { target := .macos }
    let w : World := { threads := (∅ : Table Thread).add "t" writingThread }
    let earlier : List Operation :=
      [.hold "a" .active .exec (some "t"), .forget "a", .enable "t" .write]
    let w' := w.after p [] earlier
    let w'' := w'.after p [] [.hold "b" .delegated .exec (some "t"),
      .hold "c" .active .write (some "t"), .drop "b", .drop "c"]
    w'.snapshot.modeOf? "t" = some .write ∧ w''.snapshot.modeOf? "t" ≠ some .write ∧
      w''.alive (fun _ => true) = [] := by
  intro p w earlier w' w''
  have hthread : Steady "t" .write writingThread w :=
    ⟨by simp [w, Table.get?_add_self], Thread.still_of_script (by decide), rfl⟩
  have hlends : w.Lends "t" (fun _ => true) .write := ⟨⟨_, hthread⟩, by simp [w]⟩
  have hasks : Guard.Kind.asks p .active := by decide
  have hearlier : ∀ op ∈ earlier, op.Juggles p "t" fun _ => true := by
    simp [earlier, Operation.Juggles, hasks]
  obtain ⟨-, now, hnow, hguards⟩ := guards_end_in_any_order hlends hearlier []
  have hwrite : w'.snapshot.modeOf? "t" = some .write := by decide +kernel
  obtain rfl : now = .write := Option.some.inj (hnow.symm.trans hwrite)
  have hlast := hguards.consecutive [⟨"b", .delegated, .exec⟩] [] ⟨"c", .active, .write⟩ ["b"]
    (List.forall_mem_cons.2 ⟨⟨rfl, rfl⟩, List.forall_mem_singleton.2 ⟨rfl, hasks⟩⟩) (by simp)
    (by simp)
  exact ⟨hwrite, fun h => by simpa using hlast.1 h, by decide +kernel⟩

end WriteXorExecute
