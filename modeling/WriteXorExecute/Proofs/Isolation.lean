import WriteXorExecute.Proofs.Agreement
/-!
# Parties that share nothing

Several parties take turns in one world. Each has its own threads, toggles, buffers and slots, and
its operations name nothing else. Then each of them gets the answers that it would get alone, the
same happens to its objects, and they are left in the same states, after each of its operations and
after the guards that are left in its slots are ended. The backends of its threads may fail and call
back, and its toggles may fail and lie.

- **One turn** (`Share.turn`): what a party does is what it would do alone, and leaves what belongs
  to others as it is.
- **All turns** (`parties_are_isolated`).
-/
namespace WriteXorExecute

open Procedure Correspondence

variable {ι β : Type} {p : Platform} {w v b : World}

/-! ## What belongs to a party -/

/-- Something that happens, with what is seen of these names where the run is marked. -/
inductive Observation (names : String → Prop) where
  | event (happening : Happening)
  | mark (mark : Mark) (now : Glance names)

def Happening.observed (names : String → Prop) :
    Happening → Observation names
  | .mark m now => .mark m (now.glance names)
  | happening => .event happening

/-- The names of objects and of slots that belong to a party. -/
structure Share where
  objects : String → Prop
  slots : String → Bool

namespace Share

variable {s s' : Share}

def rest (s : Share) : Share where
  objects name := ¬s.objects name
  slots slot := !s.slots slot

structure Disjoint (s s' : Share) : Prop where
  objects : ∀ name, s.objects name → ¬s'.objects name
  slots : ∀ slot, s.slots slot = true → s'.slots slot = false

/-- What is asked, or done to an object, names what belongs to the party. -/
def Names (s : Share) (op : Operation) : Prop :=
  (∀ name, op.object? = some name → s.objects name) ∧
    ∀ question, op = .ask question →
      (∀ name, question.thread? = some name → s.objects name) ∧
      (∀ slot, question.slot? = some slot → s.slots slot = true) ∧
      ∀ name, question.buffer? = some name → s.objects name

/-- The programs that name what belongs to the party and nothing else. -/
def vocabulary (s : Share) : Vocabulary where
  plain := s.Names
  thread thread := ∀ name, thread = some name → s.objects name
  slot slot := s.slots slot = true
  code := s.objects

def guards (s : Share) (slots : List (String × Guard)) : List (String × Guard) :=
  slots.filter fun e => s.slots e.1

/-- The worlds are the same as far as they belong to the party. -/
structure Agree (s : Share) (w v : World) : Prop where
  objects : w.AgreeAt s.objects v
  slots : s.guards w.slots = s.guards v.slots

theorem Agree.refl (s : Share) (w : World) : s.Agree w w :=
  ⟨.refl _ w, rfl⟩

theorem Agree.trans {u : World} (h : s.Agree w v) (h' : s.Agree v u) : s.Agree w u :=
  ⟨h.objects.trans h'.objects, h.slots.trans h'.slots⟩

/-- The guards in the slots of the party give back to its own objects. -/
def Confines (s : Share) (w : World) : Prop :=
  ∀ e ∈ s.guards w.slots, e.2.Asks s.objects

theorem Confines.of_agree (h : s.Confines w) (hagree : s.Agree v w) : s.Confines v := by
  intro e he
  exact h e (hagree.slots ▸ he)

/-- What the others have includes what each of them has. -/
theorem Agree.of_rest (h : s.rest.Agree v w) (hdisjoint : s'.Disjoint s) : s'.Agree v w := by
  refine ⟨h.objects.mono hdisjoint.objects, ?_⟩
  have hfilter (slots : List (String × Guard)) :
      s'.guards slots = s'.guards (s.rest.guards slots) := by
    simp only [guards, List.filter_filter]
    refine List.filter_congr fun e _ => ?_
    cases hslot : s'.slots e.1 with
    | true => simp [rest, hdisjoint.slots e.1 hslot]
    | false => rfl
  rw [hfilter v.slots, hfilter w.slots, h.slots]

/-! ### Slots -/

theorem guard (h : s.Agree w v) {slot : String} (hslot : s.slots slot = true) :
    w.guard? slot = v.guard? slot := by
  have hlookup (slots : List (String × Guard)) :
      (s.guards slots).lookup slot = slots.lookup slot := by
    induction slots with
    | nil => rfl
    | cons e slots ih =>
      obtain ⟨key, g⟩ := e
      by_cases hkey : slot = key
      · subst hkey
        simp [guards, hslot]
      · cases hs : s.slots key <;>
          simp_all [guards, List.lookup_cons, beq_false_of_ne hkey]
  rw [World.guard?, World.guard?, ← hlookup w.slots, ← hlookup v.slots, h.slots]

/-- A guard is taken out of a slot of the party, or out of none of its slots. -/
theorem guards_eraseP (s : Share) (slot : String) (slots : List (String × Guard)) :
    s.guards (slots.eraseP fun e => e.1 = slot) =
      if s.slots slot then (s.guards slots).eraseP fun e => e.1 = slot else s.guards slots := by
  induction slots with
  | nil => simp [guards]
  | cons e slots ih =>
    by_cases he : e.1 = slot
    · cases hs : s.slots slot <;> simp [guards, he, hs]
    · cases hs : s.slots e.1 <;> cases hslot : s.slots slot <;>
        simpa [guards, he, hs, hslot] using ih

/-! ## Side by side with a world of its own -/

/-- The first world belongs to all, and in the second one the party is alone. What belongs to the
others is what it was in the world `b`. -/
def isolated (s : Share) (b : World) : Correspondence World Happening (Observation s.objects) where
  states w v := s.Agree w v ∧ s.Confines w ∧ s.rest.Agree w b
  seen happening := [happening.observed s.objects]

theorem localAt (s : Share) (b : World) : LocalAt s.objects (isolated s b) where
  seen _ _ := rfl
  agree h := h.1.objects
  edit {name change w v} hname hedit h := by
    obtain ⟨hagree, hconfines, hrest⟩ := h
    have hslots := hedit.slots
    refine ⟨⟨hagree.objects.edit hname hedit, ?_⟩, ?_, ⟨?_, ?_⟩⟩
    · rw [hslots, hslots, hagree.slots]
    · rw [Confines, hslots]
      exact hconfines
    · exact hrest.objects.edit_of_not (not_not_intro hname) hedit
    · rw [hslots, hrest.slots]

theorem withSlots {s : Share} (h : (isolated s b).states w v) {slots slots' : List (String × Guard)}
    (hsame : s.guards slots = s.guards slots')
    (hconfines : ∀ e ∈ s.guards slots, e.2.Asks s.objects)
    (hrest : s.rest.guards slots = s.rest.guards w.slots) :
    (isolated s b).states { w with slots } { v with slots := slots' } :=
  ⟨⟨⟨h.1.objects.threads, h.1.objects.toggles, h.1.objects.buffers⟩, hsame⟩, hconfines,
    ⟨h.2.2.objects.threads, h.2.2.objects.toggles, h.2.2.objects.buffers⟩,
    hrest.trans h.2.2.slots⟩

/-- The operations of a party are done alike in both worlds. -/
theorem rerun (s : Share) (b : World) : Rerun p s.vocabulary s.objects (isolated s b) where
  mark m := by
    intro w v h
    refine ⟨.ok rfl, h, ?_⟩
    simp [isolated, Happening.observed, h.1.objects.glance]
  seen _ _ := rfl
  thread hthread := hthread _ rfl
  switch failing _ mode hname := (localAt s b).switch hname failing mode
  guard {w v slot} hslot h := by
    refine ⟨Share.guard h.1 hslot, fun g hg => h.2.1 (slot, g) ?_⟩
    exact List.mem_filter.2 ⟨World.mem_of_guard hg, hslot⟩
  keep {w v slot g} hslot hasks h := by
    have hslot : s.slots slot = true := hslot
    have hkept (slots : List (String × Guard)) :
        s.guards ((slot, g) :: slots) = (slot, g) :: s.guards slots := by
      simp [guards, hslot]
    refine withSlots h ?_ (fun e he => ?_) ?_
    · rw [hkept, hkept, h.1.slots]
    · rw [hkept] at he
      rcases List.mem_cons.1 he with rfl | he
      · exact hasks
      · exact h.2.1 e he
    · simp [guards, rest, hslot]
  discard {w v slot} hslot h := by
    have hslot : s.slots slot = true := hslot
    refine withSlots h ?_ (fun e he => ?_) ?_
    · rw [guards_eraseP, guards_eraseP, h.1.slots]
    · rw [guards_eraseP, if_pos hslot] at he
      exact h.2.1 e (List.mem_of_mem_eraseP he)
    · rw [guards_eraseP, if_neg (by simp [rest, hslot])]
  buffer hcode h := h.1.objects.buffer hcode
  onBuffer change hcode := (localAt s b).onBuffer hcode change
  object running _ name hop hobject := (localAt s b).perform running hobject (hop.1 name hobject)
  ask {question w v} hop h := by
    obtain ⟨hthread, hslot, hbuffer⟩ := hop.2 question rfl
    exact Question.answer_congr (fun name hname => h.1.objects.threads name (hthread name hname))
      (fun slot hs => Share.guard h.1 (hslot slot hs))
      fun name hname => h.1.objects.buffer (hbuffer name hname)

/-! ## One turn -/

/-- The same result, the same is observed, and the party is left with the same. -/
structure SameFor (s : Share) (r r' : Run World Happening Panic Unit) : Prop where
  outcome : r.outcome = r'.outcome
  observed : r.trace.map (·.observed s.objects) = r'.trace.map (·.observed s.objects)
  state : s.Agree r.state r'.state

/-- **One turn.** What is done alike for a party leaves what belongs to others as it is. -/
theorem turn {x : Step Unit} (hx : ∀ b, (isolated s b).Mirrors Eq x x) (hagree : s.Agree w v)
    (hconfines : s.Confines w) :
    SameFor s (x w) (x v) ∧ s.Confines (x w).state ∧ s.rest.Agree (x w).state w := by
  have halike := hx w w v ⟨hagree, hconfines, .refl _ w⟩
  obtain ⟨hstate, hconfined, hrest⟩ := halike.states
  have hobserved := halike.map_eq (fun _ => rfl) fun _ => rfl
  exact ⟨⟨halike.outcome.eq, hobserved, hstate⟩, hconfined, hrest⟩

theorem mirrors_item {i : Item} (hi : i.In s.vocabulary) (b : World) :
    (isolated s b).Mirrors Eq (i.run p []) (i.run p []) :=
  (rerun s b).simulation.runItem i hi []

theorem mirrors_endGuard {e : String × Guard} (hslot : s.slots e.1 = true)
    (hasks : e.2.Asks s.objects) (b : World) :
    (isolated s b).Mirrors Eq (endGuard p e) (endGuard p e) :=
  (rerun s b).simulation.endGuard hslot rfl ⟨rfl, hasks⟩

end Share

/-! ## All turns -/

/-- What each of the steps does, one after the other, whatever comes of them. -/
def eachRun (act : β → Step Unit) : List β → World → List (β × Run World Happening Panic Unit)
  | [], _ => []
  | x :: rest, w => (x, act x w) :: eachRun act rest (act x w).state

def afterEach (act : β → Step Unit) (steps : List β) (w : World) : World :=
  steps.foldl (fun w x => (act x w).state) w

/-- Steps of which none fails are one procedure. -/
theorem forM_of_returned {act : β → Step Unit} {steps : List β}
    (h : ∀ r ∈ eachRun act steps w, r.2.failed = false) : steps.forM act w =
      ⟨.ok (), afterEach act steps w, (eachRun act steps w).flatMap (·.2.trace)⟩ := by
  induction steps generalizing w with
  | nil => rfl
  | cons x rest ih =>
    have hrest := ih fun r hr => h r (List.mem_cons_of_mem _ hr)
    have hx : (act x w).failed = false := h (x, act x w) List.mem_cons_self
    have hcons : (x :: rest).forM act = (act x >>= fun _ => rest.forM act) := rfl
    rw [hcons, bind_apply]
    simp only [eachRun, afterEach, List.foldl_cons, List.flatMap_cons]
    simp only [afterEach] at hrest
    generalize act x w = r at hx hrest ⊢
    obtain ⟨outcome, w', trace⟩ := r
    cases outcome with
    | error cause => cases hx
    | ok _ => rw [Run.andThen_ok, hrest]

open Share in
/-- The steps of one party among those of others. The worlds in question are of the kind `good`. -/
theorem eachRun_alone {s : Share} {good : World → Prop} {act : β → Step Unit} {mine : β → Bool}
    {steps : List β} (hgood : ∀ x ∈ steps, ∀ w, good w → good (act x w).state)
    (hmine : ∀ x ∈ steps, mine x = true → ∀ w v, good w → s.Agree w v →
      SameFor s (act x w) (act x v))
    (hothers : ∀ x ∈ steps, mine x = false → ∀ w, good w → s.Agree (act x w).state w)
    (hw : good w) (hagree : s.Agree w v) :
    List.Forall₂ (fun r r' => r.1 = r'.1 ∧ SameFor s r.2 r'.2)
        ((eachRun act steps w).filter fun r => mine r.1) (eachRun act (steps.filter mine) v) ∧
      s.Agree (afterEach act steps w) (afterEach act (steps.filter mine) v) ∧
      good (afterEach act steps w) := by
  induction steps generalizing w v with
  | nil => exact ⟨.nil, hagree, hw⟩
  | cons x rest ih =>
    have ih {w v : World} := @ih w v (fun y hy => hgood y (List.mem_cons_of_mem _ hy))
      (fun y hy => hmine y (List.mem_cons_of_mem _ hy))
      (fun y hy => hothers y (List.mem_cons_of_mem _ hy))
    have hw' := hgood x List.mem_cons_self w hw
    cases hx : mine x with
    | true =>
      have hsame := hmine x List.mem_cons_self hx w v hw hagree
      obtain ⟨hruns, hafter⟩ := ih hw' hsame.state
      simp only [eachRun, List.filter_cons, hx, if_true]
      exact ⟨.cons ⟨rfl, hsame⟩ hruns, hafter⟩
    | false =>
      have hleft := hothers x List.mem_cons_self hx w hw
      obtain ⟨hruns, hafter⟩ := ih hw' (hleft.trans hagree)
      simp only [eachRun, List.filter_cons, hx, Bool.false_eq_true, if_false]
      exact ⟨hruns, hafter⟩

/-- Every guard in a slot belongs to a party, and gives back to that party. -/
structure Orderly (shares : ι → Share) (w : World) : Prop where
  confined : ∀ i, (shares i).Confines w
  owned : ∀ e ∈ w.slots, ∃ i, (shares i).slots e.1 = true

namespace Orderly

variable {shares : ι → Share}

theorem empty (shares : ι → Share) : Orderly shares .empty :=
  ⟨fun _ e he => by simp [Share.guards, World.empty] at he, fun e he => by simp [World.empty] at he⟩

/-- A turn of one party keeps order. -/
theorem turn (hdisjoint : ∀ i j, i ≠ j → (shares i).Disjoint (shares j)) {i : ι}
    {x : Step Unit} (hx : ∀ b, ((shares i).isolated b).Mirrors Eq x x) (h : Orderly shares w) :
    Orderly shares (x w).state := by
  obtain ⟨-, hconfined, hrest⟩ := Share.turn hx (.refl _ w) (h.confined i)
  refine ⟨fun j => ?_, fun e he => ?_⟩
  · by_cases hj : j = i
    · exact hj ▸ hconfined
    · exact (h.confined j).of_agree (hrest.of_rest (hdisjoint j i hj))
  · cases hslot : (shares i).slots e.1 with
    | true => exact ⟨i, hslot⟩
    | false =>
      have hmem : e ∈ (shares i).rest.guards w.slots :=
        hrest.slots ▸ List.mem_filter.2 ⟨he, by simp [Share.rest, hslot]⟩
      exact h.owned e (List.mem_filter.1 hmem).1

/-- **All turns**, of any steps that belong to one party each. -/
theorem alone (hdisjoint : ∀ i j, i ≠ j → (shares i).Disjoint (shares j)) (i : ι)
    (act : β → Step Unit) (mine : β → Bool) {steps : List β}
    (hsteps : ∀ x ∈ steps, ∃ j, (mine x = true ↔ j = i) ∧
      ∀ b, ((shares j).isolated b).Mirrors Eq (act x) (act x))
    (hw : Orderly shares w) (hagree : (shares i).Agree w v) :
    List.Forall₂ (fun r r' => r.1 = r'.1 ∧ (shares i).SameFor r.2 r'.2)
        ((eachRun act steps w).filter fun r => mine r.1) (eachRun act (steps.filter mine) v) ∧
      (shares i).Agree (afterEach act steps w) (afterEach act (steps.filter mine) v) ∧
      Orderly shares (afterEach act steps w) := by
  refine eachRun_alone (fun x hx w hw => ?_) (fun x hx hmine w v hw hagree => ?_)
    (fun x hx hmine w hw => ?_) hw hagree
  · obtain ⟨j, -, hmirrors⟩ := hsteps x hx
    exact hw.turn hdisjoint hmirrors
  · obtain ⟨j, hj, hmirrors⟩ := hsteps x hx
    obtain rfl := hj.1 hmine
    exact (Share.turn hmirrors hagree (hw.confined j)).1
  · obtain ⟨j, hj, hmirrors⟩ := hsteps x hx
    have hne : i ≠ j := fun he => by simp [hj.2 he.symm] at hmine
    exact (Share.turn hmirrors (.refl _ w) (hw.confined j)).2.2.of_rest (hdisjoint i j hne)

end Orderly

/-- What each item does in a world that is empty at first. -/
def turns (p : Platform) (schedule : List (ι × Item)) :
    List ((ι × Item) × Run World Happening Panic Unit) :=
  eachRun (fun e => e.2.run p []) schedule .empty

def turnsEnd (p : Platform) (schedule : List (ι × Item)) : World :=
  afterEach (fun e => e.2.run p []) schedule .empty

/-- What the ending of each guard does that is left in a slot. -/
def endings (p : Platform) (schedule : List (ι × Item)) :
    List ((String × Guard) × Run World Happening Panic Unit) :=
  eachRun (endGuard p) (turnsEnd p schedule).slots (turnsEnd p schedule)

def inTurn (schedule : List (ι × Item)) : Program :=
  schedule.foldr (fun e rest => e.2.followedBy rest) .done

theorem run_inTurn (running : List String) (schedule : List (ι × Item)) :
    run p running (inTurn schedule) = schedule.forM fun e => e.2.run p running := by
  induction schedule with
  | nil => rfl
  | cons e schedule ih =>
    have hcons : inTurn (e :: schedule) = e.2.followedBy (inTurn schedule) := rfl
    rw [hcons, Item.run_followedBy, ih]
    rfl

theorem endGuards_eq (slots : List (String × Guard)) :
    endGuards p slots = slots.forM (endGuard p) := by
  induction slots with
  | nil => rfl
  | cons e slots ih =>
    rw [endGuards_cons, ih]
    rfl

/-- Ending a guard that outlived its program does not fail, whatever the guard does. -/
theorem endGuard_returns (e : String × Guard) (w : World) : (endGuard p e w).failed = false := by
  simp only [endGuard, bind_apply, modify_apply, Run.andThen_ok, attempt_apply]
  generalize (Guard.leave p (.slot e.1) false e.2 (w.discard e.1)).outcome = ending
  cases ending <;> rfl

/-- If no item fails, all that happens is what the items do, and what the endings of the guards
do. -/
theorem history_inTurn {schedule : List (ι × Item)}
    (h : ∀ r ∈ turns p schedule, r.2.failed = false) : history p (inTurn schedule) =
      (turns p schedule).flatMap (·.2.trace) ++ (endings p schedule).flatMap (·.2.trace) := by
  have hendings : ∀ r ∈ endings p schedule, r.2.failed = false := by
    have hreturned (slots : List (String × Guard)) (w : World) :
        ∀ r ∈ eachRun (endGuard p) slots w, r.2.failed = false := by
      induction slots generalizing w with
      | nil => simp [eachRun]
      | cons e slots ih =>
        intro r hr
        rcases List.mem_cons.1 hr with rfl | hr
        · exact endGuard_returns e w
        · exact ih _ r hr
    exact hreturned _ _
  have hrun : run p [] (inTurn schedule) .empty
      = ⟨.ok (), turnsEnd p schedule, (turns p schedule).flatMap (·.2.trace)⟩ := by
    rw [run_inTurn]
    exact forM_of_returned h
  have hending : endGuards p (turnsEnd p schedule).slots (turnsEnd p schedule)
      = ⟨.ok (), afterEach (endGuard p) (turnsEnd p schedule).slots (turnsEnd p schedule),
          (endings p schedule).flatMap (·.2.trace)⟩ := by
    rw [endGuards_eq]
    exact forM_of_returned hendings
  simp [history, runToEnd, hrun, hending]

theorem returned_of_same {s : Share} {runs runs' : List (β × Run World Happening Panic Unit)}
    (h : List.Forall₂ (fun r r' => r.1 = r'.1 ∧ s.SameFor r.2 r'.2) runs runs')
    (hreturned : ∀ r ∈ runs', r.2.failed = false) : ∀ r ∈ runs, r.2.failed = false := by
  induction h with
  | nil => simp
  | @cons r r' _ _ hsame _ ih =>
    have hr : r.2.failed = r'.2.failed := by simp only [Run.failed, hsame.2.outcome]
    intro q hq
    rcases List.mem_cons.1 hq with rfl | hq
    · exact hr.trans (hreturned r' List.mem_cons_self)
    · exact ih (fun q hq => hreturned q (List.mem_cons_of_mem _ hq)) q hq

/-- **All turns.** If no item fails where its party is alone, then none fails where the parties take
turns. All that happens is what the items do, and then what the endings of the guards do, and each
party has the same of it as if it were alone. -/
theorem parties_are_isolated [DecidableEq ι] {shares : ι → Share}
    (hdisjoint : ∀ i j, i ≠ j → (shares i).Disjoint (shares j)) {schedule : List (ι × Item)}
    (hown : ∀ e ∈ schedule, e.2.In (shares e.1).vocabulary)
    (hreturns : ∀ i, ∀ r ∈ turns p (schedule.filter (·.1 = i)), r.2.failed = false) :
    history p (inTurn schedule)
        = (turns p schedule).flatMap (·.2.trace) ++ (endings p schedule).flatMap (·.2.trace) ∧
      ∀ i, let own := schedule.filter (·.1 = i)
        history p (inTurn own)
            = (turns p own).flatMap (·.2.trace) ++ (endings p own).flatMap (·.2.trace) ∧
          List.Forall₂ (fun r r' => r.1 = r'.1 ∧ (shares i).SameFor r.2 r'.2)
            ((turns p schedule).filter (·.1.1 = i)) (turns p own) ∧
          List.Forall₂ (fun r r' => r.1 = r'.1 ∧ (shares i).SameFor r.2 r'.2)
            ((endings p schedule).filter fun r => (shares i).slots r.1.1) (endings p own) := by
  have hitems (i : ι) := Orderly.alone hdisjoint i (fun e => e.2.run p []) (·.1 = i)
    (fun e he => ⟨e.1, by simp, Share.mirrors_item (hown e he)⟩) (.empty shares) (.refl _ .empty)
  refine ⟨history_inTurn fun r hr => ?_, fun i => ⟨history_inTurn (hreturns i), (hitems i).1, ?_⟩⟩
  · have hruns := (hitems r.1.1).1
    exact returned_of_same hruns (hreturns r.1.1) r (List.mem_filter.2 ⟨hr, by simp⟩)
  obtain ⟨-, hagree, horderly⟩ := hitems i
  -- Alone, the party owns all slots.
  have hown' : Orderly (fun _ : Unit => shares i) (turnsEnd p (schedule.filter (·.1 = i))) := by
    refine (Orderly.alone (fun _ _ h => absurd rfl h) () (fun e : ι × Item => e.2.run p [])
      (fun _ => true)
      (fun e he => ⟨(), by simp, ?_⟩) (.empty _) (.refl _ .empty)).2.2
    obtain ⟨hmem, hi⟩ := List.mem_filter.1 he
    obtain rfl : e.1 = i := by simpa using hi
    exact Share.mirrors_item (hown e hmem)
  have hslots : (turnsEnd p schedule).slots.filter (fun e => (shares i).slots e.1)
      = (turnsEnd p (schedule.filter (·.1 = i))).slots := by
    refine hagree.slots.trans (List.filter_eq_self.2 fun e he => ?_)
    obtain ⟨-, hslot⟩ := hown'.owned e he
    exact hslot
  have howners : ∀ e ∈ (turnsEnd p schedule).slots, ∃ j, ((shares i).slots e.1 = true ↔ j = i) ∧
      ∀ b, ((shares j).isolated b).Mirrors Eq (endGuard p e) (endGuard p e) := by
    intro e he
    obtain ⟨j, hslot⟩ := horderly.owned e he
    refine ⟨j, ⟨fun hi => ?_, fun hj => hj ▸ hslot⟩, Share.mirrors_endGuard hslot
      (horderly.confined j e (List.mem_filter.2 ⟨he, hslot⟩))⟩
    by_contra hj
    simp [(hdisjoint j i hj).slots e.1 hslot] at hi
  have hendings := Orderly.alone hdisjoint i (endGuard p) (fun e => (shares i).slots e.1) howners
    horderly hagree
  rw [hslots] at hendings
  exact hendings.1

def twoShares : Bool → Share
  | false => ⟨fun name => name = "t", fun slot => slot = "g"⟩
  | true => ⟨fun name => name = "u" ∨ name = "b", fun slot => slot = "h"⟩

/-- The backend of one thread calls back, that of the other one fails. Both parties leave a guard in
a slot. -/
def twoParties : List (Bool × Item) :=
  [(false, .step (.newThread "t" (.scripted [⟨0, .enable .exec⟩]) none none)),
    (true, .step (.newThread "u" (.scripted [⟨0, .fail⟩]) none none)),
    (true, .attempt (.step (.init "u") .done)),
    (false, .step (.hold "g" .delegated .write (some "t"))),
    (true, .step (.newBuffer "b" none)),
    (true, .step (.hold "h" .delegated .exec (some "u"))),
    (false, .step (.ask (.status "t"))),
    (true, .step (.emit "b" (some "u") ⟨#[0xC3]⟩))]

theorem parties_are_isolated_two :
    history {} (inTurn twoParties)
        = (turns {} twoParties).flatMap (·.2.trace) ++ (endings {} twoParties).flatMap (·.2.trace) ∧
      ∀ i, List.Forall₂ (fun r r' => r.1 = r'.1 ∧ (twoShares i).SameFor r.2 r'.2)
          ((turns {} twoParties).filter (·.1.1 = i)) (turns {} (twoParties.filter (·.1 = i))) ∧
        List.Forall₂ (fun r r' => r.1 = r'.1 ∧ (twoShares i).SameFor r.2 r'.2)
          ((endings {} twoParties).filter fun r => (twoShares i).slots r.1.1)
          (endings {} (twoParties.filter (·.1 = i))) := by
  have hdisjoint : ∀ i j, i ≠ j → (twoShares i).Disjoint (twoShares j) := by
    intro i j hne
    cases i <;> cases j <;> first | exact absurd rfl hne | constructor <;> simp [twoShares]
  have hown : ∀ e ∈ twoParties, e.2.In (twoShares e.1).vocabulary := by
    simp [twoParties, twoShares, Item.In, Item.followedBy, Program.In, Operation.In,
      Share.vocabulary, Share.Names, Operation.object?, Question.thread?, Question.slot?,
      Question.buffer?]
  have hreturns : ∀ i, ∀ r ∈ turns {} (twoParties.filter (·.1 = i)), r.2.failed = false := by
    intro i
    cases i <;> decide +kernel
  obtain ⟨hhistory, heach⟩ := parties_are_isolated hdisjoint hown hreturns
  exact ⟨hhistory, fun i => (heach i).2⟩

end WriteXorExecute
