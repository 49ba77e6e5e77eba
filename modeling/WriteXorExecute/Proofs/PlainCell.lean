import WriteXorExecute.Proofs.Access
import WriteXorExecute.Proofs.Agreement
import WriteXorExecute.Proofs.Brackets
/-!
# A thread is a plain cell

A thread that is asked for the mode that it is in passes nothing on. Nobody can tell: a plain cell,
which stores every mode that it is asked for and answers with the one before, can stand for the
thread. The answers, the guards, the panics and everything that is done elsewhere are the same, and
the backend is called where the cell changes, and nowhere else.

This is for threads whose backend keeps still, in every state that a run can come to, and for
programs that use the thread by asking it for modes and through guards and code (`Operation.Blind`).

- **One request** (`Replaced.switch`): the thread skips its backend, or the cell changes.
- **Programs** (`thread_is_plain_cell`).
-/
namespace WriteXorExecute

open Procedure Correspondence Thread

variable {p : Platform} {name : String} {w v : World} {t : Thread}

/-! ## Cells -/

/-- A toggle that tells the truth and never fails. -/
structure Toggle.Plain (c : Toggle) : Prop where
  answers : c.answers = []
  failures : c.failures = []

namespace Toggle.Plain

variable {c : Toggle}

theorem called (h : c.Plain) (mode : Mode) : (c.called mode).Plain :=
  ⟨h.answers, h.failures⟩

theorem nextAnswer (h : c.Plain) : c.nextAnswer = c.mode := by
  simp [Toggle.nextAnswer, h.answers]

theorem enable (h : c.Plain) (failing : Bool) (mode : Mode) :
    Toggle.enable failing mode c = ⟨.ok c.mode, c.called mode, [⟨mode, c.mode⟩]⟩ := by
  simp [Toggle.enable_apply, h.failures, h.nextAnswer]

end Toggle.Plain

/-- The operation does not look at the thread of this name, and does not initialise it. It may ask
it for modes. -/
def Operation.Blind (name : String) : Operation → Prop
  | ask question => question.thread? ≠ some name
  | init thread | assertMode thread _ => thread ≠ name
  | _ => True

/-- What is seen of a program that uses the thread, or the cell, of a name. -/
inductive Sight (name : String) where
  /-- The mode is changed. -/
  | switched (mode : Mode)
  /-- Something else happens. -/
  | other (happening : Happening)
  /-- A point of the run is reached, in this mode, with this much code under the name, and with
  these other objects. -/
  | mark (mark : Mark) (mode : Option Mode) (code : Option Nat) (others : Glance (· ≠ name))

/-- Where the thread is there: its mode is changed by calls of its backend. -/
def Happening.sightOfThread (name : String) : Happening → List (Sight name)
  | thread other event =>
    if other = name then (begun [event]).map .switched else [.other (.thread other event)]
  | mark m now =>
    [.mark m (now.modeOf? name) (now.buffers.get? name) (now.glance (· ≠ name))]
  | happening => [.other happening]

def Snapshot.cellMode? (now : Snapshot) (name : String) : Option Mode :=
  (now.toggles.get? name).map (·.1)

def Toggle.Event.change? (event : Toggle.Event) : Option Mode :=
  if event.asked = event.answer then none else some event.asked

/-- Where the cell is there: its mode is changed if it is asked for another one. -/
def Happening.sightOfCell (name : String) : Happening → List (Sight name)
  | toggle other event =>
    if other = name then event.change?.toList.map .switched else [.other (.toggle other event)]
  | mark m now =>
    [.mark m (now.cellMode? name) (now.buffers.get? name) (now.glance (· ≠ name))]
  | happening => [.other happening]

/-- The modes that the cell of this name changes to, in order. -/
def changes (name : String) (trace : List Happening) : List Mode :=
  trace.filterMap fun
    | .toggle other event => if other = name then event.change? else none
    | _ => none

def Sight.switched? {name : String} : Sight name → Option Mode
  | switched mode => some mode
  | _ => none

theorem sightOfThread_map (events : List Thread.Event) :
    (events.map (.thread name)).flatMap (Happening.sightOfThread name)
      = (begun events).map .switched := by
  induction events with
  | nil => rfl
  | cons event events ih =>
    have hcons : begun (event :: events) = begun [event] ++ begun events :=
      begun_append [event] events
    rw [List.map_cons, List.flatMap_cons, ih, hcons, List.map_append]
    simp [Happening.sightOfThread]

/-- The calls of the backend can be seen. -/
theorem switched_of_thread (trace : List Happening) :
    (trace.flatMap (Happening.sightOfThread name)).filterMap Sight.switched?
      = begun (threadEvents name trace) := by
  induction trace with
  | nil => rfl
  | cons happening trace ih =>
    have hcons : threadEvents name (happening :: trace)
        = threadEvents name [happening] ++ threadEvents name trace :=
      threadEvents_append [happening] trace
    rw [List.flatMap_cons, List.filterMap_append, ih, hcons, begun_append]
    congr 1
    cases happening with
    | thread other event =>
      by_cases hother : other = name
      · simp [Happening.sightOfThread, threadEvents, Happening.ofThread?, hother,
          List.filterMap_map, Function.comp_def, Sight.switched?]
      · simp [Happening.sightOfThread, threadEvents, Happening.ofThread?, hother, begun,
          Sight.switched?]
    | toggle | barrier | selfCheck | mark => rfl

/-- So can the changes of the cell. -/
theorem switched_of_cell (trace : List Happening) :
    (trace.flatMap (Happening.sightOfCell name)).filterMap Sight.switched?
      = changes name trace := by
  induction trace with
  | nil => rfl
  | cons happening trace ih =>
    have hcons : changes name (happening :: trace)
        = changes name [happening] ++ changes name trace :=
      List.filterMap_append (l := [happening])
    rw [List.flatMap_cons, List.filterMap_append, ih, hcons]
    congr 1
    cases happening with
    | toggle other event =>
      by_cases hother : other = name
      · cases hchange : event.change? <;>
          simp [Happening.sightOfCell, changes, hother, hchange, Sight.switched?]
      · simp [Happening.sightOfCell, changes, hother, Sight.switched?]
    | thread | barrier | selfCheck | mark => rfl

/-! ## A cell for a thread -/

/-- The second world has a plain cell where the first one has a thread that keeps still. The cell
stores the mode of the thread. All else is the same. -/
structure Replaced (name : String) (w v : World) : Prop where
  others : w.AgreeAt (· ≠ name) v
  buffer : w.buffers.get? name = v.buffers.get? name
  slots : w.slots = v.slots
  cell : ∃ t c mode, Steady name mode t w ∧ v.Toggles name c ∧ c.Plain ∧ c.mode = mode

def Table.without {α : Type} (t : Table α) (name : String) : Table α :=
  ⟨t.entries.filter fun e => e.1 ≠ name⟩

theorem Table.get?_without {α : Type} (t : Table α) (name other : String) :
    (t.without name).get? other = if other = name then none else t.get? other := by
  obtain ⟨entries⟩ := t
  simp only [Table.get?, Table.without]
  induction entries with
  | nil => simp
  | cons e entries ih => grind

/-- The world with a plain cell in place of the thread of this name. -/
def World.withCell (w : World) (name : String) (mode : Mode) : World :=
  { w with
    threads := w.threads.without name
    toggles := (w.toggles.without name).add name { mode } }

/-- A cell can be put in place of every thread that has a mode and keeps still. -/
theorem replaced_withCell {mode : Mode} (h : Steady name mode t w) :
    Replaced name w (w.withCell name mode) where
  others := by
    refine ⟨fun other hother => ?_, fun other hother => ?_, fun _ _ => rfl⟩
    · simp [World.withCell, Table.get?_without, hother]
    · simp [World.withCell, Table.get?_add_of_ne hother, Table.get?_without, hother]
  buffer := rfl
  slots := rfl
  cell := by
    refine ⟨t, { mode }, mode, h, ⟨?_, ?_⟩, ⟨rfl, rfl⟩, rfl⟩
    · simp [World.withCell, Table.get?_without]
    · simp [World.withCell, Table.get?_add_self, Table.get?_without]

def plainCell (name : String) : Correspondence World Happening (Sight name) where
  states := Replaced name
  seen := Happening.sightOfThread name
  seen' := Happening.sightOfCell name

namespace Replaced

/-- Other objects, and guards, are changed in both worlds. -/
theorem edit (h : Replaced name w v) {other : String} {change : World → World}
    (hother : other ≠ name) (hedit : World.EditsAt other change) :
    Replaced name (change w) (change v) := by
  obtain ⟨t, c, mode, hsteady, hcell, hplain, hmode⟩ := h.cell
  have hw := (hedit.elsewhere w).mono fun n (hn : n = name) => hn ▸ hother.symm
  have hv := (hedit.elsewhere v).mono fun n (hn : n = name) => hn ▸ hother.symm
  refine ⟨h.others.edit hother hedit, ?_, ?_, t, c, mode, ⟨?_, hsteady.still, hsteady.mode⟩,
    ⟨?_, ?_⟩, hplain, hmode⟩
  · rw [hw.buffers name rfl, hv.buffers name rfl, h.buffer]
  · rw [hedit.slots, hedit.slots, h.slots]
  · rw [hw.threads name rfl, hsteady.thread]
  · rw [hv.threads name rfl, hcell.thread]
  · rw [hv.toggles name rfl, hcell.toggle]

theorem withSlots (h : Replaced name w v)
    (change : List (String × Guard) → List (String × Guard)) :
    Replaced name { w with slots := change w.slots } { v with slots := change v.slots } := by
  obtain ⟨t, c, mode, hsteady, hcell, hrest⟩ := h.cell
  exact ⟨⟨h.others.threads, h.others.toggles, h.others.buffers⟩, h.buffer,
    congrArg change h.slots, t, c, mode, ⟨hsteady.thread, hsteady.still, hsteady.mode⟩,
    ⟨hcell.thread, hcell.toggle⟩, hrest⟩

theorem localAt : LocalAt (· ≠ name) (plainCell name) where
  seen happening hunder := by
    cases happening with
    | thread other event | toggle other event =>
      have hother : other ≠ name := hunder
      simp [plainCell, Happening.sightOfThread, Happening.sightOfCell, hother]
    | barrier | selfCheck => rfl
    | mark => exact hunder.elim
  agree h := h.others
  edit hother hedit h := h.edit hother hedit

theorem mark (m : Mark) : (plainCell name).Mirrors Eq (mark m) (mark m) := by
  intro w v h
  refine ⟨.ok rfl, h, ?_⟩
  obtain ⟨t, c, mode, hsteady, hcell, -, hmode⟩ := h.cell
  have htracked : w.snapshot.modeOf? name = some mode :=
    (modeOf?_of_thread hsteady.thread).trans hsteady.mode
  have hstored : v.snapshot.cellMode? name = some mode := by
    simp [Snapshot.cellMode?, World.snapshot, hcell.toggle, hmode]
  have hcode : w.snapshot.buffers.get? name = v.snapshot.buffers.get? name := by
    simp [World.snapshot, h.buffer]
  simp [plainCell, Happening.sightOfThread, Happening.sightOfCell, htracked, hstored, hcode,
    h.others.glance]

/-- **One request.** Thread and cell answer alike, and are then in the same mode. -/
theorem switch (failing : Bool) (other : String) (mode : Mode) :
    (plainCell name).Mirrors Eq (switch p failing other mode) (switch p failing other mode) := by
  by_cases hother : other = name
  · subst hother
    intro w v h
    obtain ⟨t, c, found, hsteady, hcell, hplain, rfl⟩ := h.cell
    obtain ⟨t', events, henable, hstill, hmode, hcalls⟩ := enable_calls hsteady.still p failing mode
    have hbase : t.baseMode = c.mode := by simp [baseMode, hsteady.mode]
    have hevents : begun events = if c.mode = mode then [] else [mode] := by
      rw [hcalls, firstCall_of_some hsteady.mode, hbase, List.nil_append]
    rw [switch_of_thread hsteady.thread, switch_of_toggle hcell, hplain.enable, henable, hbase]
    refine ⟨.ok rfl, ⟨?_, h.buffer, h.slots, t', c.called mode, mode, ?_, ?_, ?_, rfl⟩, ?_⟩
    · exact ⟨fun n hn => (Table.get?_update_of_ne hn).trans (h.others.threads n hn),
        fun n hn => (h.others.toggles n hn).trans (Table.get?_update_of_ne hn).symm,
        h.others.buffers⟩
    · exact ⟨World.withThread_self hsteady.thread t', hstill, hmode⟩
    · exact hcell.withToggle _
    · exact hplain.called mode
    · simp only [plainCell]
      rw [sightOfThread_map, hevents, hplain.nextAnswer]
      by_cases hsame : c.mode = mode
      · simp [Happening.sightOfCell, Toggle.Event.change?, hsame]
      · simp [Happening.sightOfCell, Toggle.Event.change?, hsame, Ne.symm hsame]
  · exact localAt.switch hother failing mode

/-- The buffer of every name is the same. -/
theorem sameBuffer (h : Replaced name w v) (buffer : String) :
    w.buffer buffer = v.buffer buffer := by
  by_cases hbuffer : buffer = name
  · rw [World.buffer, World.buffer, hbuffer, h.buffer]
  · exact h.others.buffer hbuffer

theorem onBuffer (buffer : String) (change : CodeBuffer → CodeBuffer) :
    (plainCell name).Mirrors Eq (onBuffer buffer change) (onBuffer buffer change) := by
  by_cases hbuffer : buffer = name
  · subst hbuffer
    refine .modify fun w v h => ?_
    have hedit := World.EditsAt.updateBuffer buffer change
    obtain ⟨t, c, mode, hsteady, hcell, hrest⟩ := h.cell
    refine ⟨?_, by simp [h.buffer], h.slots, t, c, mode,
      ⟨hsteady.thread, hsteady.still, hsteady.mode⟩, ⟨hcell.thread, hcell.toggle⟩, hrest⟩
    exact (hedit.elsewhere w).trans (h.others.trans (hedit.elsewhere v).symm)
  · exact localAt.onBuffer hbuffer change

/-- The name is taken, by the thread or by the cell. -/
theorem create {change : World → World} :
    (plainCell name).Mirrors Eq (create name change) (create name change) := by
  refine .modify fun w v h => ?_
  obtain ⟨t, c, mode, hsteady, hcell, -⟩ := h.cell
  have hw : w.knows name = true := by simp [World.knows, Table.contains, hsteady.thread]
  have hv : v.knows name = true := by simp [World.knows, Table.contains, hcell.toggle]
  simpa [hw, hv] using h

theorem perform (running : List String) {op : Operation} (hop : op.Blind name) {other : String}
    (hobject : op.object? = some other) :
    (plainCell name).Mirrors Eq (perform p running op) (perform p running op) := by
  by_cases hother : other = name
  · subst hother
    cases op with
    | newThread n | newToggle n | newBuffer n =>
      obtain rfl : n = other := Option.some.inj hobject
      exact create.bind_same fun _ => .pure rfl
    | enable n mode => exact (switch false n mode).bind_same fun _ => .pure rfl
    | init n | assertMode n mode => exact absurd (Option.some.inj hobject) hop
    | _ => cases hobject
  · exact localAt.perform running hobject hother

/-- A program that does not look at the thread is run again. -/
theorem rerun (p : Platform) (name : String) :
    Rerun p { plain := Operation.Blind name } (fun _ => True) (plainCell name) where
  mark := mark
  seen happening hunder := by
    cases happening with
    | thread | toggle | mark => exact hunder.elim
    | barrier | selfCheck => rfl
  thread _ := True.intro
  switch failing other mode _ := switch failing other mode
  guard _ h := ⟨by rw [World.guard?, World.guard?, h.slots], fun _ _ _ _ => True.intro⟩
  keep _ _ h := h.withSlots (_ :: ·)
  discard _ h := h.withSlots (·.eraseP _)
  buffer _ h := h.sameBuffer _
  onBuffer change _ := onBuffer _ change
  object running _ _ hop hobject := perform running hop hobject
  ask {question w v} hop h := by
    refine Question.answer_congr (fun thread hthread => ?_) (fun slot _ => ?_) fun buffer _ => ?_
    · exact h.others.threads thread fun he => hop (he ▸ hthread)
    · rw [World.guard?, World.guard?, h.slots]
    · exact h.sameBuffer buffer

theorem simulation (p : Platform) (name : String) :
    Simulation p p { plain := Operation.Blind name } ((plainCell name).same fun _ => True) :=
  (rerun p name).simulation

end Replaced

/-! ## Programs -/

/-- The mode that the thread tells, the mode that its backend was last sent, and the mode that the
cell stores are the same; so is all else. -/
structure InStep (name : String) (trace : List Happening) (w v : World) : Prop
    extends Replaced name w v where
  mode : ∃ mode, Switched name mode trace w ∧ v.snapshot.cellMode? name = some mode

/-- A run with the thread and a run with the cell, where `before` has happened to the thread. -/
structure StandsFor (name : String) (before : List Happening)
    (r r' : Run World Happening Panic Unit) : Prop where
  outcome : r.outcome = r'.outcome
  /-- The replies, the guards, and what happens elsewhere. -/
  seen : r.trace.flatMap (Happening.sightOfThread name)
    = r'.trace.flatMap (Happening.sightOfCell name)
  /-- The backend is called where the cell changes. -/
  calls : begun (threadEvents name r.trace) = changes name r'.trace
  /-- At every point, the thread tells the mode that its backend was last sent. -/
  sent : Throughout (fun earlier x => ∀ m now, x = .mark m now →
    now.modeOf? name = (begun (threadEvents name (before ++ earlier))).getLast?) r.trace
  inStep : InStep name (before ++ r.trace) r.state r'.state

section

variable {before : List Happening}

theorem Replaced.inStep (h : Replaced name w v) (hbooked : Follows Booked name .empty before w) :
    InStep name before w v := by
  obtain ⟨t, c, mode, hsteady, hcell, -, hmode⟩ := h.cell
  refine ⟨h, mode, .of_booked hbooked ?_, ?_⟩
  · exact (modeOf?_of_thread hsteady.thread).trans hsteady.mode
  · simp [Snapshot.cellMode?, World.snapshot, hcell.toggle, hmode]

/-- The mode that a mark shows is the one that the backend was last sent. -/
theorem modeOf?_of_booked {trace : List Happening} {w' : World}
    (h : Follows Booked name .empty trace w') : Throughout (fun earlier x => ∀ m now,
      x = .mark m now → now.modeOf? name = (begun (threadEvents name earlier)).getLast?) trace := by
  refine h.seen.imp fun earlier x _ hx m now hm => ?_
  obtain ⟨t, hlives, hnow⟩ := hx m now hm
  cases t with
  | none =>
    have hnil : threadEvents name earlier = [] := hlives
    simp [Snapshot.modeOf?, hnow, hnil, begun]
  | some t =>
    obtain ⟨t₀, hfresh, hbooked⟩ := hlives
    have hmode := congrArg Status.mode hbooked.status
    simpa [Snapshot.modeOf?, hnow, Thread.status, expected, hfresh.mode] using hmode

/-- What is done alike with the thread and with the cell. -/
theorem StandsFor.of_mirrors {x y : Step Unit} (hbooked : Follows Booked name .empty before w)
    (hx : Obeys (Follows Booked name) x) (hxy : (plainCell name).Mirrors Eq x y)
    (h : Replaced name w v) : StandsFor name before (x w) (y v) := by
  obtain ⟨houtcome, hstates, hseen⟩ := hxy w v h
  have hafter : Follows Booked name .empty (before ++ (x w).trace) (x w).state :=
    booked_after hbooked hx rfl
  refine ⟨houtcome.eq, hseen, ?_, ?_, Replaced.inStep hstates hafter⟩
  · have hswitched := congrArg (List.filterMap Sight.switched?) hseen
    simpa only [plainCell, switched_of_thread, switched_of_cell] using hswitched
  · exact (Throughout.append_iff.1 (modeOf?_of_booked hafter)).2

/-- **Programs.** From every position that a run can come to, a program that does not look at the
thread does with a plain cell what it does with the thread; and it comes to the same positions. -/
theorem thread_is_plain_cell {way : List Frame} {place : Place}
    (hlead : Leads p way { world := .empty } before place)
    (hcell : Replaced name place.world v) :
    (∀ program, program.All (Operation.Blind name) →
      StandsFor name before (run p place.running program place.world)
          (run p place.running program v) ∧
        StandsFor name before (runToEnd p program place.world) (runToEnd p program v)) ∧
    (∀ onward later b, (∀ f ∈ onward, f.All (Operation.Blind name)) →
      Leads p onward place later b →
      ∃ later' b', Leads p onward { place with world := v } later' b' ∧
        b'.running = b.running ∧ InStep name (before ++ later) b.world b'.world ∧
        later.flatMap (Happening.sightOfThread name)
          = later'.flatMap (Happening.sightOfCell name)) := by
  have hsimulation := Replaced.simulation p name
  have hbooked := booked_at hlead name
  refine ⟨fun program hprogram => ⟨?_, ?_⟩, fun onward later b honward hlead' => ?_⟩
  · exact .of_mirrors hbooked (Follows.run (useLaw_booked p) _ program)
      (hsimulation.run program hprogram.in_plain _) hcell
  · refine .of_mirrors hbooked (Follows.runToEnd (useLaw_booked p) program)
      (hsimulation.runToEnd (fun _ => True.intro) (fun w v h => ?_) program hprogram.in_plain) hcell
    have hslots : w.slots = v.slots := h.slots
    rw [hslots]
    exact List.forall₂_same.2 fun e _ => ⟨rfl, rfl, fun _ _ => True.intro⟩
  · obtain ⟨later', b', hlead'', hrunning, hstates, hseen⟩ :=
      hsimulation.leads hlead' (fun f hf => (honward f hf).in_plain) hcell
    exact ⟨later', b', hlead'', hrunning,
      Replaced.inStep hstates (booked_at (hlead.append hlead') name), hseen⟩

end

/-- A thread that is lent to a guard in a slot. -/
def lentProgram : Program :=
  .step (.newThread "t" (.scripted []) (some .exec) none) <|
  .step (.init "t") <|
  .step (.hold "g" .delegated .write (some "t")) .done

def lentWorld : World :=
  ((Item.attempt lentProgram).run { target := .macos } [] .empty).state

def lentThread : Thread where
  backend := .scripted []
  config := { initialMode := .exec, checkAtSync := true }
  mode := some .write
  transitions := 2
  calls := 2

/-- Ends the guard in the slot while a mode is held. -/
def returningProgram : Program :=
  .scope ⟨.closure, .exec, some "t"⟩ (.step (.drop "g") .done) .done

theorem thread_is_plain_cell_lent :
    ∃ before, Leads { target := .macos } [.past (.attempt lentProgram)] { world := .empty }
        before { world := lentWorld } ∧
      Replaced "t" lentWorld (lentWorld.withCell "t" .write) ∧
      StandsFor "t" before (runToEnd { target := .macos } returningProgram lentWorld)
        (runToEnd { target := .macos } returningProgram (lentWorld.withCell "t" .write)) := by
  have hlead : Leads { target := .macos } [.past (.attempt lentProgram)] { world := .empty }
      _ { world := lentWorld } := .past_of_not_failed (by decide +kernel) (.here _)
  have ht : lentWorld.threads.get? "t" = some lentThread := by decide +kernel
  have hcell := replaced_withCell ⟨ht, still_of_script (by decide), rfl⟩
  have hblind : returningProgram.All (Operation.Blind "t") :=
    ⟨⟨True.intro, True.intro⟩, True.intro⟩
  exact ⟨_, hlead, hcell, ((thread_is_plain_cell hlead hcell).1 returningProgram hblind).2⟩

end WriteXorExecute
