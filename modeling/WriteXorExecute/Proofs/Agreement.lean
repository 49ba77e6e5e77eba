import WriteXorExecute.Proofs.Locality
import WriteXorExecute.Proofs.Simulation
/-!
# Worlds that agree on some names

An operation reads and changes only what has the names that it is given. So it is done alike in two
worlds that agree on those names, whatever else is in them, and they agree on them afterwards; what
has other names stays as it is.

- **Changes under one name** (`World.EditsAt`): what one name has is all that they depend on and all
  that they change.
- **The same again** (`Rerun.simulation`): on one platform, the runs of a program from two worlds
  are alike if the names that it asks for modes answer alike.
-/
namespace WriteXorExecute

open Procedure Correspondence

variable {α ο : Type} {p : Platform} {names : String → Prop} {name : String} {w v b : World}
  {change : World → World}

/-! ## Agreement -/

/-- The worlds have the same objects under these names. -/
structure World.AgreeAt (names : String → Prop) (w v : World) : Prop where
  threads : ∀ name, names name → w.threads.get? name = v.threads.get? name
  toggles : ∀ name, names name → w.toggles.get? name = v.toggles.get? name
  buffers : ∀ name, names name → w.buffers.get? name = v.buffers.get? name

namespace World.AgreeAt

theorem refl (names : String → Prop) (w : World) : w.AgreeAt names w :=
  ⟨fun _ _ => rfl, fun _ _ => rfl, fun _ _ => rfl⟩

theorem trans {u : World} (h : w.AgreeAt names v) (h' : v.AgreeAt names u) : w.AgreeAt names u :=
  ⟨fun name hname => (h.threads name hname).trans (h'.threads name hname),
    fun name hname => (h.toggles name hname).trans (h'.toggles name hname),
    fun name hname => (h.buffers name hname).trans (h'.buffers name hname)⟩

theorem symm (h : w.AgreeAt names v) : v.AgreeAt names w :=
  ⟨fun name hname => (h.threads name hname).symm, fun name hname => (h.toggles name hname).symm,
    fun name hname => (h.buffers name hname).symm⟩

theorem mono {fewer : String → Prop} (h : w.AgreeAt names v)
    (hfewer : ∀ name, fewer name → names name) : w.AgreeAt fewer v :=
  ⟨fun name hname => h.threads name (hfewer name hname),
    fun name hname => h.toggles name (hfewer name hname),
    fun name hname => h.buffers name (hfewer name hname)⟩

theorem knows (h : w.AgreeAt names v) (hname : names name) : w.knows name = v.knows name := by
  simp only [World.knows, Table.contains, h.threads name hname, h.toggles name hname,
    h.buffers name hname]

theorem buffer (h : w.AgreeAt names v) (hname : names name) : w.buffer name = v.buffer name := by
  rw [World.buffer, World.buffer, h.buffers name hname]

end World.AgreeAt

/-! ## Changes under one name -/

/-- The change depends on what has this name, and on nothing else; and it changes nothing else. -/
structure World.EditsAt (name : String) (change : World → World) : Prop where
  here : ∀ {w v : World}, w.AgreeAt (· = name) v → (change w).AgreeAt (· = name) (change v)
  elsewhere : ∀ w, (change w).AgreeAt (· ≠ name) w
  slots : ∀ w, (change w).slots = w.slots

namespace World.EditsAt

theorem updateThread (name : String) (f : Thread → Thread) :
    EditsAt name fun w => { w with threads := w.threads.update name f } where
  here h := ⟨fun other hother => by simp [hother, h.threads name rfl], h.toggles, h.buffers⟩
  elsewhere _ := ⟨fun _ hother => Table.get?_update_of_ne hother, fun _ _ => rfl, fun _ _ => rfl⟩
  slots _ := rfl

theorem updateToggle (name : String) (f : Toggle → Toggle) :
    EditsAt name fun w => { w with toggles := w.toggles.update name f } where
  here h := ⟨h.threads, fun other hother => by simp [hother, h.toggles name rfl], h.buffers⟩
  elsewhere _ := ⟨fun _ _ => rfl, fun _ hother => Table.get?_update_of_ne hother, fun _ _ => rfl⟩
  slots _ := rfl

theorem updateBuffer (name : String) (f : CodeBuffer → CodeBuffer) :
    EditsAt name fun w => { w with buffers := w.buffers.update name f } where
  here h := ⟨h.threads, h.toggles, fun other hother => by simp [hother, h.buffers name rfl]⟩
  elsewhere _ := ⟨fun _ _ => rfl, fun _ _ => rfl, fun _ hother => Table.get?_update_of_ne hother⟩
  slots _ := rfl

theorem addThread (name : String) (t : Thread) :
    EditsAt name fun w => { w with threads := w.threads.add name t } where
  here h := ⟨fun other hother => by simp [hother, Table.get?_add_self, h.threads name rfl],
    h.toggles, h.buffers⟩
  elsewhere _ := ⟨fun _ hother => Table.get?_add_of_ne hother, fun _ _ => rfl, fun _ _ => rfl⟩
  slots _ := rfl

theorem addToggle (name : String) (t : Toggle) :
    EditsAt name fun w => { w with toggles := w.toggles.add name t } where
  here h := ⟨h.threads,
    fun other hother => by simp [hother, Table.get?_add_self, h.toggles name rfl], h.buffers⟩
  elsewhere _ := ⟨fun _ _ => rfl, fun _ hother => Table.get?_add_of_ne hother, fun _ _ => rfl⟩
  slots _ := rfl

theorem addBuffer (name : String) (b : CodeBuffer) :
    EditsAt name fun w => { w with buffers := w.buffers.add name b } where
  here h := ⟨h.threads, h.toggles,
    fun other hother => by simp [hother, Table.get?_add_self, h.buffers name rfl]⟩
  elsewhere _ := ⟨fun _ _ => rfl, fun _ _ => rfl, fun _ hother => Table.get?_add_of_ne hother⟩
  slots _ := rfl

end World.EditsAt

namespace World.AgreeAt

/-- Worlds that agree on some names agree on them after a change under one of the names. -/
theorem edit (h : w.AgreeAt names v) (hname : names name) (hedit : EditsAt name change) :
    (change w).AgreeAt names (change v) := by
  have hhere := hedit.here (h.mono fun other hother => hother ▸ hname)
  have helsewhere (other : String) (hother : other ≠ name) (hnames : names other) :
      (change w).AgreeAt (· = other) (change v) := by
    have hw := (hedit.elsewhere w).mono fun n (hn : n = other) => hn ▸ hother
    have hv := (hedit.elsewhere v).mono fun n (hn : n = other) => hn ▸ hother
    have hwv := h.mono fun n (hn : n = other) => hn ▸ hnames
    exact ⟨fun n hn => (hw.threads n hn).trans ((hwv.threads n hn).trans (hv.threads n hn).symm),
      fun n hn => (hw.toggles n hn).trans ((hwv.toggles n hn).trans (hv.toggles n hn).symm),
      fun n hn => (hw.buffers n hn).trans ((hwv.buffers n hn).trans (hv.buffers n hn).symm)⟩
  have each (other : String) (hnames : names other) :
      (change w).AgreeAt (· = other) (change v) := by
    by_cases hother : other = name
    · exact hother ▸ hhere
    · exact helsewhere other hother hnames
  exact ⟨fun other hnames => (each other hnames).threads other rfl,
    fun other hnames => (each other hnames).toggles other rfl,
    fun other hnames => (each other hnames).buffers other rfl⟩

/-- A change under another name does not count. -/
theorem edit_of_not (h : w.AgreeAt names b) (hname : ¬names name) (hedit : EditsAt name change) :
    (change w).AgreeAt names b :=
  ((hedit.elsewhere w).mono fun _ hother he => hname (he ▸ hother)).trans h

end World.AgreeAt

/-! ## What is seen of some names -/

/-- What is seen of the objects of these names. -/
structure Glance (names : String → Prop) where
  threads : { name // names name } → Option Thread.Status
  toggles : { name // names name } → Option (Mode × Nat)
  buffers : { name // names name } → Option Nat

def Snapshot.glance (names : String → Prop) (now : Snapshot) : Glance names where
  threads name := now.threads.get? name
  toggles name := now.toggles.get? name
  buffers name := now.buffers.get? name

theorem World.AgreeAt.glance (h : w.AgreeAt names v) :
    w.snapshot.glance names = v.snapshot.glance names := by
  simp only [Snapshot.glance, World.snapshot, Table.get?_map, Glance.mk.injEq]
  exact ⟨funext fun n => by rw [h.threads n n.2], funext fun n => by rw [h.toggles n n.2],
    funext fun n => by rw [h.buffers n n.2]⟩

/-! ## Questions -/

namespace Question

def thread? : Question → Option String
  | status thread | check thread _ | sync thread | config thread => some thread
  | _ => none

def slot? : Question → Option String
  | guard slot => some slot
  | _ => none

def buffer? : Question → Option String
  | code buffer | extent buffer | display buffer => some buffer
  | _ => none

/-- Where what a question is about is the same, so is the answer. -/
theorem answer_congr {q : Question}
    (hthread : ∀ name, q.thread? = some name → w.threads.get? name = v.threads.get? name)
    (hslot : ∀ slot, q.slot? = some slot → w.guard? slot = v.guard? slot)
    (hbuffer : ∀ name, q.buffer? = some name → w.buffer name = v.buffer name) :
    q.answer p w = q.answer p v := by
  cases q with
  | status thread | check thread mode | sync thread | config thread =>
    simp only [answer, ofThread, hthread thread rfl]
  | guard slot => simp only [answer, hslot slot rfl]
  | code buffer | extent buffer | display buffer => simp only [answer, hbuffer buffer rfl]
  | strategy | support | defaultMaxSize | modeTexts | modeErrorTexts | codeErrorTexts
  | strategyTexts | sameError | finding => rfl

end Question

/-! ## Steps under one name -/

/-- Corresponding worlds agree on these names, and correspond after the same change under one. What
happens under these names is seen alike. -/
structure LocalAt (names : String → Prop) (C : Correspondence World Happening ο) : Prop where
  seen : ∀ happening : Happening, happening.Under names →
    C.seen happening = C.seen' happening
  agree : ∀ {w v}, C.states w v → w.AgreeAt names v
  edit : ∀ {name change w v}, names name → World.EditsAt name change → C.states w v →
    C.states (change w) (change v)

namespace LocalAt

variable {C : Correspondence World Happening ο} (h : LocalAt names C) (hname : names name)

include h hname

theorem onThread (x : Thread.Step α) : C.Mirrors Eq (onThread name x) (onThread name x) := by
  intro w v hw
  have hthread := (h.agree hw).threads name hname
  cases ht : w.threads.get? name with
  | none =>
    rw [onThread_of_none ht, onThread_of_none (hthread ▸ ht)]
    exact ⟨.ok rfl, hw, rfl⟩
  | some t =>
    rw [onThread_of_some ht, onThread_of_some (hthread ▸ ht)]
    refine ⟨.of_eq rfl, h.edit hname (.updateThread name _) hw, List.flatMap_congr fun e he => ?_⟩
    obtain ⟨event, -, rfl⟩ := List.mem_map.1 he
    exact h.seen _ hname

theorem onToggle (x : Toggle.Step α) : C.Mirrors Eq (onToggle name x) (onToggle name x) := by
  intro w v hw
  have htoggle := (h.agree hw).toggles name hname
  cases ht : w.toggles.get? name with
  | none =>
    rw [onToggle_of_none ht, onToggle_of_none (htoggle ▸ ht)]
    exact ⟨.ok rfl, hw, rfl⟩
  | some t =>
    rw [onToggle_of_some ht, onToggle_of_some (htoggle ▸ ht)]
    refine ⟨.of_eq rfl, h.edit hname (.updateToggle name _) hw, List.flatMap_congr fun e he => ?_⟩
    obtain ⟨event, -, rfl⟩ := List.mem_map.1 he
    exact h.seen _ hname

theorem switch (failing : Bool) (mode : Mode) :
    C.Mirrors Eq (switch p failing name mode) (switch p failing name mode) := by
  refine (h.onThread hname _).bind_same fun answer => ?_
  cases answer with
  | some previous => exact .pure rfl
  | none => exact (h.onToggle hname _).bind_same fun _ => .pure rfl

theorem onBuffer (change : CodeBuffer → CodeBuffer) :
    C.Mirrors Eq (onBuffer name change) (onBuffer name change) :=
  .modify fun _ _ hw => h.edit hname (.updateBuffer name change) hw

theorem create (hedit : World.EditsAt name change) :
    C.Mirrors Eq (create name change) (create name change) := by
  refine .modify fun w v hw => ?_
  rw [(h.agree hw).knows hname]
  split
  · exact hw
  · exact h.edit hname hedit hw

end LocalAt

def Operation.object? : Operation → Option String
  | newThread name .. | newToggle name _ | newBuffer name _ | init name | enable name _
  | assertMode name _ => some name
  | _ => none

/-- An operation on an object that both worlds have. -/
theorem LocalAt.perform {C : Correspondence World Happening ο} (h : LocalAt names C)
    (running : List String) {op : Operation} (hop : op.object? = some name)
    (hname : names name) : C.Mirrors Eq (perform p running op) (perform p running op) := by
  cases op with
  | newThread other backend initialMode checkAtSync =>
    obtain rfl : other = name := Option.some.inj hop
    exact (h.create hname (.addThread _ _)).bind_same fun _ => .pure rfl
  | newToggle other toggle =>
    obtain rfl : other = name := Option.some.inj hop
    exact (h.create hname (.addToggle _ _)).bind_same fun _ => .pure rfl
  | newBuffer other maxSize =>
    obtain rfl : other = name := Option.some.inj hop
    exact (h.create hname (.addBuffer _ _)).bind_same fun _ => .pure rfl
  | init other =>
    obtain rfl : other = name := Option.some.inj hop
    exact (h.onThread hname _).bind_same fun _ => .pure rfl
  | enable other mode =>
    obtain rfl : other = name := Option.some.inj hop
    exact (h.switch hname false mode).bind_same fun _ => .pure rfl
  | assertMode other mode =>
    obtain rfl : other = name := Option.some.inj hop
    exact (h.onThread hname _).bind_same fun _ => .pure rfl
  | _ => cases hop

/-! ## The same again -/

/-- Whether the guard gives its mode back to one of these names, if it does so at all. -/
def Guard.Asks (asked : String → Prop) (g : Guard) : Prop :=
  ∀ name, g.holds? = some name → asked name

/-- The same guards and the same replies. -/
def Correspondence.same (C : Correspondence World Happening ο) (asked : String → Prop) :
    Comparison ο where
  toCorrespondence := C
  guards g g' := g = g' ∧ g.Asks asked

/-- On one platform, the steps of a program of the vocabulary `v` are done alike in corresponding
worlds. Its guards ask the names `asked` for modes. -/
structure Rerun (p : Platform) (v : Vocabulary) (asked : String → Prop)
    (C : Correspondence World Happening ο) : Prop where
  mark : ∀ m, C.Mirrors Eq (mark m) (mark m)
  seen : ∀ happening : Happening, happening.Under (fun _ => False) →
    C.seen happening = C.seen' happening
  thread : ∀ {name}, v.thread (some name) → asked name
  switch : ∀ failing {name} mode, asked name →
    C.Mirrors Eq (switch p failing name mode) (switch p failing name mode)
  guard : ∀ {w w' slot}, v.slot slot → C.states w w' →
    w.guard? slot = w'.guard? slot ∧ ∀ g, w.guard? slot = some g → g.Asks asked
  keep : ∀ {w w' slot g}, v.slot slot → g.Asks asked → C.states w w' →
    C.states (w.keep slot g) (w'.keep slot g)
  discard : ∀ {w w' slot}, v.slot slot → C.states w w' →
    C.states (w.discard slot) (w'.discard slot)
  buffer : ∀ {w w' buffer}, v.code buffer → C.states w w' → w.buffer buffer = w'.buffer buffer
  onBuffer : ∀ {buffer} change, v.code buffer →
    C.Mirrors Eq (onBuffer buffer change) (onBuffer buffer change)
  object : ∀ running {op name}, v.plain op → op.object? = some name →
    C.Mirrors Eq (perform p running op) (perform p running op)
  ask : ∀ {question w w'}, v.plain (.ask question) → C.states w w' →
    question.answer p w = question.answer p w'

namespace Rerun

variable {V : Vocabulary} {asked : String → Prop} {C : Correspondence World Happening ο}
  (h : Rerun p V asked C)

include h

theorem acquire (kind : Guard.Kind) (mode : Mode) {thread : Option String}
    (hthread : V.thread thread) :
    C.Mirrors Eq (Guard.acquire p kind mode thread) (Guard.acquire p kind mode thread) := by
  rcases Guard.acquire_cases p kind mode with ⟨-, hmake⟩ | ⟨-, b, -, hmake⟩ | ⟨-, hmake⟩ <;>
    rw [hmake]
  · cases thread with
    | none => exact .pure rfl
    | some name => exact (h.switch false mode (h.thread hthread)).bind_same fun _ => .pure rfl
  · exact Impartial.acquireBarrier h.seen b mode
  · exact .pure rfl

theorem release (failing : Bool) {g : Guard} (hg : g.Asks asked) :
    C.Mirrors Eq (Guard.release p failing g) (Guard.release p failing g) := by
  cases hholds : g.holds? with
  | none => exact Impartial.release h.seen failing hholds
  | some name =>
    obtain ⟨mode, previous, rfl⟩ := Guard.eq_delegated_of_holds hholds
    exact (h.switch failing previous (hg name rfl)).bind_same fun _ => .pure rfl

theorem plain (running : List String) {op : Operation} (hplain : op.isPlain = true)
    (hop : V.plain op) : C.Mirrors Eq (perform p running op) (perform p running op) := by
  cases op with
  | newThread | newToggle | newBuffer | init | enable | assertMode =>
    exact h.object running hop rfl
  | ask question => exact .get_bind fun w w' hw => ⟨.ok (h.ask hop hw), hw, rfl⟩
  | fence mode => exact Impartial.fence h.seen running mode
  | selfCheck check => exact Impartial.selfChecks h.seen running check
  | panic message => exact .fail _
  | hold | drop | forget | emit | patch | free => cases hplain

/-- **The same again.** -/
theorem simulation : Simulation p p V (C.same asked) where
  mark {m m'} hm := by
    obtain rfl : m = m' := by cases hm <;> simp_all [Correspondence.same]
    exact h.mark m
  enter holder kind mode thread hthread := by
    have hasks : Returns (Guard.Asks asked) (Guard.acquire p kind mode thread) := by
      intro w g hg name hname
      rw [Guard.acquire_holds kind mode thread w g hg] at hname
      split at hname
      · exact h.thread (hname ▸ hthread)
      · cases hname
    refine ((h.acquire kind mode hthread).of_returns hasks).bind fun g g' hg => ?_
    obtain ⟨rfl, hasks⟩ := hg
    exact (h.mark _).bind_same fun _ => .pure ⟨rfl, hasks⟩
  leave holder failing g g' hg := by
    obtain ⟨rfl, hasks⟩ := hg
    exact (h.release failing hasks).attempt.bind fun ending ending' hending =>
      (h.mark _).bind_same fun _ => .ofOutcome hending
  guard {w w' slot} hslot hw := by
    obtain ⟨heq, hasks⟩ := h.guard hslot hw
    rw [← heq]
    cases hg : w.guard? slot with
    | none => exact .none
    | some g => exact .some ⟨rfl, hasks g hg⟩
  keep hslot hg hw := by
    obtain ⟨rfl, hasks⟩ := hg
    exact h.keep hslot hasks hw
  discard := h.discard
  buffer := h.buffer
  onBuffer := h.onBuffer
  plain running _ hplain hop := h.plain running hplain hop
  reply _ _ := rfl
  held hg := hg.1 ▸ rfl
  entered hg := hg.1 ▸ rfl
  left hg := hg.1 ▸ rfl

end Rerun

end WriteXorExecute
