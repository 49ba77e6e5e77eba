import WriteXorExecute.Proofs.PlainCell
import WriteXorExecute.Proofs.Recasting
import WriteXorExecute.Report
/-!
# What a backend reaches

A thread passes its changes of mode on to a backend. What the backend reaches is nobody's business:
nothing, the system's switch, or a script that is only written down. As long as the same happens
inside the calls of two backends, a program comes to the same with either: the answers, the panics,
the modes and counts of all threads, the code and all that is recorded are the same. Where one
backend is called, so is the other, with the same mode.

The system's switch is not touched where it is not supported. Where it is, and one thread alone has
it, it is always set to the mode of that thread.

- **Where a call leads** (`begins_outlet`): to what the backend of the thread reaches.
- **Other backends** (`backends_are_exchangeable`).
-/
namespace WriteXorExecute

open Procedure Correspondence Thread

variable {p : Platform} {name : String}

/-! ## Where a call leads -/

/-- Every call of the backend has led to what the backend reaches. -/
structure Thread.Reaches (p : Platform) (t : Thread) (events : List Thread.Event) (t' : Thread) :
    Prop where
  backend : t'.backend = t.backend
  outlet : ∀ outlet mode seen, .begins outlet mode seen ∈ events → outlet = t.backend.outlet p

namespace Thread.Reaches

theorem law : Law (Reaches p) where
  refl _ := ⟨rfl, by simp⟩
  trans h h' := by
    refine ⟨h'.backend.trans h.backend, fun outlet mode seen he => ?_⟩
    rcases List.mem_append.1 he with he | he
    · exact h.outlet outlet mode seen he
    · exact (h'.outlet outlet mode seen he).trans (by rw [h.backend])

theorem note {event : Thread.Event} (h : event.isAside = true) (t : Thread) :
    Reaches p t [event] t := by
  refine ⟨rfl, fun outlet mode seen he => ?_⟩
  rw [← List.mem_singleton.1 he] at h
  cases h

/-- A call leads to what the backend of its thread reaches, and so do the calls inside it. -/
theorem call {t t₁ t₂ t' : Thread} {mode : Mode} {seen : Status} {inner : List Thread.Event}
    {ending : Thread.Event} (h : Reaches p t₁ inner t₂) (ht₁ : t₁.backend = t.backend)
    (ht' : t'.backend = t₂.backend)
    (hending : ∀ outlet mode seen, ending ≠ .begins outlet mode seen) :
    Reaches p t ([.record (.modeChange mode), .begins (t.backend.outlet p) mode seen]
      ++ inner ++ [ending]) t' := by
  refine ⟨ht'.trans (h.backend.trans ht₁), fun outlet asked told he => ?_⟩
  simp only [List.mem_append, List.mem_cons, reduceCtorEq, false_or, List.not_mem_nil, or_false,
    Event.begins.injEq] at he
  rcases he with (⟨rfl, -⟩ | he) | he
  · rfl
  · rw [h.outlet outlet asked told he, ht₁]
  · exact absurd he.symm (hending outlet asked told)

theorem useLaw (p : Platform) : UseLaw p (Reaches p) :=
  (CallLaw.of_ends law (fun _ h t => note h t) (fun _ h => h.call rfl rfl nofun)
    fun _ h => h.call rfl rfl nofun).useLaw

end Thread.Reaches

theorem mem_threadEvents {trace : List Happening} {event : Thread.Event} :
    event ∈ threadEvents name trace ↔ .thread name event ∈ trace := by
  simp only [threadEvents, List.mem_filterMap]
  constructor
  · rintro ⟨happening, hmem, hevent⟩
    cases happening with
    | thread other found =>
      simp only [Happening.ofThread?, Option.ite_none_right_eq_some, Option.some.injEq] at hevent
      obtain ⟨rfl, rfl⟩ := hevent
      exact hmem
    | toggle | barrier | selfCheck | mark => cases hevent
  · intro hmem
    exact ⟨_, hmem, by simp [Happening.ofThread?]⟩

/-- **Where a call leads.** In a run from the beginning, a call of the backend of a thread leads to
what that backend reaches. -/
theorem begins_outlet {program : Program} {outlet : Backend.Outlet} {mode : Mode} {seen : Status}
    (h : .thread name (.begins outlet mode seen) ∈ history p program) :
    ∃ t, (runToEnd p program .empty).state.threads.get? name = some t ∧
      outlet = t.backend.outlet p := by
  have hobeys : Obeys (Follows (Reaches p) name) (runToEnd p program) :=
    .runToEnd (Reaches.useLaw p) program
  have hfollows := (hobeys .empty).thread
  have hevent := mem_threadEvents.2 h
  change Lives (Reaches p) none (threadEvents name (history p program)) _ at hfollows
  generalize (runToEnd p program .empty).state.threads.get? name = found at hfollows ⊢
  cases found with
  | none =>
    have hnil : threadEvents name (history p program) = [] := hfollows
    simp [hnil] at hevent
  | some t =>
    obtain ⟨t₀, -, hreaches⟩ := hfollows
    exact ⟨t, rfl, by rw [hreaches.outlet _ _ _ hevent, hreaches.backend]⟩

/-! ## Other backends -/

/-- The same happens inside the calls of both backends. -/
structure Backend.SameScript (b b' : Backend) : Prop where
  script : b.script = b'.script
  whileFailing : b.whileFailing = b'.whileFailing

/-- The operation, with a backend that is only written down. -/
def Operation.recorded : Operation → Operation
  | newThread name backend initialMode checkAtSync =>
    newThread name (.scripted backend.script backend.whileFailing) initialMode checkAtSync
  | op => op

/-- What happened, if all backends were only written down, and nobody asked whether the switch is
supported. -/
def Happening.recorded : Happening → Happening
  | thread name (.begins _ mode seen) => thread name (.begins .script mode seen)
  | mark (.completed (.operation (.ask .support)) _) now =>
    mark (.completed (.operation (.ask .support)) .nothing) now
  | mark (.completed (.operation op) reply) now =>
    mark (.completed (.operation op.recorded) reply) now
  | happening => happening

/-- A call of a backend is recorded as such, wherever it leads. -/
theorem Happening.eq_begins_of_recorded {happening : Happening} {mode : Mode} {seen : Status}
    (h : happening.recorded = .thread name (.begins .script mode seen)) :
    ∃ outlet, happening = .thread name (.begins outlet mode seen) := by
  cases happening with
  | thread other event =>
    cases event with
    | begins outlet asked told =>
      simp only [recorded, thread.injEq, Event.begins.injEq, true_and] at h
      obtain ⟨rfl, rfl, rfl⟩ := h
      exact ⟨outlet, rfl⟩
    | record | returns | unwinds | reinitialized | reenabled | caught => simp [recorded] at h
  | toggle | barrier | selfCheck => simp [recorded] at h
  | mark m now =>
    unfold recorded at h
    split at h <;> simp_all

/-- Two worlds that differ at most in what the backends of their threads reach. -/
abbrev World.SameButBackends (w w' : World) : Prop :=
  w.Recast Backend.SameScript (fun _ => Eq) w'

/-- Two runs that differ at most in what backends reach, and in the answer to whether the switch is
supported. -/
structure SameButBackends {α : Type} (r r' : Run World Happening Panic α) : Prop where
  outcome : r.outcome = r'.outcome
  trace : r.trace.map Happening.recorded = r'.trace.map Happening.recorded
  state : r.state.SameButBackends r'.state

namespace SameButBackends

/-- Only one question has to do with backends. -/
theorem answer (question : Question) {w w' : World} (h : w.SameButBackends w')
    (switchSupported : Bool) (now : Snapshot) :
    Happening.recorded (.mark (.completed (.operation (.ask question)) (question.answer p w)) now)
      = .recorded (.mark (.completed (.operation (.ask question))
        (question.answer { p with switchSupported } w')) now) := by
  have same (hquestion : question ≠ .support) :
      question.answer p w = question.answer { p with switchSupported } w' :=
    h.answer rfl (fun he => absurd he hquestion) fun _ _ _ _ hflag => hflag
  cases question with
  | support => rfl
  | _ => rw [same nofun]

/-- Backends with the same script can be exchanged, and the system's switch supported or not. -/
theorem recasting (p : Platform) (switchSupported : Bool) : Recasting p { p with switchSupported }
    Backend.SameScript (fun _ => Eq) Happening.recorded .none where
  platform := rfl
  thread _ := ⟨fun h => h, fun h => h.script, fun h => h.whileFailing, fun _ _ _ => rfl⟩
  misuse _ := ⟨fun _ h => absurd (h.1.symm.trans h.2.1) nofun,
    fun _ h => absurd (h.1.symm.trans h.2.1) nofun⟩
  panicked _ hcause := hcause.elim
  told _ _ _ _ _ _ h := by
    simp only [Happening.recorded, Operation.recorded]
    rw [h.script, h.whileFailing]
  made _ _ _ _ _ := .inl rfl
  answer question _ _ h now := .inl (answer question h switchSupported now)

theorem of_alike {α : Type} {r r' : Run World Happening Panic α}
    (h : (World.recast Backend.SameScript (fun _ => Eq) Happening.recorded).Alike Eq r r') :
    SameButBackends r r' :=
  ⟨h.outcome.eq, h.map_eq (fun _ => rfl) fun _ => rfl, h.states⟩

end SameButBackends

/-! ## The system's switch -/

/-- What the system's switch has been set to, in order. -/
def switchSettings (trace : List Happening) : List String :=
  trace.filterMap fun
    | .thread _ (.begins .system mode _) => some mode.switchSetting
    | _ => none

/-- The switch is set to 0 for `write` and to 1 for `exec`. -/
theorem switchSetting_eq (mode : Mode) :
    mode.switchSetting = if mode = .write then "0" else "1" := by
  cases mode <;> rfl

/-- Each call that leads to the switch sets it once. -/
theorem switchSettings_take {past : List Happening} {i : Nat} {mode : Mode} {seen : Status}
    (h : past[i]? = some (.thread name (.begins .system mode seen))) :
    switchSettings (past.take (i + 1))
      = switchSettings (past.take i) ++ [if mode = .write then "0" else "1"] := by
  rw [List.take_add_one, h, ← switchSetting_eq]
  exact List.filterMap_append

/-- If the calls of one thread are those that lead to the switch, it is set to their modes. -/
theorem switchSettings_eq {trace : List Happening} (h : ∀ other outlet mode seen,
      .thread other (.begins outlet mode seen) ∈ trace → (outlet = .system ↔ other = name)) :
    switchSettings trace = (begun (threadEvents name trace)).map Mode.switchSetting := by
  induction trace with
  | nil => rfl
  | cons happening trace ih =>
    have hrest := ih fun other outlet mode seen he => h other outlet mode seen (.tail _ he)
    have hcons : threadEvents name (happening :: trace)
        = threadEvents name [happening] ++ threadEvents name trace :=
      threadEvents_append [happening] trace
    have hsplit : switchSettings (happening :: trace)
        = switchSettings [happening] ++ switchSettings trace :=
      List.filterMap_append (l := [happening])
    rw [hcons, hsplit, begun_append, List.map_append, hrest]
    congr 1
    cases happening with
    | thread other event =>
      cases event with
      | begins outlet mode seen =>
        have hiff := h other outlet mode seen List.mem_cons_self
        by_cases hother : other = name
        · obtain rfl := hiff.2 hother
          simp [switchSettings, threadEvents, Happening.ofThread?, hother, begun]
        · have houtlet : outlet ≠ .system := fun he => hother (hiff.1 he)
          cases outlet with
          | system => exact absurd rfl houtlet
          | inert | script =>
            simp [switchSettings, threadEvents, Happening.ofThread?, hother, begun]
      | record | returns | unwinds | reinitialized | reenabled | caught =>
        by_cases hother : other = name <;>
          simp [switchSettings, threadEvents, Happening.ofThread?, hother, begun]
    | toggle | barrier | selfCheck | mark => rfl

/-- Where one thread alone has the system's switch, it is set to the mode of that thread. -/
theorem switch_follows_mode {program : Program} {t : Thread} (hsupported : p.switchSupported = true)
    (ht : (runToEnd p program .empty).state.threads.get? name = some t)
    (hsystem : t.backend = .system)
    (hsingle : ∀ other u, (runToEnd p program .empty).state.threads.get? other = some u →
      u.backend = .system → other = name) :
    Throughout (fun before x => ∀ m now mode, x = .mark m now → now.modeOf? name = some mode →
      (switchSettings before).getLast? = some (if mode = .write then "0" else "1"))
      (history p program) := by
  have hsystem_iff (other : String) (outlet : Backend.Outlet) (mode : Mode) (seen : Status)
      (he : .thread other (.begins outlet mode seen) ∈ history p program) :
      outlet = .system ↔ other = name := by
    obtain ⟨u, hu, rfl⟩ := begins_outlet he
    constructor
    · intro houtlet
      refine hsingle other u hu ?_
      cases hbackend : u.backend with
      | system => rfl
      | null | scripted => simp [hbackend, Backend.outlet] at houtlet
    · rintro rfl
      obtain rfl : t = u := Option.some.inj (ht.symm.trans hu)
      simp [hsystem, Backend.outlet, hsupported]
  -- So the switch has been set to what the backend of this thread has been called with.
  intro before x after he m now mode hx hmode
  have hbooked := modeOf?_of_booked (follows_booked p program name) before x after he m now hx
  rw [switchSettings_eq fun other outlet asked seen hmem =>
    hsystem_iff other outlet asked seen (he ▸ List.mem_append_left _ hmem)]
  rw [List.getLast?_map, ← hbooked, hmode, ← switchSetting_eq]
  rfl

/-! ## Programs -/

/-- **Other backends.** Whether the system supports its switch, and what the backends of threads
reach, cannot be told from anything else. A call that leads to what one backend reaches leads to
what the other one reaches, with the same mode and at the same point. A call that leads to the
switch sets it once, to 0 for `write` and to 1 for `exec`. Where the switch is not supported, it is
left alone; where it is, and one thread has it, it is set to the mode of that thread. -/
theorem backends_are_exchangeable (p : Platform) (switchSupported : Bool) :
    (∀ program program' : Program, program.Matches (exchange Backend.SameScript) program' →
      (∀ w w' : World, w.SameButBackends w' →
        (∀ running, SameButBackends (run p running program w)
          (run { p with switchSupported } running program' w')) ∧
        SameButBackends (runToEnd p program w)
          (runToEnd { p with switchSupported } program' w')) ∧
      ∀ (i : Nat) name outlet mode seen,
        (history p program)[i]? = some (Happening.thread name (.begins outlet mode seen)) →
        ∃ outlet' t t', (history { p with switchSupported } program')[i]?
            = some (Happening.thread name (.begins outlet' mode seen)) ∧
          (runToEnd p program .empty).state.threads.get? name = some t ∧
          outlet = t.backend.outlet p ∧
          (runToEnd { p with switchSupported } program' .empty).state.threads.get? name
            = some t' ∧
          outlet' = t'.backend.outlet { p with switchSupported }) ∧
    (∀ program (i : Nat) name mode seen,
      (history p program)[i]? = some (Happening.thread name (.begins .system mode seen)) →
      (Happening.thread name (.begins .system mode seen)).text?
          = some (if mode = .write then "jit 0" else "jit 1") ∧
        switchSettings ((history p program).take (i + 1))
          = switchSettings ((history p program).take i)
            ++ [if mode = .write then "0" else "1"]) ∧
    (p.switchSupported = false → ∀ program, switchSettings (history p program) = []) ∧
    (p.switchSupported = true → ∀ program name t,
      (runToEnd p program .empty).state.threads.get? name = some t → t.backend = .system →
      (∀ other u, (runToEnd p program .empty).state.threads.get? other = some u →
        u.backend = .system → other = name) →
      Throughout (fun before x => ∀ m now mode, x = .mark m now → now.modeOf? name = some mode →
        (switchSettings before).getLast? = some (if mode = .write then "0" else "1"))
        (history p program)) := by
  have hrecasting := SameButBackends.recasting p switchSupported
  refine ⟨fun program program' hmatch => ?_,
    fun program i name mode seen hi => ⟨by cases mode <;> rfl, switchSettings_take hi⟩,
    fun hsupported program => ?_,
    fun hsupported program name t ht hsystem hsingle =>
      switch_follows_mode hsupported ht hsystem hsingle⟩
  · have hend (w w' : World) (hw : w.SameButBackends w') : SameButBackends (runToEnd p program w)
        (runToEnd { p with switchSupported } program' w') :=
      .of_alike ((hrecasting.runToEnd hmatch).mirrors w w' hw)
    refine ⟨fun w w' hw => ⟨fun running => .of_alike ((hrecasting.counterparts.run hmatch
      running).mirrors w w' hw), hend w w' hw⟩, fun i name outlet mode seen hi => ?_⟩
    have htrace := congrArg (fun events => events[i]?) (hend .empty .empty .empty).trace
    change ((history p program).map _)[i]? = ((history _ program').map _)[i]? at htrace
    rw [List.getElem?_map, List.getElem?_map, hi] at htrace
    obtain ⟨happening, hi', hrecorded⟩ := Option.map_eq_some_iff.1 htrace.symm
    obtain ⟨outlet', rfl⟩ := Happening.eq_begins_of_recorded hrecorded
    obtain ⟨t, ht, houtlet⟩ := begins_outlet (List.mem_of_getElem? hi)
    obtain ⟨t', ht', houtlet'⟩ := begins_outlet (List.mem_of_getElem? hi')
    exact ⟨outlet', t, t', hi', ht, houtlet, ht', houtlet'⟩
  · refine List.filterMap_eq_nil_iff.2 fun happening hmem => ?_
    split
    · obtain ⟨t, -, houtlet⟩ := begins_outlet hmem
      cases hbackend : t.backend <;> simp [hbackend, Backend.outlet, hsupported] at houtlet
    · rfl

/-- A thread is initialised, asked, lent to a guard and initialised again. -/
def switchingProgram (backend : Backend) : Program :=
  .step (.newThread "t" backend none none) <|
  .step (.enable "t" .exec) <|
  .attempt (.step (.init "t") .done) <|
  .scope ⟨.guarded .active, .write, some "t"⟩ (.step (.panic "stop") .done) .done

def switchedThread : Thread where
  backend := .system
  config := { checkAtSync := true }
  mode := some .exec
  transitions := 4
  calls := 4

theorem backends_are_exchangeable_switching :
    (switchingProgram .system).Matches (exchange Backend.SameScript)
        (switchingProgram (.scripted [])) ∧
      SameButBackends (runToEnd { target := .macos } (switchingProgram .system) .empty)
        (runToEnd { target := .macos, switchSupported := false } (switchingProgram (.scripted []))
          .empty) ∧
      Throughout (fun before x => ∀ m now mode, x = .mark m now → now.modeOf? "t" = some mode →
        (switchSettings before).getLast? = some (if mode = .write then "0" else "1"))
        (history { target := .macos } (switchingProgram .system)) ∧
      switchSettings (history { target := .macos } (switchingProgram .system))
        = ["0", "1", "0", "1"] := by
  have hmatch : (switchingProgram .system).Matches (exchange Backend.SameScript)
      (switchingProgram (.scripted [])) :=
    .step (.plain rfl (.newThread none none ⟨rfl, rfl⟩)) <| .step (.plain rfl (.same rfl)) <|
      .attempt (.step (.plain rfl (.same rfl)) .done) <|
      .scope rfl (.step (.plain rfl (.same rfl)) .done) .done
  obtain ⟨hexchange, -, -⟩ := backends_are_exchangeable { target := .macos } false
  obtain ⟨-, -, -, hfollows⟩ := backends_are_exchangeable { target := .macos } true
  have hentries : (runToEnd { target := .macos } (switchingProgram .system)
      .empty).state.threads.entries = [("t", switchedThread)] := by decide +kernel
  have ht : (runToEnd { target := .macos } (switchingProgram .system) .empty).state.threads.get? "t"
      = some switchedThread := by
    rw [Table.get?, hentries]
    rfl
  refine ⟨hmatch, ((hexchange _ _ hmatch).1 .empty .empty .empty).2,
    hfollows rfl _ "t" _ ht rfl fun other u hu _ => ?_, by decide +kernel⟩
  rw [Table.get?, hentries] at hu
  by_contra hother
  simp [List.lookup_cons, beq_false_of_ne hother] at hu

end WriteXorExecute
