import WriteXorExecute.Proofs.ThreadHistory
/-!
# The books of a thread

A thread keeps its mode and a count. Its history tells which calls of the backend began, which came
back and which failed, and so what mode and count to expect. The backend may fail in any call, and
may ask its own thread for modes in any call, to any depth, also in calls that are made while a
panic is on its way.

- **One call** (`Booked.call`): if the books are right after all that happens inside a call, they
  are right after the call.
- **Every point of a history**: the mode that a thread shows is that of the call that began last,
  and the count is that of the calls that have come back.
-/
namespace WriteXorExecute

open Procedure

namespace Thread

/-! ## What the events of a thread tell of its calls -/

/-- The modes of the calls that have begun, in order. -/
def begun (events : List Event) : List Mode :=
  events.filterMap fun
    | .begins _ mode _ => some mode
    | _ => none

/-- The modes of the calls that have come back, in order. -/
def returned (events : List Event) : List Mode :=
  events.filterMap fun
    | .returns mode => some mode
    | _ => none

/-- The modes of the calls that have failed, in order. -/
def unwound (events : List Event) : List Mode :=
  events.filterMap fun
    | .unwinds mode => some mode
    | _ => none

/-- The calls that are in progress after an event, the innermost first. -/
def Event.nest (calls : List Mode) : Event → List Mode
  | begins _ mode _ => mode :: calls
  | returns _ | unwinds _ => calls.tail
  | _ => calls

/-- The modes of the calls that are in progress after the events, the innermost first, if those
of `calls` were before. -/
def inProgress (calls : List Mode) (events : List Event) : List Mode :=
  events.foldl Event.nest calls

@[simp] theorem begun_append (e₁ e₂ : List Event) : begun (e₁ ++ e₂) = begun e₁ ++ begun e₂ :=
  List.filterMap_append

@[simp] theorem returned_append (e₁ e₂ : List Event) :
    returned (e₁ ++ e₂) = returned e₁ ++ returned e₂ :=
  List.filterMap_append

@[simp] theorem unwound_append (e₁ e₂ : List Event) :
    unwound (e₁ ++ e₂) = unwound e₁ ++ unwound e₂ :=
  List.filterMap_append

@[simp] theorem inProgress_append (calls : List Mode) (e₁ e₂ : List Event) :
    inProgress calls (e₁ ++ e₂) = inProgress (inProgress calls e₁) e₂ :=
  List.foldl_append

/-! ## Right books -/

/-- What the thread `t` has to tell after the events: the mode of the call that began last, and one
more for each call that has come back. -/
def expected (t : Thread) (events : List Event) : Status :=
  ⟨(begun events).getLast?.or t.mode, t.transitions + UInt64.ofNat (returned events).length⟩

theorem expected_append {t t' : Thread} {e₁ : List Event} (h : t'.status = t.expected e₁)
    (e₂ : List Event) : t'.expected e₂ = t.expected (e₁ ++ e₂) := by
  simp only [status, expected, Status.mk.injEq] at h
  simp [expected, h.1, h.2, Option.or_assoc, UInt64.add_assoc, UInt64.ofNat_add]

/-- The books are right before an event, when the calls of `calls` were in progress at first: all
calls are accounted for, a call begins in the mode that the thread tells, and what ends is the
innermost call. -/
def Accounted (t : Thread) (calls : List Mode) (before : List Event) (event : Event) : Prop :=
  (inProgress calls before).length + (returned before).length + (unwound before).length
      = calls.length + (begun before).length ∧
    match event with
    | .begins _ _ seen => seen = t.expected (before ++ [event])
    | .returns mode | .unwinds mode => (inProgress calls before).head? = some mode
    | _ => True

/-- From `t` to `t'`, the books have been right all the time, and every call has ended. -/
structure Booked (t : Thread) (events : List Event) (t' : Thread) : Prop where
  status : t'.status = t.expected events
  total : (returned events).length + (unwound events).length = (begun events).length
  ended : ∀ calls, inProgress calls events = calls
  points : ∀ calls, Throughout (Accounted t calls) events

theorem Booked.law : Law Booked where
  refl t := ⟨by simp [Thread.status, expected, begun, returned], rfl, fun _ => rfl, fun _ => .nil⟩
  trans {t₁ t₂ t₃ e₁ e₂} h₁ h₂ := by
    have hstatus := expected_append h₁.status
    refine ⟨h₂.status.trans (hstatus e₂), ?_, fun calls => ?_, fun calls => ?_⟩
    · have := h₁.total
      have := h₂.total
      simp only [begun_append, returned_append, unwound_append, List.length_append]
      omega
    · rw [inProgress_append, h₁.ended, h₂.ended]
    · refine .append (h₁.points calls) ((h₂.points calls).imp fun before event _ h => ?_)
      obtain ⟨hcount, hevent⟩ := h
      refine ⟨?_, ?_⟩
      · have := h₁.total
        simp only [inProgress_append, h₁.ended, begun_append, returned_append, unwound_append,
          List.length_append]
        omega
      · cases event with
        | begins outlet mode seen =>
          rw [List.append_assoc, ← hstatus]
          exact hevent
        | returns mode | unwinds mode => simpa [h₁.ended] using hevent
        | record | reinitialized | reenabled | caught => exact True.intro

theorem Booked.note {event : Event} (h : event.isAside = true) (t : Thread) :
    Booked t [event] t := by
  cases event with
  | begins | returns | unwinds => simp [Event.isAside] at h
  | record | reinitialized | reenabled | caught =>
    refine ⟨?_, rfl, fun _ => rfl, fun calls => .singleton ⟨rfl, True.intro⟩⟩
    simp [Thread.status, expected, begun, returned]

/-- **One call.** The books are right after a call if they were right all through it. -/
theorem Booked.call {t t₁ t₂ t' : Thread} {mode : Mode} {events : List Event} {ending : Event}
    (outlet : Backend.Outlet) (ht₁ : t₁.status = ⟨some mode, t.transitions⟩)
    (h : Booked t₁ events t₂)
    (hending : ending = .returns mode ∧ t'.status = ⟨t₂.mode, t₂.transitions + 1⟩ ∨
      ending = .unwinds mode ∧ t'.status = t₂.status) :
    Booked t ([.record (.modeChange mode), .begins outlet mode ⟨some mode, t.transitions⟩]
      ++ events ++ [ending]) t' := by
  have hbegin : t₁.status = t.expected
      [.record (.modeChange mode), .begins outlet mode ⟨some mode, t.transitions⟩] := by
    rw [ht₁]
    simp [expected, begun, returned]
  have hstatus := h.status.trans (expected_append hbegin events)
  have hin (calls : List Mode) : inProgress calls
      ([.record (.modeChange mode), .begins outlet mode ⟨some mode, t.transitions⟩] ++ events)
        = mode :: calls := by
    rw [inProgress_append]
    exact h.ended (mode :: calls)
  refine ⟨?_, ?_, fun calls => ?_, fun calls => .snoc (.append ?_ ?_) ?_⟩
  · rw [← expected_append hstatus]
    obtain ⟨rfl, ht'⟩ | ⟨rfl, ht'⟩ := hending <;> rw [ht'] <;>
      simp [Thread.status, expected, begun, returned]
  · have := h.total
    obtain ⟨rfl, -⟩ | ⟨rfl, -⟩ := hending <;>
      simp [begun, returned, unwound] at * <;> omega
  · rw [inProgress_append, hin]
    obtain ⟨rfl, -⟩ | ⟨rfl, -⟩ := hending <;> rfl
  · refine Throughout.cons_iff.2 ⟨⟨rfl, True.intro⟩, .singleton ⟨rfl, ?_⟩⟩
    simp [expected, begun, returned]
  · refine (h.points (mode :: calls)).imp fun before event _ hpoint => ?_
    obtain ⟨hcount, hevent⟩ := hpoint
    refine ⟨?_, ?_⟩
    · simp [inProgress, Event.nest, begun, returned, unwound] at hcount ⊢
      omega
    · cases event with
      | begins outlet' mode' seen =>
        rw [List.append_assoc, ← expected_append hbegin]
        exact hevent
      | returns | unwinds => simpa [inProgress, Event.nest] using hevent
      | record | reinitialized | reenabled | caught => exact True.intro
  · refine ⟨?_, ?_⟩
    · rw [hin]
      have := h.total
      simp [begun, returned, unwound] at this ⊢
      omega
    · obtain ⟨rfl, -⟩ | ⟨rfl, -⟩ := hending <;> exact congrArg List.head? (hin calls)

theorem Booked.callLaw (p : Platform) : CallLaw p Booked :=
  .of_ends Booked.law (fun _ h t => Booked.note h t)
    (fun _ h => .call _ rfl h (.inl ⟨rfl, rfl⟩)) fun _ h => .call _ rfl h (.inr ⟨rfl, rfl⟩)

theorem useLaw_booked (p : Platform) : UseLaw p Booked :=
  (Booked.callLaw p).useLaw

end Thread

/-! ## Every point of a history -/

/-- What is told of the thread of this name: by every mark, and where a call of its backend
begins. -/
def Happening.shows? (name : String) : Happening → Option Thread.Status
  | thread other (.begins _ _ seen) => if other = name then some seen else none
  | mark _ now => now.threads.get? name
  | _ => none

open Thread

variable {p : Platform} {name : String}

/-- The books of a thread at a point of a history, where it tells `seen`. -/
structure Books (name : String) (before : List Happening) (x : Happening) (seen : Status) :
    Prop where
  /-- The mode is that of the call that began last. -/
  mode : seen.mode = (begun (threadEvents name (before ++ [x]))).getLast?
  /-- The count is that of the calls that have come back. -/
  count : seen.transitions.toNat = (returned (threadEvents name (before ++ [x]))).length
  /-- Every call that has begun has come back, is in progress, or has failed. -/
  total : (begun (threadEvents name (before ++ [x]))).length = seen.transitions.toNat
    + (inProgress [] (threadEvents name (before ++ [x]))).length
    + (unwound (threadEvents name (before ++ [x]))).length
  /-- Inside a call, the thread tells the mode of that call from the beginning. -/
  entered : ∀ outlet mode, x = .thread name (.begins outlet mode seen) → seen.mode = some mode
  /-- Between operations, no call is in progress. -/
  idle : ∀ m now, x = .mark m now → inProgress [] (threadEvents name (before ++ [x])) = []

theorem threadEvents_snoc_self (before : List Happening) (event : Thread.Event) :
    threadEvents name (before ++ [.thread name event]) = threadEvents name before ++ [event] := by
  simp [threadEvents, Happening.ofThread?]

theorem threadEvents_snoc_mark (before : List Happening) (m : Mark) (now : Snapshot) :
    threadEvents name (before ++ [.mark m now]) = threadEvents name before := by
  simp [threadEvents, Happening.ofThread?]

theorem follows_booked (p : Platform) (program : Program) (name : String) :
    Follows Booked name .empty (history p program) (runToEnd p program .empty).state :=
  Follows.runToEnd (useLaw_booked p) program .empty

/-- The same as long as the count may wrap: it is then a word. -/
structure Shown (name : String) (before : List Happening) (x : Happening) (seen : Status) :
    Prop where
  mode : seen.mode = (begun (threadEvents name (before ++ [x]))).getLast?
  count : seen.transitions = UInt64.ofNat (returned (threadEvents name (before ++ [x]))).length
  total : (begun (threadEvents name (before ++ [x]))).length
    = (returned (threadEvents name (before ++ [x]))).length
      + (inProgress [] (threadEvents name (before ++ [x]))).length
      + (unwound (threadEvents name (before ++ [x]))).length
  entered : ∀ outlet mode, x = .thread name (.begins outlet mode seen) → seen.mode = some mode
  idle : ∀ m now, x = .mark m now → inProgress [] (threadEvents name (before ++ [x])) = []

/-- The count is exact as long as it does not wrap. -/
theorem Shown.books {before : List Happening} {x : Happening} {seen : Status}
    (h : Shown name before x seen)
    (hlt : (returned (threadEvents name (before ++ [x]))).length < UInt64.size) :
    Books name before x seen := by
  have hcount : seen.transitions.toNat
      = (returned (threadEvents name (before ++ [x]))).length := by
    rw [h.count, UInt64.toNat_ofNat']
    exact Nat.mod_eq_of_lt hlt
  exact ⟨h.mode, hcount, hcount ▸ h.total, h.entered, h.idle⟩

theorem shown_at_mark {t t' : Thread} {before : List Happening} (ht : t.Fresh)
    (h : Booked t (threadEvents name before) t') (m : Mark) (now : Snapshot) :
    Shown name before (.mark m now) t'.status := by
  refine ⟨?_, ?_, ?_, by simp, fun _ _ _ => ?_⟩
  · rw [threadEvents_snoc_mark, h.status]
    simp [expected, ht.mode]
  · rw [threadEvents_snoc_mark, h.status]
    simp [expected, ht.transitions]
  · rw [threadEvents_snoc_mark, h.ended, ← h.total]
    simp
  · rw [threadEvents_snoc_mark, h.ended]

theorem shown_at_call {t t' : Thread} {before after : List Happening}
    {outlet : Backend.Outlet} {mode : Mode} {seen : Status} (ht : t.Fresh)
    (h : Booked t (threadEvents name before ++ .begins outlet mode seen :: threadEvents name after)
      t') : Shown name before (.thread name (.begins outlet mode seen)) seen := by
  obtain ⟨htotal, hseen⟩ := h.points [] _ _ _ rfl
  have hmode := congrArg Status.mode hseen
  have hcount := congrArg Status.transitions hseen
  refine ⟨?_, ?_, ?_, fun outlet' mode' he => ?_, by simp⟩
  · rw [threadEvents_snoc_self]
    exact hmode.trans (by simp [expected, ht.mode])
  · rw [threadEvents_snoc_self]
    exact hcount.trans (by simp [expected, ht.transitions])
  · rw [threadEvents_snoc_self]
    simp [begun, returned, unwound, inProgress, Event.nest] at htotal ⊢
    omega
  · simp only [Happening.thread.injEq, Thread.Event.begins.injEq] at he
    exact hmode.trans (by simp [expected, begun, he.2.2.1])

/-- In a run from the beginning, the books are right wherever the thread is seen. -/
theorem shown_of_shows {trace before after : List Happening} {w : World} {x : Happening}
    {seen : Status} (h : Follows Booked name .empty trace w) (he : trace = before ++ x :: after)
    (hx : x.shows? name = some seen) : Shown name before x seen := by
  cases x with
  | thread other event =>
    cases event with
    | begins outlet mode seen' =>
      obtain ⟨rfl, rfl⟩ : other = name ∧ seen' = seen := by
        simpa [Happening.shows?] using hx
      have hthread := h.thread
      have hevents : threadEvents other trace
          = threadEvents other before ++ .begins outlet mode seen' :: threadEvents other after := by
        simp [he, threadEvents, Happening.ofThread?]
      rw [hevents] at hthread
      generalize w.threads.get? other = o at hthread
      cases o with
      | none =>
        have hnil : threadEvents other before
            ++ .begins outlet mode seen' :: threadEvents other after = [] := hthread
        simp at hnil
      | some t' =>
        obtain ⟨t, hfresh, hbooked⟩ := hthread
        exact shown_at_call hfresh hbooked
    | record | returns | unwinds | reinitialized | reenabled | caught =>
      simp [Happening.shows?] at hx
  | mark m now =>
    obtain ⟨o, ho, hnow⟩ := h.seen before _ after he m now rfl
    have hx : now.threads.get? name = some seen := hx
    rw [hx] at hnow
    obtain ⟨t', rfl, rfl⟩ := Option.map_eq_some_iff.1 hnow.symm
    obtain ⟨t, hfresh, hbooked⟩ := ho
    exact shown_at_mark hfresh hbooked m now
  | toggle | barrier | selfCheck => simp [Happening.shows?] at hx

/-- In a history, the books are right wherever the thread is seen. -/
theorem books_of_shows {program : Program} {before after : List Happening} {x : Happening}
    {seen : Status} (hcalls : (begun (threadEvents name (history p program))).length < UInt64.size)
    (he : history p program = before ++ x :: after) (hx : x.shows? name = some seen) :
    Books name before x seen := by
  have hshown := shown_of_shows (follows_booked p program name) he hx
  refine hshown.books ?_
  have htotal := hshown.total
  rw [he, List.append_cons, threadEvents_append, begun_append, List.length_append] at hcalls
  omega

/-- **Every point of a history.** Wherever a thread is seen, its mode is that of the call of its
backend that began last, and its count is that of the calls that have come back; between two such
points the count does not fall, and a mode is not lost. -/
theorem status_matches_calls (p : Platform) (program : Program) (name : String)
    (hcalls : (begun (threadEvents name (history p program))).length < UInt64.size) :
    Throughout (fun before x => ∀ seen, x.shows? name = some seen → Books name before x seen)
        (history p program) ∧
      ∀ before x between y after earlier later,
        history p program = before ++ x :: between ++ y :: after →
        x.shows? name = some earlier → y.shows? name = some later →
        earlier.transitions ≤ later.transitions ∧ (earlier.mode ≠ none → later.mode ≠ none) := by
  refine ⟨fun before x after he seen hx => books_of_shows hcalls he hx,
    fun before x between y after earlier later he hx hy => ?_⟩
  have hearlier : Books name before x earlier := books_of_shows hcalls (by simpa using he) hx
  have hlater : Books name (before ++ x :: between) y later := books_of_shows hcalls he hy
  have hsplit : threadEvents name (before ++ x :: between ++ [y])
      = threadEvents name (before ++ [x]) ++ threadEvents name (between ++ [y]) := by
    rw [← threadEvents_append]
    simp
  refine ⟨?_, fun hmode hnone => hmode ?_⟩
  · rw [UInt64.le_iff_toNat_le, hearlier.count, hlater.count, hsplit, returned_append,
      List.length_append]
    omega
  · rw [hlater.mode, hsplit, begun_append, List.getLast?_eq_none_iff,
      List.append_eq_nil_iff] at hnone
    rw [hearlier.mode, hnone.1]
    rfl

/-- A thread whose first call asks for the other mode, which the call inside that call fails to
bring about. -/
def troubledProgram : Program :=
  .step (.newThread "t" (.scripted [⟨0, .enable .exec⟩, ⟨1, .fail⟩]) none none) <|
  .attempt (.step (.init "t") .done) <|
  .step (.enable "t" .write) .done

/-- A thread whose backend asks for `exec` while a panic makes a scope give `write` back. -/
def stubbornProgram : Program :=
  .step (.newThread "t" (.scripted [⟨2, .enable .exec⟩] true) none none) <|
  .step (.init "t") <|
  .attempt
    (.scope { style := .guarded .delegated, mode := .exec, thread := some "t" }
      (.step (.panic "stop") .done) .done) .done

theorem status_matches_calls_troubled :
    (begun (threadEvents "t" (history {} troubledProgram))).length < UInt64.size ∧
      Throughout (fun before x => ∀ seen, x.shows? "t" = some seen → Books "t" before x seen)
        (history {} troubledProgram) ∧
      ((runToEnd {} stubbornProgram .empty).state.threads.get? "t").map Thread.status
        = some ⟨some .exec, 4⟩ ∧
      Throughout (fun before x => ∀ seen, x.shows? "t" = some seen → Books "t" before x seen)
        (history {} stubbornProgram) := by
  have h : (begun (threadEvents "t" (history {} troubledProgram))).length < UInt64.size := by decide
  have h' : (begun (threadEvents "t" (history {} stubbornProgram))).length < UInt64.size := by
    decide
  exact ⟨h, (status_matches_calls {} troubledProgram "t" h).1, by decide,
    (status_matches_calls {} stubbornProgram "t" h').1⟩

end WriteXorExecute
