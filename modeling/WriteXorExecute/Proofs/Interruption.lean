import WriteXorExecute.Proofs.Acceptance
/-!
# Operations on code that are broken off

An operation on code asks a thread for a mode and afterwards for the mode that it was in, and either
of the two calls may panic. If the first one does, nothing has been done. From then on the change is
made in full: the second call comes after it, and whether that panics is told by the outcome alone,
not by the code. So whoever catches the panic finds a buffer that can be used on.

The same goes for code that is run. It runs once, after the first call and before the second one,
which is made also where the code panics.

- **What is asked** (`AskedOnly`): a call touches no code, and its lines in the log tell of none.
- **One operation** (`AllOrNothing`): the whole run, by how the first call ends.
-/
namespace WriteXorExecute

open Procedure CodeBuffer

variable {α β : Type} {p : Platform} {buffer name : String} {mode previous : Mode} {failing : Bool}
  {w w₁ w' : World} {opening trace : List Happening} {b b' : CodeBuffer} {cause : Panic}

/-! ## What a thread tells -/

def Record.ofCode : Record → Bool
  | emitted .. | patched .. => true
  | _ => false

namespace Thread

/-- No line of the log tells of a change of code. -/
def Discreet (_ : Thread) (events : List Event) (_ : Thread) : Prop :=
  ∀ r, .record r ∈ events → r.ofCode = false

namespace Discreet

theorem law : Law Discreet where
  refl _ _ hr := absurd hr List.not_mem_nil
  trans h h' r hr := (List.mem_append.1 hr).elim (h r) (h' r)

/-- The line that tells of a call tells of a mode. -/
theorem call {t t₁ t₂ t' : Thread} {outlet : Backend.Outlet} {seen : Status} {inner : List Event}
    {ending : Event} (h : Discreet t₁ inner t₂) (hending : ∀ r, ending ≠ .record r) :
    Discreet t ([.record (.modeChange mode), .begins outlet mode seen] ++ inner ++ [ending])
      t' := by
  intro r hr
  simp only [List.mem_append, List.mem_cons, reduceCtorEq, List.not_mem_nil, or_false,
    Event.record.injEq] at hr
  rcases hr with (rfl | hr) | hr
  · rfl
  · exact h r hr
  · exact absurd hr.symm (hending r)

/-- A thread tells of modes only, whatever its backend does. -/
theorem callLaw (p : Platform) : CallLaw p Discreet := by
  refine .of_ends law (fun event hevent t r hr => ?_) (fun _ h => h.call nofun)
    fun _ h => h.call nofun
  obtain rfl := List.mem_singleton.1 hr
  cases r with
  | initializing | lateInitialization => rfl
  | modeChange | emitted | patched => cases hevent

end Discreet

end Thread

/-! ## What is asked -/

/-- The name is asked for modes, and nothing else is done: no code is touched, and no line of the
log tells of code. -/
structure AskedOnly (name : String) (w : World) (trace : List Happening) (w' : World) : Prop where
  calls : ∀ x ∈ trace, (∃ event, x = .thread name event) ∨ ∃ event, x = .toggle name event
  records : ∀ x ∈ trace, ∀ r, x.record? = some r → r.ofCode = false
  buffers : w'.buffers = w.buffers

namespace AskedOnly

theorem law : Law (AskedOnly name) where
  refl _ := ⟨by simp, by simp, rfl⟩
  trans h h' := ⟨fun x hx => (List.mem_append.1 hx).elim (h.calls x) (h'.calls x),
    fun x hx => (List.mem_append.1 hx).elim (h.records x) (h'.records x),
    h'.buffers.trans h.buffers⟩

theorem switch (failing : Bool) (mode : Mode) :
    Obeys (AskedOnly name) (switch p failing name mode) := by
  have hthread : Obeys (AskedOnly name) (onThread name (Thread.enable p failing mode)) := by
    refine .atThread law fun w t _ => ⟨fun x hx => ?_, fun x hx r hr => ?_, rfl⟩
    · obtain ⟨event, -, rfl⟩ := List.mem_map.1 hx
      exact .inl ⟨event, rfl⟩
    · obtain ⟨event, hevent, rfl⟩ := List.mem_map.1 hx
      cases event with
      | record r' =>
        obtain rfl : r' = r := Option.some.inj hr
        exact (Thread.Discreet.callLaw p).enable failing mode t r' hevent
      | _ => cases hr
  have htoggle : Obeys (AskedOnly name) (onToggle name (Toggle.enable failing mode)) := by
    refine .atToggle law fun w t _ => ⟨fun x hx => ?_, fun x hx r hr => ?_, rfl⟩
    · obtain ⟨event, -, rfl⟩ := List.mem_map.1 hx
      exact .inr ⟨event, rfl⟩
    · obtain ⟨event, -, rfl⟩ := List.mem_map.1 hx
      cases hr
  refine .bind law hthread fun answer => ?_
  cases answer with
  | some previous => exact .pure law _
  | none => exact .bind law htoggle fun _ => .pure law _

end AskedOnly

/-! ## One operation -/

/-- If the first call panics, nothing else is done. -/
theorem holding_of_panicked {kind : Guard.Kind} (hasks : kind.asks p)
    (h : switch p false name mode w = ⟨.error cause, w₁, opening⟩) (body : Guard → Step α) :
    holding p kind mode (some name) body w = ⟨.error cause, w₁, opening⟩ :=
  bracket_of_refused (Guard.enter_of_panicked hasks h)

/-- If it returns, there is a second one after the body, however the body ends. -/
theorem holding_of_answered {kind : Guard.Kind} (hasks : kind.asks p)
    (h : switch p false name mode w = ⟨.ok previous, w₁, opening⟩) (body : Guard → Step α) :
    holding p kind mode (some name) body w =
      let g : Guard := .delegated mode (some name) previous
      let r := body g w₁
      let q := switch p r.failed name previous r.state
      ⟨r.outcome.bind fun a => q.outcome.map fun _ => a, q.state,
        opening ++ .mark (.opened .scope g) w₁.snapshot :: r.trace ++ q.trace
          ++ [.mark (.closed .scope g) q.state.snapshot]⟩ := by
  rw [holding_of_entered (Guard.enter_of_answered hasks h)]
  simp only [Guard.release_delegated, List.append_assoc, List.cons_append]
  congr 1
  generalize body _ w₁ = r
  cases r.outcome with
  | error cause => rfl
  | ok a =>
    simp only [Except.bind]
    cases (switch p _ name previous _).outcome <;> rfl

/-- The buffer is there, and operations on it do what they do on one with this code. -/
structure Usable (p : Platform) (buffer : String) (w : World) (b : CodeBuffer) : Prop where
  found : w.buffers.get? buffer = some b
  live : b.freed = false
  exact : Exact p buffer w b
  serves : Serves p buffer w b

theorem Usable.of_sound (hb : w.buffers.get? buffer = some b) (hlive : b.freed = false)
    (hsound : b.Sound) (hsize : b.bytes.size ≤ maxLength) : Usable p buffer w b := by
  have hbuffer : w.buffer buffer = b := by rw [World.buffer, hb, Option.getD_some]
  have hserves : Serves p buffer w (w.buffer buffer) := .of_live (hbuffer ▸ hlive)
  exact ⟨hb, hlive, .of_sound hb hsound hsize, hbuffer ▸ hserves⟩

/-- An operation on the code `b` that asks a name for `mode` does what is `inside` in that mode, and
makes `b'` of the code. -/
structure AllOrNothing (p : Platform) (buffer name : String) (mode : Mode) (w : World)
    (b b' : CodeBuffer) (inside : Step β) (value : β → α) (x : Step (Except CodeError α)) :
    Prop where
  /-- If the first call panics, that call is all that has been done. -/
  nothing : ∀ cause w₁ opening, switch p false name mode w = ⟨.error cause, w₁, opening⟩ →
    x w = ⟨.error cause, w₁, opening⟩ ∧ AskedOnly name w opening w₁ ∧ Usable p buffer w₁ b
  /-- If it returns, all is done once, and after it comes one more call. That it panics, if it does,
  is seen in the outcome only. -/
  all : ∀ previous w₁ opening, switch p false name mode w = ⟨.ok previous, w₁, opening⟩ →
    let g : Guard := .delegated mode (some name) previous
    let r := inside w₁
    let q := switch p r.failed name previous r.state
    x w = ⟨r.outcome.bind fun a => q.outcome.map fun _ => .ok (value a), q.state,
        opening ++ .mark (.opened .scope g) w₁.snapshot :: r.trace ++ q.trace
          ++ [.mark (.closed .scope g) q.state.snapshot]⟩ ∧
      AskedOnly name w opening w₁ ∧ AskedOnly name r.state q.trace q.state ∧
      Usable p buffer q.state b'

theorem AllOrNothing.of_holding {inside : Step β} {value : β → α} {x : Step (Except CodeError α)}
    (hs : p.strategy = .delegated)
    (hx : x w = (holding p .active mode (some name) (fun _ => inside) w).andThen
      fun a => pure (.ok (value a)))
    (hinside : ∀ w, w.buffers.get? buffer = some b →
      (inside w).state.buffers.get? buffer = some b')
    (hb : w.buffers.get? buffer = some b)
    (hbefore : ∀ w, w.buffers.get? buffer = some b → Usable p buffer w b)
    (hafter : ∀ w, w.buffers.get? buffer = some b' → Usable p buffer w b') :
    AllOrNothing p buffer name mode w b b' inside value x := by
  have hasks : Guard.Kind.asks p .active := by simp [Guard.Kind.asks, hs]
  have hasked (failing : Bool) (mode : Mode) (w : World) :=
    (AskedOnly.switch failing mode : Obeys (AskedOnly name) (switch p failing name mode)) w
  refine ⟨fun cause w₁ opening h => ?_, fun previous w₁ opening h => ?_⟩
  · have hopening := hasked false mode w
    rw [h] at hopening
    have hb₁ : w₁.buffers.get? buffer = some b := by rw [hopening.buffers, hb]
    refine ⟨?_, hopening, hbefore w₁ hb₁⟩
    rw [hx, holding_of_panicked hasks h]
    rfl
  · -- What is inside starts from the same code, and the second call leaves what it has made.
    have hopening := hasked false mode w
    rw [h] at hopening
    have hb₁ : w₁.buffers.get? buffer = some b := by rw [hopening.buffers, hb]
    have hclosing := hasked (inside w₁).failed previous (inside w₁).state
    refine ⟨?_, hopening, hclosing, hafter _ (by rw [hclosing.buffers, hinside w₁ hb₁])⟩
    rw [hx, holding_of_answered hasks h, Run.andThen_return]
    dsimp only
    generalize inside w₁ = r
    cases r.outcome with
    | error cause => rfl
    | ok a =>
      generalize switch p r.failed name previous r.state = q
      cases q.outcome <;> simp [Except.bind, Except.map]

/-- What a program does while the code of a buffer is running. -/
def whileRunning (p : Platform) (running : List String) (buffer : String) (body : Program)
    (bytes : ByteArray) : Step UInt32 := do
  complete .started (.bytes bytes)
  run p (buffer :: running) body
  return Code.value bytes

theorem runCode_eq (running : List String) (thread : Option String) (body : Program) :
    runCode p running buffer thread body
      = Code.execute p buffer thread (whileRunning p running buffer body) :=
  rfl

/-- It leaves the buffer as it is. -/
theorem keeps_whileRunning (running : List String) (body : Program) (bytes : ByteArray) :
    Obeys (Keeps fun w => w.buffers.get? buffer = some b)
      (whileRunning p running buffer body bytes) := by
  have haside : Obeys (Aside buffer) (whileRunning p running buffer body bytes) :=
    .bind Aside.law (Aside.complete _ _ rfl) fun _ =>
      .bind Aside.law (Aside.run List.mem_cons_self body) fun _ => .pure Aside.law _
  exact haside.imp fun h => h.kept b

section

variable (hs : p.strategy = .delegated) (hb : w.buffers.get? buffer = some b)
  (hlive : b.freed = false) (hsound : b.Sound) (hsize : b.bytes.size ≤ maxLength) (name : String)

include hs hb hlive hsound hsize

theorem emit_allOrNothing {data : ByteArray} (hfits : b.bytes.size + data.size ≤ b.maxSize.toNat)
    (hlength : b.bytes.size + data.size ≤ maxLength) :
    AllOrNothing p buffer name .write w b (b.append data) (Code.store buffer b.size data)
      (fun _ => b.size) (Code.emit p buffer (some name) data) := by
  have hbuffer : w.buffer buffer = b := by rw [World.buffer, hb, Option.getD_some]
  have hadmitted : b.admitEmit data.size = .ok b.size := by
    rw [CodeBuffer.admitEmit_eq hsize (by omega), CodeBuffer.refusal?_of_fits hlive hfits]
    rfl
  have hmakes : (Edit.emitted b.size data).Makes b (b.append data) := ⟨hadmitted, rfl⟩
  refine .of_holding hs (Code.emit_of_admitted (hbuffer ▸ hadmitted)) (fun w hb => ?_) hb
    (fun w hb => .of_sound hb hlive hsound hsize)
    fun w hb => .of_sound hb hlive (hmakes.sound hsound) ?_
  · exact (Table.get?_update_self _ _ _).trans (congrArg (Option.map _) hb)
  · rwa [CodeBuffer.size_append]

theorem patch_allOrNothing {offset : UInt64} {data : ByteArray}
    (hfits : offset.toNat + data.size ≤ b.bytes.size) :
    AllOrNothing p buffer name .write w b (b.overwrite offset data)
      (Code.replace buffer offset data) (fun _ => ())
      (Code.patch p buffer (some name) offset data) := by
  have hbuffer : w.buffer buffer = b := by rw [World.buffer, hb, Option.getD_some]
  have hadmitted : b.admitPatch offset data.size = .ok () := by
    rw [CodeBuffer.admitPatch_eq hsize (by omega), CodeBuffer.refusal?_of_fits hlive hfits]
    rfl
  have hmakes : (Edit.patched offset data).Makes b (b.overwrite offset data) := ⟨hadmitted, rfl⟩
  refine .of_holding hs (Code.patch_of_admitted (hbuffer ▸ hadmitted)) (fun w hb => ?_) hb
    (fun w hb => .of_sound hb hlive hsound hsize)
    fun w hb => .of_sound hb hlive (hmakes.sound hsound) ?_
  · exact (Table.get?_update_self _ _ _).trans (congrArg (Option.map _) hb)
  · rwa [CodeBuffer.size_overwrite_of_within hfits]

theorem execute_allOrNothing {body : ByteArray → Step α} (hfits : 0 < b.bytes.size)
    (hkeeps : Obeys (Keeps fun w => w.buffers.get? buffer = some b) (body b.bytes)) :
    AllOrNothing p buffer name .exec w b b (body b.bytes) id
      (Code.execute p buffer (some name) body) := by
  have hbuffer : w.buffer buffer = b := by rw [World.buffer, hb, Option.getD_some]
  have hadmitted : b.admitRun = .ok () := by
    rw [CodeBuffer.admitRun_eq, CodeBuffer.refusal?_of_fits hlive hfits]
    rfl
  have hx : Code.execute p buffer (some name) body w =
      (holding p .active .exec (some name) (fun _ => body (w.buffer buffer).bytes) w).andThen
        fun a => pure (.ok a) :=
    Code.execute_of_admitted (hbuffer ▸ hadmitted)
  rw [hbuffer] at hx
  have husable (w : World) (hb : w.buffers.get? buffer = some b) : Usable p buffer w b :=
    .of_sound hb hlive hsound hsize
  exact .of_holding hs hx hkeeps hb husable husable

end

/-- **All or nothing.** Operations on a live buffer that are in range, broken off by either call of
the name that they are given. What is made or not is the change of the bytes with its one line in
the log. What is emitted next starts after the bytes that have been appended. What is done while
code is running may be anything that leaves its buffer alone, as programs do. -/
theorem panics_are_all_or_nothing (hs : p.strategy = .delegated)
    (hb : w.buffers.get? buffer = some b) (hlive : b.freed = false) (hsound : b.Sound)
    (hsize : b.bytes.size ≤ maxLength) (name : String) :
    (∀ data, b.bytes.size + data.size ≤ b.maxSize.toNat → b.bytes.size + data.size ≤ maxLength →
      AllOrNothing p buffer name .write w b (b.append data) (Code.store buffer b.size data)
        (fun _ => b.size) (Code.emit p buffer (some name) data) ∧
      Code.WritesOnce buffer (fun b => { b with bytes := b.bytes ++ data })
        (.emitted data.size b.size) (Code.store buffer b.size data) ∧
      (b.append data).size.toNat = b.bytes.size + data.size) ∧
    (∀ offset data, offset.toNat + data.size ≤ b.bytes.size →
      AllOrNothing p buffer name .write w b (b.overwrite offset data)
        (Code.replace buffer offset data) (fun _ => ())
        (Code.patch p buffer (some name) offset data) ∧
      Code.WritesOnce buffer
        (fun b => { b with
          bytes := b.bytes.extract 0 offset.toNat ++ data
            ++ b.bytes.extract (offset.toNat + data.size) b.bytes.size })
        (.patched data.size offset) (Code.replace buffer offset data)) ∧
    (∀ {α : Type} (body : ByteArray → Step α), 0 < b.bytes.size →
      Obeys (Keeps fun w => w.buffers.get? buffer = some b) (body b.bytes) →
        AllOrNothing p buffer name .exec w b b (body b.bytes) id
          (Code.execute p buffer (some name) body)) ∧
    ∀ running body, 0 < b.bytes.size →
      AllOrNothing p buffer name .exec w b b (whileRunning p running buffer body b.bytes) id
        (runCode p running buffer (some name) body) := by
  refine ⟨fun data hfits hlength => ⟨?_, Code.store_writesOnce _ _ _, ?_⟩,
    fun offset data hfits => ⟨?_, Code.replace_writesOnce _ _ _⟩,
    fun body hfits hkeeps => ?_, fun running body hfits => ?_⟩
  · exact emit_allOrNothing hs hb hlive hsound hsize name hfits hlength
  · rw [CodeBuffer.toNat_size (by rwa [CodeBuffer.size_append]), CodeBuffer.size_append]
  · exact patch_allOrNothing hs hb hlive hsound hsize name hfits
  · exact execute_allOrNothing hs hb hlive hsound hsize name hfits hkeeps
  · rw [runCode_eq]
    exact execute_allOrNothing hs hb hlive hsound hsize name hfits
      (keeps_whileRunning running body b.bytes)

/-- A toggle that panics in every second call, and a buffer. -/
def relapsing : World where
  toggles := Table.add ∅ "d" { mode := .exec, failures := [1, 3, 5] }
  buffers := Table.add ∅ "b" { bytes := ⟨#[0x90, 0x90]⟩, maxSize := 4 }

/-- The emission is seen to panic, and has been done. Then the code is run, and panics. -/
theorem panics_are_all_or_nothing_relapsing :
    let p : Platform := { target := .macos }
    let b : CodeBuffer := { bytes := ⟨#[0x90, 0x90]⟩, maxSize := 4 }
    let emitted := Code.emit p "b" (some "d") ⟨#[0xC3]⟩ relapsing
    let code := runCode p [] "b" (some "d") (.step (.panic "late") .done) emitted.state
    (emitted.outcome = .error (.toggle "d" ⟨1⟩) ∧
        Usable p "b" emitted.state (b.append ⟨#[0xC3]⟩)) ∧
      code.outcome = .error (.explicit "late") ∧
      Usable p "b" code.state (b.append ⟨#[0xC3]⟩) := by
  intro p b emitted code
  have hs : p.strategy = .delegated := by decide
  have hb : relapsing.buffers.get? "b" = some b := rfl
  have hsound : b.Sound := ⟨fun _ => by decide, nofun⟩
  have hopening : (switch p false "d" .write relapsing).outcome = .ok .exec := by decide +kernel
  have hemitted : Usable p "b" emitted.state (b.append ⟨#[0xC3]⟩) := by
    have hall := ((panics_are_all_or_nothing hs hb rfl hsound (by decide) "d").1 ⟨#[0xC3]⟩
      (by decide) (by decide)).1
    generalize hswitch : switch p false "d" .write relapsing = opening at hopening
    obtain ⟨outcome, w₁, events⟩ := opening
    obtain rfl : outcome = .ok .exec := hopening
    obtain ⟨hrun, -, -, husable⟩ := hall.all .exec w₁ events hswitch
    rw [show emitted.state = _ from congrArg Run.state hrun]
    exact husable
  have hopening' : (switch p false "d" .exec emitted.state).outcome = .ok .exec := by
    decide +kernel
  refine ⟨⟨by decide +kernel, hemitted⟩, by decide +kernel, ?_⟩
  have hsound' : (b.append ⟨#[0xC3]⟩).Sound := ⟨fun _ => by decide +kernel, nofun⟩
  have hall := (panics_are_all_or_nothing hs hemitted.found rfl hsound' (by decide +kernel)
    "d").2.2.2 [] (.step (.panic "late") .done) (by decide +kernel)
  generalize hswitch : switch p false "d" .exec emitted.state = opening at hopening'
  obtain ⟨outcome, w₁, events⟩ := opening
  obtain rfl : outcome = .ok .exec := hopening'
  obtain ⟨hrun, -, -, husable⟩ := hall.all .exec w₁ events hswitch
  rw [show code.state = _ from congrArg Run.state hrun]
  exact husable

end WriteXorExecute
