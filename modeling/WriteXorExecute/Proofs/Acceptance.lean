import WriteXorExecute.Proofs.Contents
import WriteXorExecute.Proofs.Portability
/-!
# Which operations on code are accepted

Sizes and offsets are words, and the sums that decide about an operation are sums of words. What
they decide is what the integers would: whatever a program has done, code is no longer than its
limit and than byte strings can be, so that no sum wraps unseen, and a range that is accepted lies
inside the code.

- **In integers** (`CodeBuffer.admitEmit_eq`, `CodeBuffer.admitPatch_eq`).
- **Sound buffers** (`Evolves.sound`): each edit keeps the code within its limit; so all edits do.
- **Whole programs** (`Continued.stepwise`): what a program makes of buffers is what edits make of
  them, also where a panic comes in between.
- **Given up** (`GivenUp.outlasts`): a buffer that has been freed stays empty and refuses what it is
  asked for.
-/
namespace WriteXorExecute

open Procedure CodeBuffer

variable {α β γ : Type} {p : Platform} {buffer : String} {thread : Option String} {w w' : World}
  {trace : List Happening} {b b' : CodeBuffer} {es : List Edit} {e : Edit} {offset : UInt64}
  {count : Nat}

/-! ## In integers -/

namespace CodeBuffer

/-- Why the buffer refuses what has to fit, if it does. Whether it has been freed comes first. -/
def refusal? (b : CodeBuffer) (fits : Prop) [Decidable fits] (e : CodeError) : Option CodeError :=
  if b.freed then some .regionFreed else if fits then none else some e

theorem refusal?_of_fits {fits : Prop} [Decidable fits] {e : CodeError} (hlive : b.freed = false)
    (hfits : fits) : b.refusal? fits e = none := by
  rw [refusal?, hlive, if_neg (by decide), if_pos hfits]

theorem toNat_size (h : b.bytes.size ≤ maxLength) : b.size.toNat = b.bytes.size :=
  UInt64.toNat_ofNat_of_lt' (Nat.lt_of_le_of_lt h (by decide))

/-- The sum that decides about an emission does not wrap. -/
theorem toNat_sum (hsize : b.bytes.size ≤ maxLength) (hcount : count ≤ maxLength) :
    (b.size + UInt64.ofNat count).toNat = b.bytes.size + count := by
  rw [UInt64.toNat_add, toNat_size hsize, UInt64.toNat_ofNat', Nat.add_mod_mod]
  refine Nat.mod_eq_of_lt ?_
  unfold maxLength at hsize hcount
  omega

theorem admitEmit_eq (hsize : b.bytes.size ≤ maxLength) (hcount : count ≤ maxLength) :
    b.admitEmit count = (b.refusal? (b.bytes.size + count ≤ b.maxSize.toNat) .exceedsMaxSize).elim
      (.ok b.size) .error := by
  cases hfreed : b.freed with
  | true =>
    rw [admitEmit, requireLive, refusal?, hfreed]
    rfl
  | false =>
    rw [admitEmit_of_live hfreed, refusal?, hfreed]
    have hexceeds : b.maxSize < b.size + .ofNat count ↔
        ¬b.bytes.size + count ≤ b.maxSize.toNat := by
      rw [UInt64.lt_iff_toNat_lt, toNat_sum hsize hcount, Nat.not_le]
    by_cases hfits : b.bytes.size + count ≤ b.maxSize.toNat
    · rw [if_neg (by rwa [hexceeds, not_not]), if_pos hfits]
      rfl
    · rw [if_pos (hexceeds.2 hfits), if_neg hfits]
      rfl

theorem admitPatch_eq (hsize : b.bytes.size ≤ maxLength) (hcount : count ≤ maxLength) :
    b.admitPatch offset count = (b.refusal? (offset.toNat + count ≤ b.bytes.size) .outOfBounds).elim
      (.ok ()) .error := by
  have hcount' : (UInt64.ofNat count).toNat = count :=
    UInt64.toNat_ofNat_of_lt' (Nat.lt_of_le_of_lt hcount (by decide))
  rw [admitPatch, requireLive, refusal?]
  cases b.freed with
  | true => rfl
  | false =>
    cases hstop : Word.checkedAdd offset (.ofNat count) with
    | none =>
      -- A sum that is no word is beyond all code.
      have hbeyond := Word.checkedAdd_eq_none_iff.1 hstop
      rw [hcount'] at hbeyond
      have houtside : ¬offset.toNat + count ≤ b.bytes.size := by
        unfold maxLength at hsize
        simp only [UInt64.size] at hbeyond
        omega
      rw [if_neg houtside]
      rfl
    | some stop =>
      have hsum := Word.toNat_of_checkedAdd hstop
      rw [hcount'] at hsum
      have hinside : b.size < stop ↔ ¬offset.toNat + count ≤ b.bytes.size := by
        rw [UInt64.lt_iff_toNat_lt, toNat_size hsize, hsum, Nat.not_le]
      by_cases hfits : offset.toNat + count ≤ b.bytes.size
      · rw [if_pos hfits]
        simp only [hinside, hfits]
        rfl
      · rw [if_neg hfits]
        simp only [hinside, hfits]
        rfl

theorem admitRun_eq : b.admitRun = (b.refusal? (0 < b.bytes.size) .empty).elim (.ok ()) .error := by
  cases hfreed : b.freed with
  | true =>
    rw [admitRun, requireLive, refusal?, hfreed]
    rfl
  | false =>
    rw [admitRun_of_live hfreed, refusal?, hfreed]
    have hempty : b.bytes.isEmpty = true ↔ ¬0 < b.bytes.size := by
      simp [ByteArray.isEmpty]
    by_cases hfits : 0 < b.bytes.size
    · rw [if_neg (by rwa [hempty, not_not]), if_pos hfits]
      rfl
    · rw [if_pos (hempty.2 hfits), if_neg hfits]
      rfl

theorem code_eq : b.code = if b.freed then .error .regionFreed else .ok b.bytes := by
  rw [code, requireLive]
  cases b.freed <;> rfl

/-- The range of a patch that is accepted lies inside the code, and has as many bytes. -/
theorem range_of_fits (hsize : b.bytes.size ≤ maxLength)
    (hfits : offset.toNat + count ≤ b.bytes.size) :
    ∃ stop, Word.checkedAdd offset (.ofNat count) = some stop ∧ offset ≤ stop ∧ stop ≤ b.size ∧
      (stop - offset).toNat = count := by
  have hlt : offset.toNat + count < UInt64.size :=
    Nat.lt_of_le_of_lt (hfits.trans hsize) (by decide)
  have hstop := Word.checkedAdd_ofNat hlt
  rw [UInt64.ofNat_toNat] at hstop
  have hnat : (UInt64.ofNat (offset.toNat + count)).toNat = offset.toNat + count :=
    UInt64.toNat_ofNat_of_lt' hlt
  have hle : offset ≤ .ofNat (offset.toNat + count) := by
    rw [UInt64.le_iff_toNat_le, hnat]
    omega
  refine ⟨_, hstop, hle, ?_, ?_⟩
  · rwa [UInt64.le_iff_toNat_le, hnat, toNat_size hsize]
  · rw [UInt64.toNat_sub_of_le _ _ hle, hnat, Nat.add_sub_cancel_left]

/-! ## Sound buffers -/

/-- The code is within its limit, if it is no longer than byte strings can be, and a freed buffer
has none. -/
structure Sound (b : CodeBuffer) : Prop where
  within : b.bytes.size ≤ maxLength → b.bytes.size ≤ b.maxSize.toNat
  freed : b.freed = true → b.bytes = .empty

theorem Sound.blank (maxSize : UInt64) : Sound { maxSize } :=
  ⟨fun _ => Nat.zero_le _, nofun⟩

end CodeBuffer

namespace Edit.Makes

/-- What is accepted keeps the code within its limit. -/
theorem sound (h : e.Makes b b') (hb : b.Sound) : b'.Sound := by
  cases e with
  | emitted offset data =>
    have hlive : b.freed = false := h.live nofun
    obtain ⟨hadmitted, rfl⟩ := h
    refine ⟨fun hsize => ?_, fun hfreed => ?_⟩
    · -- Neither part is longer than the whole, so the sum that decided did not wrap.
      rw [CodeBuffer.size_append] at hsize ⊢
      rw [CodeBuffer.admitEmit_eq (by omega) (by omega), CodeBuffer.refusal?, hlive] at hadmitted
      have hfits : b.bytes.size + data.size ≤ b.maxSize.toNat := by
        by_contra hfits
        rw [if_neg (by decide), if_neg hfits] at hadmitted
        cases hadmitted
      exact hfits
    · exact absurd (hlive.symm.trans hfreed) nofun
  | patched offset data =>
    have hlive : b.freed = false := h.live nofun
    obtain ⟨hadmitted, rfl⟩ := h
    refine ⟨fun hsize => ?_, fun hfreed => absurd (hlive.symm.trans hfreed) nofun⟩
    have hparts := hsize
    rw [CodeBuffer.size_overwrite] at hparts
    have hword : maxLength < UInt64.size := by decide
    obtain ⟨-, hinside⟩ := CodeBuffer.of_admitPatch hadmitted (by omega) (by omega)
    rw [CodeBuffer.size_overwrite_of_within hinside] at hsize ⊢
    exact hb.within hsize
  | freed =>
    obtain rfl := h
    exact ⟨fun _ => Nat.zero_le _, fun _ => rfl⟩

/-- A buffer that has been freed and is empty can only be freed again. -/
theorem eq_of_freed (h : e.Makes b b') (hb : b.Sound) (hfreed : b.freed = true) : b' = b := by
  by_cases hwrites : e = .freed
  · subst hwrites
    obtain rfl := h
    obtain ⟨bytes, maxSize, freed⟩ := b
    obtain rfl : freed = true := hfreed
    obtain rfl : bytes = .empty := hb.freed rfl
    rfl
  · rw [h.live hwrites] at hfreed
    cases hfreed

end Edit.Makes

namespace Evolves

theorem sound (h : Evolves b es b') (hb : b.Sound) : b'.Sound := by
  induction h with
  | nil => exact hb
  | snoc _ he ih => exact he.sound ih

/-- Once it has been freed, a buffer stays as it is. -/
theorem eq_of_freed (h : Evolves b es b') (hb : b.Sound) (hfreed : b.freed = true) : b' = b := by
  induction h with
  | nil => rfl
  | snoc _ he ih =>
    subst ih
    exact he.eq_of_freed hb hfreed

end Evolves

/-! ## Whole programs -/

def World.Sound (w : World) : Prop :=
  ∀ name b, w.buffers.get? name = some b → b.Sound

theorem World.sound_empty : World.empty.Sound :=
  nofun

/-- Every buffer is what edits have made of it, or of a new one. -/
structure Continued (w : World) (_ : List Happening) (w' : World) : Prop where
  kept : ∀ name b, w.buffers.get? name = some b →
    ∃ es b', w'.buffers.get? name = some b' ∧ Evolves b es b'
  made : ∀ name b', w.buffers.get? name = none → w'.buffers.get? name = some b' →
    ∃ maxSize es, Evolves { maxSize } es b'

namespace Continued

theorem of_same (h : w'.buffers = w.buffers) : Continued w trace w' := by
  refine ⟨fun name b hb => ⟨[], b, h ▸ hb, .nil⟩, fun name b' hnone hb' => ?_⟩
  rw [h, hnone] at hb'
  cases hb'

theorem law : Law Continued where
  refl _ := of_same rfl
  trans {w₁ w₂ w₃ t₁ t₂} h h' := by
    refine ⟨fun name b hb => ?_, fun name b₃ hnone hb₃ => ?_⟩
    · obtain ⟨es, b₂, hb₂, hevolves⟩ := h.kept name b hb
      obtain ⟨es', b₃, hb₃, hevolves'⟩ := h'.kept name b₂ hb₂
      exact ⟨es ++ es', b₃, hb₃, hevolves.append hevolves'⟩
    · cases hb₂ : w₂.buffers.get? name with
      | none => exact h'.made name b₃ hb₂ hb₃
      | some b₂ =>
        obtain ⟨maxSize, es, hevolves⟩ := h.made name b₂ hnone hb₂
        obtain ⟨es', b₃', hb₃', hevolves'⟩ := h'.kept name b₂ hb₂
        obtain rfl : b₃ = b₃' := by simpa [hb₃] using hb₃'
        exact ⟨maxSize, es ++ es', hevolves.append hevolves'⟩

/-- One buffer is edited. -/
theorem of_updated {f : CodeBuffer → CodeBuffer} (h : w'.buffers = w.buffers.update buffer f)
    (hmakes : ∀ b, w.buffers.get? buffer = some b → ∃ e : Edit, e.Makes b (f b)) :
    Continued w trace w' := by
  refine ⟨fun name b hb => ?_, fun name b' hnone hb' => ?_⟩
  · by_cases hname : name = buffer
    · subst hname
      obtain ⟨e, he⟩ := hmakes b hb
      exact ⟨[e], f b, by rw [h, Table.get?_update_self, hb, Option.map_some], .single he⟩
    · exact ⟨[], b, by rw [h, Table.get?_update_of_ne hname, hb], .nil⟩
  · rw [h, Table.get?_update, hnone] at hb'
    simp at hb'

theorem elementaryLaw : ElementaryLaw p (fun _ => True) Continued where
  law := law
  processor := True.intro
  issue _ _ _ := of_same rfl
  mark _ _ _ := of_same rfl
  onThread _ _ _ := .atThread law fun _ _ _ => of_same rfl
  onToggle _ _ _ := .atToggle law fun _ _ _ => of_same rfl
  apart _ _ := of_same rfl
  keep _ _ _ _ := of_same rfl
  discard _ _ := of_same rfl
  others _ hissues := absurd (Guard.issues_of_forall (fun _ => True.intro) _) hissues

theorem holdingLaw : HoldingLaw p Continued :=
  elementaryLaw.holdingLaw True.intro

/-- A change in a scope is made, or the scope is not entered and nothing changes. -/
theorem holding {f : CodeBuffer → CodeBuffer} {change : Step Unit}
    (hchange : Edited.Alters buffer f change) (kind : Guard.Kind) (mode : Mode)
    (thread : Option String)
    (hmakes : ∀ b, w.buffers.get? buffer = some b → ∃ e : Edit, e.Makes b (f b)) :
    Continued w (WriteXorExecute.holding p kind mode thread (fun _ => change) w).trace
      (WriteXorExecute.holding p kind mode thread (fun _ => change) w).state := by
  have hopens : Obeys Bystander (Guard.enter p .scope kind mode thread) := .enter _ _ _ _
  have hopening := hopens w
  generalize henter : Guard.enter p .scope kind mode thread w = r at hopening
  obtain ⟨outcome, w₁, opening⟩ := r
  cases outcome with
  | error cause =>
    rw [WriteXorExecute.holding, bracket_of_refused henter]
    exact of_same hopening.buffers
  | ok g =>
    -- Neither end of the scope reaches the buffers.
    obtain ⟨r, w₂, hrun, hw₂⟩ := hchange w₁
    have hcloses : Obeys Bystander (Guard.release p false g) := .release _ _
    have hclosing := (hcloses w₂).buffers
    rw [holding_of_entered henter, hrun]
    exact of_updated (hclosing.trans (by rw [hw₂, hopening.buffers])) hmakes

theorem emit (thread : Option String) (data : ByteArray) :
    Obeys Continued (Code.emit p buffer thread data) := by
  intro w
  cases hadmitted : (w.buffer buffer).admitEmit data.size with
  | error e =>
    rw [Code.emit_of_refused hadmitted]
    exact law.refl w
  | ok offset =>
    rw [Code.emit_of_admitted hadmitted, Run.andThen_return]
    have halters : Edited.Alters buffer (·.append data) (Code.store buffer offset data) :=
      fun w => ⟨_, _, rfl, rfl⟩
    refine holding halters _ _ _ fun b hb => ?_
    rw [World.buffer, hb, Option.getD_some] at hadmitted
    exact ⟨.emitted offset data, hadmitted, rfl⟩

theorem patch (thread : Option String) (offset : UInt64) (data : ByteArray) :
    Obeys Continued (Code.patch p buffer thread offset data) := by
  intro w
  cases hadmitted : (w.buffer buffer).admitPatch offset data.size with
  | error e =>
    rw [Code.patch_of_refused hadmitted]
    exact law.refl w
  | ok _ =>
    rw [Code.patch_of_admitted hadmitted, Run.andThen_return]
    have halters : Edited.Alters buffer (·.overwrite offset data)
        (Code.replace buffer offset data) :=
      fun w => ⟨_, _, rfl, rfl⟩
    refine holding halters _ _ _ fun b hb => ?_
    rw [World.buffer, hb, Option.getD_some] at hadmitted
    exact ⟨.patched offset data, hadmitted, rfl⟩

theorem create {name : String} {add : World → World}
    (h : ∀ w, (add w).buffers = w.buffers ∨ ∃ maxSize,
      (add w).buffers = w.buffers.add name { maxSize }) :
    Obeys Continued (create name add) := by
  refine .modify fun w => ?_
  split
  · exact law.refl w
  · rcases h w with h | ⟨maxSize, h⟩
    · exact of_same h
    · refine ⟨fun other b hb => ⟨[], b, ?_, .nil⟩, fun other b' hnone hb' => ?_⟩
      · by_cases hother : other = name
        · subst hother
          rw [h, Table.get?_add_self, hb, Option.getD_some]
        · rw [h, Table.get?_add_of_ne hother, hb]
      · rw [h] at hb'
        rcases Table.of_get?_add hb' with hb' | ⟨-, rfl⟩
        · rw [hnone] at hb'
          cases hb'
        · exact ⟨maxSize, [], .nil⟩

/-- An operation edits buffers, or makes one, or leaves them alone. -/
theorem perform (running : List String) (op : Operation) :
    Obeys Continued (perform p running op) := by
  cases op with
  | newThread | newToggle => exact .bind law (create fun _ => .inl rfl) fun _ => .pure law _
  | newBuffer name maxSize =>
    exact .bind law (create fun _ => .inr ⟨_, rfl⟩) fun _ => .pure law _
  | emit buffer thread data =>
    simp only [WriteXorExecute.perform]
    split
    · exact .pure law _
    · exact .bind law (emit thread data) fun _ => .pure law _
  | patch buffer thread offset data =>
    simp only [WriteXorExecute.perform]
    split
    · exact .pure law _
    · exact .bind law (patch thread offset data) fun _ => .pure law _
  | free buffer =>
    simp only [WriteXorExecute.perform]
    split
    · exact .pure law _
    · exact .bind law (.modify fun w => of_updated rfl fun b _ => ⟨.freed, rfl⟩)
        fun _ => .pure law _
  | _ =>
    refine elementaryLaw.perform holdingLaw running
      (Operation.issues_of_forall (fun _ => True.intro) _) rfl fun buffer hchanges => ?_
    cases hchanges

theorem stepwise : StepwiseLaw p (fun _ => True) Continued where
  toHoldingLaw := holdingLaw
  step running op _ := .bind law (perform running op) fun _ _ => of_same rfl
  complete _ _ _ _ := of_same rfl

/-- It holds of what leads to a position. -/
theorem of_leads {way : List Frame} {start place : Place} {before : List Happening}
    (h : Leads p way start before place) : Continued start.world before place.world :=
  h.obeys stepwise (fun _ _ _ => elementaryLaw.enter (fun _ => True.intro) .scope _ _)
    fun f _ => f.all_of_forall fun _ => True.intro

theorem sound (h : Continued w trace w') (hw : w.Sound) : w'.Sound := by
  intro name b' hb'
  cases hb : w.buffers.get? name with
  | none =>
    obtain ⟨maxSize, es, hevolves⟩ := h.made name b' hb hb'
    exact hevolves.sound (.blank maxSize)
  | some b =>
    obtain ⟨es, b'', hb'', hevolves⟩ := h.kept name b hb
    obtain rfl : b' = b'' := by simpa [hb'] using hb''
    exact hevolves.sound (hw name b hb)

end Continued

/-! ## What is decided -/

/-- What is asked, if anything is, does not panic. -/
def World.Answering (p : Platform) (thread : Option String) (w : World) : Prop :=
  w.Of (.obliging p fun name => thread = some name)

theorem World.Answering.answers (thread : Option String) (name : String)
    (hname : thread = some name) : Answers p (World.Answering p thread) name :=
  World.Of.answers hname

/-- The operation gives an error exactly if it is refused, and that one. What it returns otherwise
is `good`, and it returns if what it depends on `answers`. -/
structure Decided (refusal? : Option CodeError) (answers : Prop) (good : α → Prop)
    (x : Step (Except CodeError α)) (w : World) : Prop where
  error_iff : ∀ e, (x w).outcome = .ok (.error e) ↔ refusal? = some e
  value : ∀ a, (x w).outcome = .ok (.ok a) → good a
  answered : refusal? = none → answers → ∃ a, (x w).outcome = .ok (.ok a)

/-- It is decided by its admission. -/
theorem Decided.of_admission {refusal? : Option CodeError} {answers : Prop} {good : α → Prop}
    {x : Step (Except CodeError α)} {y : Step γ} {admission : Except CodeError β} {value : β}
    {result : γ → α} (hadmission : admission = refusal?.elim (.ok value) .error)
    (hrefused : ∀ e, admission = .error e → x w = ⟨.ok (.error e), w, []⟩)
    (haccepted : admission = .ok value → x w = (y w).andThen fun c => pure (.ok (result c)))
    (hgood : ∀ c, good (result c)) (hanswers : answers → ∃ c, (y w).outcome = .ok c) :
    Decided refusal? answers good x w := by
  cases refusal? with
  | some e =>
    have hx : (x w).outcome = .ok (.error e) := congrArg Run.outcome (hrefused e hadmission)
    refine ⟨fun e' => ?_, fun a ha => ?_, nofun⟩
    · rw [hx]
      simp
    · rw [hx] at ha
      cases ha
  | none =>
    have hx : (x w).outcome = (y w).outcome.map fun c => .ok (result c) := by
      rw [haccepted hadmission, Run.andThen_return]
    refine ⟨fun e => ?_, fun a ha => ?_, fun _ h => ?_⟩
    · rw [hx]
      cases (y w).outcome <;> simp [Except.map]
    · rw [hx] at ha
      cases hy : (y w).outcome with
      | error cause => simp [hy, Except.map] at ha
      | ok c =>
        obtain rfl : result c = a := by simpa [hy, Except.map] using ha
        exact hgood c
    · obtain ⟨c, hc⟩ := hanswers h
      exact ⟨result c, by rw [hx, hc]; rfl⟩

/-- The operations on a buffer are decided as the integers decide. -/
structure Exact (p : Platform) (buffer : String) (w : World) (b : CodeBuffer) : Prop where
  within : b.bytes.size ≤ b.maxSize.toNat
  emit : ∀ thread data, data.size ≤ maxLength →
    Decided (b.refusal? (b.bytes.size + data.size ≤ b.maxSize.toNat) .exceedsMaxSize)
      (w.Answering p thread) (fun offset => offset.toNat = b.bytes.size)
      (Code.emit p buffer thread data) w
  sum : ∀ count ≤ maxLength, (b.size + .ofNat count).toNat = b.bytes.size + count
  patch : ∀ thread offset data, data.size ≤ maxLength →
    Decided (b.refusal? (offset.toNat + data.size ≤ b.bytes.size) .outOfBounds)
      (w.Answering p thread) (fun _ => True) (Code.patch p buffer thread offset data) w
  /-- The range that is patched lies inside the code, and the code is still the same when the guard
  has been made. -/
  range : ∀ (offset : UInt64) count, offset.toNat + count ≤ b.bytes.size →
    ∃ stop, Word.checkedAdd offset (.ofNat count) = some stop ∧ offset ≤ stop ∧ stop ≤ b.size ∧
      (stop - offset).toNat = count
  guarded : ∀ mode thread g w₁ opening,
    Guard.enter p .scope .active mode thread w = ⟨.ok g, w₁, opening⟩ → w₁.buffer buffer = b
  execute : ∀ {α : Type} thread (body : ByteArray → Step α),
    Decided (b.refusal? (0 < b.bytes.size) .empty)
      (w.Answering p thread ∧ ∀ bytes, Succeeds (World.Answering p thread) (body bytes))
      (fun _ => True) (Code.execute p buffer thread body) w
  code : (Question.code buffer).answer p w
    = .code (if b.freed then .error .regionFreed else .ok b.bytes)

section

variable (hb : w.buffers.get? buffer = some b)

include hb

theorem emit_decided {data : ByteArray} (hsize : b.bytes.size ≤ maxLength)
    (hdata : data.size ≤ maxLength) (thread : Option String) :
    Decided (b.refusal? (b.bytes.size + data.size ≤ b.maxSize.toNat) .exceedsMaxSize)
      (w.Answering p thread) (fun offset => offset.toNat = b.bytes.size)
      (Code.emit p buffer thread data) w := by
  have hbuffer : w.buffer buffer = b := by rw [World.buffer, hb, Option.getD_some]
  refine .of_admission (CodeBuffer.admitEmit_eq hsize hdata)
    (fun e he => Code.emit_of_refused (hbuffer ▸ he))
    (fun hok => Code.emit_of_admitted (hbuffer ▸ hok))
    (fun _ => CodeBuffer.toNat_size hsize) fun h => ?_
  have hstore : Succeeds (World.Answering p thread) (Code.store buffer b.size data) :=
    .bind (.modify fun _ h => World.Of.lasting.buffers _ h) fun _ => .mark _
  exact (Succeeds.holding (World.Answering.answers thread) .active .write (fun _ => hstore) w h).1

theorem patch_decided {offset : UInt64} {data : ByteArray} (hsize : b.bytes.size ≤ maxLength)
    (hdata : data.size ≤ maxLength) (thread : Option String) :
    Decided (b.refusal? (offset.toNat + data.size ≤ b.bytes.size) .outOfBounds)
      (w.Answering p thread) (fun _ => True) (Code.patch p buffer thread offset data) w := by
  have hbuffer : w.buffer buffer = b := by rw [World.buffer, hb, Option.getD_some]
  refine .of_admission (CodeBuffer.admitPatch_eq hsize hdata)
    (fun e he => Code.patch_of_refused (hbuffer ▸ he))
    (fun hok => Code.patch_of_admitted (hbuffer ▸ hok)) (fun _ => True.intro) fun h => ?_
  have hreplace : Succeeds (World.Answering p thread) (Code.replace buffer offset data) :=
    .bind (.modify fun _ h => World.Of.lasting.buffers _ h) fun _ => .mark _
  exact (Succeeds.holding (World.Answering.answers thread) .active .write (fun _ => hreplace) w h).1

theorem execute_decided (thread : Option String) (body : ByteArray → Step α) :
    Decided (b.refusal? (0 < b.bytes.size) .empty)
      (w.Answering p thread ∧ ∀ bytes, Succeeds (World.Answering p thread) (body bytes))
      (fun _ => True) (Code.execute p buffer thread body) w := by
  have hbuffer : w.buffer buffer = b := by rw [World.buffer, hb, Option.getD_some]
  refine .of_admission CodeBuffer.admitRun_eq (fun e he => Code.execute_of_refused (hbuffer ▸ he))
    (fun hok => Code.execute_of_admitted (hbuffer ▸ hok)) (fun _ => True.intro) fun h => ?_
  exact (Succeeds.holding (World.Answering.answers thread) .active .exec (fun _ => h.2 _) w h.1).1

/-- In a sound buffer no sum wraps. -/
theorem Exact.of_sound (hsound : b.Sound) (hsize : b.bytes.size ≤ maxLength) :
    Exact p buffer w b where
  within := hsound.within hsize
  emit thread _ hdata := emit_decided hb hsize hdata thread
  sum _ hcount := CodeBuffer.toNat_sum hsize hcount
  patch thread _ _ hdata := patch_decided hb hsize hdata thread
  range _ _ hfits := CodeBuffer.range_of_fits hsize hfits
  guarded mode thread g w₁ opening henter := by
    have hopens : Obeys Bystander (Guard.enter p .scope .active mode thread) := .enter _ _ _ _
    have hopening := hopens w
    rw [henter] at hopening
    rw [World.buffer, hopening.buffers, hb, Option.getD_some]
  execute thread body := execute_decided hb thread body
  code := by
    rw [Question.answer, World.buffer, hb, Option.getD_some, CodeBuffer.code_eq]

end

/-! ## Freed buffers -/

/-- The buffer has been given up. It is empty, its extent is still told, and all else that it is
asked for is refused, whatever it is asked with, since it has been freed. -/
structure GivenUp (p : Platform) (buffer : String) (maxSize : UInt64) (w : World) : Prop where
  left : w.buffers.get? buffer = some { bytes := .empty, maxSize, freed := true }
  extent : (Question.extent buffer).answer p w = .extent 0 true maxSize
  code : (Question.code buffer).answer p w = .code (.error .regionFreed)
  emit : ∀ thread data, Code.emit p buffer thread data w = ⟨.ok (.error .regionFreed), w, []⟩
  patch : ∀ thread offset data,
    Code.patch p buffer thread offset data w = ⟨.ok (.error .regionFreed), w, []⟩
  execute : ∀ {α : Type} thread (body : ByteArray → Step α),
    Code.execute p buffer thread body w = ⟨.ok (.error .regionFreed), w, []⟩

namespace GivenUp

variable {maxSize : UInt64}

theorem of_left (h : w.buffers.get? buffer = some { bytes := .empty, maxSize, freed := true }) :
    GivenUp p buffer maxSize w := by
  have hbuffer : w.buffer buffer = { bytes := .empty, maxSize, freed := true } := by
    rw [World.buffer, h, Option.getD_some]
  refine ⟨h, ?_, ?_, fun thread data => Code.emit_of_refused ?_,
    fun thread offset data => Code.patch_of_refused ?_,
    fun thread body => Code.execute_of_refused ?_⟩
  · rw [Question.answer, hbuffer]
    rfl
  · rw [Question.answer, hbuffer]
    rfl
  all_goals
    rw [hbuffer]
    rfl

/-- Nothing brings it back. -/
theorem outlasts (h : GivenUp p buffer maxSize w) (hkept : Continued w trace w') :
    GivenUp p buffer maxSize w' := by
  obtain ⟨es, b', hb', hevolves⟩ := hkept.kept buffer _ h.left
  have hsound : Sound { bytes := .empty, maxSize, freed := true } :=
    ⟨fun _ => Nat.zero_le _, fun _ => rfl⟩
  rw [hevolves.eq_of_freed hsound rfl] at hb'
  exact .of_left hb'

theorem run (h : GivenUp p buffer maxSize w) (running : List String) (program : Program) :
    GivenUp p buffer maxSize (run p running program w).state :=
  h.outlasts
    (Continued.stepwise.run program (program.all_of_forall fun _ => True.intro) running w)

/-- What is freed is given up. -/
theorem free (hb : w.buffers.get? buffer = some b) {running : List String}
    (hrunning : buffer ∉ running) : ∃ w', perform p running (.free buffer) w
      = ⟨.ok .nothing, w', []⟩ ∧ GivenUp p buffer b.maxSize w' := by
  refine ⟨{ w with buffers := w.buffers.update buffer fun b => b.free }, ?_, .of_left ?_⟩
  · simp [perform, hrunning, onBuffer]
  · rw [Table.get?_update_self, hb]
    rfl

end GivenUp

/-- **Acceptance is exact.** Wherever a program has come to, operations on code are decided as the
integers decide, if the code is no longer than byte strings can be. A buffer whose code is not
running can be freed, and then it is given up: so it is wherever the program goes on to, and however
it ends. And a buffer that has been freed has been given up. -/
theorem acceptance_is_exact {way : List Frame} {start place : Place} {before : List Happening}
    (hlead : Leads p way start before place) (hsound : start.world.Sound)
    (hb : place.world.buffers.get? buffer = some b) (hsize : b.bytes.size ≤ maxLength) :
    Exact p buffer place.world b ∧
      (b.freed = true → b.bytes = .empty ∧ GivenUp p buffer b.maxSize place.world ∧
        (∀ {way' : List Frame} {later : List Happening} {place' : Place},
          Leads p way' place later place' → place'.world.buffers.get? buffer = some b ∧
            GivenUp p buffer b.maxSize place'.world) ∧
        ∀ running program,
          (run p running program place.world).state.buffers.get? buffer = some b ∧
            GivenUp p buffer b.maxSize (run p running program place.world).state) ∧
      ∀ running, buffer ∉ running → ∃ w', perform p running (.free buffer) place.world
          = ⟨.ok .nothing, w', []⟩ ∧ GivenUp p buffer b.maxSize w' ∧
        (∀ {way' : List Frame} {later : List Happening} {place' : Place},
          Leads p way' ⟨running, w'⟩ later place' →
            GivenUp p buffer b.maxSize place'.world) ∧
        ∀ running' program, GivenUp p buffer b.maxSize (run p running' program w').state := by
  have hsound' : b.Sound := (Continued.of_leads hlead).sound hsound buffer b hb
  refine ⟨.of_sound hb hsound' hsize, fun hfreed => ?_, fun running hrunning => ?_⟩
  · have hempty : b.bytes = .empty := hsound'.freed hfreed
    have heq : b = { bytes := .empty, maxSize := b.maxSize, freed := true } := by
      rw [← hempty, ← hfreed]
    have hgone : GivenUp p buffer b.maxSize place.world := .of_left (hb.trans (congrArg some heq))
    refine ⟨hempty, hgone, fun hlead' => ?_, fun running program => ?_⟩
    · have hgone' := hgone.outlasts (.of_leads hlead')
      exact ⟨heq ▸ hgone'.left, hgone'⟩
    · have hgone' := hgone.run running program
      exact ⟨heq ▸ hgone'.left, hgone'⟩
  · obtain ⟨w', hfree, hgone⟩ := GivenUp.free hb hrunning
    exact ⟨w', hfree, hgone, fun hlead' => hgone.outlasts (.of_leads hlead'), hgone.run⟩

/-- A buffer that is filled up to one byte below its limit, also by a toggle that panics when the
scope is left. -/
def filling : Program :=
  .step (.newBuffer "b" (some 4)) <|
  .step (.newToggle "d" { mode := .exec, failures := [1] }) <|
  .step (.emit "b" none ⟨#[0x90, 0x90]⟩) <|
  .attempt (.step (.emit "b" (some "d") ⟨#[0xC3]⟩) .done) .done

/-- Its last byte can be filled, and not two bytes. Nothing can be patched in beyond its end, not
even nothing, nor where the sum is no word any more. Once it has been freed, it stays empty and
refuses even to emit nothing. -/
theorem acceptance_is_exact_full :
    let p : Platform := { target := .macos }
    ∃ before place b, Leads p [.past (.attempt filling)] { world := .empty } before place ∧
      place.world.buffers.get? "b" = some b ∧ b.bytes = ⟨#[0x90, 0x90, 0xC3]⟩ ∧
      Exact p "b" place.world b ∧
      (∃ offset, (Code.emit p "b" none ⟨#[0x90]⟩ place.world).outcome = .ok (.ok offset)) ∧
      (Code.emit p "b" none ⟨#[0x90, 0x90]⟩ place.world).outcome = .ok (.error .exceedsMaxSize) ∧
      (∃ done, (Code.patch p "b" none 3 .empty place.world).outcome = .ok (.ok done)) ∧
      (Code.patch p "b" none 4 .empty place.world).outcome = .ok (.error .outOfBounds) ∧
      (Code.patch p "b" none 0xFFFFFFFFFFFFFFFF ⟨#[0xCC]⟩ place.world).outcome
        = .ok (.error .outOfBounds) ∧
      ∃ freed, perform p [] (.free "b") place.world = ⟨.ok .nothing, freed, []⟩ ∧
        (Question.extent "b").answer p freed = .extent 0 true 4 ∧
        (Code.emit p "b" (some "d") .empty freed).outcome = .ok (.error .regionFreed) ∧
        (∀ running program, (run p running program freed).state.buffers.get? "b"
          = some { bytes := .empty, maxSize := 4, freed := true }) := by
  intro p
  have hreturns : ((Item.attempt filling).run p [] .empty).failed = false := by decide +kernel
  have hbuffer : (((Item.attempt filling).run p [] .empty).state.buffers.get? "b").map
      (fun b => (b.bytes, b.maxSize, b.freed)) = some (⟨#[0x90, 0x90, 0xC3]⟩, 4, false) := by
    decide +kernel
  have hlead := Leads.past_of_not_failed hreturns (.here _)
  generalize ((Item.attempt filling).run p [] .empty).trace ++ [] = before at hlead
  generalize ((Item.attempt filling).run p [] .empty).state = filled at hbuffer hlead
  obtain ⟨⟨bytes, maxSize, freed⟩, hb, hparts⟩ := Option.map_eq_some_iff.1 hbuffer
  obtain ⟨rfl, rfl, rfl⟩ : bytes = _ ∧ maxSize = 4 ∧ freed = false := by simpa using hparts
  obtain ⟨hexact, -, hfree⟩ := acceptance_is_exact hlead World.sound_empty hb (by decide)
  obtain ⟨gone, hgone, hgiven, -, hruns⟩ := hfree [] List.not_mem_nil
  have hanswers : filled.Answering p none := ⟨fun _ _ _ => nofun, fun _ _ _ => nofun⟩
  exact ⟨before, _, _, hlead, hb, rfl, hexact,
    (hexact.emit none ⟨#[0x90]⟩ (by decide)).answered rfl hanswers,
    ((hexact.emit none ⟨#[0x90, 0x90]⟩ (by decide)).error_iff _).2 rfl,
    (hexact.patch none 3 .empty (by decide)).answered rfl hanswers,
    ((hexact.patch none 4 .empty (by decide)).error_iff _).2 rfl,
    ((hexact.patch none 0xFFFFFFFFFFFFFFFF ⟨#[0xCC]⟩ (by decide)).error_iff _).2 rfl,
    gone, hgone, hgiven.extent, congrArg Run.outcome (hgiven.emit _ _),
    fun running program => (hruns running program).left⟩

end WriteXorExecute
