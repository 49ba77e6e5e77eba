import Mathlib
import WriteXorExecute.Code.Buffer
/-!
# What edits make of a code buffer

A buffer that starts empty is what its edits have made of it: the emitted code lies end to end in
the order in which it was emitted, and each byte is the one that was patched in last or, where
nothing was patched, the one that was emitted (`Evolves.written`). A freed buffer is empty, and
stays so (`Evolves.of_freed`).

Sizes and offsets are words; the edits are followed in `Nat`, which is right as long as the buffer
has fewer bytes than there are words. It only grows, so this has to be known of its end alone.
-/
namespace WriteXorExecute

/-! ## Edits -/

inductive Edit where
  /-- Bytes were put at the end, which was at `offset`. -/
  | emitted (offset : UInt64) (data : ByteArray)
  /-- Bytes were put in place of those from `offset` on. -/
  | patched (offset : UInt64) (data : ByteArray)
  /-- The code was given up. -/
  | freed
  deriving DecidableEq

namespace Edit

/-- The byte that the edit put at an index, if it put one there. -/
def byte? (i : Nat) : Edit → Option UInt8
  | emitted offset data | patched offset data =>
    if offset.toNat ≤ i then data[i - offset.toNat]? else none
  | freed => none

def emitsAt (i : Nat) : Edit → Bool
  | emitted offset data => ((emitted offset data).byte? i).isSome
  | patched .. | freed => false

def patchesAt (i : Nat) : Edit → Bool
  | patched offset data => ((patched offset data).byte? i).isSome
  | emitted .. | freed => false

/-- The edit is admitted, and makes the second buffer of the first. -/
def Makes (b b' : CodeBuffer) : Edit → Prop
  | emitted offset data => b.admitEmit data.size = .ok offset ∧ b' = b.append data
  | patched offset data => b.admitPatch offset data.size = .ok () ∧ b' = b.overwrite offset data
  | freed => b' = b.free

end Edit

/-- The edits, one after another, make the second buffer of the first. -/
inductive Evolves (b : CodeBuffer) : List Edit → CodeBuffer → Prop
  | nil : Evolves b [] b
  | snoc {b' b'' : CodeBuffer} {es : List Edit} {e : Edit} (h : Evolves b es b')
    (he : e.Makes b' b'') : Evolves b (es ++ [e]) b''

/-- The emitted code lies end to end between two indices. -/
def Tiles : (start : Nat) → List Edit → (stop : Nat) → Prop
  | start, [], stop => start = stop
  | start, .emitted offset data :: rest, stop =>
    offset.toNat = start ∧ Tiles (start + data.size) rest stop
  | start, .patched .. :: rest, stop | start, .freed :: rest, stop => Tiles start rest stop

/-- The buffer holds what the edits have written. -/
structure Written (es : List Edit) (b : CodeBuffer) : Prop where
  tiles : Tiles 0 es b.bytes.size
  within : ∀ e ∈ es, ∀ i, (e.byte? i).isSome → i < b.bytes.size
  /-- Each byte was emitted once, and is the one that was patched in last, if any was. -/
  bytes : ∀ i < b.bytes.size, ∃ e, es.filter (·.emitsAt i) = [e] ∧
    b.bytes[i]? = ((es.filter (·.patchesAt i)).getLast?.getD e).byte? i

variable {b b' b'' : CodeBuffer} {es es' : List Edit} {offset : UInt64} {data : ByteArray} {i : Nat}

theorem Evolves.single {e : Edit} (h : e.Makes b b') : Evolves b [e] b' := by
  have hnone : Evolves b [] b := .nil
  exact hnone.snoc h

theorem Evolves.append (h : Evolves b es b') (h' : Evolves b' es' b'') :
    Evolves b (es ++ es') b'' := by
  induction h' with
  | nil => simpa using h
  | snoc _ he ih =>
    rw [← List.append_assoc]
    exact .snoc ih he

theorem Tiles.append {start mid stop : Nat} (h : Tiles start es mid) (h' : Tiles mid es' stop) :
    Tiles start (es ++ es') stop := by
  induction es generalizing start with
  | nil =>
    obtain rfl : start = mid := h
    exact h'
  | cons e es ih =>
    cases e with
    | emitted offset data => exact ⟨h.1, ih h.2⟩
    | patched | freed =>
      have hrest : Tiles start es mid := h
      exact ih hrest

/-! ## Bytes -/

theorem getElem?_append_bytes (x y : ByteArray) (i : Nat) :
    (x ++ y)[i]? = if i < x.size then x[i]? else y[i - x.size]? := by
  have h : (x ++ y).data[i]? = if i < x.size then x.data[i]? else y.data[i - x.size]? := by
    rw [ByteArray.data_append, Array.getElem?_append]
    rfl
  exact h

theorem getElem?_extract_bytes (x : ByteArray) (start stop i : Nat) :
    (x.extract start stop)[i]? = if i < min stop x.size - start then x[start + i]? else none := by
  have h : (x.extract start stop).data[i]?
      = if i < min stop x.size - start then x.data[start + i]? else none := by
    rw [ByteArray.data_extract, Array.getElem?_extract]
    rfl
  exact h

theorem isSome_getElem?_bytes (x : ByteArray) (i : Nat) : (x[i]?).isSome ↔ i < x.size := by
  simp

theorem Edit.isSome_byte? (i : Nat) (offset : UInt64) (data : ByteArray) :
    ((emitted offset data).byte? i).isSome ↔
      offset.toNat ≤ i ∧ i < offset.toNat + data.size := by
  simp only [byte?]
  split
  · rw [isSome_getElem?_bytes]
    omega
  · simp only [Option.isSome_none, Bool.false_eq_true, false_iff]
    omega

namespace CodeBuffer

theorem size_append (b : CodeBuffer) (data : ByteArray) :
    (b.append data).bytes.size = b.bytes.size + data.size :=
  ByteArray.size_append

theorem size_overwrite (b : CodeBuffer) (offset : UInt64) (data : ByteArray) :
    (b.overwrite offset data).bytes.size
      = min offset.toNat b.bytes.size + data.size
        + (b.bytes.size - (offset.toNat + data.size)) := by
  simp [overwrite]

theorem size_overwrite_of_within (h : offset.toNat + data.size ≤ b.bytes.size) :
    (b.overwrite offset data).bytes.size = b.bytes.size := by
  rw [size_overwrite]
  omega

/-- A byte that is overwritten is one of the new bytes; the others stay. -/
theorem getElem?_overwrite (h : offset.toNat + data.size ≤ b.bytes.size) (i : Nat) :
    (b.overwrite offset data).bytes[i]? =
      if offset.toNat ≤ i ∧ i < offset.toNat + data.size then data[i - offset.toNat]?
      else b.bytes[i]? := by
  have hleft : (b.bytes.extract 0 offset.toNat).size = offset.toNat := by
    rw [ByteArray.size_extract]
    omega
  rw [overwrite, getElem?_append_bytes, getElem?_append_bytes, ByteArray.size_append, hleft,
    getElem?_extract_bytes, getElem?_extract_bytes]
  by_cases h₁ : i < offset.toNat
  · rw [if_pos (by omega), if_pos h₁, if_pos (by omega), if_neg (by omega), Nat.zero_add]
  · by_cases h₂ : i < offset.toNat + data.size
    · rw [if_pos h₂, if_neg h₁, if_pos (by omega)]
    · have houtside : ¬(offset.toNat ≤ i ∧ i < offset.toNat + data.size) := fun h => h₂ h.2
      rw [if_neg h₂, if_neg houtside]
      by_cases h₃ : i < b.bytes.size
      · rw [if_pos (by omega)]
        congr 1
        omega
      · rw [if_neg (by omega), getElem?_neg b.bytes i h₃]

/-! ### Admission -/

theorem admitEmit_of_live (h : b.freed = false) (count : Nat) : b.admitEmit count =
    if b.maxSize < b.size + UInt64.ofNat count then .error .exceedsMaxSize else .ok b.size := by
  rw [admitEmit, requireLive, h]
  by_cases hlimit : b.maxSize < b.size + UInt64.ofNat count
  · simp only [if_pos hlimit]
    rfl
  · simp only [if_neg hlimit]
    rfl

theorem admitRun_of_live (h : b.freed = false) :
    b.admitRun = if b.bytes.isEmpty then .error .empty else .ok () := by
  rw [admitRun, requireLive, h]
  rfl

theorem of_admitEmit {count : Nat} (h : b.admitEmit count = .ok offset) :
    b.freed = false ∧ offset = b.size := by
  simp only [admitEmit, requireLive, bind, Except.bind] at h
  split at h
  · cases h
  · rename_i hlive
    split at hlive
    · cases hlive
    · rename_i hfreed
      split at h
      · cases h
      · exact ⟨by simpa using hfreed, (Except.ok.inj h).symm⟩

theorem of_admitPatch {count : Nat} (h : b.admitPatch offset count = .ok ())
    (hsize : b.bytes.size < UInt64.size) (hcount : count < UInt64.size) :
    b.freed = false ∧ offset.toNat + count ≤ b.bytes.size := by
  simp only [admitPatch, requireLive, bind, Except.bind] at h
  split at h
  · cases h
  · rename_i hlive
    split at hlive
    · cases hlive
    · rename_i hfreed
      refine ⟨by simpa using hfreed, ?_⟩
      split at h
      · cases h
      · rename_i stop hstop
        split at h
        · cases h
        · rename_i hinside
          have hsum := Word.toNat_of_checkedAdd hstop
          rw [UInt64.toNat_ofNat_of_lt' hcount] at hsum
          have hsize' : b.size.toNat = b.bytes.size := UInt64.toNat_ofNat_of_lt' hsize
          rw [UInt64.lt_iff_toNat_lt, hsize'] at hinside
          omega

end CodeBuffer

/-! ## What the edits have written -/

/-- No edit but the last one makes a buffer smaller. -/
theorem Edit.Makes.grows {e : Edit} (h : e.Makes b b') (hlive : e ≠ .freed) :
    b.bytes.size ≤ b'.bytes.size := by
  cases e with
  | emitted offset data =>
    obtain ⟨-, rfl⟩ := h
    rw [CodeBuffer.size_append]
    omega
  | patched offset data =>
    obtain ⟨-, rfl⟩ := h
    rw [CodeBuffer.size_overwrite]
    omega
  | freed => exact absurd rfl hlive

namespace Written

/-- What lies at an index beyond the code has been written by no edit. -/
theorem beyond (h : Written es b) (hi : b.bytes.size ≤ i) :
    es.filter (·.emitsAt i) = [] ∧ es.filter (·.patchesAt i) = [] := by
  have hbyte : ∀ e ∈ es, (e.byte? i).isSome = false := by
    intro e he
    rw [← Bool.not_eq_true]
    intro hsome
    have := h.within e he i hsome
    omega
  constructor
  · refine List.filter_eq_nil_iff.2 fun e he => ?_
    cases e with
    | emitted offset data => simpa [Edit.emitsAt] using hbyte _ he
    | patched | freed => simp [Edit.emitsAt]
  · refine List.filter_eq_nil_iff.2 fun e he => ?_
    cases e with
    | patched offset data => simpa [Edit.patchesAt] using hbyte _ he
    | emitted | freed => simp [Edit.patchesAt]

theorem nil (h : b.bytes.size = 0) : Written [] b :=
  ⟨h.symm, by simp, by simp [h]⟩

theorem emitted (h : Written es b) (hadmitted : b.admitEmit data.size = .ok offset)
    (hsize : b.bytes.size < UInt64.size) :
    Written (es ++ [.emitted offset data]) (b.append data) := by
  obtain ⟨-, rfl⟩ := CodeBuffer.of_admitEmit hadmitted
  have hoffset : b.size.toNat = b.bytes.size := UInt64.toNat_ofNat_of_lt' hsize
  refine ⟨?_, fun e he i hbyte => ?_, fun i hi => ?_⟩
  · rw [CodeBuffer.size_append]
    exact h.tiles.append ⟨hoffset, rfl⟩
  · rw [CodeBuffer.size_append]
    rcases List.mem_append.1 he with he | he
    · have := h.within e he i hbyte
      omega
    · obtain rfl := List.mem_singleton.1 he
      rw [Edit.isSome_byte?, hoffset] at hbyte
      omega
  · rw [CodeBuffer.size_append] at hi
    have hbytes : (b.append data).bytes[i]?
        = if i < b.bytes.size then b.bytes[i]? else data[i - b.bytes.size]? :=
      getElem?_append_bytes b.bytes data i
    have hemits : (Edit.emitted b.size data).emitsAt i = true ↔ b.bytes.size ≤ i := by
      rw [Edit.emitsAt, Edit.isSome_byte?, hoffset]
      omega
    have hpatches : [Edit.emitted b.size data].filter (·.patchesAt i) = [] := rfl
    rw [hbytes, List.filter_append, List.filter_append, hpatches, List.append_nil]
    by_cases hold : i < b.bytes.size
    · -- The byte was there before.
      have hnew : [Edit.emitted b.size data].filter (·.emitsAt i) = [] := by
        rw [List.filter_cons_of_neg (by rw [hemits]; omega), List.filter_nil]
      obtain ⟨e, hemitted, hbyte⟩ := h.bytes i hold
      refine ⟨e, by rw [hemitted, hnew, List.append_nil], ?_⟩
      rw [if_pos hold, hbyte]
    · -- It has just been emitted.
      have hnew : [Edit.emitted b.size data].filter (·.emitsAt i) = [.emitted b.size data] := by
        rw [List.filter_cons_of_pos (hemits.2 (Nat.le_of_not_lt hold)), List.filter_nil]
      obtain ⟨hnone, hnone'⟩ := h.beyond (Nat.le_of_not_lt hold)
      refine ⟨.emitted b.size data, by rw [hnone, hnew, List.nil_append], ?_⟩
      rw [hnone', if_neg hold, List.getLast?_nil, Option.getD_none, Edit.byte?, hoffset,
        if_pos (Nat.le_of_not_lt hold)]

theorem patched (h : Written es b) (hadmitted : b.admitPatch offset data.size = .ok ())
    (hsize : b.bytes.size < UInt64.size) (hdata : data.size < UInt64.size) :
    Written (es ++ [.patched offset data]) (b.overwrite offset data) := by
  obtain ⟨-, hinside⟩ := CodeBuffer.of_admitPatch hadmitted hsize hdata
  have hsame := CodeBuffer.size_overwrite_of_within hinside
  have hpatches (i : Nat) : (Edit.patched offset data).patchesAt i = true ↔
      offset.toNat ≤ i ∧ i < offset.toNat + data.size :=
    Edit.isSome_byte? i offset data
  refine ⟨?_, fun e he i hbyte => ?_, fun i hi => ?_⟩
  · rw [hsame]
    exact h.tiles.append rfl
  · rw [hsame]
    rcases List.mem_append.1 he with he | he
    · exact h.within e he i hbyte
    · obtain rfl := List.mem_singleton.1 he
      have := (hpatches i).1 hbyte
      omega
  · rw [hsame] at hi
    obtain ⟨e, hemitted, hbyte⟩ := h.bytes i hi
    have hemits : [Edit.patched offset data].filter (·.emitsAt i) = [] := rfl
    refine ⟨e, by rw [List.filter_append, hemitted, hemits, List.append_nil], ?_⟩
    rw [CodeBuffer.getElem?_overwrite hinside, List.filter_append]
    by_cases hin : offset.toNat ≤ i ∧ i < offset.toNat + data.size
    · rw [List.filter_cons_of_pos ((hpatches i).2 hin), List.filter_nil, if_pos hin,
        List.getLast?_concat, Option.getD_some, Edit.byte?, if_pos hin.1]
    · rw [List.filter_cons_of_neg (mt (hpatches i).1 hin), List.filter_nil, if_neg hin,
        List.append_nil, hbyte]

end Written

/-- **What the edits have written.** A buffer that was empty, and has not been freed, holds what its
edits have written. -/
theorem Evolves.written (h : Evolves b es b') (hempty : b.bytes.size = 0)
    (hlive : .freed ∉ es) (hsize : b'.bytes.size < UInt64.size) : Written es b' := by
  induction h with
  | nil => exact .nil hempty
  | @snoc b' b'' es e _ he ih =>
    rw [List.mem_append, not_or, List.mem_singleton] at hlive
    have hgrows := he.grows (Ne.symm hlive.2)
    have hbefore := ih hlive.1 (by omega)
    cases e with
    | emitted offset data =>
      obtain ⟨hadmitted, rfl⟩ := he
      exact hbefore.emitted hadmitted (by omega)
    | patched offset data =>
      obtain ⟨hadmitted, rfl⟩ := he
      have hdata : data.size < UInt64.size := by
        rw [CodeBuffer.size_overwrite] at hsize
        omega
      exact hbefore.patched hadmitted (by omega) hdata
    | freed => exact absurd rfl hlive.2

/-- A buffer that has not been freed is live. -/
theorem Evolves.live (h : Evolves b es b') (hfreed : .freed ∉ es) : b'.freed = b.freed := by
  induction h with
  | nil => rfl
  | @snoc b' b'' es e _ he ih =>
    rw [List.mem_append, not_or, List.mem_singleton] at hfreed
    cases e with
    | emitted offset data =>
      obtain ⟨-, rfl⟩ := he
      exact ih hfreed.1
    | patched offset data =>
      obtain ⟨-, rfl⟩ := he
      exact ih hfreed.1
    | freed => exact absurd rfl hfreed.2

/-- Only live buffers are written to. -/
theorem Edit.Makes.live {e : Edit} (h : e.Makes b b') (hwrites : e ≠ .freed) :
    b.freed = false := by
  cases e with
  | emitted offset data => exact (CodeBuffer.of_admitEmit h.1).1
  | patched offset data =>
    have hadmitted := h.1
    rw [← Bool.not_eq_true]
    intro hfreed
    simp [CodeBuffer.admitPatch, CodeBuffer.requireLive, hfreed, bind, Except.bind] at hadmitted
  | freed => exact absurd rfl hwrites

/-- **A freed buffer** is empty, and stays so: nothing is admitted any more. -/
theorem Evolves.of_freed (h : Evolves b es b') (hfreed : .freed ∈ es) :
    b'.bytes = .empty ∧ b'.freed = true := by
  induction h with
  | nil => simp at hfreed
  | @snoc b' b'' es e _ he ih =>
    by_cases hwrites : e = .freed
    · subst hwrites
      obtain rfl := he
      exact ⟨rfl, rfl⟩
    · rw [List.mem_append, List.mem_singleton] at hfreed
      obtain ⟨-, hfreed'⟩ := ih (hfreed.resolve_right (Ne.symm hwrites))
      rw [he.live hwrites] at hfreed'
      cases hfreed'

end WriteXorExecute
