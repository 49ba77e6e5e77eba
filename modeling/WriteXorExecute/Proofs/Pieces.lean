import Mathlib.Data.List.Perm.Basic
import WriteXorExecute.Proofs.Acceptance
import WriteXorExecute.Proofs.Refusals
/-!
# Code in pieces

Code is written in pieces. Some are put at the end, the others over code that has been emitted
before. Which of them are accepted, what they are answered and what they make of a buffer depends on
nothing but the buffer.

- **What pieces make of a buffer** (`CodeBuffer.Took`): each byte is the one that was patched in
  last at its place, or else the one that was emitted. The induction is on the pieces; two buffers
  that differ by pieces in a row differ by the pieces together (`CodeBuffer.Took.trans`).
- **Which pieces are accepted** (`CodeBuffer.Takes`): those that fit, and patch emitted code.
- **The order of pieces** (`CodeBuffer.Took.eq_of_perm`, `answers_perm`): patches that do not meet
  can change places, among themselves and with what is emitted.
-/
namespace WriteXorExecute

/-- A piece of code that is to be written. -/
inductive Piece where
  /-- Bytes for the end. -/
  | emit (data : ByteArray)
  /-- Bytes in place of those from `offset` on. -/
  | patch (offset : UInt64) (data : ByteArray)
  deriving DecidableEq

namespace Piece

/-- What the piece puts at the end. -/
def chunk : Piece → ByteArray
  | emit data => data
  | patch .. => .empty

def emits : Piece → Bool
  | emit _ => true
  | patch .. => false

/-- The byte that the piece patches in at an index, if it does. -/
def patched? (i : Nat) : Piece → Option UInt8
  | emit _ => none
  | patch offset data => (Edit.patched offset data).byte? i

/-- What the piece patches lies inside code of this size. -/
def Within (size : Nat) : Piece → Prop
  | emit _ => True
  | patch offset data => offset.toNat + data.size ≤ size

def Apart (x y : Piece) : Prop :=
  ∀ i, x.patched? i = none ∨ y.patched? i = none

/-- The answer to a piece that is accepted by a buffer with code of this size. -/
def accepted (size : Nat) : Piece → Reply
  | emit _ => .emitted (.ok (.ofNat size))
  | patch .. => .patched (.ok ())

end Piece

variable {b b' b'' : CodeBuffer} {x : Piece} {xs ys : List Piece} {offset : UInt64}
  {data : ByteArray} {size count i : Nat}

/-- All that the pieces put at the end. -/
def joined (xs : List Piece) : ByteArray :=
  xs.foldr (fun x rest => x.chunk ++ rest) .empty

/-- The byte that the pieces patch in last at an index, if they do. -/
def lastPatched? (i : Nat) (xs : List Piece) : Option UInt8 :=
  (xs.filterMap (Piece.patched? i)).getLast?

/-- Each patch comes after the code that it is for, of which there is this much before. -/
def Late : (size : Nat) → List Piece → Prop
  | _, [] => True
  | size, x :: xs => x.Within size ∧ Late (size + x.chunk.size) xs

/-- The answers to pieces that are all accepted by a buffer with code of this size. -/
def answers : (size : Nat) → List Piece → List Reply
  | _, [] => []
  | size, x :: xs => x.accepted size :: answers (size + x.chunk.size) xs

namespace CodeBuffer

def reply (b : CodeBuffer) : Piece → Reply
  | .emit data => .emitted (b.admitEmit data.size)
  | .patch offset data => .patched (b.admitPatch offset data.size)

def write (b : CodeBuffer) : Piece → CodeBuffer
  | .emit data => if (b.admitEmit data.size).isOk then b.append data else b
  | .patch offset data =>
    if (b.admitPatch offset data.size).isOk then b.overwrite offset data else b

def replies : CodeBuffer → List Piece → List Reply
  | _, [] => []
  | b, x :: xs => b.reply x :: (b.write x).replies xs

def writeAll (b : CodeBuffer) (xs : List Piece) : CodeBuffer :=
  xs.foldl write b

/-- The second buffer is what the pieces have made of the first. -/
structure Took (b : CodeBuffer) (xs : List Piece) (b' : CodeBuffer) : Prop where
  maxSize : b'.maxSize = b.maxSize
  freed : b'.freed = b.freed
  size : b'.bytes.size = b.bytes.size + (joined xs).size
  bytes : ∀ i : Nat, b'.bytes[i]? = (lastPatched? i xs).or (b.bytes ++ joined xs)[i]?

/-- There is room for all that the pieces put at the end. -/
def Fits (b : CodeBuffer) (xs : List Piece) : Prop :=
  b.bytes.size + (joined xs).size ≤ b.maxSize.toNat

/-- The buffer is live, the pieces fit, and each patch comes after the code that it is for. -/
structure Takes (b : CodeBuffer) (xs : List Piece) : Prop where
  live : b.freed = false
  fits : b.Fits xs
  late : Late b.bytes.size xs

end CodeBuffer

/-! ## Pieces together -/

@[simp] theorem joined_nil : joined [] = .empty := rfl

@[simp] theorem joined_cons : joined (x :: xs) = x.chunk ++ joined xs := rfl

@[simp] theorem joined_singleton : joined [x] = x.chunk :=
  ByteArray.append_empty

@[simp] theorem lastPatched?_nil : lastPatched? i [] = none := rfl

theorem joined_append : joined (xs ++ ys) = joined xs ++ joined ys := by
  induction xs with
  | nil => rw [List.nil_append, joined_nil, ByteArray.empty_append]
  | cons x xs ih => rw [List.cons_append, joined_cons, joined_cons, ih, ByteArray.append_assoc]

theorem lastPatched?_append : lastPatched? i (xs ++ ys) =
    (lastPatched? i ys).or (lastPatched? i xs) := by
  rw [lastPatched?, List.filterMap_append, List.getLast?_append]
  rfl

@[simp] theorem lastPatched?_singleton : lastPatched? i [x] = x.patched? i := by
  rw [lastPatched?]
  cases h : x.patched? i <;> simp [h]

/-- What is patched in last is patched in by one of the pieces. -/
theorem exists_of_lastPatched? {byte : UInt8} (h : lastPatched? i xs = some byte) :
    ∃ x ∈ xs, x.patched? i = some byte :=
  List.mem_filterMap.1 (List.mem_of_getLast? h)

theorem lastPatched?_eq_none_iff : lastPatched? i xs = none ↔ ∀ x ∈ xs, x.patched? i = none := by
  rw [lastPatched?, List.getLast?_eq_none_iff, List.filterMap_eq_nil_iff]

/-- Only what is emitted makes the code longer. -/
theorem joined_filter_emits : joined (xs.filter Piece.emits) = joined xs := by
  induction xs with
  | nil => rfl
  | cons x xs ih =>
    cases x with
    | emit data => rw [List.filter_cons_of_pos rfl, joined_cons, joined_cons, ih]
    | patch offset data =>
      rw [List.filter_cons_of_neg Bool.false_ne_true, ih, joined_cons, Piece.chunk,
        ByteArray.empty_append]

theorem Piece.isSome_patched? (offset : UInt64) (data : ByteArray) (i : Nat) :
    ((patch offset data).patched? i).isSome ↔ offset.toNat ≤ i ∧ i < offset.toNat + data.size :=
  Edit.isSome_byte? i offset data

/-- Patches do not meet if one of them is empty, or one ends before the other starts. -/
theorem Piece.apart_patch_iff {offset' : UInt64} {data' : ByteArray} :
    Apart (patch offset data) (patch offset' data') ↔ data.size = 0 ∨ data'.size = 0 ∨
      offset.toNat + data.size ≤ offset'.toNat ∨ offset'.toNat + data'.size ≤ offset.toNat := by
  have hbytes (i : Nat) : ((patch offset data).patched? i = none ∨
      (patch offset' data').patched? i = none) ↔
        ¬(offset.toNat ≤ i ∧ i < offset.toNat + data.size) ∨
          ¬(offset'.toNat ≤ i ∧ i < offset'.toNat + data'.size) := by
    rw [← isSome_patched?, ← isSome_patched?, Option.not_isSome_iff_eq_none,
      Option.not_isSome_iff_eq_none]
  simp only [Apart, hbytes]
  constructor
  · intro h
    have := h (max offset.toNat offset'.toNat)
    omega
  · intro h i
    omega

instance : (x y : Piece) → Decidable (x.Apart y)
  | .emit _, _ => .isTrue fun _ => .inl rfl
  | .patch .., .emit _ => .isTrue fun _ => .inr rfl
  | .patch .., .patch .. => decidable_of_iff _ Piece.apart_patch_iff.symm

instance : (size : Nat) → (x : Piece) → Decidable (x.Within size)
  | _, .emit _ => .isTrue True.intro
  | size, .patch offset data => inferInstanceAs (Decidable (offset.toNat + data.size ≤ size))

instance (b : CodeBuffer) (xs : List Piece) : Decidable (b.Fits xs) :=
  inferInstanceAs (Decidable (b.bytes.size + (joined xs).size ≤ b.maxSize.toNat))

instance Late.decidable : (size : Nat) → (xs : List Piece) → Decidable (Late size xs)
  | _, [] => .isTrue True.intro
  | size, x :: xs =>
    have := Late.decidable (size + x.chunk.size) xs
    inferInstanceAs (Decidable (x.Within size ∧ Late (size + x.chunk.size) xs))

theorem Piece.patched?_of_emits (h : x.emits = true) : x.patched? i = none := by
  cases x with
  | emit => rfl
  | patch => cases h

theorem Piece.accepted_of_emits (h : x.emits = true) :
    x.accepted size = .emitted (.ok (.ofNat size)) := by
  cases x with
  | emit => rfl
  | patch => cases h

theorem late_of_emits (h : ∀ x ∈ xs, x.emits = true) : Late size xs := by
  induction xs generalizing size with
  | nil => exact True.intro
  | cons x xs ih =>
    obtain ⟨hx, hxs⟩ := List.forall_mem_cons.1 h
    cases x with
    | emit => exact ⟨True.intro, ih hxs⟩
    | patch => cases hx

/-- What is emitted starts where all that is there and has been emitted before it ends. -/
theorem getElem?_answers (size : Nat) (xs : List Piece) (i : Nat) :
    (answers size xs)[i]? = xs[i]?.map fun x => x.accepted (size + (joined (xs.take i)).size) := by
  induction xs generalizing size i with
  | nil => rfl
  | cons x xs ih =>
    cases i with
    | zero => rfl
    | succ i =>
      rw [answers, List.getElem?_cons_succ, List.getElem?_cons_succ, ih, List.take_succ_cons,
        joined_cons, ByteArray.size_append, Nat.add_assoc]

/-- The offsets of what is emitted, if it all fits. -/
theorem offset_of_answers (hemits : ∀ x ∈ xs, x.emits = true) (hfits : b.Fits xs)
    (hi : i < xs.length) :
    ∃ offset, (answers b.bytes.size xs)[i]? = some (.emitted (.ok offset)) ∧
      offset.toNat = b.bytes.size + (joined (xs.take i)).size := by
  refine ⟨.ofNat (b.bytes.size + (joined (xs.take i)).size), ?_, ?_⟩
  · rw [getElem?_answers, List.getElem?_eq_getElem hi, Option.map_some,
      Piece.accepted_of_emits (hemits _ (List.getElem_mem hi))]
  · refine UInt64.toNat_ofNat_of_lt' (Nat.lt_of_le_of_lt ?_ b.maxSize.toNat_lt)
    have hall : (joined xs).size = (joined (xs.take i)).size + (joined (xs.drop i)).size := by
      rw [← ByteArray.size_append, ← joined_append, List.take_append_drop]
    rw [CodeBuffer.Fits, hall] at hfits
    omega

theorem refuses_of_mem_answers {reply : Reply} (h : reply ∈ answers size xs) :
    reply.refuses = false := by
  induction xs generalizing size with
  | nil => cases h
  | cons x xs ih =>
    rcases List.mem_cons.1 h with rfl | h
    · cases x <;> rfl
    · exact ih h

/-! ## What pieces make of a buffer -/

namespace CodeBuffer

theorem ext_bytes (hmaxSize : b.maxSize = b'.maxSize) (hfreed : b.freed = b'.freed)
    (hbytes : ∀ i : Nat, b.bytes[i]? = b'.bytes[i]?) : b = b' := by
  obtain ⟨bytes, maxSize, freed⟩ := b
  obtain ⟨bytes', maxSize', freed'⟩ := b'
  obtain rfl : maxSize = maxSize' := hmaxSize
  obtain rfl : freed = freed' := hfreed
  obtain rfl : bytes = bytes' := ByteArray.ext (Array.ext_getElem? hbytes)
  rfl

namespace Took

theorem refl (b : CodeBuffer) : Took b [] b where
  maxSize := rfl
  freed := rfl
  size := rfl
  bytes i := by rw [lastPatched?_nil, Option.none_or, joined_nil, ByteArray.append_empty]

/-- Nothing is patched in beyond the end. -/
theorem lastPatched?_of_le (h : Took b xs b') (hi : b'.bytes.size ≤ i) :
    lastPatched? i xs = none := by
  have hnone := h.bytes i
  rw [getElem?_neg b'.bytes i (Nat.not_lt.2 hi)] at hnone
  exact (Option.or_eq_none_iff.1 hnone.symm).1

theorem trans (h : Took b xs b') (h' : Took b' ys b'') : Took b (xs ++ ys) b'' where
  maxSize := h'.maxSize.trans h.maxSize
  freed := h'.freed.trans h.freed
  size := by rw [h'.size, h.size, joined_append, ByteArray.size_append, Nat.add_assoc]
  bytes i := by
    have hsize : (b.bytes ++ joined xs).size = b'.bytes.size := by
      rw [h.size, ByteArray.size_append]
    rw [h'.bytes, lastPatched?_append, Option.or_assoc, joined_append, ← ByteArray.append_assoc,
      getElem?_append_bytes, getElem?_append_bytes, hsize]
    -- Where the first pieces have left no byte, none of them has patched one in.
    by_cases hi : i < b'.bytes.size
    · rw [if_pos hi, if_pos hi, h.bytes]
    · rw [if_neg hi, if_neg hi, h.lastPatched?_of_le (Nat.le_of_not_lt hi), Option.none_or]

/-- Pieces that leave the same bytes everywhere make the same of a buffer. -/
theorem eq (h : Took b xs b') (h' : Took b ys b'')
    (hbytes : ∀ i : Nat, (lastPatched? i xs).or (b.bytes ++ joined xs)[i]? =
      (lastPatched? i ys).or (b.bytes ++ joined ys)[i]?) : b' = b'' :=
  ext_bytes (h.maxSize.trans h'.maxSize.symm) (h.freed.trans h'.freed.symm) fun i => by
    rw [h.bytes, h'.bytes, hbytes]

end Took

theorem took_append (b : CodeBuffer) (data : ByteArray) : Took b [.emit data] (b.append data) where
  maxSize := rfl
  freed := rfl
  size := by rw [size_append, joined_singleton, Piece.chunk]
  bytes i := by
    rw [lastPatched?_singleton, Piece.patched?, Option.none_or, joined_singleton]
    rfl

theorem took_overwrite (h : offset.toNat + data.size ≤ b.bytes.size) :
    Took b [.patch offset data] (b.overwrite offset data) where
  maxSize := rfl
  freed := rfl
  size := by
    rw [size_overwrite_of_within h, joined_singleton, Piece.chunk, ByteArray.size_empty,
      Nat.add_zero]
  bytes i := by
    have hjoined : b.bytes ++ joined [.patch offset data] = b.bytes := by
      rw [joined_singleton, Piece.chunk, ByteArray.append_empty]
    have hpatched : (Edit.patched offset data).byte? i =
        if offset.toNat ≤ i then data[i - offset.toNat]? else none := rfl
    rw [getElem?_overwrite h, lastPatched?_singleton, Piece.patched?, hjoined, hpatched]
    by_cases hfrom : offset.toNat ≤ i
    · by_cases hto : i < offset.toNat + data.size
      · obtain ⟨byte, hbyte⟩ := Option.isSome_iff_exists.1
          ((isSome_getElem?_bytes data (i - offset.toNat)).2 (by omega))
        rw [if_pos ⟨hfrom, hto⟩, if_pos hfrom, hbyte, Option.some_or]
      · rw [if_neg fun h => hto h.2, if_pos hfrom,
          getElem?_neg data (i - offset.toNat) (by omega), Option.none_or]
    · rw [if_neg fun h => hfrom h.1, if_neg hfrom, Option.none_or]

/-- Pieces have made the code that is emitted with its bytes as they are in the end, if each place
has had its byte patched in, or emitted. -/
theorem Took.eq_append {final : ByteArray} (h : Took b xs b')
    (hpatched : ∀ x ∈ xs, ∀ i byte, x.patched? i = some byte →
      (b.bytes ++ final)[i]? = some byte)
    (hother : ∀ i : Nat, (∀ x ∈ xs, x.patched? i = none) →
      (b.bytes ++ joined xs)[i]? = (b.bytes ++ final)[i]?) : b' = b.append final :=
  h.eq (b.took_append final) fun i => by
    rw [lastPatched?_singleton, Piece.patched?, Option.none_or, joined_singleton, Piece.chunk]
    cases hlast : lastPatched? i xs with
    | none => exact hother i (lastPatched?_eq_none_iff.1 hlast)
    | some byte =>
      obtain ⟨x, hx, hbyte⟩ := exists_of_lastPatched? hlast
      exact (hpatched x hx i byte hbyte).symm

/-- A patch that is made again changes nothing. -/
theorem overwrite_overwrite (h : offset.toNat + data.size ≤ b.bytes.size) :
    (b.overwrite offset data).overwrite offset data = b.overwrite offset data := by
  have htook := took_overwrite h
  rw [← size_overwrite_of_within h] at h
  refine (htook.trans (took_overwrite h)).eq htook fun i => ?_
  rw [lastPatched?_append, Option.or_self, joined_append, joined_singleton, Piece.chunk,
    ByteArray.append_empty]

/-! ## Which pieces are accepted -/

/-- Only what is emitted needs room. -/
theorem Fits.of_emits (h : b.Fits xs) (hemits : xs.filter Piece.emits = ys.filter Piece.emits) :
    b.Fits ys := by
  rw [Fits, ← joined_filter_emits, ← hemits, joined_filter_emits]
  exact h

/-- What fits is accepted. -/
theorem admitEmit_of_fits (hlive : b.freed = false)
    (hfits : b.bytes.size + count ≤ b.maxSize.toNat) :
    b.admitEmit count = .ok (.ofNat b.bytes.size) := by
  have hsum : (b.size + UInt64.ofNat count).toNat = b.bytes.size + count := by
    rw [size, ← UInt64.ofNat_add, UInt64.toNat_ofNat_of_lt']
    exact Nat.lt_of_le_of_lt hfits b.maxSize.toNat_lt
  rw [admitEmit_of_live hlive, if_neg]
  · rfl
  · rw [UInt64.lt_iff_toNat_lt, hsum]
    omega

/-- What lies inside the code is accepted. -/
theorem admitPatch_of_within (hlive : b.freed = false) (hsize : b.bytes.size < UInt64.size)
    (hwithin : offset.toNat + count ≤ b.bytes.size) : b.admitPatch offset count = .ok () := by
  have hstop : Word.checkedAdd offset (.ofNat count) = some (.ofNat (offset.toNat + count)) := by
    rw [← Word.checkedAdd_ofNat (Nat.lt_of_le_of_lt hwithin hsize), UInt64.ofNat_toNat]
  have hinside : ¬b.size < .ofNat (offset.toNat + count) := by
    rw [UInt64.lt_iff_toNat_lt, size, UInt64.toNat_ofNat_of_lt' hsize,
      UInt64.toNat_ofNat_of_lt' (Nat.lt_of_le_of_lt hwithin hsize)]
    omega
  simp only [admitPatch, requireLive, hlive, hstop, if_neg hinside]
  rfl

/-- A piece that is accepted is taken. -/
theorem Takes.head (h : b.Takes (x :: xs)) :
    b.reply x = x.accepted b.bytes.size ∧ Took b [x] (b.write x) := by
  have hfits := h.fits
  rw [Fits, joined_cons, ByteArray.size_append] at hfits
  cases x with
  | emit data =>
    rw [Piece.chunk] at hfits
    have hadmitted : b.admitEmit data.size = .ok (.ofNat b.bytes.size) :=
      admitEmit_of_fits h.live (by omega)
    rw [reply, write, hadmitted]
    exact ⟨rfl, took_append b data⟩
  | patch offset data =>
    have hwithin : offset.toNat + data.size ≤ b.bytes.size := h.late.1
    have hadmitted := admitPatch_of_within h.live (Nat.lt_of_le_of_lt (by omega)
      b.maxSize.toNat_lt) hwithin
    rw [reply, write, hadmitted]
    exact ⟨rfl, took_overwrite hwithin⟩

theorem Takes.tail (h : b.Takes (x :: xs)) : (b.write x).Takes xs := by
  have htook := h.head.2
  have hsize : (b.write x).bytes.size = b.bytes.size + x.chunk.size := by
    rw [htook.size, joined_singleton]
  have hfits := h.fits
  rw [Fits, joined_cons, ByteArray.size_append] at hfits
  refine ⟨htook.freed.trans h.live, ?_, hsize ▸ h.late.2⟩
  rw [Fits, hsize, htook.maxSize]
  omega

/-- **Pieces that are accepted** are answered so, and are taken. -/
theorem Takes.taken (h : b.Takes xs) :
    b.replies xs = answers b.bytes.size xs ∧ Took b xs (b.writeAll xs) := by
  induction xs generalizing b with
  | nil => exact ⟨rfl, .refl b⟩
  | cons x xs ih =>
    obtain ⟨hreply, htook⟩ := h.head
    obtain ⟨hreplies, htook'⟩ := ih h.tail
    rw [htook.size, joined_singleton] at hreplies
    exact ⟨by rw [replies, answers, hreply, hreplies], htook.trans htook'⟩

/-- Of pieces that fit, none is refused exactly if each patch comes after the code that it is
for. -/
theorem replies_refuse_none_iff (hlive : b.freed = false) (hfits : b.Fits xs)
    (hcount : ∀ offset data, .patch offset data ∈ xs → data.size < UInt64.size) :
    (∀ reply ∈ b.replies xs, reply.refuses = false) ↔ Late b.bytes.size xs := by
  constructor
  · intro h
    induction xs generalizing b with
    | nil => exact True.intro
    | cons x xs ih =>
      obtain ⟨hreply, hreplies⟩ := List.forall_mem_cons.1 h
      rw [Fits, joined_cons, ByteArray.size_append] at hfits
      have hwithin : x.Within b.bytes.size := by
        cases x with
        | emit => exact True.intro
        | patch offset data =>
          cases hadmitted : b.admitPatch offset data.size with
          | error e => simp [reply, hadmitted, Reply.refuses] at hreply
          | ok _ =>
            have hsize : b.bytes.size < UInt64.size :=
              Nat.lt_of_le_of_lt (by omega) b.maxSize.toNat_lt
            exact (of_admitPatch hadmitted hsize (hcount _ _ List.mem_cons_self)).2
      -- So this piece is taken, and leaves room for the others.
      have htakes : b.Takes [x] := by
        refine ⟨hlive, ?_, hwithin, True.intro⟩
        rw [Fits, joined_singleton]
        omega
      obtain ⟨-, htook⟩ := htakes.head
      have hsize := htook.size
      rw [joined_singleton] at hsize
      have hrest := ih (htook.freed.trans hlive) (by rw [Fits, hsize, htook.maxSize]; omega)
        (fun offset data hmem => hcount offset data (List.mem_cons_of_mem _ hmem)) hreplies
      exact ⟨hwithin, hsize ▸ hrest⟩
  · intro hlate reply hreply
    rw [(Takes.taken ⟨hlive, hfits, hlate⟩).1] at hreply
    exact refuses_of_mem_answers hreply

/-- A patch that is made again, or refused again, changes nothing. -/
theorem write_again (hsize : b.bytes.size < UInt64.size) (hcount : data.size < UInt64.size)
    (offset : UInt64) :
    let x : Piece := .patch offset data
    (b.write x).reply x = b.reply x ∧ (b.write x).write x = b.write x := by
  intro x
  cases hadmitted : b.admitPatch offset data.size with
  | error e =>
    have hwrite : b.write x = b := by
      simp only [x, write, hadmitted]
      rfl
    rw [hwrite]
    exact ⟨rfl, hwrite⟩
  | ok _ =>
    obtain ⟨hlive, hwithin⟩ := of_admitPatch hadmitted hsize hcount
    have hagain : (b.overwrite offset data).admitPatch offset data.size = .ok () := by
      rw [← size_overwrite_of_within hwithin] at hsize hwithin
      exact admitPatch_of_within hlive hsize hwithin
    have hwrite : b.write x = b.overwrite offset data := by
      simp only [x, write, hadmitted]
      rfl
    rw [hwrite]
    constructor
    · simp only [x, reply, hadmitted, hagain]
    · simp only [x, write, hagain]
      exact overwrite_overwrite hwithin

end CodeBuffer

/-! ## The order of pieces -/

/-- Of patches that do not meet, at most one is for a place. -/
theorem lastPatched?_perm (hapart : xs.Pairwise Piece.Apart) (hperm : xs.Perm ys) (i : Nat) :
    lastPatched? i xs = lastPatched? i ys := by
  -- Two bytes for one place would be those of patches that meet.
  have hnever : (xs.filterMap (Piece.patched? i)).Pairwise fun _ _ => False := by
    refine List.pairwise_filterMap.2 (hapart.imp fun hxy byte hx byte' hy => ?_)
    rcases hxy i with hnone | hnone
    · rw [hnone] at hx
      cases hx
    · rw [hnone] at hy
      cases hy
  have hbytes := hperm.filterMap (Piece.patched? i)
  rw [lastPatched?, lastPatched?]
  generalize xs.filterMap (Piece.patched? i) = bytes at hnever hbytes
  cases bytes with
  | nil => rw [List.nil_perm.1 hbytes]
  | cons byte bytes =>
    obtain rfl : bytes = [] :=
      List.eq_nil_iff_forall_not_mem.2 fun byte' => List.rel_of_pairwise_cons hnever
    rw [List.singleton_perm.1 hbytes]

/-- What is emitted is answered as if nothing were patched. -/
theorem filter_emits_zip_answers (size : Nat) (xs : List Piece) :
    (xs.zip (answers size xs)).filter (·.1.emits) =
      (xs.filter Piece.emits).zip (answers size (xs.filter Piece.emits)) := by
  induction xs generalizing size with
  | nil => rfl
  | cons x xs ih =>
    cases x with
    | emit data =>
      rw [answers, List.zip_cons_cons, List.filter_cons_of_pos rfl, List.filter_cons_of_pos rfl, ih,
        answers, List.zip_cons_cons]
    | patch offset data =>
      rw [answers, List.zip_cons_cons, List.filter_cons_of_neg Bool.false_ne_true,
        List.filter_cons_of_neg Bool.false_ne_true]
      exact ih size

/-- What is patched in is just accepted. -/
theorem filter_patches_zip_answers (size : Nat) (xs : List Piece) :
    (xs.zip (answers size xs)).filter (!·.1.emits) =
      (xs.filter (!·.emits)).map fun x => (x, x.accepted 0) := by
  induction xs generalizing size with
  | nil => rfl
  | cons x xs ih =>
    cases x with
    | emit data =>
      rw [answers, List.zip_cons_cons, List.filter_cons_of_neg Bool.false_ne_true,
        List.filter_cons_of_neg Bool.false_ne_true]
      exact ih _
    | patch offset data =>
      rw [answers, List.zip_cons_cons, List.filter_cons_of_pos rfl, List.filter_cons_of_pos rfl, ih]
      rfl

/-- **The answers to pieces** that change places are the same, as long as what is emitted keeps its
order. -/
theorem answers_perm (hperm : xs.Perm ys) (hemits : xs.filter Piece.emits = ys.filter Piece.emits)
    (size : Nat) : (xs.zip (answers size xs)).Perm (ys.zip (answers size ys)) := by
  -- What is emitted and what is patched are compared apart.
  have hpatches := (hperm.filter (!·.emits)).map fun x => (x, x.accepted 0)
  rw [← filter_patches_zip_answers size, ← filter_patches_zip_answers size] at hpatches
  refine (List.filter_append_perm (·.1.emits) _).symm.trans
    (.trans ?_ (List.filter_append_perm (·.1.emits) _))
  rw [filter_emits_zip_answers, filter_emits_zip_answers, hemits]
  exact hpatches.append_left _

/-- Pieces that only change places make the same of a buffer. -/
theorem CodeBuffer.Took.eq_of_perm (h : b.Took xs b') (h' : b.Took ys b'')
    (hapart : xs.Pairwise Piece.Apart) (hperm : xs.Perm ys)
    (hemits : xs.filter Piece.emits = ys.filter Piece.emits) : b' = b'' :=
  h.eq h' fun i => by
    rw [lastPatched?_perm hapart hperm, ← joined_filter_emits, hemits, joined_filter_emits]

end WriteXorExecute
