import Mathlib.Data.List.Basic
import WriteXorExecute.Record
/-!
# Reading the log

A line of the log can be read back: it says of which kind its record is, and sizes in decimal and
offsets in hexadecimal are read back to the numbers that were written (`Record.read?_text`). So two
records that look alike are the same.

- **Numerals** (`numeral?_toDigits`): for every base up to 16, by induction on the number, from its
  last digit on.
-/
namespace WriteXorExecute

variable {base n : Nat} {r r' : Record}

/-- The value of a lower-case digit. -/
def digit? (base : Nat) (c : Char) : Option Nat :=
  let value := if c.isDigit then c.toNat - '0'.toNat else 10 + c.toNat - 'a'.toNat
  if (c.isDigit ∨ 'a' ≤ c) ∧ value < base then some value else none

/-- The number that digits stand for, the highest one first. -/
def numeral? (base : Nat) : List Char → Option Nat
  | [] => none
  | digits => digits.foldlM (fun n c => (digit? base c).map (n * base + ·)) 0

/-- How many bytes have been put where, as a line says that starts with this. -/
def Record.span? (start line : String) : Option (Nat × UInt64) := do
  let text ← start.toList.isPrefixOf? line.toList
  let count ← numeral? 10 (text.takeWhile Char.isDigit)
  let text ← " bytes at 0x".toList.isPrefixOf? (text.dropWhile Char.isDigit)
  let offset ← numeral? 16 text
  if offset < UInt64.size then some (count, .ofNat offset) else none

/-- The records that tell no numbers. -/
def Record.plain : List Record :=
  [.initializing .write, .initializing .exec, .lateInitialization, .modeChange .write,
    .modeChange .exec]

def Record.read? (line : String) : Option Record :=
  (span? "[KPIO WX] Emitted " line).map (fun (count, offset) => .emitted count offset)
    <|> (span? "[KPIO WX] Patched " line).map (fun (count, offset) => .patched count offset)
    <|> plain.find? fun r => r.text = line

/-! ## Numerals -/

theorem digit?_digitChar : ∀ base ≤ 16, ∀ d < base, digit? base (Nat.digitChar d) = some d := by
  decide

theorem foldlM_toDigits (hbase : 1 < base) (hdigits : base ≤ 16) (n : Nat) :
    (Nat.toDigits base n).foldlM (fun n c => (digit? base c).map (n * base + ·)) 0 = some n := by
  induction n using Nat.strongRecOn with
  | ind n ih =>
    by_cases hlt : n < base
    · rw [Nat.toDigits_of_lt_base hlt]
      simp [digit?_digitChar base hdigits n hlt]
    · have hge : base ≤ n := Nat.le_of_not_lt hlt
      -- All digits but the last are those of the quotient.
      have hrest := ih (n / base) (Nat.div_lt_self (by omega) hbase)
      have hlast := digit?_digitChar base hdigits (n % base) (Nat.mod_lt n (by omega))
      rw [Nat.toDigits_of_base_le hbase hge, List.foldlM_append, hrest]
      simp [hlast, Nat.div_add_mod']

/-- What is written as a numeral is read back. -/
theorem numeral?_toDigits (hbase : 1 < base) (hdigits : base ≤ 16) (n : Nat) :
    numeral? base (Nat.toDigits base n) = some n := by
  rw [← foldlM_toDigits hbase hdigits n]
  cases h : Nat.toDigits base n with
  | nil => exact absurd h Nat.toDigits_ne_nil
  | cons c digits => rfl

/-! ## Records -/

namespace Record

/-- A size and an offset are read back, whatever stands before them. -/
theorem span?_text (start : String) (count : Nat) (offset : UInt64) :
    span? start (start ++ (toString count ++ " bytes at " ++ Text.Hex.numeral offset.toNat))
      = some (count, offset) := by
  have htext : (start ++ (toString count ++ " bytes at " ++ Text.Hex.numeral offset.toNat)).toList
      = start.toList ++ (Nat.toDigits 10 count
        ++ (" bytes at 0x".toList ++ Nat.toDigits 16 offset.toNat)) := by
    simp [Text.Hex.numeral, Nat.toList_repr]
  have hdecimal : ∀ c ∈ Nat.toDigits 10 count, c.isDigit = true :=
    fun _ hc => Nat.isDigit_of_mem_toDigits (by decide) (by decide) hc
  have hstop (rest : List Char) :
      (" bytes at 0x".toList ++ rest).takeWhile Char.isDigit = [] ∧
        (" bytes at 0x".toList ++ rest).dropWhile Char.isDigit = " bytes at 0x".toList ++ rest :=
    ⟨rfl, rfl⟩
  have hprefix (start rest : List Char) : start.isPrefixOf? (start ++ rest) = some rest :=
    List.isPrefixOf?_eq_some_iff_append_eq.2 rfl
  have hoffset : offset.toNat < UInt64.size := offset.toNat_lt
  rw [span?, htext, hprefix]
  simp only [Option.bind_eq_bind, Option.bind_some]
  rw [List.takeWhile_append_of_pos hdecimal, List.dropWhile_append_of_pos hdecimal,
    (hstop _).1, (hstop _).2, List.append_nil, numeral?_toDigits (by decide) (by decide), hprefix]
  simp only [Option.bind_some]
  rw [numeral?_toDigits (by decide) (by decide)]
  simp [hoffset]

theorem append_body {start verb line : String} (h : start ++ verb = line) (a b c : String) :
    start ++ (verb ++ a ++ b ++ c) = line ++ (a ++ b ++ c) := by
  rw [← h]
  simp only [String.append_assoc]

theorem text_emitted (count : Nat) (offset : UInt64) : (emitted count offset).text =
    "[KPIO WX] Emitted " ++ (toString count ++ " bytes at " ++ Text.Hex.numeral offset.toNat) :=
  append_body (by decide) _ _ _

theorem text_patched (count : Nat) (offset : UInt64) : (patched count offset).text =
    "[KPIO WX] Patched " ++ (toString count ++ " bytes at " ++ Text.Hex.numeral offset.toNat) :=
  append_body (by decide) _ _ _

/-- A line that starts otherwise tells of no span. -/
theorem span?_of_patched (rest : String) :
    span? "[KPIO WX] Emitted " ("[KPIO WX] Patched " ++ rest) = none := by
  have hprefix : "[KPIO WX] Emitted ".toList.isPrefixOf?
      ("[KPIO WX] Patched " ++ rest).toList = none := by
    rw [String.toList_append]
    rfl
  rw [span?, hprefix]
  rfl

theorem read?_plain : ∀ r ∈ plain, read? r.text = some r := by
  decide +kernel

/-- **Lines of the log** are read back to the records that they show. -/
theorem read?_text (r : Record) : read? r.text = some r := by
  cases r with
  | initializing mode => cases mode <;> exact read?_plain _ (by decide)
  | lateInitialization => exact read?_plain _ (by decide)
  | modeChange mode => cases mode <;> exact read?_plain _ (by decide)
  | emitted count offset => rw [text_emitted, read?, span?_text]; rfl
  | patched count offset => rw [text_patched, read?, span?_of_patched, span?_text]; rfl

theorem text_inj : r.text = r'.text ↔ r = r' := by
  refine ⟨fun h => ?_, congrArg text⟩
  have hread := read?_text r
  rw [h, read?_text] at hread
  exact (Option.some.inj hread).symm

end Record

end WriteXorExecute
