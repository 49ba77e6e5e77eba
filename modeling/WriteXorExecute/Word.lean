/-!
# Machine words

Sizes and offsets are words of 64 bits. Their sum wraps; where an offset comes from outside, the
sum is checked first.
-/
namespace WriteXorExecute.Word

/-- The sum of two words, if it is a word. -/
def checkedAdd (a b : UInt64) : Option UInt64 :=
  if a + b < a then none else some (a + b)

theorem checkedAdd_eq_none_iff {a b : UInt64} :
    checkedAdd a b = none ↔ UInt64.size ≤ a.toNat + b.toNat := by
  have ha := a.toNat_lt
  have hb := b.toNat_lt
  simp only [checkedAdd, UInt64.lt_iff_toNat_lt, UInt64.toNat_add, ite_eq_left_iff,
    reduceCtorEq, imp_false, Decidable.not_not, UInt64.size]
  omega

theorem toNat_of_checkedAdd {a b c : UInt64} (h : checkedAdd a b = some c) :
    c.toNat = a.toNat + b.toNat := by
  have ha := a.toNat_lt
  have hb := b.toNat_lt
  unfold checkedAdd at h
  split at h
  · cases h
  · cases h
    simp only [UInt64.lt_iff_toNat_lt, UInt64.toNat_add] at *
    omega

/-- A sum that is a word does not wrap, and a check of it finds nothing. -/
theorem checkedAdd_ofNat {a b : Nat} (h : a + b < UInt64.size) :
    checkedAdd (.ofNat a) (.ofNat b) = some (.ofNat (a + b)) := by
  have hlt : ¬UInt64.ofNat a + UInt64.ofNat b < UInt64.ofNat a := by
    simp only [UInt64.lt_iff_toNat_lt, UInt64.toNat_add, UInt64.toNat_ofNat', UInt64.size] at *
    omega
  rw [checkedAdd, if_neg hlt, UInt64.ofNat_add]

end WriteXorExecute.Word
