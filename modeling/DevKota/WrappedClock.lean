import Mathlib.Data.Int.ModEq
import Mathlib.Tactic.Linarith

/-! Counters that show an unbounded clock in words of a fixed width. -/
namespace WrappedClock

variable (w : ℕ)

/-- The word that the counter shows at an instant. -/
def shown (t : ℤ) : BitVec w := BitVec.ofInt w t

theorem shown_add (a b : ℤ) : shown w (a+b) = shown w a + shown w b := BitVec.ofInt_add a b

theorem shown_mul (a b : ℤ) : shown w (a*b) = shown w a * shown w b := BitVec.ofInt_mul a b

theorem shown_natCast (n : ℕ) : shown w n = BitVec.ofNat w n := BitVec.ofInt_natCast w n

/-- The difference of two words is the difference of the instants, up to turns of the counter. -/
theorem shown_sub_toNat (a b : ℤ) : ((shown w a - shown w b).toNat : ℤ) = (a-b) % 2^w := by
  have hsub : shown w a - shown w b = shown w (a-b) := by
    have h := shown_add w (a-b) b
    rw [sub_add_cancel] at h
    rw [h, BitVec.add_sub_cancel]
  rw [hsub, shown, BitVec.toNat_ofInt]
  exact Int.toNat_of_nonneg (Int.emod_nonneg _ (by positivity))

variable {P hz δ : ℤ}

/-- The quotient of a wrapped difference is the exact one, with zero for what has passed, exactly
up to the end or when the wrapped difference is below one unit. -/
theorem wrapped_ediv_iff (h0 : 0 < hz) (hP : hz ≤ P) (hδ : δ < P) :
    δ % P / hz = max 0 (δ/hz) ↔ 0 ≤ δ ∨ δ % P < hz := by
  by_cases h : 0 ≤ δ
  · rw [Int.emod_eq_of_lt h hδ, max_eq_right (Int.ediv_nonneg h h0.le)]
    exact ⟨fun _ => Or.inl h, fun _ => rfl⟩
  · -- what has passed must round to zero
    have hneg : δ/hz < 0 := Int.ediv_neg_of_neg_of_pos (not_le.mp h) h0
    have hmod : 0 ≤ δ % P := Int.emod_nonneg _ (by omega)
    rw [max_eq_left hneg.le]
    constructor
    · intro hq
      right
      by_contra hlt
      have hone : 1 ≤ δ % P / hz := (Int.le_ediv_iff_mul_le h0).mpr (by omega)
      omega
    · intro hd
      exact Int.ediv_eq_zero_of_lt hmod (hd.resolve_left h)

end WrappedClock
