/-
Whole numbers in a format with so many significant bits.

A number that has more of them is rounded to the nearest that has not, and of two such to
the one whose last bit is even.

`excess` is how many bits are too many, and rounding divides by that power of two and multiplies
again.  A number fits when it has at least so many zeros at its end, and then nothing is lost.
-/
import Mathlib.Algebra.GroupWithZero.Nat
import Mathlib.Tactic.Common

namespace Significant

/-- A number that so many significant bits can hold. -/
def FitsIn (p n : Nat) : Prop := ∃ m e, n = m * 2 ^ e ∧ m < 2 ^ p

/-- How many of the last bits are rounded away. -/
def excess (p n : Nat) : Nat := n.log2 + 1 - p

/-- The nearest number of so many significant bits, of two the even one. -/
def round (p n : Nat) : Nat :=
  let unit := 2 ^ excess p n
  let q := n / unit
  let r := n % unit
  if 2 * r < unit ∨ 2 * r = unit ∧ q % 2 = 0 then q * unit else (q + 1) * unit

/-- The same of a signed number. -/
def roundInt (p : Nat) (z : Int) : Int := z.sign * round p z.natAbs

/-- A number below the power is held as it is. -/
theorem fitsIn_of_lt {p n : Nat} (h : n < 2 ^ p) : FitsIn p n :=
  ⟨n, 0, by rw [Nat.pow_zero, Nat.mul_one], h⟩

/-- The bits that are left of a number fit. -/
theorem lt_excess (p n : Nat) : n < 2 ^ (p + excess p n) := by
  have hlog : n.log2 + 1 ≤ p + excess p n := by
    unfold excess
    omega
  exact Nat.lt_of_lt_of_le Nat.lt_log2_self (Nat.pow_le_pow_right (by decide) hlog)

/-- No more bits are rounded away than a number that fits has zeros at its end. -/
theorem excess_le {p m e : Nat} (hpos : m * 2 ^ e ≠ 0) (hm : m < 2 ^ p) :
    excess p (m * 2 ^ e) ≤ e := by
  have hlt : m * 2 ^ e < 2 ^ (p + e) := by
    rw [Nat.pow_add]
    exact Nat.mul_lt_mul_of_pos_right hm (Nat.two_pow_pos e)
  have hlog : (m * 2 ^ e).log2 < p + e := (Nat.log2_lt hpos).mpr hlt
  unfold excess
  omega

theorem fitsIn_iff_dvd {p n : Nat} : FitsIn p n ↔ 2 ^ excess p n ∣ n := by
  constructor
  · intro h
    obtain ⟨m, e, rfl, hm⟩ := h
    by_cases hpos : m * 2 ^ e = 0
    · rw [hpos]
      exact Nat.dvd_zero _
    · exact Nat.dvd_trans (Nat.pow_dvd_pow 2 (excess_le hpos hm)) (Nat.dvd_mul_left _ m)
  · intro h
    refine ⟨n / 2 ^ excess p n, excess p n, (Nat.div_mul_cancel h).symm, ?_⟩
    apply Nat.div_lt_of_lt_mul
    rw [← Nat.pow_add, Nat.add_comm]
    exact lt_excess p n

/-- A number is its own nearest one just when it fits. -/
theorem round_eq_self {p n : Nat} : round p n = n ↔ FitsIn p n := by
  rw [fitsIn_iff_dvd]
  unfold round
  have hunit : 0 < 2 ^ excess p n := Nat.two_pow_pos _
  generalize 2 ^ excess p n = unit at hunit ⊢
  have hdiv := Nat.div_add_mod n unit
  rw [Nat.mul_comm] at hdiv
  constructor
  · intro h
    dsimp only at h
    split at h
    · exact ⟨n / unit, by rw [Nat.mul_comm, h]⟩
    · have hlt := Nat.mod_lt n hunit
      rw [Nat.add_mul, Nat.one_mul] at h
      omega
  · intro h
    have hmod : n % unit = 0 := Nat.mod_eq_zero_of_dvd h
    rw [hmod] at hdiv
    dsimp only
    rw [hmod, if_pos (Or.inl (by omega))]
    omega

theorem roundInt_eq_self {p : Nat} {z : Int} : roundInt p z = z ↔ FitsIn p z.natAbs := by
  rw [← round_eq_self]
  unfold roundInt
  rcases Int.lt_trichotomy z 0 with hz | hz | hz
  · rw [Int.sign_eq_neg_one_of_neg hz]
    omega
  · subst hz
    rw [Int.sign_zero, Int.zero_mul]
    exact ⟨fun _ => round_eq_self.mpr (fitsIn_of_lt (Nat.two_pow_pos p)), fun _ => rfl⟩
  · rw [Int.sign_eq_one_of_pos hz]
    omega

end Significant
