/-
Unsigned numbers in a fixed number of bytes, most significant byte first.

The digits are those of base 256, and a field has as many of them as it is wide.  A number that
does not fit loses its first digits when it is written, which is why reading back takes the bound.
-/
import Mathlib.Tactic.Ring

namespace BigEndian

/-- The number a field stands for. -/
def value (field : List UInt8) : Nat := field.foldl (fun n b => n * 256 + b.toNat) 0

/-- The last `width` base-256 digits of a number. -/
def encode : Nat → Nat → List UInt8
  | 0, _ => []
  | width + 1, n => encode width (n / 256) ++ [UInt8.ofNat n]

/-- A field is as wide as it is said to be. -/
@[simp] theorem length_encode (width n : Nat) : (encode width n).length = width := by
  induction width generalizing n with
  | zero => rfl
  | succ width ih =>
      unfold encode
      rw [List.length_append, ih, List.length_singleton]

/-- A byte behind the others is one more digit. -/
theorem value_concat (field : List UInt8) (b : UInt8) :
    value (field ++ [b]) = value field * 256 + b.toNat := by
  unfold value
  rw [List.foldl_append]
  rfl

/-- A number that fits its field is read back. -/
theorem value_encode {width n : Nat} (h : n < 256 ^ width) : value (encode width n) = n := by
  induction width generalizing n with
  | zero =>
      have hn : n = 0 := by
        rw [pow_zero] at h
        omega
      rw [hn]
      rfl
  | succ width ih =>
      have hdiv : n / 256 < 256 ^ width := by
        apply Nat.div_lt_of_lt_mul
        rw [pow_succ] at h
        omega
      unfold encode
      rw [value_concat, ih hdiv, UInt8.toNat_ofNat']
      omega

end BigEndian
