import Mathlib

/-! Serial numbers: unbounded indices carried on the wire modulo a power of two.
Two indices less than half the range apart are compared correctly by the
difference of their serial numbers. -/
namespace ReliableUdp.SerialNumber

/-- The `w`-bit serial number of an unbounded index. -/
def serial (w n : ℕ) : BitVec w := BitVec.ofNat w n

/-- Two indices are near when they are less than half the serial range apart. -/
def Near (w a b : ℕ) : Prop := a < b + 2 ^ (w - 1) ∧ b < a + 2 ^ (w - 1)

instance (w a b : ℕ) : Decidable (Near w a b) := inferInstanceAs (Decidable (_ ∧ _))

lemma Near.refl (w a : ℕ) : Near w a a := by simp [Near]

@[simp] lemma serial_toNat (w n : ℕ) : (serial w n).toNat = n % 2 ^ w := by simp [serial]

lemma serial_succ (w n : ℕ) : serial w (n + 1) = serial w n + 1 := by
  simp [serial, BitVec.ofNat_add]

lemma serial_add (w n m : ℕ) : serial w (n + m) = serial w n + serial w m := by
  simp [serial, BitVec.ofNat_add]

lemma serial_sub_of_le (w : ℕ) {m n : ℕ} (h : m ≤ n) :
    serial w n - serial w m = serial w (n - m) := by
  have he : serial w n = serial w (n - m) + serial w m := by
    rw [← serial_add, Nat.sub_add_cancel h]
  rw [he, BitVec.add_sub_cancel]

lemma forward_distance (w : ℕ) {m n : ℕ} (h : m ≤ n) (hlt : n - m < 2 ^ w) :
    (serial w n - serial w m).toNat = n - m := by
  rw [serial_sub_of_le w h, serial_toNat, Nat.mod_eq_of_lt hlt]

lemma backward_distance (w : ℕ) {m n : ℕ} (h : n < m) (hlt : m - n < 2 ^ w) :
    (serial w n - serial w m).toNat = 2 ^ w - (m - n) := by
  have hneg : serial w n - serial w m = -(serial w m - serial w n) := by simp
  rw [hneg, serial_sub_of_le w h.le, BitVec.toNat_neg, serial_toNat, Nat.mod_eq_of_lt hlt]
  exact Nat.mod_eq_of_lt (by omega)

lemma serial_injOn (w : ℕ) {m n : ℕ} (h : serial w n = serial w m)
    (hn : n < m + 2 ^ w) (hm : m < n + 2 ^ w) : n = m := by
  have hmod : n % 2 ^ w = m % 2 ^ w := by simpa using congrArg BitVec.toNat h
  rcases le_total m n with hle | hle
  · have hz : n - m = 0 :=
      Nat.eq_zero_of_dvd_of_lt ((Nat.modEq_iff_dvd' hle).mp hmod.symm) (by omega)
    omega
  · have hz : m - n = 0 :=
      Nat.eq_zero_of_dvd_of_lt ((Nat.modEq_iff_dvd' hle).mp hmod) (by omega)
    omega

end ReliableUdp.SerialNumber
