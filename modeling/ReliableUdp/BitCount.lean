import ReliableUdp.BitHistory

/-! The set bits of a mask: clearing the lowest one takes one position away, and the bits of a
summary count the members of the set behind the latest one. -/
namespace ReliableUdp.BitCount
open BitHistory

variable {w : ℕ}

def setBits (bits : BitVec w) : Finset ℕ := {k ∈ Finset.range w | bits.getLsbD k = true}

@[simp] lemma mem_setBits {bits : BitVec w} {k : ℕ} :
    k ∈ setBits bits ↔ bits.getLsbD k = true := by
  simp only [setBits, Finset.mem_filter, Finset.mem_range, and_iff_right_iff_imp]
  exact BitVec.lt_of_getLsbD

lemma card_setBits_le (bits : BitVec w) : (setBits bits).card ≤ w := by
  have hfilter := Finset.card_filter_le (Finset.range w) fun k => bits.getLsbD k = true
  rwa [Finset.card_range] at hfilter

lemma setBits_eq_empty {bits : BitVec w} : setBits bits = ∅ ↔ bits = 0#w := by
  constructor
  · intro h
    apply BitVec.eq_of_getLsbD_eq
    intro k _
    have hk : k ∉ setBits bits := by
      rw [h]
      exact Finset.notMem_empty k
    rw [mem_setBits, Bool.not_eq_true] at hk
    rw [hk, BitVec.getLsbD_zero]
  · rintro rfl
    ext k
    simp

lemma exists_testBit_cleared {n : ℕ} (hn : n ≠ 0) :
    ∃ j, n.testBit j = true ∧
      ∀ i, (n &&& (n - 1)).testBit i = (n.testBit i && decide (i ≠ j)) := by
  induction n using Nat.strongRecOn with
  | ind n ih =>
    rcases Nat.mod_two_eq_zero_or_one n with heven | hodd
    · obtain ⟨j, hj, hrest⟩ := ih (n / 2) (by omega) (by omega)
      have hhalf : (n - 1) / 2 = n / 2 - 1 := by omega
      refine ⟨j + 1, by rwa [Nat.testBit_succ], ?_⟩
      intro i
      cases i with
      | zero => simp [Nat.testBit_zero, heven]
      | succ i =>
        have hi := hrest i
        rw [Nat.testBit_and] at hi ⊢
        simp only [Nat.testBit_succ, hhalf, hi, ne_eq, Nat.add_right_cancel_iff]
    · have hhalf : (n - 1) / 2 = n / 2 := by omega
      have hlast : (n - 1) % 2 = 0 := by omega
      refine ⟨0, by simp [Nat.testBit_zero, hodd], ?_⟩
      intro i
      rw [Nat.testBit_and]
      cases i with
      | zero => simp [Nat.testBit_zero, hlast]
      | succ i => simp [Nat.testBit_succ, hhalf]

lemma toNat_sub_one {bits : BitVec w} (h : bits ≠ 0#w) :
    (bits - 1#w).toNat = bits.toNat - 1 := by
  have hpos : bits.toNat ≠ 0 := fun hzero => h (BitVec.eq_of_toNat_eq (by simpa using hzero))
  have hw : w ≠ 0 := by
    rintro rfl
    exact h (Subsingleton.elim _ _)
  have hone : (1#w).toNat = 1 := by
    rw [BitVec.toNat_ofNat, Nat.mod_eq_of_lt (Nat.one_lt_two_pow hw)]
  rw [BitVec.toNat_sub_of_le, hone]
  rw [BitVec.le_def, hone]
  omega

lemma setBits_clear {bits : BitVec w} (h : bits ≠ 0#w) :
    ∃ j ∈ setBits bits, setBits (bits &&& (bits - 1#w)) = (setBits bits).erase j := by
  have hpos : bits.toNat ≠ 0 := fun hzero => h (BitVec.eq_of_toNat_eq (by simpa using hzero))
  obtain ⟨j, hj, hrest⟩ := exists_testBit_cleared hpos
  refine ⟨j, mem_setBits.mpr hj, ?_⟩
  ext i
  rw [Finset.mem_erase, mem_setBits, mem_setBits, ← BitVec.testBit_toNat, BitVec.toNat_and,
    toNat_sub_one h, hrest i, BitVec.testBit_toNat]
  simp [and_comm]

lemma card_setBits_clear {bits : BitVec w} (h : bits ≠ 0#w) :
    (setBits (bits &&& (bits - 1#w))).card + 1 = (setBits bits).card := by
  obtain ⟨j, hj, herase⟩ := setBits_clear h
  rw [herase]
  exact Finset.card_erase_add_one hj

/-- The indices a mask names with `L` the latest: `L` and one for each set bit. -/
def members (bits : BitVec w) (L : ℕ) : Finset ℕ :=
  {n ∈ Finset.range (L + 1) | n = L ∨ bits.getLsbD (L - (n + 1)) = true}

lemma mem_members {bits : BitVec w} {L n : ℕ} :
    n ∈ members bits L ↔ n = L ∨ n < L ∧ bits.getLsbD (L - (n + 1)) = true := by
  simp only [members, Finset.mem_filter, Finset.mem_range]
  constructor
  · rintro ⟨hle, rfl | hbit⟩
    · exact Or.inl rfl
    · by_cases hn : n = L
      · exact Or.inl hn
      · exact Or.inr ⟨by omega, hbit⟩
  · rintro (rfl | ⟨hlt, hbit⟩)
    · exact ⟨by omega, Or.inl rfl⟩
    · exact ⟨by omega, Or.inr hbit⟩

lemma mem_of_mem_members {bits : BitVec w} {L : ℕ} {S : Set ℕ} (h : Summarises bits L S)
    (hL : L ∈ S) {n : ℕ} (hn : n ∈ members bits L) : n ∈ S := by
  rcases mem_members.mp hn with rfl | ⟨hlt, hbit⟩
  · exact hL
  · have hmem := ((h _ (BitVec.lt_of_getLsbD hbit)).mp hbit).2
    rwa [show L - (L - (n + 1) + 1) = n by omega] at hmem

lemma card_members {bits : BitVec w} {L : ℕ} {S : Set ℕ} (h : Summarises bits L S) :
    (members bits L).card = (setBits bits).card + 1 := by
  have hbehind : ∀ k ∈ setBits bits, k < L := by
    intro k hk
    rw [mem_setBits] at hk
    exact ((h k (BitVec.lt_of_getLsbD hk)).mp hk).1
  have himage : members bits L = insert L ((setBits bits).image fun k => L - (k + 1)) := by
    ext n
    rw [mem_members, Finset.mem_insert, Finset.mem_image]
    apply or_congr_right
    constructor
    · rintro ⟨hlt, hbit⟩
      exact ⟨L - (n + 1), mem_setBits.mpr hbit, by omega⟩
    · rintro ⟨k, hk, rfl⟩
      have hkL := hbehind k hk
      rw [show L - (L - (k + 1) + 1) = k by omega]
      exact ⟨by omega, mem_setBits.mp hk⟩
  have hinj : Set.InjOn (fun k => L - (k + 1)) (setBits bits) := by
    intro k hk k' hk' heq
    have hkL := hbehind k hk
    have hkL' := hbehind k' hk'
    dsimp only at heq
    omega
  have hnew : L ∉ (setBits bits).image fun k => L - (k + 1) := by
    rw [Finset.mem_image]
    rintro ⟨k, hk, heq⟩
    have hkL := hbehind k hk
    omega
  rw [himage, Finset.card_insert_of_notMem hnew, Finset.card_image_of_injOn hinj]

end ReliableUdp.BitCount
