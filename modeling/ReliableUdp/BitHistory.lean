import Mathlib

/-! A bit mask as the history of a growing set of indices: with `L` the latest index,
bit `k` stands for `L - (k + 1)`. Advancing shifts the mask, older members set a bit. -/
namespace ReliableUdp.BitHistory

variable {w : ℕ}

/-- Bit `k` is set exactly for the member `k + 1` below the latest index. -/
def Summarises (bits : BitVec w) (L : ℕ) (S : Set ℕ) : Prop :=
  ∀ k < w, bits.getLsbD k = true ↔ k + 1 ≤ L ∧ L - (k + 1) ∈ S

lemma getLsbD_one_shift {d k : ℕ} (hd : 0 < d) (hk : k < w) :
    (1#w <<< (d - 1)).getLsbD k = decide (k + 1 = d) := by
  rw [BitVec.getLsbD_shiftLeft, BitVec.getLsbD_one]
  simp only [hk, decide_true, Bool.true_and]
  by_cases h : k + 1 = d
  · have h1 : k - (d - 1) = 0 := by omega
    have h2 : ¬ k < d - 1 := by omega
    have h3 : 0 < w := by omega
    simp [h, h1, h2, h3]
  · by_cases hlt : k < d - 1
    · simp [h, hlt]
    · have h1 : k - (d - 1) ≠ 0 := by omega
      simp [h, h1]

lemma getLsbD_advance (bits : BitVec w) {d k : ℕ} (hd : 0 < d) (hk : k < w) :
    ((bits <<< d) ||| (1#w <<< (d - 1))).getLsbD k = true ↔
      k + 1 = d ∨ (d ≤ k ∧ bits.getLsbD (k - d) = true) := by
  rw [BitVec.getLsbD_or, getLsbD_one_shift hd hk, BitVec.getLsbD_shiftLeft]
  simp only [hk, decide_true, Bool.true_and, Bool.or_eq_true, Bool.and_eq_true,
    Bool.not_eq_true', decide_eq_false_iff_not, decide_eq_true_eq, not_lt]
  exact or_comm

lemma getLsbD_record (bits : BitVec w) {d k : ℕ} (hd : 0 < d) (hk : k < w) :
    (bits ||| (1#w <<< (d - 1))).getLsbD k = true ↔ k + 1 = d ∨ bits.getLsbD k = true := by
  rw [BitVec.getLsbD_or, getLsbD_one_shift hd hk]
  simp only [Bool.or_eq_true, decide_eq_true_eq]
  exact or_comm

lemma and_one_shift_ne_zero (bits : BitVec w) {d : ℕ} (hd : 0 < d) (hw : d ≤ w) :
    (bits &&& (1#w <<< (d - 1))) ≠ 0#w ↔ bits.getLsbD (d - 1) = true := by
  constructor
  · intro h
    by_contra hbit
    apply h
    apply BitVec.eq_of_getLsbD_eq
    intro k hk
    rw [BitVec.getLsbD_and, getLsbD_one_shift hd hk]
    by_cases hkd : k + 1 = d
    · have hf : bits.getLsbD k = false := by
        rw [show k = d - 1 by omega]
        simpa using hbit
      simp [hf]
    · simp [hkd]
  · intro h hz
    have hk : d - 1 < w := by omega
    have hbit := congrArg (fun b => b.getLsbD (d - 1)) hz
    simp only [BitVec.getLsbD_and, getLsbD_one_shift hd hk, h] at hbit
    simp at hbit
    omega

lemma Summarises.single (L : ℕ) : Summarises (0#w) L {L} := by
  intro k hk
  simp only [BitVec.getLsbD_zero, Bool.false_eq_true, Set.mem_singleton_iff, false_iff, not_and]
  omega

lemma Summarises.advance {bits : BitVec w} {L d : ℕ} {S : Set ℕ} (h : Summarises bits L S)
    (hL : IsGreatest S L) (hd : 0 < d) :
    Summarises ((bits <<< d) ||| (1#w <<< (d - 1))) (L + d) (insert (L + d) S) := by
  intro k hk
  rw [getLsbD_advance bits hd hk]
  constructor
  · rintro (hkd | ⟨hdk, hbit⟩)
    · have he : L + d - (k + 1) = L := by omega
      rw [he]
      exact ⟨by omega, Or.inr hL.1⟩
    · obtain ⟨hle, hmem⟩ := (h (k - d) (by omega)).mp hbit
      have he : L + d - (k + 1) = L - (k - d + 1) := by omega
      rw [he]
      exact ⟨by omega, Or.inr hmem⟩
  · rintro ⟨hle, hmem⟩
    rcases hmem with hmem | hmem
    · omega
    · have hup := hL.2 hmem
      by_cases hkd : k + 1 = d
      · exact Or.inl hkd
      · have he : L + d - (k + 1) = L - (k - d + 1) := by omega
        exact Or.inr ⟨by omega, (h (k - d) (by omega)).mpr ⟨by omega, he ▸ hmem⟩⟩

lemma Summarises.restart {bits : BitVec w} {L d : ℕ} {S : Set ℕ} (_ : Summarises bits L S)
    (hL : IsGreatest S L) (hd : w < d) : Summarises (0#w) (L + d) (insert (L + d) S) := by
  intro k hk
  simp only [BitVec.getLsbD_zero, Bool.false_eq_true, false_iff, not_and]
  rintro hle (hmem | hmem)
  · omega
  · have := hL.2 hmem
    omega

lemma Summarises.record {bits : BitVec w} {L d : ℕ} {S : Set ℕ} (h : Summarises bits L S)
    (hd : 0 < d) (hdL : d ≤ L) : Summarises (bits ||| (1#w <<< (d - 1))) L (insert (L - d) S) := by
  intro k hk
  rw [getLsbD_record bits hd hk]
  constructor
  · rintro (hkd | hbit)
    · exact ⟨by omega, Or.inl (by rw [hkd])⟩
    · obtain ⟨hle, hmem⟩ := (h k hk).mp hbit
      exact ⟨hle, Or.inr hmem⟩
  · rintro ⟨hle, hmem | hmem⟩
    · exact Or.inl (by omega)
    · exact Or.inr ((h k hk).mpr ⟨hle, hmem⟩)

lemma Summarises.ignore {bits : BitVec w} {L n : ℕ} {S : Set ℕ} (h : Summarises bits L S)
    (hn : n ∈ S ∨ n + w < L ∨ L ≤ n) : Summarises bits L (insert n S) := by
  intro k hk
  rw [h k hk]
  constructor
  · rintro ⟨hle, hmem⟩
    exact ⟨hle, Or.inr hmem⟩
  · rintro ⟨hle, hmem | hmem⟩
    · rcases hn with hS | hfar | hnew
      · exact ⟨hle, hmem ▸ hS⟩
      · omega
      · omega
    · exact ⟨hle, hmem⟩

end ReliableUdp.BitHistory
