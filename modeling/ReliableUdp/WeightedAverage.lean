import Mathlib

/-! Exponentially weighted averages that start with their first sample. Every sample brings the
average closer to the range of the samples by a constant factor. -/
namespace ReliableUdp.WeightedAverage

variable {K : Type*} [Field K] [LinearOrder K]

/-- The average after one more sample of weight `w`. An average of zero counts as not started. -/
def smooth (w previous x : K) : K :=
  if previous = 0 then x else previous * (1 - w) + x * w

def average (w start : K) (samples : List K) : K := samples.foldl (smooth w) start

/-- How far a value lies outside a range. -/
def gap (lo hi a : K) : K := max 0 (max (a - hi) (lo - a))

variable {w lo hi a x : K} {samples : List K}

lemma average_append (a : K) (xs ys : List K) :
    average w a (xs ++ ys) = average w (average w a xs) ys :=
  List.foldl_append

lemma gap_nonneg : 0 ≤ gap lo hi a := le_max_left _ _

variable [IsStrictOrderedRing K]

lemma gap_le_iff {c : K} (hc : 0 ≤ c) : gap lo hi a ≤ c ↔ lo - c ≤ a ∧ a ≤ hi + c := by
  unfold gap
  rw [max_le_iff, max_le_iff, sub_le_iff_le_add', sub_le_comm]
  exact ⟨fun h => ⟨h.2.2, h.2.1⟩, fun h => ⟨hc, h.2, h.1⟩⟩

lemma gap_eq_zero_iff : gap lo hi a = 0 ↔ lo ≤ a ∧ a ≤ hi := by
  have h : gap lo hi a ≤ 0 ↔ lo - 0 ≤ a ∧ a ≤ hi + 0 := gap_le_iff le_rfl
  rw [sub_zero, add_zero] at h
  rw [← h]
  exact ⟨fun he => he.le, fun hle => le_antisymm hle gap_nonneg⟩

lemma gap_smooth (hw : 0 ≤ w) (hw' : w ≤ 1) (hx : lo ≤ x ∧ x ≤ hi) :
    gap lo hi (smooth w a x) ≤ (1 - w) * gap lo hi a := by
  have hrest : 0 ≤ 1 - w := sub_nonneg.mpr hw'
  have hscaled : 0 ≤ (1 - w) * gap lo hi a := mul_nonneg hrest gap_nonneg
  unfold smooth
  split_ifs
  · rw [gap_eq_zero_iff.mpr hx]
    exact hscaled
  · obtain ⟨hlo, hhi⟩ := (gap_le_iff gap_nonneg).mp (le_refl (gap lo hi a))
    rw [gap_le_iff hscaled]
    constructor
    · calc lo - (1 - w) * gap lo hi a = (lo - gap lo hi a) * (1 - w) + lo * w := by ring
        _ ≤ a * (1 - w) + x * w := add_le_add (mul_le_mul_of_nonneg_right hlo hrest)
          (mul_le_mul_of_nonneg_right hx.1 hw)
    · calc a * (1 - w) + x * w ≤ (hi + gap lo hi a) * (1 - w) + hi * w :=
          add_le_add (mul_le_mul_of_nonneg_right hhi hrest) (mul_le_mul_of_nonneg_right hx.2 hw)
        _ = hi + (1 - w) * gap lo hi a := by ring

theorem gap_average (hw : 0 ≤ w) (hw' : w ≤ 1) (hsamples : ∀ x ∈ samples, lo ≤ x ∧ x ≤ hi) (a : K) :
    gap lo hi (average w a samples) ≤ (1 - w) ^ samples.length * gap lo hi a := by
  have hrest : 0 ≤ 1 - w := sub_nonneg.mpr hw'
  induction samples using List.reverseRecOn with
  | nil => simp [average]
  | append_singleton xs x ih =>
    have hbefore := ih fun y hy => hsamples y (by simp [hy])
    rw [average_append, List.length_append, List.length_singleton, pow_succ']
    calc gap lo hi (average w (average w a xs) [x])
        ≤ (1 - w) * gap lo hi (average w a xs) := gap_smooth hw hw' (hsamples x (by simp))
      _ ≤ (1 - w) * ((1 - w) ^ xs.length * gap lo hi a) := mul_le_mul_of_nonneg_left hbefore hrest
      _ = (1 - w) * (1 - w) ^ xs.length * gap lo hi a := (mul_assoc _ _ _).symm

theorem average_within (hw : 0 ≤ w) (hw' : w ≤ 1) (hsamples : ∀ x ∈ samples, lo ≤ x ∧ x ≤ hi)
    (hne : samples ≠ []) : lo ≤ average w 0 samples ∧ average w 0 samples ≤ hi := by
  cases samples with
  | nil => exact absurd rfl hne
  | cons x xs =>
    have hfirst : average w 0 (x :: xs) = average w x xs := by
      simp only [average, List.foldl_cons, smooth, if_true]
    have hclose := gap_average hw hw' (fun y hy => hsamples y (List.mem_cons_of_mem _ hy)) x
    rw [gap_eq_zero_iff.mpr (hsamples x List.mem_cons_self), mul_zero] at hclose
    rw [hfirst]
    exact gap_eq_zero_iff.mp (le_antisymm hclose gap_nonneg)

end ReliableUdp.WeightedAverage
