import Mathlib

/-! Events whose number in every interval of length `d` is at most `burst + rate * d`, as a bucket
that pays one token for each event admits them. It is enough to look at the intervals from one event
to another. -/
namespace ReliableUdp.TokenBucket

/-- Tokens per unit of time and the most tokens the bucket holds. -/
structure Bucket (K : Type*) where
  rate : K
  burst : K

variable {K : Type*} [Field K] [LinearOrder K] [IsStrictOrderedRing K]

/-- The number of events in every interval is bounded. -/
def Bucket.Bounded (b : Bucket K) (times : List K) : Prop :=
  ∀ x y, x ≤ y → (times.countP (fun t => x ≤ t ∧ t ≤ y) : K) ≤ b.burst + b.rate * (y - x)

def since (times : List K) (a : K) : ℕ := times.countP (fun t => decide (a ≤ t))

variable {b : Bucket K} {times : List K} {s t : K}

omit [Field K] [IsStrictOrderedRing K] in
lemma since_cons (s a : K) (times : List K) :
    since (s :: times) a = since times a + if a ≤ s then 1 else 0 := by
  simp only [since, List.countP_cons, decide_eq_true_eq]

omit [Field K] [IsStrictOrderedRing K] in
lemma since_le_length (times : List K) (a : K) : since times a ≤ times.length :=
  List.countP_le_length

omit [Field K] [IsStrictOrderedRing K] in
lemma length_sub_le_since (h : times.Pairwise (· ≤ ·)) {i : ℕ} (hi : times[i]? = some s) :
    times.length - i ≤ since times s := by
  induction times generalizing i with
  | nil => simp
  | cons r times ih =>
    obtain ⟨hfirst, hrest⟩ := List.pairwise_cons.mp h
    cases i with
    | zero =>
      rw [List.getElem?_cons_zero, Option.some.injEq] at hi
      subst hi
      have hall : since (r :: times) r = (r :: times).length := by
        rw [since, List.countP_eq_length]
        intro x hx
        rw [decide_eq_true_eq]
        exact (List.mem_cons.mp hx).elim (fun he => he.ge) (hfirst x)
      rw [hall, Nat.sub_zero]
    | succ i =>
      have hle := ih hrest (by simpa using hi)
      rw [since_cons, List.length_cons, Nat.add_sub_add_right]
      exact hle.trans (Nat.le_add_right _ _)

/-- The intervals that end with the last event are within the bounds if those from an event on
are. -/
lemma since_le (hrate : 0 ≤ b.rate) (hburst : 1 ≤ b.burst)
    (h : ∀ i s, times[i]? = some s →
      ((times.length - i : ℕ) : K) + 1 ≤ b.burst + b.rate * (t - s)) {a : K} (ha : a ≤ t) :
    (since times a : K) + 1 ≤ b.burst + b.rate * (t - a) := by
  induction times with
  | nil =>
    have hgained : 0 ≤ b.rate * (t - a) := mul_nonneg hrate (sub_nonneg.mpr ha)
    simp only [since, List.countP_nil, Nat.cast_zero]
    linarith
  | cons s times ih =>
    by_cases has : a ≤ s
    · have hall := h 0 s rfl
      have hcount : (since (s :: times) a : K) ≤ ((s :: times).length : K) := by
        exact_mod_cast since_le_length (s :: times) a
      have hmono : b.rate * (t - s) ≤ b.rate * (t - a) :=
        mul_le_mul_of_nonneg_left (sub_le_sub_left has t) hrate
      rw [Nat.sub_zero] at hall
      linarith
    · rw [since_cons, if_neg has, Nat.add_zero]
      refine ih fun i r hi => ?_
      have hlater := h (i + 1) r (by simpa using hi)
      rwa [List.length_cons, Nat.add_sub_add_right] at hlater

lemma bounded_concat (hrate : 0 ≤ b.rate) (ht : ∀ s ∈ times, s ≤ t) :
    b.Bounded (times ++ [t]) ↔
      b.Bounded times ∧ ∀ a ≤ t, (since times a : K) + 1 ≤ b.burst + b.rate * (t - a) := by
  have hcount : ∀ x y, (times ++ [t]).countP (fun s => x ≤ s ∧ s ≤ y) =
      times.countP (fun s => x ≤ s ∧ s ≤ y) + if x ≤ t ∧ t ≤ y then 1 else 0 := by
    intro x y
    simp [List.countP_append, List.countP_singleton]
  have hsince : ∀ x y, t ≤ y → times.countP (fun s => decide (x ≤ s ∧ s ≤ y)) = since times x := by
    intro x y hy
    apply List.countP_congr
    intro s hs
    simp only [decide_eq_true_eq]
    exact ⟨fun h => h.1, fun h => ⟨h, (ht s hs).trans hy⟩⟩
  constructor
  · intro h
    constructor
    · intro x y hxy
      have hall := h x y hxy
      rw [hcount] at hall
      push_cast at hall
      have hnonneg : (0 : K) ≤ ((if x ≤ t ∧ t ≤ y then 1 else 0 : ℕ) : K) := Nat.cast_nonneg _
      push_cast at hnonneg
      linarith
    · intro a ha
      have hall := h a t ha
      rw [hcount, if_pos ⟨ha, le_rfl⟩, hsince a t le_rfl] at hall
      push_cast at hall
      exact hall
  · rintro ⟨hbounded, hlast⟩ x y hxy
    rw [hcount]
    split_ifs with hin
    · rw [hsince x y hin.2]
      have hone := hlast x hin.1
      have hmono : b.rate * (t - x) ≤ b.rate * (y - x) :=
        mul_le_mul_of_nonneg_left (sub_le_sub_right hin.2 x) hrate
      push_cast
      linarith
    · exact hbounded x y hxy

/-- One more event stays within the bounds exactly when every interval that it ends and another
event begins does. -/
theorem bounded_concat_iff (hrate : 0 ≤ b.rate) (hburst : 1 ≤ b.burst)
    (h : times.Pairwise (· ≤ ·)) (ht : ∀ s ∈ times, s ≤ t) :
    b.Bounded (times ++ [t]) ↔ b.Bounded times ∧ ∀ i s, times[i]? = some s →
      ((times.length - i : ℕ) : K) + 1 ≤ b.burst + b.rate * (t - s) := by
  rw [bounded_concat hrate ht]
  refine and_congr_right fun _ => ⟨fun hall i s hi => ?_, fun hall a ha => ?_⟩
  · have hcount : ((times.length - i : ℕ) : K) ≤ since times s := by
      exact_mod_cast length_sub_le_since h hi
    have hone := hall s (ht s (List.mem_of_getElem? hi))
    linarith
  · exact since_le hrate hburst hall ha

lemma bounded_nil (hrate : 0 ≤ b.rate) (hburst : 0 ≤ b.burst) : b.Bounded [] := by
  intro x y hxy
  simp only [List.countP_nil, Nat.cast_zero]
  exact add_nonneg hburst (mul_nonneg hrate (sub_nonneg.mpr hxy))

end ReliableUdp.TokenBucket
