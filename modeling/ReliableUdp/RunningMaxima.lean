import Mathlib

/-! Strict running maxima of a sequence: the entries larger than all entries before them. -/
namespace ReliableUdp.RunningMaxima

variable {α : Type*} [LinearOrder α]

/-- The entries larger than every entry before them, in order. -/
def maxima (xs : List α) : List α :=
  (xs.zipIdx.filter fun p => decide (∀ m ∈ xs.take p.2, m < p.1)).map Prod.fst

lemma maxima_concat (xs : List α) (n : α) :
    maxima (xs ++ [n]) = if ∀ m ∈ xs, m < n then maxima xs ++ [n] else maxima xs := by
  have hold : (xs.zipIdx.filter fun p => decide (∀ m ∈ (xs ++ [n]).take p.2, m < p.1)) =
      xs.zipIdx.filter fun p => decide (∀ m ∈ xs.take p.2, m < p.1) := by
    apply List.filter_congr
    intro p hp
    have hlt : p.2 < xs.length := by
      have := List.snd_lt_of_mem_zipIdx hp
      omega
    rw [List.take_append_of_le_length hlt.le]
  have hnew : (xs ++ [n]).take xs.length = xs := by simp
  unfold maxima
  rw [List.zipIdx_append, List.filter_append, hold, List.map_append]
  simp only [Nat.zero_add, List.zipIdx_singleton, List.filter_cons, List.filter_nil, hnew,
    decide_eq_true_eq]
  split_ifs
  · rfl
  · simp

lemma le_getLast_maxima {xs : List α} {m : α} (hm : m ∈ xs) :
    ∃ L ∈ (maxima xs).getLast?, m ≤ L := by
  induction xs using List.reverseRecOn generalizing m with
  | nil => cases hm
  | append_singleton xs n ih =>
    rw [maxima_concat]
    split_ifs with hn
    · refine ⟨n, by simp, ?_⟩
      rcases List.mem_append.mp hm with hold | hnew
      · exact (hn m hold).le
      · exact (List.mem_singleton.mp hnew).le
    · rcases List.mem_append.mp hm with hold | hnew
      · exact ih hold
      · push Not at hn
        obtain ⟨k, hk, hle⟩ := hn
        obtain ⟨L, hL, hkL⟩ := ih hk
        refine ⟨L, hL, ?_⟩
        rw [List.mem_singleton.mp hnew]
        exact hle.trans hkL

lemma mem_of_mem_maxima {xs : List α} {m : α} (hm : m ∈ maxima xs) : m ∈ xs := by
  obtain ⟨p, hp, rfl⟩ := List.mem_map.mp hm
  exact List.fst_mem_of_mem_zipIdx (List.mem_of_mem_filter hp)

lemma forall_lt_iff {xs : List α} {n : α} :
    (∀ m ∈ xs, m < n) ↔ ∀ L ∈ (maxima xs).getLast?, L < n := by
  constructor
  · intro h L hL
    exact h L (mem_of_mem_maxima (List.mem_of_getLast? hL))
  · intro h m hm
    obtain ⟨L, hL, hle⟩ := le_getLast_maxima hm
    exact hle.trans_lt (h L hL)

lemma pairwise_maxima (xs : List α) : (maxima xs).Pairwise (· < ·) := by
  induction xs using List.reverseRecOn with
  | nil => exact List.Pairwise.nil
  | append_singleton xs n ih =>
    rw [maxima_concat]
    split_ifs with hn
    · rw [List.pairwise_append]
      refine ⟨ih, List.pairwise_singleton _ n, ?_⟩
      intro a ha b hb
      rw [List.mem_singleton.mp hb]
      exact hn a (mem_of_mem_maxima ha)
    · exact ih

end ReliableUdp.RunningMaxima
