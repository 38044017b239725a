import ReliableUdp.Protocol
import ReliableUdp.Runs

/-! The duplicate filter: a bitmap over a sliding window of sequence numbers. It is exact as long
as no number arrives beyond the window and the window slides only past numbers that were all
received. -/
namespace ReliableUdp.DuplicateFilter
open Protocol Runs

/-- The number of slots: even, and at most half the range of sequence numbers. -/
structure Capacity where
  size : ℕ
  pos : 0 < size
  le_max : size ≤ 32768
  even : size % 2 = 0

structure AckedSet (N : ℕ) where
  bits : BitVec N := 0
  base : Seq := 0
  deriving DecidableEq

namespace AckedSet

variable {N : ℕ}

def seen (s : AckedSet N) (seq : Seq) : Bool :=
  let offset := (seq - s.base).toNat
  if N ≤ offset then decide (32768 < offset) else s.bits.getLsbD offset

def mark (s : AckedSet N) (seq : Seq) : AckedSet N :=
  let offset := (seq - s.base).toNat
  if N ≤ offset then s
  else
    let bits := s.bits ||| (1#N <<< offset)
    if N / 2 ≤ offset then
      { bits := bits >>> (N / 2), base := s.base + BitVec.ofNat 16 (N / 2) }
    else { s with bits := bits }

end AckedSet

/-- The filter with the index behind its base and the indices it was told to mark. -/
structure FilterRun (N : ℕ) where
  set : AckedSet N := {}
  base : ℕ := 0
  marked : List ℕ := []

namespace FilterRun

variable {N : ℕ}

/-- An index arrives and is marked when the filter has not seen it. -/
def arrive (s : FilterRun N) (n : ℕ) : FilterRun N :=
  if s.set.seen (wire n) then s
  else
    let set := s.set.mark (wire n)
    { set := set
      base := s.base + (set.base - s.set.base).toNat
      marked := s.marked ++ [n] }

def Near (s : FilterRun N) (n : ℕ) : Prop := Close n s.base

instance (s : FilterRun N) (n : ℕ) : Decidable (s.Near n) := inferInstanceAs (Decidable (Close _ _))

/-- Exactly the marked indices are reported as seen, and each was marked once. -/
def Exact (s : FilterRun N) : Prop :=
  s.marked.Nodup ∧ ∀ n, Close n s.base → (s.set.seen (wire n) = true ↔ n ∈ s.marked)

/-- The index is not beyond the window, and in the upper half only once the lower half has been
received. -/
def Orderly (s : FilterRun N) (n : ℕ) : Prop :=
  n < s.base + N ∧ (s.base + N / 2 ≤ n → ∀ i < N / 2, s.base + i ∈ s.marked)

instance (s : FilterRun N) (n : ℕ) : Decidable (s.Orderly n) := inferInstanceAs (Decidable (_ ∧ _))

/-- The bitmap records the window, everything below the base was marked and nothing in the upper
half or beyond it. -/
structure Records (s : FilterRun N) : Prop where
  base : s.set.base = wire s.base
  bits : ∀ k < N, s.set.bits.getLsbD k = true ↔ s.base + k ∈ s.marked
  below : ∀ i < s.base, i ∈ s.marked
  upper : ∀ i ∈ s.marked, i < s.base + N / 2
  nodup : s.marked.Nodup

end FilterRun

section Filter
variable {N : Capacity} {s : FilterRun N.size}

lemma records_start : (({} : FilterRun N.size)).Records := by
  refine ⟨rfl, ?_, ?_, ?_, List.nodup_nil⟩
  · intro k _
    simp
  · intro i hi
    exact absurd hi (Nat.not_lt_zero i)
  · intro i hi
    cases hi

lemma seen_eq (hbase : s.set.base = wire s.base) {n : ℕ} (hn : Close n s.base) :
    s.set.seen (wire n) = true ↔
      n < s.base ∨ ∃ k < N.size, n = s.base + k ∧ s.set.bits.getLsbD k = true := by
  obtain ⟨h1, h2⟩ := close_iff.mp hn
  have hmax := N.le_max
  unfold AckedSet.seen
  rw [hbase]
  rcases lt_or_ge n s.base with hlt | hge
  · rw [wire_sub_of_lt hlt (by omega), if_pos (by omega)]
    simp only [decide_eq_true_eq]
    constructor
    · intro _
      exact Or.inl hlt
    · intro _
      omega
  · obtain ⟨k, rfl⟩ := Nat.exists_eq_add_of_le hge
    rw [wire_sub_of_le (by omega) (by omega), Nat.add_sub_cancel_left]
    dsimp only
    split_ifs with hk
    · simp only [decide_eq_true_eq]
      constructor
      · intro hfar
        omega
      · rintro (hlt | ⟨j, hj, he, _⟩)
        · omega
        · omega
    · constructor
      · intro hbit
        exact Or.inr ⟨k, by omega, rfl, hbit⟩
      · rintro (hlt | ⟨j, _, he, hbit⟩)
        · omega
        · rwa [Nat.add_left_cancel he]

theorem FilterRun.Records.exact (h : s.Records) : s.Exact := by
  refine ⟨h.nodup, fun n hn => ?_⟩
  rw [seen_eq h.base hn]
  constructor
  · rintro (hlt | ⟨k, hk, rfl, hbit⟩)
    · exact h.below n hlt
    · exact (h.bits k hk).mp hbit
  · intro hmem
    rcases lt_or_ge n s.base with hlt | hge
    · exact Or.inl hlt
    · obtain ⟨k, rfl⟩ := Nat.exists_eq_add_of_le hge
      have hupper := h.upper _ hmem
      have hk : k < N.size := by omega
      exact Or.inr ⟨k, hk, rfl, (h.bits k hk).mpr hmem⟩

lemma getLsbD_set (bits : BitVec N.size) {offset k : ℕ} (hk : k < N.size) :
    (bits ||| (1#N.size <<< offset)).getLsbD k = true ↔ k = offset ∨ bits.getLsbD k = true := by
  have hpos := N.pos
  simp only [BitVec.getLsbD_or, BitVec.getLsbD_shiftLeft, BitVec.getLsbD_one, hk, decide_true,
    Bool.true_and, Bool.or_eq_true, Bool.and_eq_true, Bool.not_eq_true', decide_eq_false_iff_not,
    not_lt, decide_eq_true_eq]
  constructor
  · rintro (hbit | ⟨hle, _, hz⟩)
    · exact Or.inr hbit
    · exact Or.inl (by omega)
  · rintro (rfl | hbit)
    · exact Or.inr ⟨le_rfl, hpos, by omega⟩
    · exact Or.inl hbit

lemma mem_marked_concat {marked : List ℕ} {b j k : ℕ} :
    b + j ∈ marked ++ [b + k] ↔ j = k ∨ b + j ∈ marked := by
  rw [List.mem_append, List.mem_singleton, Nat.add_left_cancel_iff, or_comm]

lemma FilterRun.Records.mark_lower (h : s.Records) {k : ℕ} (hk : k < N.size / 2)
    (hnew : s.base + k ∉ s.marked) :
    FilterRun.Records
      { set := { s.set with bits := s.set.bits ||| (1#N.size <<< k) }
        base := s.base
        marked := s.marked ++ [s.base + k] } := by
  refine ⟨h.base, ?_, ?_, ?_, ?_⟩
  · intro j hj
    rw [getLsbD_set _ hj, h.bits j hj]
    exact mem_marked_concat.symm
  · intro i hi
    exact List.mem_append_left _ (h.below i hi)
  · intro i hi
    rcases List.mem_append.mp hi with hold | hnew'
    · exact h.upper i hold
    · rw [List.mem_singleton] at hnew'
      dsimp only
      omega
  · exact h.nodup.append (List.nodup_singleton _) (by simpa using hnew)

/-- A new index in the upper half moves the window past the lower half, which is complete. -/
lemma FilterRun.Records.mark_upper (h : s.Records) {k : ℕ} (hk : k < N.size)
    (hnew : s.base + k ∉ s.marked)
    (hlower : ∀ i < N.size / 2, s.base + i ∈ s.marked) :
    FilterRun.Records
      { set :=
          { bits := (s.set.bits ||| (1#N.size <<< k)) >>> (N.size / 2)
            base := s.set.base + BitVec.ofNat 16 (N.size / 2) }
        base := s.base + N.size / 2
        marked := s.marked ++ [s.base + k] } := by
  have heven := N.even
  refine ⟨?_, ?_, ?_, ?_, ?_⟩
  · rw [h.base]
    exact (SerialNumber.serial_add 16 _ _).symm
  · intro j hj
    dsimp only
    rw [BitVec.getLsbD_ushiftRight, Nat.add_assoc, mem_marked_concat]
    rcases lt_or_ge (N.size / 2 + j) N.size with hin | hout
    · rw [getLsbD_set _ hin, h.bits _ hin]
    · rw [BitVec.getLsbD_of_ge _ _ hout]
      constructor
      · intro hf
        cases hf
      · rintro (he | hmem)
        · omega
        · have := h.upper _ hmem
          omega
  · intro i hi
    dsimp only at hi
    apply List.mem_append_left
    rcases lt_or_ge i s.base with hlt | hge
    · exact h.below i hlt
    · obtain ⟨j, rfl⟩ := Nat.exists_eq_add_of_le hge
      exact hlower j (by omega)
  · intro i hi
    dsimp only
    rcases List.mem_append.mp hi with hold | hnew'
    · have := h.upper i hold
      omega
    · rw [List.mem_singleton] at hnew'
      omega
  · exact h.nodup.append (List.nodup_singleton _) (by simpa using hnew)

end Filter

section Runs
variable {N : Capacity} {s : FilterRun N.size}

lemma arrive_new (hbase : s.set.base = wire s.base) {k : ℕ} (hk : k < 32768)
    (hnew : s.set.seen (wire (s.base + k)) = false) :
    s.arrive (s.base + k) =
      if N.size ≤ k then { s with marked := s.marked ++ [s.base + k] }
      else if N.size / 2 ≤ k then
        { set :=
            { bits := (s.set.bits ||| (1#N.size <<< k)) >>> (N.size / 2)
              base := s.set.base + BitVec.ofNat 16 (N.size / 2) }
          base := s.base + N.size / 2
          marked := s.marked ++ [s.base + k] }
      else
        { set := { s.set with bits := s.set.bits ||| (1#N.size <<< k) }
          base := s.base
          marked := s.marked ++ [s.base + k] } := by
  have hmax := N.le_max
  have hoffset : (wire (s.base + k) - s.set.base).toNat = k := by
    rw [hbase, wire_sub_of_le (by omega) (by omega)]
    omega
  have hslide : (s.set.base + BitVec.ofNat 16 (N.size / 2) - s.set.base).toNat = N.size / 2 := by
    have hhalf : (BitVec.ofNat 16 (N.size / 2)).toNat = N.size / 2 := by
      rw [BitVec.toNat_ofNat, Nat.mod_eq_of_lt (by omega)]
    rw [add_sub_cancel_left, hhalf]
  simp only [FilterRun.arrive, hnew, AckedSet.mark, hoffset, Bool.false_eq_true, if_false]
  split_ifs
  · simp
  · rw [hslide]
  · simp

lemma FilterRun.Records.not_seen (h : s.Records) {k : ℕ} (hk : k < 32768)
    (hnew : s.base + k ∉ s.marked) : s.set.seen (wire (s.base + k)) = false := by
  rw [Bool.eq_false_iff]
  intro hseen
  exact hnew ((h.exact.2 _ (close_iff.mpr ⟨by omega, by omega⟩)).mp hseen)

lemma FilterRun.Records.arrive_marked (h : s.Records) {n : ℕ} (hn : Close n s.base)
    (hmem : n ∈ s.marked) : s.arrive n = s := by
  rw [FilterRun.arrive, if_pos ((h.exact.2 n hn).mpr hmem)]

theorem FilterRun.Records.arrive (h : s.Records) {n : ℕ} (hn : s.Near n) (ho : s.Orderly n) :
    (s.arrive n).Records := by
  obtain ⟨h1, h2⟩ := close_iff.mp hn
  obtain ⟨hin, hlower⟩ := ho
  by_cases hmem : n ∈ s.marked
  · rw [h.arrive_marked hn hmem]
    exact h
  · have hge : s.base ≤ n := by
      by_contra hlt
      exact hmem (h.below n (by omega))
    obtain ⟨k, rfl⟩ := Nat.exists_eq_add_of_le hge
    rw [arrive_new h.base (by omega) (h.not_seen (by omega) hmem), if_neg (by omega)]
    split_ifs with hhalf
    · exact h.mark_upper (by omega) hmem (hlower (by omega))
    · exact h.mark_lower (by omega) hmem

/-- Any other arrival makes the filter wrong: about itself when it lies beyond the window, about
an index of the lower half when the window moves past it. -/
theorem FilterRun.Records.not_exact (h : s.Records) {n : ℕ} (hn : s.Near n) (ho : ¬ s.Orderly n) :
    ¬ (s.arrive n).Exact := by
  obtain ⟨h1, h2⟩ := close_iff.mp hn
  have hmax := N.le_max
  have hmem : n ∉ s.marked := by
    intro hmem
    have := h.upper n hmem
    exact ho ⟨by omega, by omega⟩
  have hge : s.base ≤ n := by
    by_contra hlt
    exact hmem (h.below n (by omega))
  obtain ⟨k, rfl⟩ := Nat.exists_eq_add_of_le hge
  rw [arrive_new h.base (by omega) (h.not_seen (by omega) hmem)]
  intro hexact
  split_ifs at hexact with hfar hhalf
  · have hseen := (hexact.2 (s.base + k) hn).mpr (by simp)
    rw [seen_eq h.base hn] at hseen
    rcases hseen with hlt | ⟨j, hj, he, _⟩
    · omega
    · omega
  · have hmissing : ∃ i < N.size / 2, s.base + i ∉ s.marked := by
      by_contra hall
      simp only [not_exists, not_and, not_not] at hall
      exact ho ⟨by omega, fun _ => hall⟩
    obtain ⟨i, hi, hout⟩ := hmissing
    have hclose : Close (s.base + i) (s.base + N.size / 2) := close_iff.mpr ⟨by omega, by omega⟩
    have hbase : s.set.base + BitVec.ofNat 16 (N.size / 2) = wire (s.base + N.size / 2) := by
      rw [h.base]
      exact (SerialNumber.serial_add 16 _ _).symm
    have hseen := (hexact.2 (s.base + i) hclose).mp
      ((seen_eq hbase hclose).mpr (Or.inl (by simpa using hi)))
    simp only [List.mem_append, List.mem_singleton] at hseen
    rcases hseen with hold | he
    · exact hout hold
    · omega
  · exact ho ⟨by omega, by omega⟩

end Runs

/-- In every run of arrivals less than 32768 away from the base, the filter reports exactly the
marked indices at every point, each having passed once, if and only if no index arrives beyond the
window and none in its upper half before the lower half is complete. -/
theorem exact_iff_orderly (N : Capacity) (arrivals : List ℕ)
    (h : Admitted FilterRun.arrive FilterRun.Near ({} : FilterRun N.size) arrivals) :
    (∀ before, before <+: arrivals →
        (before.foldl FilterRun.arrive ({} : FilterRun N.size)).Exact) ↔
      Admitted FilterRun.arrive FilterRun.Orderly ({} : FilterRun N.size) arrivals :=
  forall_prefix_iff_admitted records_start (fun _ hs => hs.exact)
    (fun _ _ hs hn ho => hs.arrive hn ho) (fun _ _ hs hn ho => hs.not_exact hn ho) arrivals h

/-- Eight slots: 0 to 3 arrive before 5, which moves the window; then 0 is still known. -/
theorem exact_iff_orderly_slide :
    ([0, 2, 1, 3, 5, 0].foldl FilterRun.arrive ({} : FilterRun 8)).Exact ∧
      ([0, 2, 1, 3, 5, 0].foldl FilterRun.arrive ({} : FilterRun 8)).base = 4 := by
  have hexact := (exact_iff_orderly ⟨8, by decide, by decide, by decide⟩ [0, 2, 1, 3, 5, 0]
    (by decide)).mpr (by decide)
  exact ⟨hexact _ (List.prefix_refl _), by decide⟩

/-- Eight slots: when 5 arrives first the window moves past 0 to 3, which never arrived and are
reported as seen; and 8 passes the filter again and again. -/
theorem skipped_indices_seen :
    ¬ ([5].foldl FilterRun.arrive ({} : FilterRun 8)).Exact ∧
      ([5].foldl FilterRun.arrive ({} : FilterRun 8)).set.seen (wire 0) = true ∧
      ([8].foldl FilterRun.arrive ({} : FilterRun 8)).set.seen (wire 8) = false ∧
      ([8, 8].foldl FilterRun.arrive ({} : FilterRun 8)).marked = [8, 8] := by
  refine ⟨fun hexact => ?_, by decide, by decide, by decide⟩
  have hseen := (hexact.2 0 (by decide)).mp (by decide)
  revert hseen
  decide

end ReliableUdp.DuplicateFilter
