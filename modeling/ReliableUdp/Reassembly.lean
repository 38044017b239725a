import Mathlib

/-! Reassembly with unbounded indices: entries at or above the next expected index are held
until a run without gap starts there. -/
namespace ReliableUdp.Reassembly

variable {α : Type*}

def dropBelow (E : ℕ) (held : ℕ → Option α) : ℕ → Option α := fun n => if n < E then none else held n

/-- The entries at `E, E + 1, …`, `m` of them. -/
def run (held : ℕ → Option α) : ℕ → ℕ → List α
  | _, 0 => []
  | E, m + 1 => (held E).toList ++ run held (E + 1) m

lemma dropBelow_some {E n : ℕ} {held : ℕ → Option α} {x : α} :
    dropBelow E held n = some x ↔ E ≤ n ∧ held n = some x := by
  unfold dropBelow
  split_ifs with h
  · simp only [false_iff, not_and]
    omega
  · simp [not_lt.mp h]

lemma dropBelow_dropBelow {E F : ℕ} (h : E ≤ F) (held : ℕ → Option α) :
    dropBelow F (dropBelow E held) = dropBelow F held := by
  funext n
  unfold dropBelow
  by_cases hF : n < F
  · simp [hF]
  · have hE : ¬ n < E := by omega
    simp [hF, hE]

lemma run_congr {held other : ℕ → Option α} {E m : ℕ} (h : ∀ i < m, held (E + i) = other (E + i)) :
    run held E m = run other E m := by
  induction m generalizing E with
  | zero => rfl
  | succ m ih =>
    have h0 : held E = other E := by simpa using h 0 (by omega)
    have ht : run held (E + 1) m = run other (E + 1) m := by
      apply ih
      intro i hi
      have := h (i + 1) (by omega)
      rwa [show E + (i + 1) = E + 1 + i by omega] at this
    simp [run, h0, ht]

lemma take_append_run {held : ℕ → Option α} {source : List α} {E m : ℕ}
    (hsource : ∀ n x, held n = some x → source[n]? = some x)
    (hfull : ∀ i < m, (held (E + i)).isSome) :
    source.take E ++ run held E m = source.take (E + m) := by
  induction m generalizing E with
  | zero => simp [run]
  | succ m ih =>
    obtain ⟨x, hx⟩ := Option.isSome_iff_exists.mp (by simpa using hfull 0 (by omega))
    have hstep : source.take (E + 1) = source.take E ++ [x] := by
      rw [List.take_add_one, hsource E x hx]
      rfl
    have ht := ih (E := E + 1) (by
      intro i hi
      have := hfull (i + 1) (by omega)
      rwa [show E + (i + 1) = E + 1 + i by omega] at this)
    rw [hstep, List.append_assoc] at ht
    simpa [run, hx, show E + 1 + m = E + (m + 1) by omega] using ht

lemma map_run {held : ℕ → Option α} {source : List α} {E m : ℕ}
    (hsource : ∀ n x, held n = some x → source[n]? = some x)
    (hfull : ∀ i < m, (held (E + i)).isSome) :
    (run held E m).map some = (List.range' E m).map fun n => source[n]? := by
  induction m generalizing E with
  | zero => rfl
  | succ m ih =>
    obtain ⟨x, hx⟩ := Option.isSome_iff_exists.mp (by simpa using hfull 0 (by omega))
    have ht := ih (E := E + 1) (by
      intro i hi
      have := hfull (i + 1) (by omega)
      rwa [show E + (i + 1) = E + 1 + i by omega] at this)
    simp [run, List.range'_succ, hx, hsource E x hx, ht]

/-- The run without gap that starts at `E` has `m` entries. -/
structure RunEnds (held : ℕ → Option α) (E m : ℕ) : Prop where
  full : ∀ i < m, (held (E + i)).isSome
  gap : held (E + m) = none

lemma RunEnds.unique {held : ℕ → Option α} {E m k : ℕ} (h : RunEnds held E m)
    (h' : RunEnds held E k) : m = k := by
  rcases lt_trichotomy m k with hlt | heq | hgt
  · have := h'.full m hlt
    rw [h.gap] at this
    cases this
  · exact heq
  · have := h.full k hgt
    rw [h'.gap] at this
    cases this

lemma run_append (held : ℕ → Option α) (E m k : ℕ) :
    run held E (m + k) = run held E m ++ run held (E + m) k := by
  induction m generalizing E with
  | zero => simp [run]
  | succ m ih =>
    rw [show m + 1 + k = m + k + 1 by omega, run, run, ih, List.append_assoc,
      show E + 1 + m = E + (m + 1) by omega]

lemma dropBelow_update {E F n : ℕ} (hF : E ≤ F) (held : ℕ → Option α) (x : Option α) :
    dropBelow F (Function.update (dropBelow E held) n x) =
      dropBelow F (Function.update held n x) := by
  funext j
  unfold dropBelow
  split_ifs with hj
  · rfl
  · by_cases hjn : j = n
    · rw [hjn, Function.update_self, Function.update_self]
    · rw [Function.update_of_ne hjn, Function.update_of_ne hjn, if_neg (by omega)]

section Extend
variable {held : ℕ → Option α} {E m k n : ℕ} {x : α}

lemma update_dropBelow (i : ℕ) :
    Function.update (dropBelow (E + m) held) n (some x) (E + m + i) =
      Function.update held n (some x) (E + (m + i)) := by
  rw [Nat.add_assoc]
  by_cases hin : E + (m + i) = n
  · rw [hin, Function.update_self, Function.update_self]
  · rw [Function.update_of_ne hin, Function.update_of_ne hin, dropBelow, if_neg (by omega)]

lemma RunEnds.extend (h : RunEnds held E m) (hn : E + m ≤ n)
    (h' : RunEnds (Function.update (dropBelow (E + m) held) n (some x)) (E + m) k) :
    RunEnds (Function.update held n (some x)) E (m + k) := by
  constructor
  · intro i hi
    rcases lt_or_ge i m with hlt | hge
    · rw [Function.update_of_ne (by omega)]
      exact h.full i hlt
    · obtain ⟨j, rfl⟩ := Nat.exists_eq_add_of_le hge
      rw [← update_dropBelow]
      exact h'.full j (by omega)
  · rw [← update_dropBelow]
    exact h'.gap

lemma run_extend (hn : E + m ≤ n) :
    run (Function.update held n (some x)) E (m + k) = run held E m ++
      run (Function.update (dropBelow (E + m) held) n (some x)) (E + m) k := by
  rw [run_append]
  congr 1
  · apply run_congr
    intro i hi
    rw [Function.update_of_ne (by omega)]
  · apply run_congr
    intro i _
    rw [update_dropBelow, Nat.add_assoc]

end Extend

/-- What is held together with what arrived; an entry held before stays. -/
def overlay (held : ℕ → Option α) (arrived : List ℕ) (content : ℕ → α) : ℕ → Option α :=
  fun n => (held n).or (if n ∈ arrived then some (content n) else none)

lemma overlay_nil (held : ℕ → Option α) (content : ℕ → α) : overlay held [] content = held := by
  funext n
  simp [overlay]

lemma overlay_congr (held : ℕ → Option α) {arrived arrived' : List ℕ}
    (h : ∀ n, n ∈ arrived ↔ n ∈ arrived') (content : ℕ → α) :
    overlay held arrived content = overlay held arrived' content := by
  funext n
  simp only [overlay, h n]

lemma overlay_concat (held : ℕ → Option α) (arrived : List ℕ) (content : ℕ → α) (n : ℕ) :
    overlay held (arrived ++ [n]) content =
      if overlay held arrived content n = none
      then Function.update (overlay held arrived content) n (some (content n))
      else overlay held arrived content := by
  have hother : ∀ j ≠ n,
      overlay held (arrived ++ [n]) content j = overlay held arrived content j := by
    intro j hj
    simp [overlay, hj]
  funext j
  by_cases hj : j = n
  · subst hj
    split_ifs with hnone
    · rw [Function.update_self]
      have hheld : held j = none := by
        rw [overlay, Option.or_eq_none_iff] at hnone
        exact hnone.1
      simp [overlay, hheld]
    · cases hheld : held j with
      | some x => simp [overlay, hheld]
      | none =>
        have hmem : j ∈ arrived := by
          by_contra hmem
          exact hnone (by simp [overlay, hheld, hmem])
        simp [overlay, hheld, hmem]
  · rw [hother j hj]
    split_ifs with hnone
    · rw [Function.update_of_ne hj]
    · rfl

end ReliableUdp.Reassembly
