import Mathlib

/-! Tables of `n` optional entries addressed by a key modulo `n`. Keys with the
same residue share a slot; the length is part of the type, so every update keeps it. -/
namespace ReliableUdp

structure SlotTable (α : Type*) (n : ℕ) where
  slots : List (Option α)
  length_slots : slots.length = n
  deriving DecidableEq

variable {α σ : Type*} {n : ℕ}

namespace SlotTable

def empty (α : Type*) (n : ℕ) : SlotTable α n := ⟨List.replicate n none, by simp⟩

def get (t : SlotTable α n) (key : ℕ) : Option α := (t.slots[key % n]?).join

def set (t : SlotTable α n) (key : ℕ) (entry : Option α) : SlotTable α n :=
  ⟨t.slots.set (key % n) entry, by simp [t.length_slots]⟩

def map (f : Option α → Option α) (t : SlotTable α n) : SlotTable α n :=
  ⟨t.slots.map f, by simp [t.length_slots]⟩

def entries (t : SlotTable α n) : List α := t.slots.reduceOption

def occupied (t : SlotTable α n) : ℕ := t.entries.length

@[simp] lemma get_empty (key : ℕ) : (empty α n).get key = none := by
  simp only [get, empty, List.getElem?_replicate]
  split_ifs <;> rfl

lemma get_mod (t : SlotTable α n) (key : ℕ) : t.get (key % n) = t.get key := by
  simp [get]

lemma get_congr (t : SlotTable α n) {j k : ℕ} (h : j % n = k % n) : t.get j = t.get k := by
  simp [get, h]

lemma mod_ne_of_get {t : SlotTable α n} {j k : ℕ} {a : α} (hj : t.get j = none)
    (hk : t.get k = some a) : j % n ≠ k % n := by
  intro he
  rw [← get_congr t he, hj] at hk
  cases hk

lemma get_set_same (t : SlotTable α n) (hn : 0 < n) {j k : ℕ} (h : j % n = k % n)
    (entry : Option α) : (t.set j entry).get k = entry := by
  have hk : k % n < t.slots.length := by rw [t.length_slots]; exact Nat.mod_lt k hn
  simp [get, set, h, hk]

lemma get_set_other (t : SlotTable α n) {j k : ℕ} (h : j % n ≠ k % n) (entry : Option α) :
    (t.set j entry).get k = t.get k := by
  simp [get, set, List.getElem?_set_ne h]

lemma get_set (t : SlotTable α n) (hn : 0 < n) (j k : ℕ) (entry : Option α) :
    (t.set j entry).get k = if j % n = k % n then entry else t.get k := by
  split_ifs with h
  · exact get_set_same t hn h entry
  · exact get_set_other t h entry

lemma get_map (f : Option α → Option α) (hf : f none = none) (t : SlotTable α n) (key : ℕ) :
    (t.map f).get key = f (t.get key) := by
  simp only [get, map, List.getElem?_map]
  cases t.slots[key % n]? <;> simp [hf]

lemma mem_entries {t : SlotTable α n} {a : α} : a ∈ t.entries ↔ some a ∈ t.slots :=
  List.reduceOption_mem_iff

lemma mem_entries_of_get {t : SlotTable α n} {a : α} {key : ℕ} (h : t.get key = some a) :
    a ∈ t.entries := by
  rw [mem_entries]
  cases he : t.slots[key % n]? with
  | none => simp [get, he] at h
  | some x =>
    simp only [get, he, Option.join_some] at h
    exact h ▸ List.mem_of_getElem? he

lemma slots_eq (t : SlotTable α n) : t.slots = (List.range n).map t.get := by
  apply List.ext_getElem
  · simp [t.length_slots]
  · intro i hi _
    have hin : i < n := t.length_slots ▸ hi
    simp [get, Nat.mod_eq_of_lt hin, List.getElem?_eq_getElem hi]

lemma eq_of_get {t t' : SlotTable α n} (h : ∀ key, t.get key = t'.get key) : t = t' := by
  have hslots : t.slots = t'.slots := by
    rw [slots_eq t, slots_eq t', funext h]
  cases t
  cases t'
  cases hslots
  rfl

lemma entries_eq (t : SlotTable α n) : t.entries = (List.range n).filterMap t.get := by
  rw [entries, slots_eq, List.reduceOption, List.filterMap_map]
  rfl

lemma exists_get_of_mem_entries {t : SlotTable α n} {a : α} (h : a ∈ t.entries) :
    ∃ key, t.get key = some a := by
  rw [entries_eq, List.mem_filterMap] at h
  obtain ⟨key, _, hkey⟩ := h
  exact ⟨key, hkey⟩

/-- One pass over the slots in order, threading an accumulator. -/
def sweepList (f : Option α → σ → Option α × σ) : List (Option α) → σ → List (Option α) × σ
  | [], s => ([], s)
  | x :: xs, s =>
      let r := f x s
      let tail := sweepList f xs r.2
      (r.1 :: tail.1, tail.2)

lemma length_sweepList (f : Option α → σ → Option α × σ) (xs : List (Option α)) (s : σ) :
    (sweepList f xs s).1.length = xs.length := by
  induction xs generalizing s with
  | nil => rfl
  | cons x xs ih => simp [sweepList, ih]

def sweep (f : Option α → σ → Option α × σ) (t : SlotTable α n) (s : σ) : SlotTable α n × σ :=
  let r := sweepList f t.slots s
  (⟨r.1, by rw [length_sweepList, t.length_slots]⟩, r.2)

lemma sweep_fst {f : Option α → σ → Option α × σ} {g : Option α → Option α}
    (h : ∀ x s, (f x s).1 = g x) (t : SlotTable α n) (s : σ) : (t.sweep f s).1 = t.map g := by
  have hl : ∀ (xs : List (Option α)) (s : σ), (sweepList f xs s).1 = xs.map g := by
    intro xs
    induction xs with
    | nil => intro s; rfl
    | cons x xs ih => intro s; simp [sweepList, h, ih]
  simp [sweep, map, hl]

lemma get_sweep (f : Option α → σ → Option α × σ) (t : SlotTable α n) (hn : 0 < n) (s : σ)
    (key : ℕ) : ∃ s', (t.sweep f s).1.get key = (f (t.get key) s').1 := by
  have hl : ∀ (xs : List (Option α)) (s : σ) (i : ℕ), i < xs.length →
      ∃ s', (sweepList f xs s).1[i]?.join = (f xs[i]?.join s').1 := by
    intro xs
    induction xs with
    | nil => intro s i hi; cases hi
    | cons x xs ih =>
      intro s i hi
      cases i with
      | zero => exact ⟨s, rfl⟩
      | succ i => exact ih _ i (by simpa using hi)
  exact hl t.slots s (key % n) (by rw [t.length_slots]; exact Nat.mod_lt key hn)

lemma sweep_snd {f : Option α → σ → Option α × σ} {step : σ → α → σ}
    (hnone : ∀ s, (f none s).2 = s) (hsome : ∀ a s, (f (some a) s).2 = step s a)
    (t : SlotTable α n) (s : σ) : (t.sweep f s).2 = t.entries.foldl step s := by
  have hl : ∀ (xs : List (Option α)) (s : σ),
      (sweepList f xs s).2 = xs.reduceOption.foldl step s := by
    intro xs
    induction xs with
    | nil => intro s; rfl
    | cons x xs ih =>
      intro s
      cases x with
      | none => simp [sweepList, hnone, ih]
      | some a => simp [sweepList, hsome, ih]
  simp [sweep, entries, hl]

lemma sweep_invariant {f : Option α → σ → Option α × σ} {P : σ → Prop}
    (h : ∀ x s, P s → P (f x s).2) (t : SlotTable α n) (s : σ) (hs : P s) : P (t.sweep f s).2 := by
  have hl : ∀ (xs : List (Option α)) (s : σ), P s → P (sweepList f xs s).2 := by
    intro xs
    induction xs with
    | nil => intro s hs; exact hs
    | cons x xs ih => intro s hs; exact ih _ (h x s hs)
  exact hl t.slots s hs

lemma set_get (t : SlotTable α n) (key : ℕ) : t.set key (t.get key) = t := by
  rcases Nat.eq_zero_or_pos n with rfl | hn
  · have hslots : t.slots = [] := List.eq_nil_of_length_eq_zero t.length_slots
    apply eq_of_get
    intro k
    simp [get, set, hslots]
  · apply eq_of_get
    intro k
    rw [get_set t hn]
    split_ifs with hk
    · exact get_congr t hk
    · rfl

/-- A property of table and accumulator that updating one slot keeps holds after a pass. -/
theorem sweep_rule {f : Option α → σ → Option α × σ} {P : SlotTable α n → σ → Prop}
    (h : ∀ t s k, k < n → P t s → P (t.set k (f (t.get k) s).1) (f (t.get k) s).2)
    (t : SlotTable α n) (s : σ) (hs : P t s) : P (t.sweep f s).1 (t.sweep f s).2 := by
  have hl : ∀ (xs before : List (Option α)) (s : σ) (t t' : SlotTable α n),
      t.slots = before ++ xs → t'.slots = before ++ (sweepList f xs s).1 → P t s →
      P t' (sweepList f xs s).2 := by
    intro xs
    induction xs with
    | nil =>
      intro before s t t' ht ht' hs
      cases t
      cases t'
      cases ht.trans ht'.symm
      exact hs
    | cons x xs ih =>
      intro before s t t' ht ht' hs
      have hlt : before.length < n := by
        rw [← t.length_slots, ht, List.length_append, List.length_cons]
        omega
      have hget : t.get before.length = x := by
        simp [get, Nat.mod_eq_of_lt hlt, ht]
      have hstep := h t s before.length hlt hs
      rw [hget] at hstep
      refine ih (before ++ [(f x s).1]) (f x s).2 _ t' ?_ ?_ hstep
      · simp [set, Nat.mod_eq_of_lt hlt, ht]
      · rw [ht', List.append_assoc]
        rfl
  exact hl t.slots [] s t _ rfl rfl hs

theorem sweep_rule_occupied {f : Option α → σ → Option α × σ} {P : SlotTable α n → σ → Prop}
    (hnone : ∀ s, f none s = (none, s))
    (hsome : ∀ t s k a, k < n → t.get k = some a → P t s →
      P (t.set k (f (some a) s).1) (f (some a) s).2)
    (t : SlotTable α n) (s : σ) (hs : P t s) : P (t.sweep f s).1 (t.sweep f s).2 := by
  refine sweep_rule (fun t s k hk hP => ?_) t s hs
  cases hget : t.get k with
  | none =>
    have hsame : t.set k none = t := by
      rw [← hget]
      exact set_get t k
    rw [hnone, hsame]
    exact hP
  | some a => exact hsome t s k a hk hget hP

def total (f : Option α → ℕ) (t : SlotTable α n) : ℕ := (t.slots.map f).sum

lemma total_set (f : Option α → ℕ) (t : SlotTable α n) (hn : 0 < n) (key : ℕ) (entry : Option α) :
    (t.set key entry).total f + f (t.get key) = t.total f + f entry := by
  have hkey : key % n < t.slots.length := by rw [t.length_slots]; exact Nat.mod_lt key hn
  have hget : t.get key = t.slots[key % n] := by
    simp [get, List.getElem?_eq_getElem hkey]
  have hl : ∀ (xs : List (Option α)) (i : ℕ) (hi : i < xs.length),
      ((xs.set i entry).map f).sum + f xs[i] = (xs.map f).sum + f entry := by
    intro xs
    induction xs with
    | nil => intro i hi; cases hi
    | cons x xs ih =>
      intro i hi
      cases i with
      | zero => simp; omega
      | succ i =>
        have := ih i (by simpa using hi)
        simp only [List.set_cons_succ, List.map_cons, List.sum_cons, List.getElem_cons_succ]
        omega
  rw [hget]
  exact hl t.slots (key % n) hkey

lemma total_eq_zero {f : Option α → ℕ} {t : SlotTable α n} (h : ∀ key, f (t.get key) = 0) :
    t.total f = 0 := by
  apply List.sum_eq_zero
  intro w hw
  obtain ⟨x, hx, rfl⟩ := List.mem_map.mp hw
  obtain ⟨i, hi, rfl⟩ := List.getElem_of_mem hx
  have hin : i < n := t.length_slots ▸ hi
  simpa [get, Nat.mod_eq_of_lt hin, List.getElem?_eq_getElem hi] using h i

lemma total_eq_sum_entries {f : Option α → ℕ} (hf : f none = 0) (t : SlotTable α n) :
    t.total f = (t.entries.map fun a => f (some a)).sum := by
  have hl : ∀ xs : List (Option α),
      (xs.map f).sum = (xs.reduceOption.map fun a => f (some a)).sum := by
    intro xs
    induction xs with
    | nil => rfl
    | cons x xs ih => cases x <;> simp [hf, ih]
  exact hl t.slots

lemma total_eq_zero_iff {f : Option α → ℕ} (hf : f none = 0) {t : SlotTable α n} :
    t.total f = 0 ↔ ∀ key, f (t.get key) = 0 := by
  refine ⟨?_, total_eq_zero⟩
  intro h key
  cases hx : t.slots[key % n]? with
  | none => simp [get, hx, hf]
  | some x =>
    have hmem : f x ∈ t.slots.map f := List.mem_map_of_mem (List.mem_of_getElem? hx)
    have hle := List.le_sum_of_mem hmem
    rw [← total, h] at hle
    simpa [get, hx] using hle

lemma total_eq_get_iff {f : Option α → ℕ} (hf : f none = 0) {t : SlotTable α n} (hn : 0 < n)
    (key : ℕ) : t.total f = f (t.get key) ↔ ∀ j, key % n ≠ j % n → f (t.get j) = 0 := by
  have hset := total_set f t hn key none
  rw [hf, Nat.add_zero] at hset
  have hrest : t.total f = f (t.get key) ↔ (t.set key none).total f = 0 := by omega
  rw [hrest, total_eq_zero_iff hf]
  refine forall_congr' fun j => ?_
  rw [get_set t hn]
  split_ifs with hj
  · simp [hf, hj]
  · simp [hj]

lemma total_sweep {f : Option α → ℕ} {g : σ → ℕ} {step : Option α → σ → Option α × σ}
    (h : ∀ x s, f (step x s).1 + g (step x s).2 = f x + g s) (t : SlotTable α n) (s : σ) :
    (t.sweep step s).1.total f + g (t.sweep step s).2 = t.total f + g s := by
  have hl : ∀ (xs : List (Option α)) (s : σ),
      ((sweepList step xs s).1.map f).sum + g (sweepList step xs s).2 = (xs.map f).sum + g s := by
    intro xs
    induction xs with
    | nil => intro s; rfl
    | cons x xs ih =>
      intro s
      have hx := h x s
      have hxs := ih (step x s).2
      simp only [sweepList, List.map_cons, List.sum_cons]
      omega
  exact hl t.slots s

lemma entries_map {f : Option α → Option α} (hf : f none = none) (t : SlotTable α n) :
    (t.map f).entries = t.entries.filterMap fun a => f (some a) := by
  have hl : ∀ xs : List (Option α),
      (xs.map f).reduceOption = xs.reduceOption.filterMap fun a => f (some a) := by
    intro xs
    induction xs with
    | nil => rfl
    | cons x xs ih =>
      cases x with
      | none => simp [hf, ih]
      | some a => cases hfa : f (some a) <;> simp [hfa, ih]
  exact hl t.slots

lemma occupied_empty : (empty α n).occupied = 0 := by
  have hl : ∀ m, (List.replicate m (none : Option α)).reduceOption = [] := by
    intro m
    induction m with
    | zero => rfl
    | succ m ih => simp [List.replicate_succ, ih]
  rw [occupied, entries, empty, hl]
  rfl

lemma occupied_le (t : SlotTable α n) : t.occupied ≤ n := by
  calc t.occupied ≤ t.slots.length := List.reduceOption_length_le t.slots
    _ = n := t.length_slots

lemma occupied_eq_total (t : SlotTable α n) : t.occupied = t.total fun x => x.toList.length := by
  have hl : ∀ xs : List (Option α),
      xs.reduceOption.length = (xs.map fun x => x.toList.length).sum := by
    intro xs
    induction xs with
    | nil => rfl
    | cons x xs ih => cases x <;> simp [ih, Nat.add_comm]
  exact hl t.slots

lemma occupied_set (t : SlotTable α n) (hn : 0 < n) (key : ℕ) (entry : Option α) :
    (t.set key entry).occupied + (t.get key).toList.length = t.occupied + entry.toList.length := by
  rw [occupied_eq_total, occupied_eq_total]
  exact total_set (fun x => x.toList.length) t hn key entry

end SlotTable
end ReliableUdp
