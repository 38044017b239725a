import ReliableUdp.ReceiveWindow

/-! The reorder buffer: packets wait in the slot of their number modulo the capacity and are
drained from the next number on. The drain takes whatever it finds in the slot of the next number,
so it is in sequence as long as a slot belongs to one number of the window. -/
namespace ReliableUdp.Reordering
open SerialNumber Protocol ReliableChannel ReceiveWindow Runs

structure ReorderBuffer (N : ℕ) where
  slots : SlotTable Packet N := SlotTable.empty _ _
  nextSeq : Seq := 0

namespace ReorderBuffer

variable {N : ℕ}

def insert (r : ReorderBuffer N) (pkt : Packet) : ReorderBuffer N :=
  let offset := (pkt.seq - r.nextSeq).toNat
  if N ≤ offset then r
  else
    match r.slots.get pkt.seq.toNat with
    | some _ => r
    | none => { r with slots := r.slots.set pkt.seq.toNat (some pkt) }

/-- The `while` loop of `drain`, with what it puts into `ready_`. -/
def drainLoop : ℕ → ReorderBuffer N → ReorderBuffer N × List Packet
  | 0, r => (r, [])
  | fuel + 1, r =>
    match r.slots.get r.nextSeq.toNat with
    | none => (r, [])
    | some pkt =>
      let rest := drainLoop fuel
        { slots := r.slots.set r.nextSeq.toNat none, nextSeq := r.nextSeq + 1 }
      (rest.1, pkt :: rest.2)

/-- Every round empties a slot, so as many rounds as there are slots are enough. -/
def drain (r : ReorderBuffer N) : ReorderBuffer N × List Packet := drainLoop N r

lemma drainLoop_stops (hN : 0 < N) (fuel : ℕ) (r : ReorderBuffer N) (h : r.slots.occupied ≤ fuel) :
    (drainLoop fuel r).1.slots.get (drainLoop fuel r).1.nextSeq.toNat = none := by
  induction fuel generalizing r with
  | zero =>
    cases hg : r.slots.get r.nextSeq.toNat with
    | none => exact hg
    | some pkt =>
      have hpos := List.length_pos_of_mem (SlotTable.mem_entries_of_get hg)
      unfold SlotTable.occupied at h
      omega
  | succ fuel ih =>
    unfold drainLoop
    cases hg : r.slots.get r.nextSeq.toNat with
    | none => exact hg
    | some pkt =>
      have hocc := SlotTable.occupied_set r.slots hN r.nextSeq.toNat none
      rw [hg] at hocc
      simp only [Option.toList_some, Option.toList_none, List.length_singleton,
        List.length_nil] at hocc
      exact ih _ (by dsimp only; omega)

theorem drain_stops (hN : 0 < N) (r : ReorderBuffer N) :
    (drain r).1.slots.get (drain r).1.nextSeq.toNat = none :=
  drainLoop_stops hN N r r.slots.occupied_le

end ReorderBuffer

structure BufferRun (N : ℕ) where
  buffer : ReorderBuffer N := {}
  drained : List Packet := []

inductive Event
  | insert (pkt : Packet)
  | drain
  deriving DecidableEq, Repr

def BufferRun.step {N : ℕ} (s : BufferRun N) : Event → BufferRun N
  | .insert pkt => { s with buffer := s.buffer.insert pkt }
  | .drain => let r := s.buffer.drain; { buffer := r.1, drained := s.drained ++ r.2 }

/-- The packets returned so far carry the numbers 0, 1, 2 and so on. -/
def InSequence {N : ℕ} (s : BufferRun N) : Prop :=
  s.drained.map Packet.seq = (List.range s.drained.length).map wire

/-- A packet is stored only when no number from the next one on before its own has its slot. -/
def Fits {N : ℕ} (s : BufferRun N) : Event → Prop
  | .insert pkt =>
    (pkt.seq - s.buffer.nextSeq).toNat < N → s.buffer.slots.get pkt.seq.toNat = none →
      ∀ i < (pkt.seq - s.buffer.nextSeq).toNat,
        (s.buffer.nextSeq + wire i).toNat % N ≠ pkt.seq.toNat % N
  | .drain => True

section Sequence
variable {N : ℕ} {s : BufferRun N}

/-- A packet in slot `k` whose index is the first one from `E` on with that slot. -/
structure Placed (N E k : ℕ) (pkt : Packet) (n : ℕ) : Prop where
  low : E ≤ n
  seq : pkt.seq = wire n
  slot : (wire n).toNat % N = k % N
  first : ∀ i, E ≤ i → i < n → (wire i).toNat % N ≠ k % N

/-- The next number is that of index `E`, and every packet will be reached at its own index. -/
structure Aligned (r : ReorderBuffer N) (E : ℕ) : Prop where
  next : r.nextSeq = wire E
  placed : ∀ k pkt, r.slots.get k = some pkt → ∃ n, Placed N E k pkt n

lemma Aligned.head {r : ReorderBuffer N} {E : ℕ} (h : Aligned r E) {pkt : Packet}
    (hg : r.slots.get r.nextSeq.toNat = some pkt) : pkt.seq = wire E := by
  obtain ⟨n, hp⟩ := h.placed _ pkt hg
  rcases hp.low.eq_or_lt with rfl | hlt
  · exact hp.seq
  · exact absurd (by rw [h.next]) (hp.first E le_rfl hlt)

lemma Aligned.advance (hN : 0 < N) {r : ReorderBuffer N} {E : ℕ} (h : Aligned r E) :
    Aligned { slots := r.slots.set r.nextSeq.toNat none, nextSeq := r.nextSeq + 1 } (E + 1) := by
  refine ⟨by rw [h.next, wire_succ], ?_⟩
  intro k pkt hk
  dsimp only at hk
  rw [SlotTable.get_set _ hN] at hk
  split_ifs at hk with hslot
  obtain ⟨n, hp⟩ := h.placed k pkt hk
  have hne : n ≠ E := by
    rintro rfl
    exact hslot (by rw [h.next, hp.slot])
  have hlow := hp.low
  exact ⟨n, by omega, hp.seq, hp.slot, fun i hi => hp.first i (by omega)⟩

lemma Aligned.insert (hN : 0 < N) {E : ℕ} (h : Aligned s.buffer E) {pkt : Packet}
    (hfit : Fits s (.insert pkt)) : Aligned (s.buffer.insert pkt) E := by
  unfold ReorderBuffer.insert
  dsimp only
  split_ifs with hfar
  · exact h
  · cases hg : s.buffer.slots.get pkt.seq.toNat with
    | some b => exact h
    | none =>
      have hfirst := hfit (by omega) hg
      obtain ⟨n, hn, hn', hseq⟩ := exists_index E pkt.seq
      have hoffset : (pkt.seq - s.buffer.nextSeq).toNat = n - E := by
        rw [hseq, h.next, wire_sub_of_le hn hn']
      refine ⟨h.next, ?_⟩
      intro k b hk
      dsimp only at hk
      rw [SlotTable.get_set _ hN] at hk
      split_ifs at hk with hslot
      · obtain rfl := Option.some.inj hk
        refine ⟨n, hn, hseq, by rw [← hseq, hslot], ?_⟩
        intro i hi hin
        have hne := hfirst (i - E) (by omega)
        rw [h.next, ← serial_add, Nat.add_sub_cancel' hi] at hne
        rwa [← hslot]
      · exact h.placed k b hk

lemma Aligned.drainLoop (hN : 0 < N) (fuel : ℕ) {r : ReorderBuffer N} {E : ℕ} (h : Aligned r E) :
    (r.drainLoop fuel).2.map Packet.seq =
        (List.range' E (r.drainLoop fuel).2.length).map wire ∧
      Aligned (r.drainLoop fuel).1 (E + (r.drainLoop fuel).2.length) := by
  induction fuel generalizing r E with
  | zero => exact ⟨rfl, h⟩
  | succ fuel ih =>
    unfold ReorderBuffer.drainLoop
    cases hg : r.slots.get r.nextSeq.toNat with
    | none => exact ⟨rfl, h⟩
    | some pkt =>
      obtain ⟨hseq, hsorted⟩ := ih (h.advance hN)
      constructor
      · simp only [List.map_cons, List.length_cons, List.range'_succ, hseq, h.head hg]
      · simp only [List.length_cons]
        rwa [show E + 1 + _ = E + (_ + 1) from Nat.add_right_comm E 1 _] at hsorted

/-- The buffer is aligned with what it returned, and that was in sequence. -/
structure Sound (s : BufferRun N) : Prop where
  aligned : Aligned s.buffer s.drained.length
  sequence : InSequence s

lemma sound_start : Sound ({} : BufferRun N) := by
  refine ⟨⟨rfl, ?_⟩, rfl⟩
  intro k pkt hk
  simp at hk

theorem Sound.step (hN : 0 < N) (h : Sound s) {e : Event} (he : Fits s e) : Sound (s.step e) := by
  cases e with
  | insert pkt => exact ⟨h.aligned.insert hN he, h.sequence⟩
  | drain =>
    obtain ⟨hseq, haligned⟩ := h.aligned.drainLoop hN N
    constructor
    · simpa only [BufferRun.step, ReorderBuffer.drain, List.length_append] using haligned
    · simp only [InSequence, BufferRun.step, ReorderBuffer.drain, List.map_append,
        List.length_append, List.range_add, h.sequence.symm, hseq, List.map_map]
      rw [List.range'_eq_map_range, List.map_map]

lemma sound_of_reachable (hN : 0 < N) (h : Reachable BufferRun.step Fits ({} : BufferRun N) s) :
    Sound s :=
  h.invariant sound_start fun _ _ hs he => hs.step hN he

lemma Aligned.fits {W : Window} {s : BufferRun W.size} {E : ℕ} (h : Aligned s.buffer E)
    (hfit : SlotsFit W E) (e : Event) : Fits s e := by
  cases e with
  | drain => trivial
  | insert pkt =>
    intro hnear _ i hi he
    obtain ⟨n, hn, hn', hseq⟩ := exists_index E pkt.seq
    have hoffset : (pkt.seq - s.buffer.nextSeq).toNat = n - E := by
      rw [hseq, h.next, wire_sub_of_le hn hn']
    rw [h.next, ← serial_add, hseq] at he
    have := distinctSlots_of_fit hfit (E + i) n (by omega) (by omega) hn (by omega) he
    omega

lemma sound_of_dvd {W : Window} (hdvd : W.size ∣ 65536) (events : List Event) :
    Sound (events.foldl BufferRun.step ({} : BufferRun W.size)) := by
  induction events using List.reverseRecOn with
  | nil => exact sound_start
  | append_singleton events e ih =>
    rw [List.foldl_append]
    exact ih.step W.pos (ih.aligned.fits (Or.inl hdvd) e)

end Sequence

section Clash
variable {N : ℕ} {r : ReorderBuffer N}

lemma drainLoop_of_empty (h : r.slots.get r.nextSeq.toNat = none) (fuel : ℕ) :
    r.drainLoop fuel = (r, []) := by
  cases fuel with
  | zero => rfl
  | succ fuel => rw [ReorderBuffer.drainLoop, h]

lemma drainLoop_of_some {pkt : Packet} (h : r.slots.get r.nextSeq.toNat = some pkt) {fuel : ℕ}
    (hfuel : 0 < fuel)
    (hnext : (r.slots.set r.nextSeq.toNat none).get (r.nextSeq + 1).toNat = none) :
    r.drainLoop fuel =
      ({ slots := r.slots.set r.nextSeq.toNat none, nextSeq := r.nextSeq + 1 }, [pkt]) := by
  cases fuel with
  | zero => omega
  | succ fuel =>
    rw [ReorderBuffer.drainLoop, h]
    dsimp only
    rw [drainLoop_of_empty hnext]

/-- An empty buffer returns any packet of the window that has the slot of the next number. -/
lemma insert_drain_single (hN : 0 < N) (hempty : ∀ k, r.slots.get k = none) (pkt : Packet)
    (hnear : (pkt.seq - r.nextSeq).toNat < N)
    (hslot : pkt.seq.toNat % N = r.nextSeq.toNat % N) :
    (r.insert pkt).drain.2 = [pkt] ∧ (r.insert pkt).drain.1.nextSeq = r.nextSeq + 1 ∧
      ∀ k, (r.insert pkt).drain.1.slots.get k = none := by
  have hinsert : r.insert pkt = { r with slots := r.slots.set pkt.seq.toNat (some pkt) } := by
    rw [ReorderBuffer.insert, if_neg (by omega), hempty]
  have hcleared : ∀ k, ((r.slots.set pkt.seq.toNat (some pkt)).set r.nextSeq.toNat none).get k =
      none := by
    intro k
    rw [SlotTable.get_set _ hN, SlotTable.get_set _ hN]
    split_ifs with h1 h2
    · rfl
    · exact absurd (hslot.symm.trans h2) h1
    · exact hempty k
  have hdrain : (r.insert pkt).drain =
      ({ slots := (r.slots.set pkt.seq.toNat (some pkt)).set r.nextSeq.toNat none
         nextSeq := r.nextSeq + 1 }, [pkt]) := by
    rw [ReorderBuffer.drain, hinsert]
    exact drainLoop_of_some (SlotTable.get_set_same _ hN hslot _) hN (hcleared _)
  rw [hdrain]
  exact ⟨rfl, rfl, hcleared⟩

/-- The packets of the first `n` indices, each drained at once. -/
def feed (n : ℕ) : List Event :=
  (List.range n).flatMap fun i => [Event.insert { seq := wire i }, Event.drain]

lemma feed_spec (hN : 0 < N) (n : ℕ) :
    ((feed n).foldl BufferRun.step ({} : BufferRun N)).drained.length = n ∧
      ((feed n).foldl BufferRun.step ({} : BufferRun N)).buffer.nextSeq = wire n ∧
      ∀ k, ((feed n).foldl BufferRun.step ({} : BufferRun N)).buffer.slots.get k = none := by
  induction n with
  | zero => exact ⟨rfl, rfl, fun k => SlotTable.get_empty k⟩
  | succ n ih =>
    have hfeed : feed (n + 1) = feed n ++ [Event.insert { seq := wire n }, Event.drain] := by
      simp [feed, List.range_succ]
    rw [hfeed, List.foldl_append]
    generalize (feed n).foldl BufferRun.step ({} : BufferRun N) = s at ih ⊢
    obtain ⟨hlength, hnext, hempty⟩ := ih
    obtain ⟨hout, hnext', hempty'⟩ := insert_drain_single (r := s.buffer) hN hempty
      { seq := wire n } (by simp [hnext, hN]) (by rw [hnext])
    refine ⟨?_, ?_, hempty'⟩
    · simp only [BufferRun.step, List.foldl_cons, List.foldl_nil, hout, List.length_append,
        List.length_singleton, hlength]
    · exact hnext'.trans (by rw [hnext, wire_succ])

theorem exists_out_of_sequence {W : Window} {n m : ℕ} (hnm : n < m) (hm : m < n + W.size)
    (hslot : (wire n).toNat % W.size = (wire m).toNat % W.size) :
    ¬ InSequence ((feed n ++ [Event.insert { seq := wire m }, Event.drain]).foldl BufferRun.step
      ({} : BufferRun W.size)) := by
  obtain ⟨hlength, hnext, hempty⟩ := feed_spec W.pos n
  rw [List.foldl_append]
  generalize (feed n).foldl BufferRun.step ({} : BufferRun W.size) = s at hlength hnext hempty ⊢
  have hmax := W.le_max
  have hnear : (wire m - s.buffer.nextSeq).toNat < W.size := by
    rw [hnext, wire_sub_of_le hnm.le (by omega)]
    omega
  obtain ⟨hout, _, _⟩ := insert_drain_single (r := s.buffer) W.pos hempty
    { seq := wire m } hnear (by rw [hnext, hslot])
  intro hsequence
  have hlast := congrArg (fun l => l[n]?) hsequence
  simp only [BufferRun.step, List.foldl_cons, List.foldl_nil, hout, List.map_append,
    List.map_cons, List.map_nil, List.length_append, List.length_singleton, hlength] at hlast
  rw [List.getElem?_append_right (by simp [hlength])] at hlast
  simp [hlength] at hlast
  have := wire_inj hlast (by omega) (by omega)
  omega

/-- Every run is in sequence exactly for the capacities that divide 65536. For any capacity so is
every run that never stores a packet whose slot belongs to a number before it as well. -/
theorem in_sequence_iff (W : Window) :
    ((∀ events : List Event,
        InSequence (events.foldl BufferRun.step ({} : BufferRun W.size))) ↔ W.size ∣ 65536) ∧
      ∀ events : List Event, Admitted BufferRun.step Fits ({} : BufferRun W.size) events →
        InSequence (events.foldl BufferRun.step ({} : BufferRun W.size)) := by
  refine ⟨⟨?_, fun hdvd events => (sound_of_dvd hdvd events).sequence⟩, ?_⟩
  · intro hall
    by_contra hdvd
    have hsize : 1 < W.size := by
      have := W.pos
      by_contra hle
      exact hdvd (by rw [show W.size = 1 by omega]; exact one_dvd _)
    have hcross : ¬ SlotsFit W 65535 := by
      rintro (h | h)
      · exact hdvd h
      · omega
    obtain ⟨n, m, _, hnm, hm, hslot⟩ := exists_clash hcross
    exact exists_out_of_sequence hnm (by omega) hslot (hall _)
  · intro events h
    exact (sound_of_reachable W.pos (reachable_foldl .start events h)).sequence

/-- With three slots the numbers 65535 and 0 share a slot, and the packet of the second is returned
in place of the first. -/
theorem wraparound_clash :
    ¬ ∀ events : List Event, InSequence (events.foldl BufferRun.step ({} : BufferRun 3)) := by
  intro hall
  exact exists_out_of_sequence (W := ⟨3, by omega, by omega⟩) (n := 65535) (m := 65536) (by omega)
    (by dsimp only; omega) (by decide +kernel) (hall _)

end Clash

end ReliableUdp.Reordering
