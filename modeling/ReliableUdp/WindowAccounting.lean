import ReliableUdp.AckHistory
import ReliableUdp.BitCount
import ReliableUdp.Runs

/-! The packets `SlidingWindow` counts as in flight against the packets that no acknowledgement has
named. -/
namespace ReliableUdp.WindowAccounting
open Protocol BitHistory BitCount ChannelCommon AckHistory Runs

structure SlidingWindow where
  base : Seq := 0
  ackBits : AckBits := 0
  capacity : BitVec 16
  inFlight : ℕ := 0

namespace SlidingWindow

def isFull (w : SlidingWindow) : Bool := decide (w.inFlight ≥ w.capacity.toNat)

def contains (w : SlidingWindow) (seq : Seq) : Bool := decide (seq - w.base < w.capacity)

def onSend (w : SlidingWindow) : SlidingWindow := { w with inFlight := w.inFlight + 1 }

/-- The rounds of the slide with the pair of `inFlight` and `advanced`. -/
def slide : ℕ → ℕ × ℕ → ℕ × ℕ
  | 0, counts => counts
  | rounds + 1, (inFlight, advanced) =>
    slide rounds (if inFlight > 0 then (inFlight - 1, advanced + 1) else (inFlight, advanced))

/-- The rounds of the loop over the mask with the pair of `bits` and `inFlight`. -/
def countBits : ℕ → AckBits × ℕ → AckBits × ℕ
  | 0, r => r
  | rounds + 1, (bits, inFlight) =>
    if bits = 0 then (bits, inFlight)
    else countBits rounds
      (bits &&& (bits - 1), if inFlight > 0 then inFlight - 1 else inFlight)

/-- Also whether the window advanced. A mask has at most 32 bits to clear. -/
def onAck (w : SlidingWindow) (ack : Seq) (ackBits : AckBits) : Bool × SlidingWindow :=
  let delta := ack - w.base
  if delta = 0 ∨ delta ≥ w.capacity then (false, w)
  else
    let slid := slide delta.toNat (w.inFlight, 0)
    let counted := countBits 32 (ackBits, slid.1)
    (decide (slid.2 > 0), { w with base := ack, ackBits := ackBits, inFlight := counted.2 })

def buildAckBits (w : SlidingWindow) : AckBits := w.ackBits

end SlidingWindow

lemma slide_eq (rounds inFlight advanced : ℕ) :
    SlidingWindow.slide rounds (inFlight, advanced) =
      (inFlight - rounds, advanced + min rounds inFlight) := by
  induction rounds generalizing inFlight advanced with
  | zero => simp [SlidingWindow.slide]
  | succ rounds ih =>
    unfold SlidingWindow.slide
    split_ifs with hpos
    · rw [ih, Prod.mk.injEq]
      omega
    · rw [ih, Prod.mk.injEq]
      omega

lemma countBits_eq {rounds : ℕ} {bits : AckBits} (inFlight : ℕ)
    (h : (setBits bits).card ≤ rounds) :
    SlidingWindow.countBits rounds (bits, inFlight) = (0, inFlight - (setBits bits).card) := by
  induction rounds generalizing bits inFlight with
  | zero =>
    have hempty : setBits bits = ∅ := Finset.card_eq_zero.mp (by omega)
    have hzero : bits = 0#32 := setBits_eq_empty.mp hempty
    simp [SlidingWindow.countBits, hzero, setBits_eq_empty.mpr]
  | succ rounds ih =>
    unfold SlidingWindow.countBits
    split_ifs with hzero hpos
    · have hempty : setBits bits = ∅ := setBits_eq_empty.mpr hzero
      rw [hempty, hzero, Finset.card_empty, Nat.sub_zero]
    all_goals
      have hcard : (setBits (bits &&& (bits - 1))).card + 1 = (setBits bits).card :=
        card_setBits_clear hzero
      rw [ih _ (by omega), Prod.mk.injEq]
      exact ⟨rfl, by omega⟩

namespace SlidingWindow

def Takes (w : SlidingWindow) (ack : Seq) : Prop := ack ≠ w.base ∧ w.contains ack = true

instance (w : SlidingWindow) (ack : Seq) : Decidable (w.Takes ack) :=
  inferInstanceAs (Decidable (_ ∧ _))

end SlidingWindow

lemma takes_iff {w : SlidingWindow} {ack : Seq} :
    w.Takes ack ↔ ¬ (ack - w.base = 0 ∨ ack - w.base ≥ w.capacity) := by
  have hsub : ack - w.base = 0 ↔ ack = w.base := by bv_omega
  have hlt : ack - w.base < w.capacity ↔ ¬ ack - w.base ≥ w.capacity := by bv_omega
  simp only [SlidingWindow.Takes, SlidingWindow.contains, hsub, hlt, decide_eq_true_eq, not_or,
    ne_eq]

/-- A taken acknowledgement is subtracted twice: as the distance from the base and as the number
of bits. -/
lemma onAck_taken {w : SlidingWindow} {ack : Seq} (ackBits : AckBits) (h : w.Takes ack) :
    w.onAck ack ackBits = (decide (0 < w.inFlight),
      { w with
        base := ack
        ackBits := ackBits
        inFlight := w.inFlight - ((ack - w.base).toNat + (setBits ackBits).card) }) := by
  have htaken := takes_iff.mp h
  have hdelta : 0 < (ack - w.base).toNat := by
    by_contra hzero
    exact htaken (Or.inl (BitVec.eq_of_toNat_eq (by simpa using hzero)))
  have hadvanced : 0 + min (ack - w.base).toNat w.inFlight > 0 ↔ 0 < w.inFlight := by omega
  have hcounted := countBits_eq (w.inFlight - (ack - w.base).toNat) (card_setBits_le ackBits)
  unfold SlidingWindow.onAck
  rw [if_neg htaken]
  simp only [slide_eq, hcounted, hadvanced, Nat.sub_sub]

lemma onAck_ignored {w : SlidingWindow} {ack : Seq} (ackBits : AckBits) (h : ¬ w.Takes ack) :
    w.onAck ack ackBits = (false, w) := by
  rw [takes_iff, not_not] at h
  unfold SlidingWindow.onAck
  rw [if_pos h]

/-- A window with the whole history: packets are numbered from 0 on in the order of the sends. -/
structure WindowRun where
  window : SlidingWindow
  sent : ℕ := 0
  arrived : List ℕ := []
  acknowledged : Finset ℕ := ∅

inductive Event
  | onSend
  | arrive (n : ℕ)
  | onAck (M : ℕ) (ackBits : AckBits)

namespace WindowRun

def start (capacity : BitVec 16) : WindowRun := { window := { capacity := capacity } }

def step (s : WindowRun) : Event → WindowRun
  | .onSend => { s with window := s.window.onSend, sent := s.sent + 1 }
  | .arrive n => { s with arrived := s.arrived ++ [n] }
  | .onAck M ackBits =>
    { s with
      window := (s.window.onAck (wire M) ackBits).2
      acknowledged := s.acknowledged ∪ members ackBits M }

/-- The packets that were sent and that no acknowledgement has named. -/
def outstanding (s : WindowRun) : Finset ℕ := Finset.range s.sent \ s.acknowledged

end WindowRun

/-- An acknowledgement that the receiver built at some time so far: the highest number it had
received and a bit for each number up to 32 below. -/
def Genuine (s : WindowRun) (M : ℕ) (ackBits : AckBits) : Prop :=
  ∃ received, received <+: s.arrived ∧ IsGreatest {n | n ∈ received} M ∧
    Summarises ackBits M {n | n ∈ received}

/-- Sends wait for room, only sent packets arrive, acknowledgements come from the receiver. -/
def Allowed (s : WindowRun) : Event → Prop
  | .onSend => s.window.isFull = false
  | .arrive n => n < s.sent
  | .onAck M ackBits => Genuine s M ackBits

lemma genuine_iff {s : WindowRun} {M : ℕ} {ackBits : AckBits} :
    Genuine s M ackBits ↔ ∃ received ∈ s.arrived.inits, received.max? = some M ∧
      ∀ k < 32, ackBits.getLsbD k = true ↔ k + 1 ≤ M ∧ M - (k + 1) ∈ received := by
  simp only [Genuine, List.mem_inits, List.max?_eq_some_iff]
  rfl

instance (s : WindowRun) (M : ℕ) (ackBits : AckBits) : Decidable (Genuine s M ackBits) :=
  decidable_of_iff' _ genuine_iff

instance (s : WindowRun) (e : Event) : Decidable (Allowed s e) :=
  match e with
  | .onSend => inferInstanceAs (Decidable (_ = false))
  | .arrive _ => inferInstanceAs (Decidable (_ < _))
  | .onAck M ackBits => inferInstanceAs (Decidable (Genuine s M ackBits))

def Exact (s : WindowRun) : Prop := s.window.inFlight = s.outstanding.card

/-- An acknowledgement that the window takes names everything outstanding, or it is one past the
base and names nothing again. One that the window ignores names nothing new. -/
def Clean (s : WindowRun) : Event → Prop
  | .onAck M ackBits =>
    if s.window.Takes (wire M) then
      s.outstanding ⊆ members ackBits M ∨
        wire M = s.window.base + 1 ∧ Disjoint (members ackBits M) s.acknowledged
    else members ackBits M ⊆ s.acknowledged
  | _ => True

instance (s : WindowRun) (e : Event) : Decidable (Clean s e) :=
  match e with
  | .onAck M _ => inferInstanceAs (Decidable (if s.window.Takes (wire M) then _ else _))
  | .onSend => isTrue trivial
  | .arrive _ => isTrue trivial

variable {s : WindowRun} {M : ℕ} {ackBits : AckBits}

/-- The repository's tracker sends genuine acknowledgements. -/
theorem genuine_track {received : List ℕ} (hpre : received <+: s.arrived) (h : Nearby received)
    (hsome : received ≠ []) :
    ∃ M, (track (received.map wire)).latestSequence = wire M ∧
      Genuine s M (track (received.map wire)).ackBits := by
  rcases marked_track h with ⟨hnone, _, _⟩ | ⟨M, _, htracks⟩
  · exact absurd (List.max?_eq_none_iff.mp hnone) hsome
  · exact ⟨M, htracks.latest, received, hpre, htracks.greatest, htracks.bits⟩

/-- The count is exact and nothing unsent was received or acknowledged. -/
structure Counted (s : WindowRun) : Prop where
  exact : Exact s
  arrived : ∀ n ∈ s.arrived, n < s.sent
  acknowledged : s.acknowledged ⊆ Finset.range s.sent

lemma counted_start (capacity : BitVec 16) : Counted (WindowRun.start capacity) :=
  { exact := rfl, arrived := by simp [WindowRun.start], acknowledged := Finset.empty_subset _ }

lemma Counted.members_subset (h : Counted s) (hg : Genuine s M ackBits) :
    members ackBits M ⊆ Finset.range s.sent := by
  obtain ⟨received, hpre, hgreatest, hbits⟩ := hg
  intro n hn
  have hmem := mem_of_mem_members hbits hgreatest.1 hn
  exact Finset.mem_range.mpr (h.arrived n (hpre.subset hmem))

lemma Counted.outstanding_succ (h : Counted s) :
    (s.step .onSend).outstanding = insert s.sent s.outstanding := by
  have hnew : s.sent ∉ s.acknowledged := fun hmem => by
    simpa using h.acknowledged hmem
  simp only [WindowRun.step, WindowRun.outstanding, Finset.range_add_one]
  exact Finset.insert_sdiff_of_notMem _ hnew

lemma outstanding_onAck :
    (s.step (.onAck M ackBits)).outstanding = s.outstanding \ members ackBits M := by
  simp only [WindowRun.step, WindowRun.outstanding, sdiff_sdiff_left,
    Finset.sup_eq_union]

/-- Subtracting `taken` from a count leaves what removing `named` leaves exactly when all is named
or each is named once. -/
lemma sub_eq_card_sdiff_iff {outstanding named : Finset ℕ} {taken : ℕ}
    (h : (named ∩ outstanding).card ≤ taken) :
    outstanding.card - taken = (outstanding \ named).card ↔
      outstanding ⊆ named ∨ (named ∩ outstanding).card = taken := by
  have hsplit := Finset.card_sdiff_add_card_inter outstanding named
  rw [Finset.inter_comm] at hsplit
  have hall : outstanding ⊆ named ↔ (outstanding \ named).card = 0 := by
    rw [Finset.card_eq_zero, Finset.sdiff_eq_empty_iff_subset]
  rw [hall]
  omega

lemma Counted.exact_onAck_iff (h : Counted s) (hg : Genuine s M ackBits) :
    Exact (s.step (.onAck M ackBits)) ↔ Clean s (.onAck M ackBits) := by
  have hsent := h.members_subset hg
  have hcount : s.window.inFlight = s.outstanding.card := h.exact
  have hinter : members ackBits M ∩ s.outstanding = members ackBits M \ s.acknowledged := by
    rw [WindowRun.outstanding, ← Finset.inter_sdiff_assoc, Finset.inter_eq_left.mpr hsent]
  dsimp only [Exact, Clean]
  rw [outstanding_onAck]
  split_ifs with htakes
  · have hnamed : (members ackBits M).card = (setBits ackBits).card + 1 := by
      obtain ⟨_, _, _, hbits⟩ := hg
      exact card_members hbits
    have hle : (members ackBits M ∩ s.outstanding).card ≤ (members ackBits M).card :=
      Finset.card_le_card Finset.inter_subset_left
    have hdisjoint : Disjoint (members ackBits M) s.acknowledged ↔
        (members ackBits M ∩ s.outstanding).card = (members ackBits M).card := by
      rw [hinter, ← Finset.sdiff_eq_self_iff_disjoint]
      exact ⟨fun heq => by rw [heq], fun heq => Finset.eq_of_subset_of_card_le
        Finset.sdiff_subset heq.ge⟩
    have hdelta : (wire M - s.window.base).toNat ≠ 0 := by
      intro hzero
      apply htakes.1
      bv_omega
    have hone : wire M = s.window.base + 1 ↔ (wire M - s.window.base).toNat = 1 := by bv_omega
    simp only [WindowRun.step, onAck_taken ackBits htakes, hcount]
    rw [sub_eq_card_sdiff_iff (by omega), hone, hdisjoint]
    apply or_congr_right
    omega
  · have hnone : members ackBits M ⊆ s.acknowledged ↔ (members ackBits M ∩ s.outstanding) = ∅ := by
      rw [hinter, Finset.sdiff_eq_empty_iff_subset]
    have hsplit := Finset.card_sdiff_add_card_inter s.outstanding (members ackBits M)
    simp only [WindowRun.step, onAck_ignored ackBits htakes, hcount]
    rw [hnone, ← Finset.card_eq_zero, Finset.inter_comm]
    omega

lemma Counted.step (h : Counted s) {e : Event} (ha : Allowed s e) (hc : Clean s e) :
    Counted (s.step e) := by
  cases e with
  | onSend =>
    have hnew : s.sent ∉ s.outstanding := by simp [WindowRun.outstanding]
    have hexact : s.window.inFlight = s.outstanding.card := h.exact
    refine ⟨?_, fun n hn => (h.arrived n hn).trans (Nat.lt_succ_self _), ?_⟩
    · unfold Exact
      rw [h.outstanding_succ, Finset.card_insert_of_notMem hnew, ← hexact]
      rfl
    · exact h.acknowledged.trans (Finset.range_mono (Nat.le_succ _))
  | arrive n =>
    refine ⟨h.exact, fun m hm => ?_, h.acknowledged⟩
    rcases List.mem_append.mp hm with hm | hm
    · exact h.arrived m hm
    · rw [List.mem_singleton.mp hm]
      exact ha
  | onAck M ackBits =>
    exact ⟨(h.exact_onAck_iff ha).mpr hc, h.arrived,
      Finset.union_subset h.acknowledged (h.members_subset ha)⟩

lemma Counted.not_exact_step (h : Counted s) {e : Event} (ha : Allowed s e) (hc : ¬ Clean s e) :
    ¬ Exact (s.step e) := by
  cases e with
  | onAck M ackBits => exact fun hexact => hc ((h.exact_onAck_iff ha).mp hexact)
  | onSend => exact absurd trivial hc
  | arrive n => exact absurd trivial hc

/-- The count is exact throughout a run exactly when every acknowledgement is clean. -/
theorem inFlight_exact_iff (capacity : BitVec 16) (events : List Event)
    (h : Admitted WindowRun.step Allowed (WindowRun.start capacity) events) :
    (∀ before, before <+: events →
        Exact (before.foldl WindowRun.step (WindowRun.start capacity))) ↔
      Admitted WindowRun.step Clean (WindowRun.start capacity) events :=
  forall_prefix_iff_admitted (counted_start capacity) (fun _ hs => hs.exact)
    (fun _ _ hs ha hc => hs.step ha hc) (fun _ _ hs ha hc => hs.not_exact_step ha hc) events h

/-- Two packets in one acknowledgement, then a third with the first two named again. -/
theorem inFlight_exact_two_packets :
    let events : List Event := [.onSend, .onSend, .arrive 0, .arrive 1, .onAck 1 1#32, .onSend,
      .arrive 2, .onAck 2 3#32]
    ∀ before, before <+: events → Exact (before.foldl WindowRun.step (WindowRun.start 8)) := by
  intro events
  exact (inFlight_exact_iff 8 events (by decide +kernel)).mpr (by decide +kernel)

/-- The acknowledgement of the first packet alone is ignored and leaves it in flight. One that names
two packets again beside the third subtracts them again, and the fourth, still on its way, is no
longer counted. -/
theorem inFlight_not_exact :
    let alone : List Event := [.onSend, .arrive 0, .onAck 0 0#32]
    let again : List Event := [.onSend, .onSend, .onSend, .onSend, .arrive 0, .arrive 1,
      .onAck 1 1#32, .arrive 2, .onAck 2 3#32]
    let final := fun events : List Event => events.foldl WindowRun.step (WindowRun.start 8)
    (Admitted WindowRun.step Allowed (WindowRun.start 8) alone ∧
        (final alone).window.inFlight = 1 ∧ (final alone).outstanding = ∅) ∧
      Admitted WindowRun.step Allowed (WindowRun.start 8) again ∧
        (final again).window.inFlight = 0 ∧ (final again).outstanding = {3} := by
  decide +kernel

end ReliableUdp.WindowAccounting
