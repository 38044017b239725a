import ReliableUdp.OrderedDelivery
import ReliableUdp.UnorderedDelivery

/-! Which windows the acknowledgement of a receiver covers. It carries the latest sequence
number and 32 older ones, so an accepted packet may be too old for it. -/
namespace ReliableUdp.AckCoverage
open Protocol ChannelCommon ReliableChannel OrderedReceiver OrderedDelivery Reassembly BitHistory

variable {C : Type} {ordered : Bool} {W : Window}

/-- The acknowledgement built from the tracker acknowledges a sequence number. -/
def Covers (t : ReceiveAckTracker) (a : Seq) : Prop :=
  t.hasReceived = true ∧ isAcknowledged a t.latestSequence t.ackBits = true

lemma covers_iff {t : ReceiveAckTracker} {a : Seq} : Covers t a ↔ t.hasReceived = true ∧
    (a = t.latestSequence ∨ (1 ≤ (t.latestSequence - a).toNat ∧ (t.latestSequence - a).toNat ≤ 32 ∧
      t.ackBits.getLsbD ((t.latestSequence - a).toNat - 1) = true)) := by
  rw [Covers, isAcknowledged_iff]

lemma covers_markReceived_self {t : ReceiveAckTracker} {n : Seq}
    (h : t.hasReceived = true → (n - t.latestSequence).toNat < 32768 ∨
      (t.latestSequence - n).toNat ≤ 32) : Covers (t.markReceived n) n := by
  rw [covers_iff]
  unfold ReceiveAckTracker.markReceived
  cases hr : t.hasReceived with
  | false => simp
  | true =>
    have hdist := h hr
    simp only [Bool.true_eq_false, if_false]
    split_ifs with hzero hforward hsmall hback
    · have he : n = t.latestSequence := by bv_omega
      exact ⟨hr, Or.inl he⟩
    · exact ⟨rfl, Or.inl rfl⟩
    · exact ⟨rfl, Or.inl rfl⟩
    · refine ⟨rfl, Or.inr ⟨hback.1, hback.2, ?_⟩⟩
      dsimp only
      exact (getLsbD_record _ hback.1 (by omega)).mpr (Or.inl (by omega))
    · exfalso
      bv_omega

lemma Covers.markReceived {t : ReceiveAckTracker} {a n : Seq} (h : Covers t a)
    (hn : (n - a).toNat ≤ 32 ∨ (a - n).toNat ≤ 32) : Covers (t.markReceived n) a := by
  rw [covers_iff] at h ⊢
  obtain ⟨hr, hcov⟩ := h
  unfold ReceiveAckTracker.markReceived
  simp only [hr, Bool.true_eq_false, if_false]
  split_ifs with hzero hforward hsmall hback
  · exact ⟨hr, hcov⟩
  · refine ⟨rfl, ?_⟩
    dsimp only
    rcases hcov with rfl | ⟨h1, h2, hbit⟩
    · refine Or.inr ⟨by bv_omega, hsmall, ?_⟩
      exact (getLsbD_advance _ (by omega) (by omega)).mpr (Or.inl (by omega))
    · have hsum : (n - a).toNat = (t.latestSequence - a).toNat +
          (n - t.latestSequence).toNat := by bv_omega
      by_cases hle : (n - a).toNat ≤ 32
      · refine Or.inr ⟨by omega, hle, ?_⟩
        refine (getLsbD_advance _ (by omega) (by omega)).mpr (Or.inr ⟨by omega, ?_⟩)
        rwa [show (n - a).toNat - 1 - (n - t.latestSequence).toNat =
          (t.latestSequence - a).toNat - 1 by omega]
      · exfalso
        bv_omega
  · exfalso
    rcases hcov with rfl | ⟨h1, h2, _⟩
    · bv_omega
    · bv_omega
  · refine ⟨rfl, hcov.imp id ?_⟩
    rintro ⟨h1, h2, hbit⟩
    dsimp only
    exact ⟨h1, h2, (getLsbD_record _ hback.1 (by omega)).mpr (Or.inr hbit)⟩
  · exact ⟨hr, hcov⟩

def marks (ch : Channel C ordered W) (seq : Seq) : Bool :=
  if ordered then ch.isInOrderedReceiveWindow seq else !ch.isDuplicateOrStaleUnordered seq

/-- The receiver accepts the packet: it delivers it, or buffers it in its free slot. -/
def accepts (ch : Channel C ordered W) (seq : Seq) : Bool :=
  marks ch seq && (!ordered || (ch.receiveBuffer.get seq.toNat).isNone)

lemma drainReadyPackets_tracker (fuel : ℕ) (ch : Channel C ordered W) (io : Transport) :
    (Channel.drainReadyPackets fuel ch io).1.recvAckTracker = ch.recvAckTracker :=
  drainReadyPackets_invariant (P := fun ch' _ => ch'.recvAckTracker = ch.recvAckTracker)
    (fun _ _ _ h => h) fuel rfl

lemma tracker_onRecv [CongestionCtrl C] (ch : Channel C ordered W) {packet : Packet}
    (htype : packet.type = .data) (now : Time) (io : Transport) :
    (ch.onRecv packet now io).1.recvAckTracker =
      if marks ch packet.seq then ch.recvAckTracker.markReceived packet.seq
      else ch.recvAckTracker := by
  rw [Channel.onRecv, htype, if_neg (by decide), if_neg (by simp)]
  cases ordered with
  | true =>
    simp only [marks, if_true, Channel.receiveOrdered]
    cases hin : ch.isInOrderedReceiveWindow packet.seq with
    | false => rfl
    | true =>
      simp only [Bool.true_eq_false, if_false, if_true]
      cases ch.receiveBuffer.get packet.seq.toNat with
      | some b => rfl
      | none => rw [drainReadyPackets_tracker]
  | false =>
    simp only [marks, Bool.false_eq_true, if_false, Channel.receiveUnordered]
    cases ch.isDuplicateOrStaleUnordered packet.seq <;> rfl

lemma covers_of_accepts_unordered {ch : Channel C false W} {n : Seq} (h : accepts ch n = true) :
    Covers (ch.recvAckTracker.markReceived n) n := by
  apply covers_markReceived_self
  intro hr
  simp only [accepts, marks, Channel.isDuplicateOrStaleUnordered, hr, Bool.false_eq_true,
    Bool.true_eq_false, if_false, isNewerSequence, kAckHistorySize] at h
  by_cases hnew : (n - ch.recvAckTracker.latestSequence).toNat ≠ 0 ∧
      (n - ch.recvAckTracker.latestSequence).toNat < 32768
  · exact Or.inl hnew.2
  · simp only [hnew, decide_false, Bool.false_eq_true, if_false] at h
    simp at h
    exact Or.inr h.1

/-- The ordered receiver with representatives `E` and `L` of the expected and the latest number:
whatever it has lies at or below the latest one, which lies in the window or right before it. -/
structure Spans (ch : Channel C true W) (E L : ℕ) (held : ℕ → Option (List Byte)) : Prop where
  holds : Holds ch.expectedRecvSeq ch.receiveBuffer E held
  bounded : ∀ k, Has E held k → ch.recvAckTracker.hasReceived = true ∧ k ≤ L
  latest : ch.recvAckTracker.hasReceived = true →
    ch.recvAckTracker.latestSequence = wire L ∧ L < E + W.size

section Spans
variable {ch : Channel C true W} {E L : ℕ} {held : ℕ → Option (List Byte)}

lemma Spans.expected_le (h : Spans ch E L held) : E ≤ L + 1 := by
  by_contra hlt
  have := (h.bounded (L + 1) (Or.inl (by omega))).2
  omega

lemma Spans.representative (h : Spans ch E L held) {n : Seq}
    (hin : ch.isInOrderedReceiveWindow n = true) :
    ∃ m, n = wire m ∧ E ≤ m ∧ m < E + W.size := by
  unfold Channel.isInOrderedReceiveWindow at hin
  simp only [decide_eq_true_eq] at hin
  have hpos := W.pos
  refine ⟨E + (n - ch.expectedRecvSeq).toNat, ?_, by omega, by omega⟩
  have hd : wire (n - ch.expectedRecvSeq).toNat = n - ch.expectedRecvSeq := by
    apply BitVec.eq_of_toNat_eq
    rw [wire_toNat, Nat.mod_eq_of_lt (n - ch.expectedRecvSeq).isLt]
  have hsum : wire (E + (n - ch.expectedRecvSeq).toNat) =
      wire E + wire (n - ch.expectedRecvSeq).toNat := SerialNumber.serial_add 16 _ _
  rw [hsum, hd, ← h.holds.expected, BitVec.add_comm, BitVec.sub_add_cancel]

lemma Spans.covers (h : Spans ch E L held) (hW : W.size ≤ 33) {n : Seq}
    (hin : ch.isInOrderedReceiveWindow n = true) :
    Covers (ch.recvAckTracker.markReceived n) n := by
  obtain ⟨m, rfl, h1, h2⟩ := h.representative hin
  have hlow := h.expected_le
  apply covers_markReceived_self
  intro hr
  obtain ⟨hlatest, hhigh⟩ := h.latest hr
  rw [hlatest]
  rcases le_or_gt L m with hle | hgt
  · rw [wire_sub_of_le hle (by omega)]
    exact Or.inl (by omega)
  · rw [wire_sub_of_le hgt.le (by omega)]
    exact Or.inr (by omega)

end Spans

lemma markReceived_latest {t : ReceiveAckTracker} {n : ℕ} (L : ℕ)
    (h : t.hasReceived = true → t.latestSequence = wire L ∧ Close n L) :
    (t.markReceived (wire n)).hasReceived = true ∧
      (t.markReceived (wire n)).latestSequence =
        wire (if t.hasReceived then max L n else n) := by
  unfold ReceiveAckTracker.markReceived
  cases hr : t.hasReceived with
  | false => simp
  | true =>
    obtain ⟨hl, hclose⟩ := h hr
    obtain ⟨h1, h2⟩ := close_iff.mp hclose
    simp only [Bool.true_eq_false, if_false, if_true, hl]
    rcases lt_trichotomy n L with hlt | rfl | hgt
    · rw [wire_sub_of_lt hlt (by omega), if_neg (by omega), if_neg (by omega),
        max_eq_left hlt.le]
      split_ifs
      · exact ⟨rfl, rfl⟩
      · exact ⟨hr, hl⟩
    · simp [hr, hl]
    · rw [wire_sub_of_le hgt.le (by omega), if_neg (by omega), if_pos (by omega),
        max_eq_right hgt.le]
      exact ⟨rfl, rfl⟩

theorem Spans.onRecv [CongestionCtrl C] {ch : Channel C true W} {E L : ℕ}
    {held : ℕ → Option (List Byte)} (h : Spans ch E L held) (hW : W.size ≤ 33) {packet : Packet}
    (htype : packet.type = .data) (now : Time) (io : Transport) :
    ∃ E' L' held', Spans (ch.onRecv packet now io).1 E' L' held' := by
  have hrecv := ReliableSender.onRecv_ordered ch htype now io
  rw [hrecv]
  by_cases hin : ch.isInOrderedReceiveWindow packet.seq = true
  · obtain ⟨n, hseq, h1, h2⟩ := h.representative hin
    have hlow := h.expected_le
    have hclose : ch.recvAckTracker.hasReceived = true →
        ch.recvAckTracker.latestSequence = wire L ∧ Close n L := by
      intro hr
      obtain ⟨hl, hhigh⟩ := h.latest hr
      exact ⟨hl, close_iff.mpr (by omega)⟩
    obtain ⟨hreceived, hlatest⟩ := markReceived_latest L hclose
    have hin' : (if ch.recvAckTracker.hasReceived then max L n else n) < E + W.size := by
      split_ifs with hr
      · have := (h.latest hr).2
        omega
      · exact h2
    have hspec := receiveOrdered_spec ch io h.holds (close_iff.mpr (by omega)) packet hseq
    generalize ch.receiveOrdered packet io = r at hspec
    cases hspec with
    | outside hout => exact absurd ⟨h1, h2⟩ hout
    | occupied _ b hb =>
      refine ⟨E, if ch.recvAckTracker.hasReceived then max L n else n, held, h.holds, ?_,
        fun _ => ⟨hlatest, hin'⟩⟩
      intro k hk
      obtain ⟨hr, hle⟩ := h.bounded k hk
      rw [if_pos hr]
      exact ⟨hreceived, le_max_of_le_left hle⟩
    | stored _ hfree m hm ch' io' hd hstop =>
      refine ⟨E + m, if ch.recvAckTracker.hasReceived then max L n else n, _, hd.holds, ?_, ?_⟩
      · intro k hk
        dsimp only
        rw [hd.tracker]
        refine ⟨hreceived, ?_⟩
        rcases (has_drained hd.full k).mp hk with hold | rfl
        · obtain ⟨hr, hle⟩ := h.bounded k hold
          rw [if_pos hr]
          exact le_max_of_le_left hle
        · split_ifs
          · exact le_max_right _ _
          · exact le_rfl
      · intro _
        dsimp only
        rw [hd.tracker]
        exact ⟨hlatest, by omega⟩
  · refine ⟨E, L, held, ?_⟩
    rw [Channel.receiveOrdered, if_pos (by simpa using hin)]
    exact h

structure Receiving (C : Type) (ordered : Bool) (W : Window) where
  channel : Channel C ordered W
  io : Transport := {}
  arrived : List ℕ := []
  accepted : List ℕ := []

structure Arrival where
  index : ℕ
  packet : Packet
  now : Time

def Arrival.data (a : Arrival) : Packet := { a.packet with type := .data, seq := wire a.index }

namespace Receiving

def start (id : Byte) (retxTimeout : ℕ) (cc : C) : Receiving C ordered W :=
  { channel := { id := id, retxTimeout := retxTimeout, cc := cc } }

def step [CongestionCtrl C] (s : Receiving C ordered W) (a : Arrival) : Receiving C ordered W :=
  let r := s.channel.onRecv a.data a.now s.io
  { channel := r.1
    io := r.2
    arrived := s.arrived ++ [a.index]
    accepted := if accepts s.channel (wire a.index) then s.accepted ++ [a.index] else s.accepted }

end Receiving

/-- A sender with window `W` has nothing outstanding further than `W - 1` below the highest index it
has sent, hence below any index that arrived. -/
def Producible (s : Receiving C ordered W) (a : Arrival) : Prop :=
  ∀ m ∈ s.arrived, m ≤ a.index + (W.size - 1)

def Acknowledged (ch : Channel C ordered W) (n : Seq) : Prop :=
  ∃ reply, ch.buildAck = some reply ∧ isAcknowledged n reply.ack reply.ackBits = true

lemma acknowledged_iff {ch : Channel C ordered W} {n : Seq} :
    Acknowledged ch n ↔ Covers ch.recvAckTracker n := by
  unfold Acknowledged Channel.buildAck Covers
  cases ch.recvAckTracker.hasReceived <;> simp

/-- What the invariant needs of the channel: nothing in unordered mode. -/
def Steady : {ordered : Bool} → Channel C ordered W → Prop
  | true, ch => ∃ E L held, Spans ch E L held
  | false, _ => True

lemma steady_start (id : Byte) (retxTimeout : ℕ) (cc : C) :
    Steady (Receiving.start id retxTimeout cc : Receiving C ordered W).channel := by
  cases ordered with
  | true =>
    refine ⟨0, 0, fun _ => none, holds_initial, ?_, ?_⟩
    · intro k hk
      rcases hk with hk | hk
      · cases hk
      · cases hk
    · intro h
      cases h
  | false => trivial

lemma Steady.covers {ch : Channel C ordered W} (h : Steady ch) (hW : W.size ≤ 33) {n : Seq}
    (ha : accepts ch n = true) : Covers (ch.recvAckTracker.markReceived n) n := by
  cases ordered with
  | true =>
    obtain ⟨E, L, held, hs⟩ := h
    simp only [accepts, marks, if_true, Bool.and_eq_true] at ha
    exact hs.covers hW ha.1
  | false => exact covers_of_accepts_unordered ha

/-- An accepted index stays acknowledged as long as nothing more than 32 above it arrives. -/
structure Accounts (s : Receiving C ordered W) : Prop where
  steady : Steady s.channel
  arrived : ∀ a ∈ s.accepted, a ∈ s.arrived
  covered : ∀ a ∈ s.accepted, (∀ m ∈ s.arrived, m ≤ a + 32) →
    Covers s.channel.recvAckTracker (wire a)

lemma wire_near {a n : ℕ} (h1 : n ≤ a + 32) (h2 : a ≤ n + 32) :
    (wire n - wire a).toNat ≤ 32 ∨ (wire a - wire n).toNat ≤ 32 := by
  rcases le_total a n with hle | hle
  · rw [wire_sub_of_le hle (by omega)]
    exact Or.inl (by omega)
  · rw [wire_sub_of_le hle (by omega)]
    exact Or.inr (by omega)

lemma accepts_first (id : Byte) (retxTimeout : ℕ) (cc : C) :
    accepts (Receiving.start id retxTimeout cc : Receiving C ordered W).channel (wire 0) = true := by
  cases ordered with
  | true =>
    have hin : (Receiving.start id retxTimeout cc :
        Receiving C true W).channel.isInOrderedReceiveWindow (wire 0) = true := by
      simp [Channel.isInOrderedReceiveWindow, Receiving.start]
    simp only [accepts, marks, if_true, hin, Bool.not_true, Bool.false_or, Bool.true_and]
    simp [Receiving.start]
  | false => simp [accepts, marks, Receiving.start, Channel.isDuplicateOrStaleUnordered]

section Controlled
variable [CongestionCtrl C]

lemma Steady.onRecv {ch : Channel C ordered W} (h : Steady ch) (hW : W.size ≤ 33)
    {packet : Packet} (htype : packet.type = .data) (now : Time) (io : Transport) :
    Steady (ch.onRecv packet now io).1 := by
  cases ordered with
  | true =>
    obtain ⟨E, L, held, hs⟩ := h
    exact hs.onRecv hW htype now io
  | false => trivial

lemma Covers.onRecv {ch : Channel C ordered W} {a n : ℕ} (h : Covers ch.recvAckTracker (wire a))
    (h1 : n ≤ a + 32) (h2 : a ≤ n + 32) {packet : Packet} (htype : packet.type = .data)
    (hseq : packet.seq = wire n) (now : Time) (io : Transport) :
    Covers (ch.onRecv packet now io).1.recvAckTracker (wire a) := by
  rw [tracker_onRecv ch htype, hseq]
  split_ifs
  · exact h.markReceived (wire_near h1 h2)
  · exact h

lemma step_tracker (s : Receiving C ordered W) (a : Arrival) :
    (s.step a).channel.recvAckTracker =
      if marks s.channel (wire a.index) then s.channel.recvAckTracker.markReceived (wire a.index)
      else s.channel.recvAckTracker :=
  tracker_onRecv s.channel rfl a.now s.io

/-- Right after an arrival a small window acknowledges the index if it was ever accepted. -/
lemma Accounts.acknowledges {s : Receiving C ordered W} (h : Accounts s) (hW : W.size ≤ 33)
    {a : Arrival} (ha : Producible s a)
    (hacc : accepts s.channel (wire a.index) = true ∨ a.index ∈ s.accepted) :
    Covers (s.step a).channel.recvAckTracker (wire a.index) := by
  rcases hacc with hnow | hearlier
  · have hmarks : marks s.channel (wire a.index) = true := by
      simp only [accepts, Bool.and_eq_true] at hnow
      exact hnow.1
    rw [step_tracker, if_pos hmarks]
    exact h.steady.covers hW hnow
  · have hnear : ∀ m ∈ s.arrived, m ≤ a.index + 32 := by
      intro m hm
      have := ha m hm
      omega
    exact (h.covered a.index hearlier hnear).onRecv (by omega) (by omega) rfl rfl a.now s.io

lemma Accounts.step {s : Receiving C ordered W} (h : Accounts s) (hW : W.size ≤ 33) {a : Arrival}
    (ha : Producible s a) : Accounts (s.step a) := by
  have hmem : ∀ k ∈ (s.step a).accepted,
      k ∈ s.accepted ∨ (k = a.index ∧ accepts s.channel (wire a.index) = true) := by
    intro k hk
    simp only [Receiving.step] at hk
    split_ifs at hk with hacc
    · rw [List.mem_append, List.mem_singleton] at hk
      exact hk.imp_right fun he => ⟨he, hacc⟩
    · exact Or.inl hk
  have hall : ∀ m, m ∈ (s.step a).arrived ↔ m ∈ s.arrived ∨ m = a.index := by
    intro m
    simp [Receiving.step]
  refine ⟨h.steady.onRecv hW rfl a.now s.io, ?_, ?_⟩
  · intro k hk
    rw [hall]
    exact (hmem k hk).imp (h.arrived k) fun hnew => hnew.1
  · intro k hk hnear
    rcases hmem k hk with hold | ⟨rfl, hacc⟩
    · have hcov := h.covered k hold fun m hm => hnear m ((hall m).mpr (Or.inl hm))
      have hup := hnear a.index ((hall a.index).mpr (Or.inr rfl))
      have hdown := ha k (h.arrived k hold)
      exact hcov.onRecv hup (by omega) rfl rfl a.now s.io
    · exact h.acknowledges hW ha (Or.inl hacc)

lemma tracker_first (id : Byte) (retxTimeout : ℕ) (cc : C) (p : Packet) (now : Time) :
    ((Receiving.start id retxTimeout cc : Receiving C ordered W).step
      ⟨0, p, now⟩).channel.recvAckTracker = ⟨true, wire 0, 0⟩ := by
  have hacc : accepts (Receiving.start id retxTimeout cc : Receiving C ordered W).channel (wire 0) =
      true := accepts_first id retxTimeout cc
  simp only [accepts, Bool.and_eq_true] at hacc
  rw [step_tracker, if_pos hacc.1]
  rfl

lemma marks_far (id : Byte) (retxTimeout : ℕ) (cc : C) (hW : 34 ≤ W.size) (p : Packet) (now : Time) :
    marks ((Receiving.start id retxTimeout cc : Receiving C ordered W).step ⟨0, p, now⟩).channel
      (wire 33) = true := by
  have htracker : ((Receiving.start id retxTimeout cc : Receiving C ordered W).step
      ⟨0, p, now⟩).channel.recvAckTracker = ⟨true, wire 0, 0⟩ := tracker_first id retxTimeout cc p now
  generalize hs : (Receiving.start id retxTimeout cc : Receiving C ordered W).step ⟨0, p, now⟩ = s
    at htracker ⊢
  cases ordered with
  | true =>
    have hspec := receiveOrdered_spec
      (Receiving.start id retxTimeout cc : Receiving C true W).channel {} holds_initial
      (SerialNumber.Near.refl 16 0) (Arrival.data ⟨0, p, now⟩) rfl
    have hchannel : s.channel = ((Receiving.start id retxTimeout cc :
        Receiving C true W).channel.receiveOrdered (Arrival.data ⟨0, p, now⟩) {}).1 := by
      rw [← hs]
      rfl
    generalize (Receiving.start id retxTimeout cc :
        Receiving C true W).channel.receiveOrdered (Arrival.data ⟨0, p, now⟩) {} = r
      at hspec hchannel
    simp only [marks, if_true, hchannel]
    cases hspec with
    | outside hout => exact absurd ⟨le_rfl, by omega⟩ hout
    | occupied hin b hb => simp [Receiving.start] at hb
    | stored hin hfree m hm ch' io' hd hstop =>
      have hone : m ≤ 1 := by
        by_contra hlt
        have := hd.full 1 (by omega)
        simp at this
      exact (inWindow_iff ch' hd.holds.expected (close_iff.mpr (by omega))).mpr (by omega)
  | false =>
    simp [marks, Channel.isDuplicateOrStaleUnordered, htracker, isNewerSequence]

def repeated : List Arrival := [⟨0, {}, 0⟩, ⟨33, {}, 1⟩]

/-- The repeated packet was accepted, and the acknowledgement sent for it does not cover it. -/
lemma repeated_unacknowledged (id : Byte) (retxTimeout : ℕ) (cc : C) (hW : 34 ≤ W.size) :
    let s : Receiving C ordered W := repeated.foldl Receiving.step (.start id retxTimeout cc)
    Runs.Reachable Receiving.step Producible (.start id retxTimeout cc) s ∧
      Producible s ⟨0, {}, 2⟩ ∧ 0 ∈ s.accepted ∧
        ¬Acknowledged (s.step ⟨0, {}, 2⟩).channel (wire 0) := by
  intro s
  have harrived : s.arrived = [0, 33] := rfl
  have haccepted : 0 ∈ s.accepted := by
    have hfirst : 0 ∈ ((Receiving.start id retxTimeout cc : Receiving C ordered W).step
        ⟨0, {}, 0⟩).accepted := by
      simp only [Receiving.step]
      rw [if_pos (accepts_first id retxTimeout cc)]
      exact List.mem_append_right _ (List.mem_singleton.mpr rfl)
    simp only [s, repeated, List.foldl_cons, List.foldl_nil]
    rw [Receiving.step]
    split_ifs
    · exact List.mem_append_left _ hfirst
    · exact hfirst
  have htracker : s.channel.recvAckTracker = ⟨true, wire 33, 0⟩ := by
    simp only [s, repeated, List.foldl_cons, List.foldl_nil]
    rw [step_tracker, if_pos (marks_far id retxTimeout cc hW {} 0), tracker_first]
    decide
  refine ⟨?_, ?_, haccepted, ?_⟩
  · apply Runs.reachable_foldl .start
    refine ⟨?_, ?_, trivial⟩
    · intro m hm
      cases hm
    · intro m hm
      have he : m = 0 := by simpa [Receiving.step, Receiving.start] using hm
      omega
  · intro m hm
    rw [harrived] at hm
    have he : m = 0 ∨ m = 33 := by simpa using hm
    rcases he with rfl | rfl
    · exact Nat.zero_le _
    · dsimp only
      omega
  · rw [acknowledged_iff, step_tracker, htracker]
    split_ifs
    · unfold Covers
      decide
    · unfold Covers
      decide

/-- For a mode and a window, every packet accepted on arrival or earlier is acknowledged by the
reply to its arrival, in every run a sender with that window can produce, exactly when the window
is at most 33. -/
theorem accepted_acknowledged_iff (ordered : Bool) (W : Window) (id : Byte) (retxTimeout : ℕ)
    (cc : C) :
    (∀ s : Receiving C ordered W,
      Runs.Reachable Receiving.step Producible (.start id retxTimeout cc) s →
      ∀ a, Producible s a →
        accepts s.channel (wire a.index) = true ∨ a.index ∈ s.accepted →
        Acknowledged (s.step a).channel (wire a.index)) ↔ W.size ≤ 33 := by
  constructor
  · intro hall
    by_contra hW
    obtain ⟨hreach, hprod, hacc, hnot⟩ :=
      @repeated_unacknowledged C ordered W _ id retxTimeout cc (by omega)
    exact hnot (hall _ hreach _ hprod (Or.inr hacc))
  · intro hW s hreach a ha hacc
    have hs : Accounts s := by
      refine hreach.invariant ⟨steady_start id retxTimeout cc, ?_, ?_⟩ ?_
      · intro k hk
        cases hk
      · intro k hk
        cases hk
      · intro s a hs ha
        exact hs.step hW ha
    rw [acknowledged_iff]
    exact hs.acknowledges hW ha hacc

end Controlled

def repeatedState (ordered : Bool) : Receiving Null ordered (normalizeWindow 128) :=
  repeated.foldl Receiving.step (.start 0 200 ⟨⟩)

/-- With the default window neither mode acknowledges the retransmission of index 0. -/
theorem retransmission_unacknowledged :
    (Runs.Reachable Receiving.step Producible (.start 0 200 ⟨⟩) (repeatedState true) ∧
      Producible (repeatedState true) ⟨0, {}, 2⟩ ∧ 0 ∈ (repeatedState true).accepted ∧
      ¬Acknowledged ((repeatedState true).step ⟨0, {}, 2⟩).channel (wire 0)) ∧
    (Runs.Reachable Receiving.step Producible (.start 0 200 ⟨⟩) (repeatedState false) ∧
      Producible (repeatedState false) ⟨0, {}, 2⟩ ∧ 0 ∈ (repeatedState false).accepted ∧
      ¬Acknowledged ((repeatedState false).step ⟨0, {}, 2⟩).channel (wire 0)) :=
  ⟨repeated_unacknowledged 0 200 Null.mk (by decide),
    repeated_unacknowledged 0 200 Null.mk (by decide)⟩

end ReliableUdp.AckCoverage
