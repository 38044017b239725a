import ReliableUdp.Reordering

/-! The reorder buffer against the receive buffer of the ordered channel. With distinct slots the
packet in the slot of the next number has that number, so the check the channel makes while
draining never fails and the two hand over the same packets. -/
namespace ReliableUdp.ReorderEquivalence
open Protocol ChannelCommon ReliableChannel OrderedReceiver ReceiveWindow Reordering

section Channel
variable {C : Type} {ordered : Bool} {W : Window}

/-- The packets whose payloads the loop of `drainReadyPackets` delivers. -/
def readyPackets : ℕ → SlotTable BufferedPacket W.size → Seq → List BufferedPacket
  | 0, _, _ => []
  | fuel + 1, buffer, expected =>
    match buffer.get expected.toNat with
    | none => []
    | some bufferedPacket =>
      if bufferedPacket.sequenceNumber ≠ expected then []
      else bufferedPacket :: readyPackets fuel (buffer.set expected.toNat none) (expected + 1)

/-- The packets whose payloads `receiveOrdered` delivers on the arrival of a packet. -/
def receivedPackets (ch : Channel C ordered W) (packet : Packet) : List BufferedPacket :=
  if ch.isInOrderedReceiveWindow packet.seq = false then []
  else
    match ch.receiveBuffer.get packet.seq.toNat with
    | some _ => []
    | none =>
      readyPackets W.size
        (ch.receiveBuffer.set packet.seq.toNat (some ⟨packet.seq, packet.payload⟩))
        ch.expectedRecvSeq

lemma delivered_drainReadyPackets (fuel : ℕ) (ch : Channel C ordered W) (io : Transport) :
    delivered (ch.drainReadyPackets fuel io).2.log = delivered io.log ++
      (readyPackets fuel ch.receiveBuffer ch.expectedRecvSeq).map BufferedPacket.payload := by
  induction fuel generalizing ch io with
  | zero => simp [Channel.drainReadyPackets, readyPackets]
  | succ fuel ih =>
    unfold Channel.drainReadyPackets readyPackets
    cases hg : ch.receiveBuffer.get ch.expectedRecvSeq.toNat with
    | none => simp
    | some b =>
      by_cases hb : b.sequenceNumber = ch.expectedRecvSeq
      · simp only [hb, ne_eq, not_true_eq_false, if_false]
        rw [ih, delivered_deliver]
        simp
      · simp [hb]

theorem delivered_receiveOrdered (ch : Channel C ordered W) (packet : Packet) (io : Transport) :
    delivered (ch.receiveOrdered packet io).2.log = delivered io.log ++
      (receivedPackets ch packet).map BufferedPacket.payload := by
  unfold Channel.receiveOrdered receivedPackets
  split_ifs with hin
  · simp
  · dsimp only
    cases hg : ch.receiveBuffer.get packet.seq.toNat with
    | some b => simp
    | none => exact delivered_drainReadyPackets _ _ _

end Channel

def buffered (pkt : Packet) : BufferedPacket := ⟨pkt.seq, pkt.payload⟩

section Mirror
variable {C : Type} {ordered : Bool} {W : Window} {r : ReorderBuffer W.size}
  {ch : Channel C ordered W} {E : ℕ}

/-- The two buffers hold the same packets in the same slots and wait for the same number. -/
structure Mirrors (r : ReorderBuffer W.size) (ch : Channel C ordered W) (E : ℕ) : Prop where
  aligned : Aligned r E
  next : r.nextSeq = ch.expectedRecvSeq
  slots : ∀ k, ch.receiveBuffer.get k = (r.slots.get k).map buffered

/-- The drains return the same packets: the channel finds the expected number in every packet. -/
lemma Mirrors.drain (fuel : ℕ) (h : Mirrors r ch E) (io : Transport) :
    (r.drainLoop fuel).2.map buffered =
        readyPackets fuel ch.receiveBuffer ch.expectedRecvSeq ∧
      ∃ E', Mirrors (r.drainLoop fuel).1 (ch.drainReadyPackets fuel io).1 E' := by
  induction fuel generalizing r ch E io with
  | zero => exact ⟨rfl, E, h⟩
  | succ fuel ih =>
    have hslot := h.slots ch.expectedRecvSeq.toNat
    unfold ReorderBuffer.drainLoop readyPackets Channel.drainReadyPackets
    rw [h.next]
    cases hg : r.slots.get ch.expectedRecvSeq.toNat with
    | none =>
      rw [hg] at hslot
      simp only [hslot, Option.map_none]
      exact ⟨rfl, E, h⟩
    | some pkt =>
      rw [hg] at hslot
      have hseq : pkt.seq = ch.expectedRecvSeq := by
        rw [h.aligned.head (by rw [h.next, hg]), ← h.aligned.next, h.next]
      have hchecked : (buffered pkt).sequenceNumber = ch.expectedRecvSeq := hseq
      simp only [hslot, Option.map_some, hchecked, ne_eq, not_true_eq_false, if_false]
      have hadvance := h.aligned.advance W.pos
      rw [h.next] at hadvance
      have hmirror : Mirrors
          { slots := r.slots.set ch.expectedRecvSeq.toNat none, nextSeq := ch.expectedRecvSeq + 1 }
          (drainRound ch (buffered pkt).payload io) (E + 1) := by
        refine ⟨hadvance, rfl, ?_⟩
        intro k
        simp only [drainRound]
        rw [SlotTable.get_set _ W.pos, SlotTable.get_set _ W.pos]
        split_ifs with hk
        · rfl
        · exact h.slots k
      obtain ⟨hready, hrest⟩ := ih hmirror (ch.deliver (buffered pkt).payload io).2
      refine ⟨?_, hrest⟩
      rw [List.map_cons, hready]
      rfl

lemma Mirrors.inWindow (h : Mirrors r ch E) (packet : Packet) :
    ch.isInOrderedReceiveWindow packet.seq = true ↔
      (packet.seq - r.nextSeq).toNat < W.size := by
  have hpos := W.pos
  have hmax := W.le_max
  unfold Channel.isInOrderedReceiveWindow
  rw [h.next]
  simp only [decide_eq_true_eq]
  omega

lemma Mirrors.insert (hdvd : W.size ∣ 65536) (h : Mirrors r ch E) (packet : Packet)
    (tracker : ReceiveAckTracker) (hnear : (packet.seq - r.nextSeq).toNat < W.size)
    (hfree : r.slots.get packet.seq.toNat = none) :
    Mirrors (r.insert packet) ({ ch with
      recvAckTracker := tracker
      receiveBuffer := ch.receiveBuffer.set packet.seq.toNat
        (some ⟨packet.seq, packet.payload⟩) } : Channel C ordered W) E := by
  have hfit := h.aligned.fits (s := { buffer := r }) (Or.inl hdvd) (.insert packet)
  have hinsert : r.insert packet =
      { r with slots := r.slots.set packet.seq.toNat (some packet) } := by
    rw [ReorderBuffer.insert, if_neg (by omega), hfree]
  refine ⟨h.aligned.insert W.pos hfit, ?_, ?_⟩
  · rw [hinsert]
    exact h.next
  · intro k
    rw [hinsert]
    dsimp only
    rw [SlotTable.get_set _ W.pos, SlotTable.get_set _ W.pos]
    split_ifs with hk
    · rfl
    · exact h.slots k

structure Rests (r : ReorderBuffer W.size) (ch : Channel C ordered W) : Prop where
  mirrors : ∃ E, Mirrors r ch E
  idle : r.slots.get r.nextSeq.toNat = none

lemma Rests.dropped (h : Rests r ch) {packet : Packet} (hdrop : r.insert packet = r) :
    (r.insert packet).drain = (r, []) := by
  rw [hdrop]
  exact drainLoop_of_empty h.idle W.size

/-- One packet: the same packets are handed over and the buffers stay alike. -/
theorem Rests.receive (hdvd : W.size ∣ 65536) (h : Rests r ch) (packet : Packet) (io : Transport) :
    (r.insert packet).drain.2.map buffered = receivedPackets ch packet ∧
      Rests (r.insert packet).drain.1 (ch.receiveOrdered packet io).1 := by
  obtain ⟨E, hmirrors⟩ := h.mirrors
  have hin := hmirrors.inWindow packet
  have hslot := hmirrors.slots packet.seq.toNat
  unfold receivedPackets Channel.receiveOrdered
  by_cases hnear : (packet.seq - r.nextSeq).toNat < W.size
  · rw [hin.mpr hnear]
    simp only [Bool.true_eq_false, if_false]
    cases hg : r.slots.get packet.seq.toNat with
    | some b =>
      rw [hg] at hslot
      have hdrop : r.insert packet = r := by
        rw [ReorderBuffer.insert, if_neg (by omega), hg]
      rw [h.dropped hdrop, hslot]
      exact ⟨rfl, ⟨E, hmirrors.aligned, hmirrors.next, hmirrors.slots⟩, h.idle⟩
    | none =>
      rw [hg] at hslot
      simp only [hslot, Option.map_none]
      obtain ⟨hready, hrest⟩ := (hmirrors.insert hdvd packet
        (ch.recvAckTracker.markReceived packet.seq) hnear hg).drain W.size io
      exact ⟨hready, hrest, ReorderBuffer.drain_stops W.pos (r.insert packet)⟩
  · have hout : ch.isInOrderedReceiveWindow packet.seq = false := by
      rw [Bool.eq_false_iff]
      exact fun ht => hnear (hin.mp ht)
    have hdrop : r.insert packet = r := by
      rw [ReorderBuffer.insert, if_pos (by omega)]
    rw [h.dropped hdrop, if_pos hout, if_pos hout]
    exact ⟨rfl, h⟩

end Mirror

section Agreement
variable {C : Type} {ordered : Bool} {W : Window}

def feedBuffer (packets : List Packet) : ReorderBuffer W.size :=
  packets.foldl (fun r packet => (r.insert packet).drain.1) {}

def feedChannel (ch : Channel C ordered W) (io : Transport) (packets : List Packet) :
    Channel C ordered W × Transport :=
  packets.foldl (fun s packet => s.1.receiveOrdered packet s.2) (ch, io)

theorem rests_feed (hdvd : W.size ∣ 65536) {ch : Channel C ordered W}
    (hnext : ch.expectedRecvSeq = 0) (hempty : ch.receiveBuffer = SlotTable.empty _ _)
    (io : Transport) (packets : List Packet) :
    Rests (feedBuffer packets) (feedChannel ch io packets).1 := by
  induction packets using List.reverseRecOn with
  | nil =>
    refine ⟨⟨0, sound_start.aligned, hnext.symm, ?_⟩, SlotTable.get_empty _⟩
    intro k
    simp [feedBuffer, feedChannel, hempty]
  | append_singleton packets packet ih =>
    simp only [feedBuffer, feedChannel, List.foldl_append] at ih ⊢
    exact (ih.receive hdvd packet _).2

/-- For a window that divides 65536 the reorder buffer and the ordered channel hand over the same
packets on every packet of any sequence, and expect the same number after it. -/
theorem implementations_agree (hdvd : W.size ∣ 65536) (ch : Channel C ordered W)
    (hnext : ch.expectedRecvSeq = 0) (hempty : ch.receiveBuffer = SlotTable.empty _ _)
    (io : Transport) (packets : List Packet) (packet : Packet) :
    let drained := ((feedBuffer packets : ReorderBuffer W.size).insert packet).drain
    let s := feedChannel ch io packets
    let s' := s.1.receiveOrdered packet s.2
    drained.2.map buffered = receivedPackets s.1 packet ∧
      delivered s'.2.log = delivered s.2.log ++ drained.2.map Packet.payload ∧
      drained.1.nextSeq = s'.1.expectedRecvSeq := by
  obtain ⟨hsame, hrests⟩ :=
    (rests_feed hdvd hnext hempty io packets).receive hdvd packet (feedChannel ch io packets).2
  obtain ⟨E, hmirrors⟩ := hrests.mirrors
  refine ⟨hsame, ?_, hmirrors.next⟩
  rw [delivered_receiveOrdered, ← hsame, List.map_map]
  rfl

theorem implementations_agree_reordered :
    let W : Window := ⟨4, by omega, by omega⟩
    let ch : Channel Null true W := { cc := {} }
    let drained := ((feedBuffer [{ seq := 1, payload := [7] }] : ReorderBuffer W.size).insert
      { seq := 0, payload := [5] }).drain
    let s := feedChannel ch {} [{ seq := 1, payload := [7] }]
    drained.2.map buffered = [⟨0, [5]⟩, ⟨1, [7]⟩] ∧
      drained.2.map buffered = receivedPackets s.1 { seq := 0, payload := [5] } := by
  intro W ch drained s
  have hagree := implementations_agree (W := W) (by decide) ch rfl rfl {}
    [{ seq := 1, payload := [7] }] { seq := 0, payload := [5] }
  exact ⟨by decide +kernel, hagree.1⟩

end Agreement

end ReliableUdp.ReorderEquivalence
