import ReliableUdp.SendStore

/-! Round-trip samples against the history of transmissions. `processAck` samples a packet when
its retransmission counter is zero; ticks raise the counter, flushes do not. -/
namespace ReliableUdp.RoundTripSampling
open Protocol DefaultCodec ChannelCommon ReliableChannel ReliableSender Runs SenderRun
  SenderHistory SendStore

section Samples
variable {C : Type} {ordered : Bool} {W : Window}

/-- The stored packets an acknowledgement names, with their indices. -/
def confirmed (s : SendRun C ordered W) (ack : Seq) (ackBits : AckBits) : List (ℕ × SentPacket) :=
  (indexed s.channel.sentPackets s.owner).filter
    fun p => isAcknowledged p.2.sequenceNumber ack ackBits

/-- Those among them that `processAck` takes a round-trip sample from. -/
def sampled (s : SendRun C ordered W) (ack : Seq) (ackBits : AckBits) : List (ℕ × SentPacket) :=
  (confirmed s ack ackBits).filter fun p => decide (p.2.retxCount = 0)

def transmissions (s : SendRun C ordered W) (n : ℕ) : ℕ :=
  ((datagrams s.trace).map Prod.fst).count n

/-- Every sample comes from a packet that went to the socket exactly once. -/
def Unambiguous (s : SendRun C ordered W) (ack : Seq) (ackBits : AckBits) : Prop :=
  ∀ p ∈ sampled s ack ackBits, transmissions s p.1 = 1

/-- No named packet was resent by a flush but by no tick, and none was resent by ticks so often
that the counter came back to zero. -/
def ResendsCounted (s : SendRun C ordered W) (ack : Seq) (ackBits : AckBits) : Prop :=
  ∀ p ∈ confirmed s ack ackBits,
    (p.1 ∈ flushes s.trace → p.1 ∈ resends s.trace) ∧
      ¬ (p.1 ∈ resends s.trace ∧ 2 ^ 32 ∣ (resends s.trace).count p.1)

lemma confirmed_packets (s : SendRun C ordered W) (ack : Seq) (ackBits : AckBits) :
    (confirmed s ack ackBits).map Prod.snd = ackedBy s.channel ack ackBits := by
  rw [ackedBy, ← indexed_packets s.channel.sentPackets s.owner, List.filter_map]
  rfl

lemma sampled_packets (s : SendRun C ordered W) (ack : Seq) (ackBits : AckBits) :
    (sampled s ack ackBits).map Prod.snd =
      (ackedBy s.channel ack ackBits).filter fun sp => decide (sp.retxCount = 0) := by
  rw [← confirmed_packets, List.filter_map]
  rfl

variable {T : ℕ} {s : SendRun C ordered W}

/-- The counter is zero exactly when the number of resends by ticks is a multiple of its range. -/
lemma retxCount_eq_zero_iff {allocated n k : ℕ} {trace : List Mark} {sp : SentPacket}
    (h : Tracked W T allocated trace n k sp) :
    sp.retxCount = 0 ↔ 2 ^ 32 ∣ (resends trace).count n := by
  rw [h.retx, ← BitVec.toNat_inj, BitVec.toNat_ofNat]
  exact (Nat.dvd_iff_mod_eq_zero).symm

theorem unambiguous_iff_of_sound (h : Sound T s) (ack : Seq) (ackBits : AckBits) :
    Unambiguous s ack ackBits ↔ ResendsCounted s ack ackBits := by
  have htracked : ∀ p ∈ confirmed s ack ackBits, ∃ k, Tracked W T s.allocated s.trace p.1 k p.2 := by
    intro p hp
    obtain ⟨k, hk, ho⟩ := (mem_indexed W.pos).mp (List.mem_of_mem_filter hp)
    exact ⟨k, ho ▸ h.stored k p.2 hk⟩
  have hmem : ∀ (l : List ℕ) (n : ℕ), n ∈ l ↔ 0 < l.count n := fun l n => List.count_pos_iff.symm
  simp only [Unambiguous, ResendsCounted, hmem, transmissions]
  constructor
  · intro hone p hp
    obtain ⟨k, ht⟩ := htracked p hp
    have hsent := ht.sent
    by_cases hzero : 2 ^ 32 ∣ (resends s.trace).count p.1
    · have hsample : p ∈ sampled s ack ackBits :=
        List.mem_filter.mpr ⟨hp, by simpa using (retxCount_eq_zero_iff ht).mpr hzero⟩
      have := hone p hsample
      refine ⟨fun _ => ?_, fun hc => ?_⟩ <;> omega
    · have hpos : 0 < (resends s.trace).count p.1 :=
        Nat.pos_of_ne_zero fun hc => hzero (hc ▸ dvd_zero _)
      exact ⟨fun _ => hpos, fun hc => hzero hc.2⟩
  · intro hcounted p hp
    obtain ⟨hp, hfirst⟩ := List.mem_filter.mp hp
    obtain ⟨k, ht⟩ := htracked p hp
    have hzero := (retxCount_eq_zero_iff ht).mp (by simpa using hfirst)
    obtain ⟨hflush, hwrap⟩ := hcounted p hp
    have hresends : (resends s.trace).count p.1 = 0 := by
      by_contra hne
      exact hwrap ⟨Nat.pos_of_ne_zero hne, hzero⟩
    have hsent := ht.sent
    omega

end Samples

section Karn
variable {C : Type} [CongestionCtrl C] {ordered : Bool} {W : Window} {s : SendRun C ordered W}

/-- In every run, an acknowledgement feeds the round-trip estimate with its sampled packets and
the controller with all it names, measured or zero; each sample is of a packet handed to the
socket exactly once if and only if no named packet was resent uncounted. -/
theorem unambiguous_iff (codec : PacketCodec) (id : Byte) (retxTimeout : ℕ) (cc : C)
    (h : Reachable (SendRun.step codec) (fun _ _ => True) (SendRun.start id retxTimeout cc) s)
    (ack : Seq) (ackBits : AckBits) (now : Time) :
    (s.channel.processAck ack ackBits now s.io).2.stats.avgRttUs =
        ((sampled s ack ackBits).foldl
          (fun stats p => Channel.updateRttEstimate (rttUs now p.2) stats) s.io.stats).avgRttUs ∧
      (s.channel.processAck ack ackBits now s.io).1.cc = (confirmed s ack ackBits).foldl
        (fun cc p => CongestionCtrl.onAck cc now p.2.sequenceNumber (rttUs now p.2))
        s.channel.cc ∧
      (Unambiguous s ack ackBits ↔ ResendsCounted s ack ackBits) := by
  obtain ⟨hrtt, hcc⟩ := processAck_samples s.channel ack ackBits now s.io
  refine ⟨?_, ?_, unambiguous_iff_of_sound (sound_of_reachable h) ack ackBits⟩
  · rw [hrtt, ← sampled_packets, List.foldl_map]
  · rw [hcc, ← confirmed_packets, List.foldl_map]

end Karn

/-- A packet resent by a tick and a flush gives no sample. -/
theorem unambiguous_iff_counted :
    Unambiguous (runNull (normalizeWindow 2)
      [.asyncSend [7] 1 0, .onTick (milliseconds 200), .flush]) 0 0 := by
  have hreach : Reachable (SendRun.step defaultCodec.toPacketCodec) (fun _ _ => True)
      (SendRun.start 0 200 {}) (runNull (normalizeWindow 2)
        [.asyncSend [7] 1 0, .onTick (milliseconds 200), .flush]) :=
    reachable_foldl .start _ (by decide)
  refine (unambiguous_iff _ _ _ _ hreach 0 0 0).2.2.mpr ?_
  have hconfirmed : (confirmed (runNull (normalizeWindow 2)
      [.asyncSend [7] 1 0, .onTick (milliseconds 200), .flush]) 0 0).map Prod.fst = [0] := by
    decide +kernel
  intro p hp
  have hzero : p.1 = 0 := by
    have hin := List.mem_map_of_mem (f := Prod.fst) hp
    rw [hconfirmed, List.mem_singleton] at hin
    exact hin
  rw [hzero]
  decide +kernel

/-- A packet resent by a flush is sampled although two datagrams carried it: five milliseconds
after the first one the estimate becomes 5000. -/
theorem flushed_packet_sampled :
    ¬ Unambiguous (runNull (normalizeWindow 2) [.asyncSend [7] 1 0, .flush]) 0 0 ∧
      ((runNull (normalizeWindow 2) [.asyncSend [7] 1 0, .flush]).channel.processAck 0 0
        (milliseconds 5)
        (runNull (normalizeWindow 2) [.asyncSend [7] 1 0, .flush]).io).2.stats.avgRttUs = 5000 := by
  refine ⟨?_, by decide +kernel⟩
  have hsampled : ∃ p ∈ sampled (runNull (normalizeWindow 2) [.asyncSend [7] 1 0, .flush]) 0 0,
      transmissions (runNull (normalizeWindow 2) [.asyncSend [7] 1 0, .flush]) p.1 = 2 := by
    decide +kernel
  intro h
  obtain ⟨p, hp, htwo⟩ := hsampled
  have hone := h p hp
  omega

end ReliableUdp.RoundTripSampling
