import ReliableUdp.OrderedReceiver

/-! What each operation of the sending half does to the retransmission store, and that it
leaves the receiving half alone. -/
namespace ReliableUdp.ReliableSender
open Protocol ChannelCommon ReliableChannel OrderedReceiver

variable {C : Type} {ordered : Bool} {W : Window}

structure SameReceiver (ch ch' : Channel C ordered W) : Prop where
  id : ch'.id = ch.id
  expectedRecvSeq : ch'.expectedRecvSeq = ch.expectedRecvSeq
  receiveBuffer : ch'.receiveBuffer = ch.receiveBuffer
  recvAckTracker : ch'.recvAckTracker = ch.recvAckTracker
  recvQueue : ch'.recvQueue = ch.recvQueue

lemma SameReceiver.refl (ch : Channel C ordered W) : SameReceiver ch ch :=
  ⟨rfl, rfl, rfl, rfl, rfl⟩

lemma dataPacket_fields (ch : Channel C ordered W) (payload : List Byte) :
    (ch.dataPacket payload).type = .data ∧ (ch.dataPacket payload).seq = ch.nextSeq ∧
      (ch.dataPacket payload).payload = payload := by
  unfold Channel.dataPacket Channel.attachAck
  split_ifs <;> exact ⟨rfl, rfl, rfl⟩

def freshPacket (ch : Channel C ordered W) (encodedPacket : List Byte) (now : Time) : SentPacket :=
  { sequenceNumber := ch.nextSeq
    encodedPacket := encodedPacket
    sendTime := now
    nextRetx := now + milliseconds ch.retxTimeout }

section Controlled
variable [CongestionCtrl C]

/-- The four ways an `asyncSend` ends. The last two conditions name the branch taken. -/
inductive Sending (ch : Channel C ordered W) (codec : PacketCodec) (payload : List Byte)
    (handler : ℕ) (now : Time) (io : Transport) : Channel C ordered W × Transport → Prop
  | refused (cc : C) (hfull : (ch.effectiveSendWindow now).1 ≤ ch.inFlightCount) :
      Sending ch codec payload handler now io
        ({ ch with cc := cc }, io.emit [.sendDone handler (makeErrorCode .sendWindowFull)])
  | unencodable (cc : C) (hroom : ch.inFlightCount < (ch.effectiveSendWindow now).1)
      (hempty : codec.encodePacket (ch.dataPacket payload) = []) :
      Sending ch codec payload handler now io
        ({ ch with cc := cc, nextSeq := ch.nextSeq + 1 },
          io.emit [.sendDone handler (makeErrorCode .badPacket)])
  | collided (cc : C) (hroom : ch.inFlightCount < (ch.effectiveSendWindow now).1)
      (old : SentPacket) (hold : ch.sentPackets.get ch.nextSeq.toNat = some old) :
      Sending ch codec payload handler now io
        ({ ch with cc := cc, nextSeq := ch.nextSeq + 1 },
          io.emit [.sendDone handler (makeErrorCode .sendWindowFull)])
  | stored (cc : C) (hroom : ch.inFlightCount < (ch.effectiveSendWindow now).1)
      (hfree : ch.sentPackets.get ch.nextSeq.toNat = none) (stats : SocketStats)
      (encodedPacket : List Byte)
      (hencoded : encodedPacket = codec.encodePacket (ch.dataPacket payload))
      (hne : encodedPacket ≠ []) :
      Sending ch codec payload handler now io
        ({ ch with
            cc := cc
            nextSeq := ch.nextSeq + 1
            sentPackets := ch.sentPackets.set ch.nextSeq.toNat
              (some (freshPacket ch encodedPacket now))
            inFlightCount := ch.inFlightCount + 1 },
          { io with stats := stats }.sendEncoded encodedPacket (.data ch.id ch.nextSeq handler))

theorem asyncSend_cases (ch : Channel C ordered W) (codec : PacketCodec) (payload : List Byte)
    (handler : ℕ) (now : Time) (io : Transport) :
    Sending ch codec payload handler now io (ch.asyncSend codec payload handler now io) := by
  unfold Channel.asyncSend
  dsimp only
  have hpacket : ∀ cc : C, ({ ch with cc := cc } : Channel C ordered W).dataPacket payload =
      ch.dataPacket payload := fun cc => rfl
  have hseq := (dataPacket_fields ch payload).2.1
  split_ifs with hfull hempty
  · exact .refused _ hfull
  · rw [hpacket] at hempty
    exact .unencodable _ (not_le.mp hfull) hempty
  · rw [hpacket] at hempty ⊢
    unfold Channel.storeSentPacket
    rw [hseq]
    cases hg : ch.sentPackets.get ch.nextSeq.toNat with
    | some old =>
      exact .collided _ (not_le.mp hfull) old hg
    | none =>
      exact .stored _ (not_le.mp hfull) hg _ _ rfl hempty

/-- `asyncSend` stores and sends the packet. -/
def Accepts (ch : Channel C ordered W) (codec : PacketCodec)
    (payload : List Byte) (now : Time) : Prop :=
  ch.inFlightCount < (ch.effectiveSendWindow now).1 ∧
    codec.encodePacket (ch.dataPacket payload) ≠ [] ∧
    ch.sentPackets.get ch.nextSeq.toNat = none

instance (ch : Channel C ordered W) (codec : PacketCodec) (payload : List Byte)
    (now : Time) : Decidable (Accepts ch codec payload now) :=
  inferInstanceAs (Decidable (_ ∧ _ ∧ _))

theorem asyncSend_packetsLost (ch : Channel C ordered W) (codec : PacketCodec)
    (payload : List Byte) (handler : ℕ) (now : Time) (io : Transport) :
    (ch.asyncSend codec payload handler now io).2.stats.packetsLost = io.stats.packetsLost := by
  unfold Channel.asyncSend
  dsimp only
  split_ifs
  · rfl
  · rfl
  · split <;> rfl

theorem asyncSend_receiver (ch : Channel C ordered W) (codec : PacketCodec) (payload : List Byte)
    (handler : ℕ) (now : Time) (io : Transport) :
    SameReceiver ch (ch.asyncSend codec payload handler now io).1 := by
  have h := asyncSend_cases ch codec payload handler now io
  generalize ch.asyncSend codec payload handler now io = r at h ⊢
  cases h <;> exact ⟨rfl, rfl, rfl, rfl, rfl⟩

end Controlled

lemma eraseSentPacket_get (ch : Channel C ordered W) (sequenceNumber : Seq) (k : ℕ) :
    (ch.eraseSentPacket sequenceNumber).sentPackets.get k = ch.sentPackets.get k ∨
      ((ch.eraseSentPacket sequenceNumber).sentPackets.get k = none ∧
        ∃ sp, ch.sentPackets.get k = some sp ∧ sp.sequenceNumber = sequenceNumber) := by
  unfold Channel.eraseSentPacket
  cases hg : ch.sentPackets.get sequenceNumber.toNat with
  | none => exact Or.inl rfl
  | some sp =>
    by_cases hs : sp.sequenceNumber = sequenceNumber
    · simp only [hs, ne_eq, not_true_eq_false, if_false]
      rw [SlotTable.get_set _ W.pos]
      split_ifs with hk
      · exact Or.inr ⟨rfl, sp, by rw [← SlotTable.get_congr _ hk, hg], hs⟩
      · exact Or.inl rfl
    · simp [hs]

lemma eraseSentPacket_of_get {ch : Channel C ordered W} {sp : SentPacket}
    (hget : ch.sentPackets.get sp.sequenceNumber.toNat = some sp) :
    ch.eraseSentPacket sp.sequenceNumber = { ch with
      sentPackets := ch.sentPackets.set sp.sequenceNumber.toNat none
      inFlightCount := ch.inFlightCount - 1 } := by
  simp only [Channel.eraseSentPacket, hget, ne_eq, not_true_eq_false, if_false]

lemma eraseSentPacket_count (ch : Channel C ordered W) (sequenceNumber : Seq)
    (h : ch.inFlightCount = ch.sentPackets.occupied) :
    (ch.eraseSentPacket sequenceNumber).inFlightCount =
      (ch.eraseSentPacket sequenceNumber).sentPackets.occupied := by
  unfold Channel.eraseSentPacket
  cases hg : ch.sentPackets.get sequenceNumber.toNat with
  | none => exact h
  | some sp =>
    dsimp only
    split_ifs
    · exact h
    · have hocc := SlotTable.occupied_set ch.sentPackets W.pos sequenceNumber.toNat none
      rw [hg] at hocc
      simp only [Option.toList_some, Option.toList_none, List.length_singleton,
        List.length_nil] at hocc
      simp only [h]
      omega

lemma eraseSentPacket_frame (ch : Channel C ordered W) (sequenceNumber : Seq) :
    SameReceiver ch (ch.eraseSentPacket sequenceNumber) ∧
      (ch.eraseSentPacket sequenceNumber).nextSeq = ch.nextSeq := by
  unfold Channel.eraseSentPacket
  cases ch.sentPackets.get sequenceNumber.toNat with
  | none => exact ⟨SameReceiver.refl ch, rfl⟩
  | some sp =>
    dsimp only
    split_ifs
    · exact ⟨SameReceiver.refl ch, rfl⟩
    · exact ⟨⟨rfl, rfl, rfl, rfl, rfl⟩, rfl⟩

section Controlled
variable [CongestionCtrl C]

/-- A completion removes a packet only for an error, and only the packet it belongs to. -/
theorem sendCompleted_get (ch : Channel C ordered W) (sequenceNumber : Seq) (handler : ℕ)
    (sendError : ErrorCode) (now : Time) (io : Transport) (k : ℕ) :
    (ch.sendCompleted sequenceNumber handler sendError now io).1.sentPackets.get k =
        ch.sentPackets.get k ∨
      (sendError.failed = true ∧
        (ch.sendCompleted sequenceNumber handler sendError now io).1.sentPackets.get k = none ∧
        ∃ sp, ch.sentPackets.get k = some sp ∧ sp.sequenceNumber = sequenceNumber) := by
  unfold Channel.sendCompleted
  cases hf : sendError.failed with
  | false => simp
  | true =>
    rcases eraseSentPacket_get ch sequenceNumber k with h | h
    · exact Or.inl h
    · exact Or.inr ⟨rfl, h⟩

theorem sendCompleted_frame (ch : Channel C ordered W) (sequenceNumber : Seq) (handler : ℕ)
    (sendError : ErrorCode) (now : Time) (io : Transport) :
    SameReceiver ch (ch.sendCompleted sequenceNumber handler sendError now io).1 ∧
      (ch.sendCompleted sequenceNumber handler sendError now io).1.nextSeq = ch.nextSeq := by
  unfold Channel.sendCompleted
  have hf := eraseSentPacket_frame ch sequenceNumber
  split_ifs
  · exact ⟨⟨hf.1.id, hf.1.expectedRecvSeq, hf.1.receiveBuffer, hf.1.recvAckTracker,
      hf.1.recvQueue⟩, hf.2⟩
  · exact ⟨SameReceiver.refl ch, rfl⟩

def ticked (retxTimeout : ℕ) (now : Time) : Option SentPacket → Option SentPacket
  | none => none
  | some sp => if sp.nextRetx > now then some sp else some (Channel.retransmitted retxTimeout now sp)

lemma onTick_map (ch : Channel C ordered W) (now : Time) (io : Transport) :
    (ch.onTick now io).1.sentPackets = ch.sentPackets.map (ticked ch.retxTimeout now) := by
  refine SlotTable.sweep_fst ?_ _ _
  intro x acc
  cases x with
  | none => rfl
  | some sp =>
    simp only [Channel.tickSlot, ticked]
    split_ifs <;> rfl

theorem onTick_get (ch : Channel C ordered W) (now : Time) (io : Transport) (k : ℕ) :
    (ch.onTick now io).1.sentPackets.get k = ticked ch.retxTimeout now (ch.sentPackets.get k) := by
  rw [onTick_map, SlotTable.get_map _ rfl]

theorem onTick_occupied (ch : Channel C ordered W) (now : Time) (io : Transport) :
    (ch.onTick now io).1.sentPackets.occupied = ch.sentPackets.occupied := by
  rw [SlotTable.occupied, onTick_map, SlotTable.entries_map rfl, SlotTable.occupied,
    List.filterMap_length_eq_length]
  intro sp _
  simp only [ticked]
  split_ifs <;> rfl

theorem onTick_frame (ch : Channel C ordered W) (now : Time) (io : Transport) :
    SameReceiver ch (ch.onTick now io).1 ∧ (ch.onTick now io).1.nextSeq = ch.nextSeq :=
  ⟨⟨rfl, rfl, rfl, rfl, rfl⟩, rfl⟩

lemma ticked_some {retxTimeout : ℕ} {now : Time} {slot : Option SentPacket} {sp' : SentPacket}
    (h : ticked retxTimeout now slot = some sp') :
    ∃ sp, slot = some sp ∧ sp'.sequenceNumber = sp.sequenceNumber ∧
      sp'.encodedPacket = sp.encodedPacket := by
  cases slot with
  | none => cases h
  | some sp =>
    refine ⟨sp, rfl, ?_⟩
    simp only [ticked] at h
    by_cases hdue : sp.nextRetx > now
    · rw [if_pos hdue] at h
      have he := Option.some.inj h
      rw [← he]
      exact ⟨rfl, rfl⟩
    · rw [if_neg hdue] at h
      have he := Option.some.inj h
      rw [← he]
      exact ⟨rfl, rfl⟩

def acked (ack : Seq) (ackBits : AckBits) : Option SentPacket → Option SentPacket
  | none => none
  | some sp => if isAcknowledged sp.sequenceNumber ack ackBits = false then some sp else none

lemma processAck_map (ch : Channel C ordered W) (ack : Seq) (ackBits : AckBits) (now : Time)
    (io : Transport) : (ch.processAck ack ackBits now io).1.sentPackets =
      ch.sentPackets.map (acked ack ackBits) := by
  refine SlotTable.sweep_fst ?_ _ _
  intro x acc
  cases x with
  | none => rfl
  | some sp =>
    simp only [Channel.ackSlot, acked]
    split_ifs <;> rfl

theorem processAck_get (ch : Channel C ordered W) (ack : Seq) (ackBits : AckBits) (now : Time)
    (io : Transport) (k : ℕ) :
    (ch.processAck ack ackBits now io).1.sentPackets.get k =
      acked ack ackBits (ch.sentPackets.get k) := by
  rw [processAck_map, SlotTable.get_map _ rfl]

theorem processAck_frame (ch : Channel C ordered W) (ack : Seq) (ackBits : AckBits) (now : Time)
    (io : Transport) :
    SameReceiver ch (ch.processAck ack ackBits now io).1 ∧
      (ch.processAck ack ackBits now io).1.nextSeq = ch.nextSeq :=
  ⟨⟨rfl, rfl, rfl, rfl, rfl⟩, rfl⟩

/-- The packets a tick finds due, in slot order. -/
def dueAt (ch : Channel C ordered W) (now : Time) : List SentPacket :=
  ch.sentPackets.entries.filter fun sp => decide (sp.nextRetx ≤ now)

/-- What a tick does to controller and transport for one due packet. -/
def resend (now : Time) (acc : C × Transport) (sp : SentPacket) : C × Transport :=
  (CongestionCtrl.onLoss acc.1 now sp.sequenceNumber,
    { acc.2 with stats := { acc.2.stats with
        packetsLost := acc.2.stats.packetsLost + 1
        packetsSent := acc.2.stats.packetsSent + 1
        bytesSent := acc.2.stats.bytesSent + sp.encodedPacket.length } }.sendEncoded
      sp.encodedPacket .ignore)

theorem onTick_fold (ch : Channel C ordered W) (now : Time) (io : Transport) :
    ((ch.onTick now io).1.cc, (ch.onTick now io).2) =
      (dueAt ch now).foldl (resend now) (ch.cc, io) := by
  have hsnd : (ch.sentPackets.sweep (Channel.tickSlot ch.retxTimeout now) (ch.cc, io)).2 =
      ch.sentPackets.entries.foldl
        (fun acc sp => if sp.nextRetx ≤ now then resend now acc sp else acc) (ch.cc, io) := by
    refine SlotTable.sweep_snd (fun _ => rfl) (fun sp acc => ?_) _ _
    by_cases hdue : sp.nextRetx ≤ now
    · simp only [Channel.tickSlot, hdue, Nat.not_lt.mpr hdue, if_true, if_false]
      rfl
    · simp only [Channel.tickSlot, hdue, Nat.not_le.mp hdue, if_true, if_false]
  have hfilter : (dueAt ch now).foldl (resend now) (ch.cc, io) =
      ch.sentPackets.entries.foldl
        (fun acc sp => if sp.nextRetx ≤ now then resend now acc sp else acc) (ch.cc, io) := by
    rw [dueAt, List.foldl_filter]
    simp only [decide_eq_true_eq]
  rw [hfilter, ← hsnd]
  rfl

theorem onTick_transmitted (ch : Channel C ordered W) (now : Time) (io : Transport) :
    transmitted (ch.onTick now io).2.log =
      transmitted io.log ++ (dueAt ch now).map SentPacket.encodedPacket := by
  have hfold : ∀ (sps : List SentPacket) (acc : C × Transport),
      transmitted (sps.foldl (resend now) acc).2.log =
        transmitted acc.2.log ++ sps.map SentPacket.encodedPacket := by
    intro sps
    induction sps with
    | nil => intro acc; simp
    | cons sp sps ih => intro acc; simp [ih, resend]
  have h := congrArg Prod.snd (onTick_fold ch now io)
  rw [h, hfold]

theorem onTick_packetsLost (ch : Channel C ordered W) (now : Time) (io : Transport) :
    (ch.onTick now io).2.stats.packetsLost = io.stats.packetsLost + (dueAt ch now).length := by
  have hfold : ∀ (sps : List SentPacket) (acc : C × Transport),
      (sps.foldl (resend now) acc).2.stats.packetsLost =
        acc.2.stats.packetsLost + sps.length := by
    intro sps
    induction sps with
    | nil => intro acc; rfl
    | cons sp sps ih =>
      intro acc
      rw [List.foldl_cons, ih, List.length_cons]
      simp only [resend, Transport.sendEncoded]
      omega
  have h := congrArg Prod.snd (onTick_fold ch now io)
  rw [h, hfold]

theorem onTick_cc (ch : Channel C ordered W) (now : Time) (io : Transport) :
    (ch.onTick now io).1.cc = ((dueAt ch now).map SentPacket.sequenceNumber).foldl
      (fun cc sequenceNumber => CongestionCtrl.onLoss cc now sequenceNumber) ch.cc := by
  have h := congrArg Prod.fst (onTick_fold ch now io)
  rw [List.foldl_map]
  exact h.trans (List.foldl_hom Prod.fst fun _ _ => rfl).symm

/-- The stored packets an acknowledgement names, in slot order. -/
def ackedBy (ch : Channel C ordered W) (ack : Seq) (ackBits : AckBits) : List SentPacket :=
  ch.sentPackets.entries.filter fun sp => isAcknowledged sp.sequenceNumber ack ackBits

/-- The round-trip time `processAck` reports for a packet, zero when it takes no sample. -/
def rttUs (now : Time) (sp : SentPacket) : ℕ :=
  if sp.retxCount = 0 then (now - sp.sendTime) / 1000 else 0

/-- What `processAck` does to count, controller and transport for one acknowledged packet. -/
def confirm (now : Time) (acc : ℕ × C × Transport) (sp : SentPacket) : ℕ × C × Transport :=
  (acc.1 - 1, CongestionCtrl.onAck acc.2.1 now sp.sequenceNumber (rttUs now sp),
    { acc.2.2 with stats := if sp.retxCount = 0
      then Channel.updateRttEstimate (rttUs now sp) acc.2.2.stats else acc.2.2.stats })

theorem processAck_fold (ch : Channel C ordered W) (ack : Seq) (ackBits : AckBits) (now : Time)
    (io : Transport) :
    (ch.sentPackets.sweep (Channel.ackSlot ack ackBits now) (ch.inFlightCount, ch.cc, io)).2 =
      (ackedBy ch ack ackBits).foldl (confirm now) (ch.inFlightCount, ch.cc, io) := by
  rw [ackedBy, List.foldl_filter]
  refine SlotTable.sweep_snd (fun _ => rfl) (fun sp acc => ?_) _ _
  cases hack : isAcknowledged sp.sequenceNumber ack ackBits with
  | false => simp [Channel.ackSlot, hack]
  | true =>
    simp only [Channel.ackSlot, hack, Bool.true_eq_false, if_false, if_true, confirm, rttUs]
    split_ifs <;> rfl

theorem processAck_log (ch : Channel C ordered W) (ack : Seq) (ackBits : AckBits) (now : Time)
    (io : Transport) : (ch.processAck ack ackBits now io).2.log = io.log := by
  unfold Channel.processAck
  dsimp only
  rw [processAck_fold]
  apply List.foldlRecOn (motive := fun acc : ℕ × C × Transport => acc.2.2.log = io.log)
  · rfl
  · exact fun acc h sp _ => h

theorem processAck_inFlightCount (ch : Channel C ordered W) (ack : Seq) (ackBits : AckBits)
    (now : Time) (io : Transport) : (ch.processAck ack ackBits now io).1.inFlightCount =
      ch.inFlightCount - (ackedBy ch ack ackBits).length := by
  have hfold : ∀ (sps : List SentPacket) (acc : ℕ × C × Transport),
      (sps.foldl (confirm now) acc).1 = acc.1 - sps.length := by
    intro sps
    induction sps with
    | nil => intro acc; rfl
    | cons sp sps ih =>
      intro acc
      rw [List.foldl_cons, ih, List.length_cons]
      simp only [confirm]
      omega
  unfold Channel.processAck
  dsimp only
  rw [processAck_fold, hfold]

theorem processAck_occupied (ch : Channel C ordered W) (ack : Seq) (ackBits : AckBits) (now : Time)
    (io : Transport) :
    (ch.processAck ack ackBits now io).1.sentPackets.occupied + (ackedBy ch ack ackBits).length =
      ch.sentPackets.occupied := by
  have hmap : (ch.processAck ack ackBits now io).1.sentPackets.entries =
      ch.sentPackets.entries.filter fun sp => !isAcknowledged sp.sequenceNumber ack ackBits := by
    rw [processAck_map, SlotTable.entries_map rfl, ← List.filterMap_eq_filter]
    congr 1
    funext sp
    cases hack : isAcknowledged sp.sequenceNumber ack ackBits <;> simp [acked, hack, Option.guard]
  rw [SlotTable.occupied, hmap, ackedBy, SlotTable.occupied, Nat.add_comm]
  exact (List.length_eq_length_filter_add _).symm

/-- Samples are taken from the named packets that were never resent by a tick. -/
theorem processAck_samples (ch : Channel C ordered W) (ack : Seq) (ackBits : AckBits) (now : Time)
    (io : Transport) :
    (ch.processAck ack ackBits now io).2.stats.avgRttUs =
        (((ackedBy ch ack ackBits).filter fun sp => decide (sp.retxCount = 0)).foldl
          (fun stats sp => Channel.updateRttEstimate (rttUs now sp) stats) io.stats).avgRttUs ∧
      (ch.processAck ack ackBits now io).1.cc = (ackedBy ch ack ackBits).foldl
        (fun cc sp => CongestionCtrl.onAck cc now sp.sequenceNumber (rttUs now sp)) ch.cc := by
  have hstats : ∀ (sps : List SentPacket) (acc : ℕ × C × Transport),
      (sps.foldl (confirm now) acc).2.2.stats =
        (sps.filter fun sp => decide (sp.retxCount = 0)).foldl
          (fun stats sp => Channel.updateRttEstimate (rttUs now sp) stats) acc.2.2.stats := by
    intro sps
    induction sps with
    | nil => intro acc; rfl
    | cons sp sps ih =>
      intro acc
      rw [List.foldl_cons, ih]
      by_cases hfirst : sp.retxCount = 0
      · rw [List.filter_cons_of_pos (by simpa using hfirst), List.foldl_cons]
        simp only [confirm, if_pos hfirst]
      · rw [List.filter_cons_of_neg (by simpa using hfirst)]
        simp only [confirm, if_neg hfirst]
  unfold Channel.processAck
  dsimp only
  rw [processAck_fold]
  refine ⟨congrArg SocketStats.avgRttUs (hstats _ _), ?_⟩
  exact (List.foldl_hom (fun acc : ℕ × C × Transport => acc.2.1) fun _ _ => rfl).symm

theorem processAck_packetsLost (ch : Channel C ordered W) (ack : Seq) (ackBits : AckBits)
    (now : Time) (io : Transport) :
    (ch.processAck ack ackBits now io).2.stats.packetsLost = io.stats.packetsLost := by
  have hconfirm : ∀ (acc : ℕ × C × Transport) (sp : SentPacket),
      (confirm now acc sp).2.2.stats.packetsLost = acc.2.2.stats.packetsLost := by
    intro acc sp
    simp only [confirm]
    split_ifs <;> rfl
  unfold Channel.processAck
  dsimp only
  rw [processAck_fold]
  apply List.foldlRecOn (motive := fun acc : ℕ × C × Transport =>
    acc.2.2.stats.packetsLost = io.stats.packetsLost)
  · rfl
  · exact fun acc h sp _ => (hconfirm acc sp).trans h

end Controlled

def resendAll (io : Transport) (packets : List (List Byte)) : Transport :=
  { io with
    pending := io.pending ++ packets.map fun _ => .flush
    log := io.log ++ packets.map (.transmit io.remote) }

lemma resendAll_nil (io : Transport) : resendAll io [] = io := by simp [resendAll]

lemma resendAll_append (io : Transport) (first rest : List (List Byte)) :
    resendAll (resendAll io first) rest = resendAll io (first ++ rest) := by
  simp [resendAll]

theorem flush_eq (ch : Channel C ordered W) (io : Transport) :
    ch.flush io = resendAll io (ch.sentPackets.entries.map SentPacket.encodedPacket) := by
  have hfold : ∀ (sps : List SentPacket) (io : Transport),
      sps.foldl (fun io sp => io.sendEncoded sp.encodedPacket .flush) io =
        resendAll io (sps.map SentPacket.encodedPacket) := by
    intro sps
    induction sps with
    | nil => intro io; exact (resendAll_nil io).symm
    | cons sp sps ih =>
      intro io
      rw [List.foldl_cons, ih]
      exact resendAll_append io [sp.encodedPacket] _
  exact hfold _ io

lemma flush_transmitted (ch : Channel C ordered W) (io : Transport) :
    transmitted (ch.flush io).log =
      transmitted io.log ++ ch.sentPackets.entries.map SentPacket.encodedPacket := by
  rw [flush_eq, resendAll, transmitted_append]
  congr 1
  rw [transmitted, List.filterMap_map]
  exact List.filterMap_some

/-- A step of the receiving half: the sending half is untouched and nothing is transmitted. -/
structure ReceiveOnly (ch : Channel C ordered W) (io : Transport)
    (r : Channel C ordered W × Transport) : Prop where
  sender : SameSender ch r.1
  transmitted : transmitted r.2.log = transmitted io.log
  pending : r.2.pending = io.pending

lemma ReceiveOnly.refl (ch : Channel C ordered W) (io : Transport) : ReceiveOnly ch io (ch, io) :=
  ⟨SameSender.refl ch, rfl, rfl⟩

lemma deliver_receiveOnly (ch : Channel C ordered W) (payload : List Byte) (io : Transport) :
    ReceiveOnly ch io (ch.deliver payload io) := by
  refine ⟨⟨rfl, rfl, rfl, rfl, rfl, rfl⟩, ?_, rfl⟩
  unfold Channel.deliver RecvQueue.deliver Channel.recordRecv
  cases ch.recvQueue.pendingRecv <;> simp [Protocol.transmitted, completeRecv]

lemma receiveOrdered_receiveOnly (ch : Channel C ordered W) (packet : Packet) (io : Transport) :
    ReceiveOnly ch io (ch.receiveOrdered packet io) := by
  apply receiveOrdered_invariant (P := fun ch' io' => ReceiveOnly ch io (ch', io'))
  · intro ch' tracker buffer io' h
    exact ⟨⟨h.sender.id, h.sender.retxTimeout, h.sender.nextSeq, h.sender.sentPackets,
      h.sender.inFlightCount, h.sender.cc⟩, h.transmitted, h.pending⟩
  · intro ch' payload io' h
    have hd := deliver_receiveOnly ch' payload io'
    exact ⟨⟨h.sender.id, h.sender.retxTimeout, h.sender.nextSeq, h.sender.sentPackets,
      h.sender.inFlightCount, h.sender.cc⟩, hd.transmitted.trans h.transmitted,
      hd.pending.trans h.pending⟩
  · exact ReceiveOnly.refl ch io

lemma receiveUnordered_receiveOnly (ch : Channel C ordered W) (packet : Packet) (io : Transport) :
    ReceiveOnly ch io (ch.receiveUnordered packet io) := by
  unfold Channel.receiveUnordered
  split_ifs
  · exact ReceiveOnly.refl ch io
  · have h := deliver_receiveOnly
      ({ ch with recvAckTracker := ch.recvAckTracker.markReceived packet.seq } :
        Channel C ordered W) packet.payload io
    exact ⟨⟨h.sender.id, h.sender.retxTimeout, h.sender.nextSeq, h.sender.sentPackets,
      h.sender.inFlightCount, h.sender.cc⟩, h.transmitted, h.pending⟩

lemma receiveOrdered_packetsLost (ch : Channel C ordered W) (packet : Packet) (io : Transport) :
    (ch.receiveOrdered packet io).2.stats.packetsLost = io.stats.packetsLost :=
  receiveOrdered_invariant (P := fun _ io' => io'.stats.packetsLost = io.stats.packetsLost)
    (fun _ _ _ _ h => h) (fun _ _ _ h => h) packet rfl

section Controlled
variable [CongestionCtrl C]

lemma onRecv_packetsLost (ch : Channel C ordered W) (packet : Packet) (now : Time)
    (io : Transport) : (ch.onRecv packet now io).2.stats.packetsLost = io.stats.packetsLost := by
  unfold Channel.onRecv
  split_ifs
  · exact processAck_packetsLost ch packet.ack packet.ackBits now io
  · rfl
  · exact receiveOrdered_packetsLost ch packet io
  · unfold Channel.receiveUnordered
    split_ifs <;> rfl

lemma onRecv_ordered (ch : Channel C true W) {packet : Packet} (htype : packet.type = .data)
    (now : Time) (io : Transport) : ch.onRecv packet now io = ch.receiveOrdered packet io := by
  rw [Channel.onRecv, htype, if_neg (by decide), if_neg (by simp), if_pos rfl]

/-- What a packet other than an acknowledgement does to the sending half: nothing. -/
theorem onRecv_receiveOnly (ch : Channel C ordered W) {packet : Packet} (h : packet.type ≠ .ack)
    (now : Time) (io : Transport) : ReceiveOnly ch io (ch.onRecv packet now io) := by
  unfold Channel.onRecv
  rw [if_neg h]
  split_ifs
  · exact ReceiveOnly.refl ch io
  · exact receiveOrdered_receiveOnly ch packet io
  · exact receiveUnordered_receiveOnly ch packet io

end Controlled
end ReliableUdp.ReliableSender
