import ReliableUdp.Reception
import ReliableUdp.ArrivalOrder
import ReliableUdp.WeightedAverage

/-! The counters of a session against its trace: what the session put on the wire, what it handed
over and how long its packets took. -/
namespace ReliableUdp.SessionStatistics
open Protocol ChannelCommon ReliableChannel OrderedReceiver ReliableSender Session SessionSteps
open SessionMoves SessionOutput
open ArrivalOrder (bytes bytes_append)

/-- A stretch of a run: the datagrams `sent`, those counted as sent and as lost, and the payloads
`got`. -/
structure Exchanged (io io' : Transport) (sent counted lost got : List (List Byte)) : Prop where
  transmits : transmitted io'.log = transmitted io.log ++ sent
  hands : delivered io'.log = delivered io.log ++ got
  packetsSent : io'.stats.packetsSent = io.stats.packetsSent + counted.length
  bytesSent : io'.stats.bytesSent = io.stats.bytesSent + bytes counted
  packetsLost : io'.stats.packetsLost = io.stats.packetsLost + lost.length
  packetsRecv : io'.stats.packetsRecv = io.stats.packetsRecv + got.length
  bytesRecv : io'.stats.bytesRecv = io.stats.bytesRecv + bytes got

section Stretches
variable {a b c : Transport} {sent counted lost got sent' counted' lost' got' : List (List Byte)}

lemma Exchanged.trans (h : Exchanged a b sent counted lost got)
    (h' : Exchanged b c sent' counted' lost' got') :
    Exchanged a c (sent ++ sent') (counted ++ counted') (lost ++ lost') (got ++ got') := by
  refine ⟨?_, ?_, ?_, ?_, ?_, ?_, ?_⟩
  · rw [h'.transmits, h.transmits, List.append_assoc]
  · rw [h'.hands, h.hands, List.append_assoc]
  · rw [h'.packetsSent, h.packetsSent, List.length_append, Nat.add_assoc]
  · rw [h'.bytesSent, h.bytesSent, bytes_append, Nat.add_assoc]
  · rw [h'.packetsLost, h.packetsLost, List.length_append, Nat.add_assoc]
  · rw [h'.packetsRecv, h.packetsRecv, List.length_append, Nat.add_assoc]
  · rw [h'.bytesRecv, h.bytesRecv, bytes_append, Nat.add_assoc]

lemma exchanged_nothing (hsent : transmitted b.log = transmitted a.log)
    (hgot : delivered b.log = delivered a.log)
    (hpackets : b.stats.packetsSent = a.stats.packetsSent)
    (hbytes : b.stats.bytesSent = a.stats.bytesSent)
    (hlost : b.stats.packetsLost = a.stats.packetsLost)
    (hrecv : b.stats.packetsRecv = a.stats.packetsRecv)
    (hrecvBytes : b.stats.bytesRecv = a.stats.bytesRecv) : Exchanged a b [] [] [] [] := by
  refine ⟨?_, ?_, hpackets, hbytes, hlost, hrecv, hrecvBytes⟩
  · rw [hsent, List.append_nil]
  · rw [hgot, List.append_nil]

lemma Exchanged.refl (io : Transport) : Exchanged io io [] [] [] [] :=
  exchanged_nothing rfl rfl rfl rfl rfl rfl rfl

lemma exchanged_emit (io : Transport) {effects : List Effect} (hsent : transmitted effects = [])
    (hgot : delivered effects = []) : Exchanged io (io.emit effects) [] [] [] [] := by
  refine exchanged_nothing ?_ ?_ rfl rfl rfl rfl rfl
  · rw [Transport.emit_log, transmitted_append, hsent, List.append_nil]
  · rw [Transport.emit_log, delivered_append, hgot, List.append_nil]

lemma exchanged_uncounted (io : Transport) (d : List Byte) (completion : Completion) :
    Exchanged io (io.sendEncoded d completion) [d] [] [] [] := by
  refine ⟨transmitted_sendEncoded io d completion, ?_, rfl, rfl, rfl, rfl, rfl⟩
  simp [Transport.sendEncoded, delivered]

lemma exchanged_counted {remote : Endpoint} {d : List Byte}
    (hlog : b.log = a.log ++ [.transmit remote d])
    (hpackets : b.stats.packetsSent = a.stats.packetsSent + 1)
    (hbytes : b.stats.bytesSent = a.stats.bytesSent + d.length)
    (hlost : b.stats.packetsLost = a.stats.packetsLost + lost.length)
    (hrecv : b.stats.packetsRecv = a.stats.packetsRecv)
    (hrecvBytes : b.stats.bytesRecv = a.stats.bytesRecv) : Exchanged a b [d] [d] lost [] := by
  refine ⟨?_, ?_, hpackets, ?_, hlost, hrecv, hrecvBytes⟩
  · rw [hlog, transmitted_append]
    rfl
  · rw [hlog, delivered_append]
    rfl
  · simpa [bytes] using hbytes

end Stretches

section Reliable
variable {C : Type} {ordered : Bool} {W : Window}

lemma deliver_exchanged (ch : Channel C ordered W) (payload : List Byte) (io : Transport) :
    Exchanged io (ch.deliver payload io).2 [] [] [] [payload] := by
  refine ⟨?_, delivered_deliver ch payload io, rfl, rfl, rfl, rfl, ?_⟩
  · unfold Channel.deliver RecvQueue.deliver
    cases ch.recvQueue.pendingRecv <;> simp [transmitted, Channel.recordRecv, completeRecv]
  · simp [Channel.deliver, Channel.recordRecv, bytes]

lemma receiveOrdered_exchanged (ch : Channel C ordered W) (packet : Packet) (io : Transport) :
    ∃ got, Exchanged io (ch.receiveOrdered packet io).2 [] [] [] got := by
  refine receiveOrdered_invariant (P := fun _ io' => ∃ got, Exchanged io io' [] [] [] got)
    (fun _ _ _ _ h => h) ?_ packet ⟨[], .refl io⟩
  rintro ch' payload io' ⟨got, h⟩
  exact ⟨got ++ [payload], h.trans (deliver_exchanged ch' payload io')⟩

variable [CongestionCtrl C]

lemma asyncSend_exchanged (ch : Channel C ordered W) (codec : PacketCodec) (payload : List Byte)
    (handler : ℕ) (now : Time) (io : Transport) :
    Exchanged io (ch.asyncSend codec payload handler now io).2 [] [] [] [] ∨
      Exchanged io (ch.asyncSend codec payload handler now io).2
        [codec.encodePacket (ch.dataPacket payload)] [codec.encodePacket (ch.dataPacket payload)]
        [] [] := by
  have hrefused : ∀ ec, Exchanged io (io.emit [.sendDone handler ec]) [] [] [] [] :=
    fun ec => exchanged_emit io rfl rfl
  unfold Channel.asyncSend
  dsimp only
  split_ifs
  · exact Or.inl (hrefused _)
  · exact Or.inl (hrefused _)
  · split
    · exact Or.inl (hrefused _)
    · exact Or.inr (exchanged_counted rfl rfl rfl rfl rfl rfl)

lemma onTick_exchanged (ch : Channel C ordered W) (now : Time) (io : Transport) :
    Exchanged io (ch.onTick now io).2 ((dueAt ch now).map SentPacket.encodedPacket)
      ((dueAt ch now).map SentPacket.encodedPacket)
      ((dueAt ch now).map SentPacket.encodedPacket) [] := by
  have hfold : ∀ (sps : List SentPacket) (acc : C × Transport),
      Exchanged acc.2 (sps.foldl (resend now) acc).2 (sps.map SentPacket.encodedPacket)
        (sps.map SentPacket.encodedPacket) (sps.map SentPacket.encodedPacket) [] := by
    intro sps
    induction sps with
    | nil => exact fun acc => .refl acc.2
    | cons sp sps ih =>
      intro acc
      have hone : Exchanged acc.2 (resend now acc sp).2 [sp.encodedPacket] [sp.encodedPacket]
          [sp.encodedPacket] [] := exchanged_counted rfl rfl rfl rfl rfl rfl
      exact hone.trans (ih (resend now acc sp))
  have h := congrArg Prod.snd (onTick_fold ch now io)
  rw [h]
  exact hfold (dueAt ch now) (ch.cc, io)

lemma processAck_exchanged (ch : Channel C ordered W) (ack : Seq) (ackBits : AckBits) (now : Time)
    (io : Transport) : Exchanged io (ch.processAck ack ackBits now io).2 [] [] [] [] := by
  unfold Channel.processAck
  dsimp only
  rw [processAck_fold]
  have hfold : Exchanged io ((ackedBy ch ack ackBits).foldl (confirm now)
      (ch.inFlightCount, ch.cc, io)).2.2 [] [] [] [] := by
    refine List.foldlRecOn _ (confirm now)
      (motive := fun acc : ℕ × C × Transport => Exchanged io acc.2.2 [] [] [] []) (.refl io) ?_
    intro acc hacc sp _
    refine hacc.trans (exchanged_nothing rfl rfl ?_ ?_ ?_ ?_ ?_)
    all_goals
      simp only [confirm]
      split_ifs <;> rfl
  exact hfold.trans (exchanged_nothing rfl rfl rfl rfl rfl rfl rfl)

lemma sendCompleted_exchanged (ch : Channel C ordered W) (sequenceNumber : Seq) (handler : ℕ)
    (ec : ErrorCode) (now : Time) (io : Transport) :
    Exchanged io (ch.sendCompleted sequenceNumber handler ec now io).2 [] [] [] [] := by
  have hdone : ∀ io' : Transport, Exchanged io' (io'.emit [.sendDone handler ec]) [] [] [] [] :=
    fun io' => exchanged_emit io' rfl rfl
  unfold Channel.sendCompleted
  split_ifs
  · exact (exchanged_nothing rfl rfl rfl rfl rfl rfl rfl :
      Exchanged io { io with stats := { io.stats with
        sendWindowUsed := (ch.eraseSentPacket sequenceNumber).inFlightCount } } [] [] [] []).trans
      (hdone _)
  · exact hdone io

lemma onRecv_exchanged (ch : Channel C ordered W) (packet : Packet) (now : Time) (io : Transport) :
    ∃ got, Exchanged io (ch.onRecv packet now io).2 [] [] [] got := by
  unfold Channel.onRecv
  split_ifs
  · exact ⟨[], processAck_exchanged ch _ _ now io⟩
  · exact ⟨[], .refl io⟩
  · exact receiveOrdered_exchanged ch packet io
  · unfold Channel.receiveUnordered
    split_ifs
    · exact ⟨[], .refl io⟩
    · exact ⟨_, deliver_exchanged _ _ io⟩

end Reliable

def carriesData (codec : PacketCodec) (d : List Byte) : Bool :=
  match codec.decode d with
  | .ok packet => packet.type = .data
  | .error _ => false

lemma carriesData_encode (codec : LawfulCodec) (packet : Packet) :
    carriesData codec.toPacketCodec (codec.encodePacket packet) = decide (packet.type = .data) := by
  obtain ⟨crc, hdec⟩ := codec.decode_encodePacket packet
  simp only [carriesData, hdec]

/-- The datagrams among those an event sent that count as sent: the Data packets, but not the
resends of a flush. -/
def countedBy (codec : PacketCodec) (sent : List (List Byte)) : Event → List (List Byte)
  | .asyncFlush _ => []
  | _ => sent.filter (carriesData codec)

/-- Those that count as lost: everything the retransmit timer sends. -/
def lostBy (sent : List (List Byte)) : Event → List (List Byte)
  | .retransmitTimer .. => sent
  | _ => []

section Events
variable {codec : PacketCodec} {sent sent' : List (List Byte)}

@[simp] lemma countedBy_nil (e : Event) : countedBy codec [] e = [] := by
  cases e <;> rfl

@[simp] lemma lostBy_nil (e : Event) : lostBy [] e = [] := by
  cases e <;> rfl

lemma countedBy_append (e : Event) :
    countedBy codec (sent ++ sent') e = countedBy codec sent e ++ countedBy codec sent' e := by
  cases e <;> simp [countedBy]

lemma lostBy_append (e : Event) : lostBy (sent ++ sent') e = lostBy sent e ++ lostBy sent' e := by
  cases e <;> simp [lostBy]

lemma filter_carriesData (h : ∀ d ∈ sent, carriesData codec d = true) :
    sent.filter (carriesData codec) = sent :=
  List.filter_eq_self.mpr h

/-- What an event did from `io` to `io'`. -/
def Accounted (codec : PacketCodec) (e : Event) (io io' : Transport) : Prop :=
  ∃ sent got, Exchanged io io' sent (countedBy codec sent e) (lostBy sent e) got ∧
    (lostBy sent e).Sublist (countedBy codec sent e)

variable {e : Event} {a b c : Transport}

lemma Accounted.trans (h : Accounted codec e a b) (h' : Accounted codec e b c) :
    Accounted codec e a c := by
  obtain ⟨sent, got, hab, hlost⟩ := h
  obtain ⟨sent', got', hbc, hlost'⟩ := h'
  refine ⟨sent ++ sent', got ++ got', ?_, ?_⟩
  · rw [countedBy_append, lostBy_append]
    exact hab.trans hbc
  · rw [countedBy_append, lostBy_append]
    exact hlost.append hlost'

lemma Exchanged.accounted {got : List (List Byte)} (h : Exchanged a b [] [] [] got) :
    Accounted codec e a b := by
  refine ⟨[], got, ?_, ?_⟩
  · simpa using h
  · simp

end Events

section Channels
variable {O U : Type} {codec : LawfulCodec}

/-- Everything a channel may resend is a Data packet. -/
def StoresData (codec : PacketCodec) (c : ChannelVar O U) : Prop :=
  ∀ d ∈ resent c, carriesData codec d = true

lemma carriesData_dataPacket {C : Type} {ordered : Bool} {W : Window} (ch : Channel C ordered W)
    (payload : List Byte) : carriesData codec.toPacketCodec
      (codec.encodePacket (ch.dataPacket payload)) = true := by
  rw [carriesData_encode, (dataPacket_fields ch payload).1]
  rfl

lemma flush_accounted (c : ChannelVar O U) (io : Transport) (handler : ℕ) :
    Accounted codec.toPacketCodec (.asyncFlush handler) io (c.flush io) := by
  refine ⟨resent c, [], ?_, .refl _⟩
  rw [variant_flush]
  refine ⟨?_, ?_, rfl, rfl, rfl, rfl, rfl⟩
  · rw [resendAll, transmitted_append]
    congr 1
    rw [transmitted, List.filterMap_map]
    exact List.filterMap_some
  · simp [resendAll, delivered]

variable [CongestionCtrl O] [CongestionCtrl U]

lemma asyncSend_accounted (c : ChannelVar O U) (ch : Byte) (payload : List Byte) (handler : ℕ)
    (now : Time) (io : Transport) :
    Accounted codec.toPacketCodec (.asyncSend ch payload handler now) io
      (c.asyncSend codec.toPacketCodec payload handler now io).2 := by
  have hsent : ∀ {io' : Transport} {packet : Packet}, packet.type = .data →
      Exchanged io io' [codec.encodePacket packet] [codec.encodePacket packet] [] [] →
      Accounted codec.toPacketCodec (.asyncSend ch payload handler now) io io' := by
    intro io' packet htype h
    refine ⟨[codec.encodePacket packet], [], ?_, List.nil_sublist _⟩
    have hdata : carriesData codec.toPacketCodec (codec.encodePacket packet) = true := by
      rw [carriesData_encode, htype]
      rfl
    simpa [countedBy, lostBy, hdata] using h
  cases c with
  | unreliable chan =>
    simp only [ChannelVar.asyncSend, UnreliableChannel.Channel.asyncSend]
    split_ifs
    · exact (exchanged_emit io rfl rfl).accounted
    · exact hsent rfl (exchanged_counted rfl rfl rfl rfl rfl rfl)
  | ordered W chan =>
    rcases asyncSend_exchanged chan codec.toPacketCodec payload handler now io with hnone | hone
    · exact hnone.accounted
    · exact hsent (dataPacket_fields chan payload).1 hone
  | unordered W chan =>
    rcases asyncSend_exchanged chan codec.toPacketCodec payload handler now io with hnone | hone
    · exact hnone.accounted
    · exact hsent (dataPacket_fields chan payload).1 hone

lemma onTick_accounted {c : ChannelVar O U} (hc : StoresData codec.toPacketCodec c) (ec : ErrorCode)
    (now : Time) (io : Transport) :
    Accounted codec.toPacketCodec (.retransmitTimer ec now) io (c.onTick now io).2 := by
  have hreliable : ∀ {C : Type} [CongestionCtrl C] {ordered : Bool} {W : Window}
      (chan : Channel C ordered W),
      (∀ d ∈ chan.sentPackets.entries.map SentPacket.encodedPacket,
        carriesData codec.toPacketCodec d = true) →
      Accounted codec.toPacketCodec (.retransmitTimer ec now) io (chan.onTick now io).2 := by
    intro C _ ordered W chan hchan
    have hdue : ∀ d ∈ (dueAt chan now).map SentPacket.encodedPacket,
        carriesData codec.toPacketCodec d = true := by
      intro d hd
      obtain ⟨sp, hsp, rfl⟩ := List.mem_map.mp hd
      exact hchan _ (List.mem_map_of_mem (List.mem_of_mem_filter hsp))
    refine ⟨(dueAt chan now).map SentPacket.encodedPacket, [], ?_, ?_⟩
    · simp only [countedBy, lostBy, filter_carriesData hdue]
      exact onTick_exchanged chan now io
    · simp only [countedBy, lostBy, filter_carriesData hdue, List.Sublist.refl]
  cases c with
  | unreliable chan => exact (Exchanged.refl io).accounted
  | ordered W chan => exact hreliable chan hc
  | unordered W chan => exact hreliable chan hc

lemma onRecv_accounted (c : ChannelVar O U) (packet : Packet) (now : Time) (io : Transport)
    (e : Event) : Accounted codec.toPacketCodec e io (c.onRecv packet now io).2 := by
  cases c with
  | unreliable chan =>
    simp only [ChannelVar.onRecv, UnreliableChannel.Channel.onRecv]
    split_ifs
    · exact (Exchanged.refl io).accounted
    · exact (Exchanged.refl io).accounted
    · suffices h : Exchanged io _ [] [] [] [packet.payload] from h.accounted
      refine ⟨?_, ?_, rfl, rfl, rfl, rfl, ?_⟩
      · unfold RecvQueue.deliver
        cases chan.recvQueue.pendingRecv <;> simp [transmitted, completeRecv]
      · unfold RecvQueue.deliver
        cases chan.recvQueue.pendingRecv <;> simp [delivered, completeRecv]
      · simp [bytes]
  | ordered W chan =>
    obtain ⟨got, h⟩ := onRecv_exchanged chan packet now io
    exact h.accounted
  | unordered W chan =>
    obtain ⟨got, h⟩ := onRecv_exchanged chan packet now io
    exact h.accounted

theorem call_accounted {origin s : BasicSession O U} {e : Event} {k : ℕ} {call : Call}
    (cause : Causes codec.toPacketCodec origin s e k call) {c : ChannelVar O U}
    (hc : StoresData codec.toPacketCodec c) (io : Transport) :
    Accounted codec.toPacketCodec e io (call.run codec.toPacketCodec c io).2 := by
  cases cause with
  | asyncSend ch payload handler now => exact asyncSend_accounted c ch payload handler now io
  | sendCompleted position ch sequenceNumber handler ec now =>
    cases c with
    | unreliable chan => exact (Exchanged.refl io).accounted
    | ordered W chan => exact (sendCompleted_exchanged chan _ _ _ _ io).accounted
    | unordered W chan => exact (sendCompleted_exchanged chan _ _ _ _ io).accounted
  | asyncRecv ch buf handler =>
    simp only [Call.run, (variant_asyncRecv c buf handler io).2]
    exact (exchanged_emit io (transmitted_eq_nil (asyncRecv_silent _ _ _))
      (delivered_recvQueue_asyncRecv _ _ _)).accounted
  | onTick ec now => exact onTick_accounted hc ec now io
  | onRecv => exact onRecv_accounted c _ _ io _
  | flush handler => exact flush_accounted c io handler
  | close _ _ reason =>
    simp only [Call.run, (variant_close c _ io).2]
    exact (exchanged_emit io (transmitted_eq_nil (close_silent _ _))
      (Reception.delivered_close _ _)).accounted

theorem call_storesData (call : Call) {c : ChannelVar O U} (hc : StoresData codec.toPacketCodec c)
    (io : Transport) : StoresData codec.toPacketCodec (call.run codec.toPacketCodec c io).1 := by
  by_cases hsend : ∀ payload handler now, call ≠ .asyncSend payload handler now
  · exact fun d hd => hc d ((call_resends codec.toPacketCodec c io hsend).stored d hd)
  · push Not at hsend
    obtain ⟨payload, handler, now, rfl⟩ := hsend
    have hreliable : ∀ {C : Type} [CongestionCtrl C] {ordered : Bool} {W : Window}
        (chan : Channel C ordered W),
        (∀ d ∈ chan.sentPackets.entries.map SentPacket.encodedPacket,
          carriesData codec.toPacketCodec d = true) →
        ∀ d ∈ (chan.asyncSend codec.toPacketCodec payload handler now io).1.sentPackets.entries.map
          SentPacket.encodedPacket, carriesData codec.toPacketCodec d = true := by
      intro C _ ordered W chan hchan
      have hcases := asyncSend_cases chan codec.toPacketCodec payload handler now io
      generalize chan.asyncSend codec.toPacketCodec payload handler now io = r at hcases ⊢
      cases hcases with
      | refused => exact hchan
      | unencodable => exact hchan
      | collided => exact hchan
      | stored cc hroom hfree stats encodedPacket hencoded hne =>
        intro d hd
        obtain ⟨sp, hsp, rfl⟩ := List.mem_map.mp hd
        obtain ⟨j, hj⟩ := SlotTable.exists_get_of_mem_entries hsp
        rw [SlotTable.get_set _ W.pos] at hj
        split_ifs at hj
        · obtain rfl := Option.some.inj hj
          subst hencoded
          exact carriesData_dataPacket chan payload
        · exact hchan _ (List.mem_map_of_mem (SlotTable.mem_entries_of_get hj))
    cases c with
    | unreliable chan => exact fun d hd => absurd hd List.not_mem_nil
    | ordered W chan => exact hreliable chan hc
    | unordered W chan => exact hreliable chan hc

end Channels

section Runs
variable {O U : Type}

structure Audited (O U : Type) where
  session : BasicSession O U
  counted : List (List Byte) := []
  lost : List (List Byte) := []

def newlySent (s s' : BasicSession O U) : List (List Byte) :=
  (transmitted s'.io.log).drop (transmitted s.io.log).length

/-- All channels store Data packets and the counters are those of the run so far. -/
structure Balanced (codec : PacketCodec) (r : Audited O U) : Prop where
  stores : ∀ k < kMaxChannels, ∀ c, r.session.channels.get k = some c → StoresData codec c
  packetsSent : r.session.io.stats.packetsSent = r.counted.length
  bytesSent : r.session.io.stats.bytesSent = bytes r.counted
  packetsLost : r.session.io.stats.packetsLost = r.lost.length
  packetsRecv : r.session.io.stats.packetsRecv = (delivered r.session.io.log).length
  bytesRecv : r.session.io.stats.bytesRecv = bytes (delivered r.session.io.log)
  lost : r.lost.Sublist r.counted

lemma balanced_create (codec : PacketCodec) (config : SessionConfig) (cc : O) (cc' : U) :
    Balanced codec { session := BasicSession.create config cc cc' } := by
  refine ⟨?_, rfl, rfl, rfl, rfl, rfl, .refl _⟩
  intro k hk c hc d hd
  have hauth : Authored codec {} (BasicSession.create config cc cc') := authored_create config cc cc'
  obtain ⟨packet, n, _, _, _, _, hx⟩ := (hauth.numbers k hk c hc).stored d hd
  cases hx

variable {codec : LawfulCodec}

lemma own_accounted {s : BasicSession O U} {e : Event} {packet : Packet} (h : Own s e packet)
    (io : Transport) (completion : Completion) : Accounted codec.toPacketCodec e io
      (io.sendEncoded (codec.encodePacket packet) completion) := by
  have htype : packet.type ≠ .data := by
    intro hdata
    obtain ⟨_, hother | ⟨hdisconnect, _⟩⟩ := own_fields h
    · rw [hdata] at hother
      exact absurd hother (by decide)
    · rw [hdata] at hdisconnect
      cases hdisconnect
  have hplain : carriesData codec.toPacketCodec (codec.encodePacket packet) = false := by
    rw [carriesData_encode]
    exact decide_eq_false htype
  have hcounted : countedBy codec.toPacketCodec [codec.encodePacket packet] e = [] := by
    cases e <;> simp [countedBy, hplain]
  have hlost : lostBy [codec.encodePacket packet] e = [] := by
    cases h <;> rfl
  refine ⟨[codec.encodePacket packet], [], ?_, ?_⟩
  · rw [hcounted, hlost]
    exact exchanged_uncounted io _ completion
  · rw [hlost]
    exact List.nil_sublist _

variable [CongestionCtrl O] [CongestionCtrl U]

theorem step_accounted {s : BasicSession O U}
    (hs : ∀ k < kMaxChannels, ∀ c, s.channels.get k = some c → StoresData codec.toPacketCodec c)
    (e : Event) :
    (∀ k < kMaxChannels, ∀ c, (s.step codec.toPacketCodec e).channels.get k = some c →
      StoresData codec.toPacketCodec c) ∧
      Accounted codec.toPacketCodec e s.io (s.step codec.toPacketCodec e).io := by
  refine step_keeps codec.toPacketCodec (P := fun t =>
    (∀ k < kMaxChannels, ∀ c, t.channels.get k = some c → StoresData codec.toPacketCodec c) ∧
      Accounted codec.toPacketCodec e s.io t.io) ?_ ⟨hs, (Exchanged.refl _).accounted⟩
  rintro t t' ⟨hstores, hacc⟩ hmove
  cases hmove with
  | call k hk c hc call cause =>
    have hdata := hstores k hk c hc
    exact ⟨forall_put hk (call_storesData call hdata t.io) fun j hj _ => hstores j hj,
      hacc.trans (call_accounted cause hdata t.io)⟩
  | send packet completion hown hne =>
    exact ⟨hstores, hacc.trans (own_accounted hown t.io completion)⟩
  | report effect hreport =>
    refine ⟨hstores, hacc.trans (Exchanged.accounted (exchanged_emit t.io ?_ ?_))⟩
    · cases effect with
      | transmit => exact absurd hreport id
      | _ => rfl
    · cases effect with
      | deliver => exact absurd hreport id
      | _ => rfl
  | bookkeeping _ hbook =>
    rw [hbook.channels]
    refine ⟨hstores, hacc.trans (Exchanged.accounted (exchanged_nothing ?_ ?_ ?_ ?_ ?_ ?_ ?_))⟩
    all_goals simp only [hbook.log, hbook.stats]

def Audited.step (codec : PacketCodec) (r : Audited O U) (e : Event) : Audited O U :=
  let s' := r.session.step codec e
  { session := s'
    counted := r.counted ++ countedBy codec (newlySent r.session s') e
    lost := r.lost ++ lostBy (newlySent r.session s') e }

def Audited.run (codec : PacketCodec) (config : SessionConfig) (cc : O) (cc' : U)
    (events : List Event) : Audited O U :=
  events.foldl (Audited.step codec) { session := BasicSession.create config cc cc' }

theorem Balanced.step {r : Audited O U} (hr : Balanced codec.toPacketCodec r) (e : Event) :
    Balanced codec.toPacketCodec (r.step codec.toPacketCodec e) := by
  obtain ⟨hstores, sent, got, h, hlost⟩ := step_accounted hr.stores e
  have hsent : newlySent r.session (r.session.step codec.toPacketCodec e) = sent := by
    rw [newlySent, h.transmits, List.drop_left]
  refine ⟨hstores, ?_, ?_, ?_, ?_, ?_, ?_⟩
  · simp only [Audited.step, hsent, h.packetsSent, hr.packetsSent, List.length_append]
  · simp only [Audited.step, hsent, h.bytesSent, hr.bytesSent, bytes_append]
  · simp only [Audited.step, hsent, h.packetsLost, hr.packetsLost, List.length_append]
  · simp only [Audited.step, h.packetsRecv, hr.packetsRecv, h.hands, List.length_append]
  · simp only [Audited.step, h.bytesRecv, hr.bytesRecv, h.hands, bytes_append]
  · simp only [Audited.step, hsent]
    exact hr.lost.append hlost

/-- In every run the counters of a session are those of its trace: packets and bytes sent are the
Data packets it put on the wire except the resends of a flush, packets lost are those the retransmit
timer put there, and packets and bytes received are the payloads handed over. -/
theorem counters_exact (codec : LawfulCodec) (config : SessionConfig) (cc : O) (cc' : U)
    (events : List Event) :
    let r := Audited.run codec.toPacketCodec config cc cc' events
    let stats := r.session.io.stats
    stats.packetsSent = r.counted.length ∧ stats.bytesSent = bytes r.counted ∧
      stats.packetsLost = r.lost.length ∧ r.lost.Sublist r.counted ∧
      stats.packetsRecv = (delivered r.session.io.log).length ∧
      stats.bytesRecv = bytes (delivered r.session.io.log) := by
  have h : Balanced codec.toPacketCodec (Audited.run codec.toPacketCodec config cc cc' events) :=
    List.foldlRecOn events (Audited.step codec.toPacketCodec)
      (motive := Balanced codec.toPacketCodec) (balanced_create _ config cc cc')
      fun _ hr e _ => hr.step e
  exact ⟨h.packetsSent, h.bytesSent, h.packetsLost, h.lost, h.packetsRecv, h.bytesRecv⟩

end Runs
end ReliableUdp.SessionStatistics
