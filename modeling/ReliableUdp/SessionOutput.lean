import ReliableUdp.SessionMoves
import ReliableUdp.DefaultCodec

/-! Everything a session hands to its socket: Data packets that carry the numbered payloads of a
channel under their index modulo 65536, and packets of the session itself without payload. -/
namespace ReliableUdp.SessionOutput
open Protocol ChannelCommon ReliableChannel OrderedReceiver ReliableSender Session SessionSteps
open SessionMoves

variable {O U : Type}

def channelId : ChannelVar O U → Byte
  | .unreliable ch => ch.id
  | .ordered _ ch => ch.id
  | .unordered _ ch => ch.id

def nextSeq : ChannelVar O U → Seq
  | .unreliable ch => ch.nextSeq
  | .ordered _ ch => ch.nextSeq
  | .unordered _ ch => ch.nextSeq

/-- A datagram that encodes the Data packet of slot `k` for one of the payloads in `sent`. -/
def EncodesData (codec : PacketCodec) (k : ℕ) (sent : List (List Byte)) (d : List Byte) : Prop :=
  ∃ packet n, d = codec.encodePacket packet ∧ packet.type = .data ∧ packet.channel.toNat = k ∧
    packet.seq = wire n ∧ sent[n]? = some packet.payload

lemma EncodesData.mono {codec : PacketCodec} {k : ℕ} {sent sent' : List (List Byte)}
    {d : List Byte} (h : EncodesData codec k sent d) (hp : sent <+: sent') :
    EncodesData codec k sent' d := by
  obtain ⟨packet, n, hd, htype, hk, hseq, hx⟩ := h
  obtain ⟨rest, rfl⟩ := hp
  refine ⟨packet, n, hd, htype, hk, hseq, ?_⟩
  rw [List.getElem?_append_left (List.getElem?_eq_some_iff.mp hx).1, hx]

/-- The channel of slot `k` when `sent` lists the payloads that got a sequence number on it. -/
structure Numbers (codec : PacketCodec) (k : ℕ) (sent : List (List Byte)) (c : ChannelVar O U) :
    Prop where
  id : (channelId c).toNat = k
  next : nextSeq c = wire sent.length
  stored : ∀ d ∈ resent c, EncodesData codec k sent d

/-- An operation that numbers no payload: it stores nothing new and sends only what is stored. -/
structure Resends (c c' : ChannelVar O U) (io io' : Transport) : Prop where
  id : channelId c' = channelId c
  next : nextSeq c' = nextSeq c
  stored : ∀ d ∈ resent c', d ∈ resent c
  sent : ∀ d ∈ transmitted io'.log, d ∈ transmitted io.log ∨ d ∈ resent c

lemma resends_of_same {c c' : ChannelVar O U} {io io' : Transport}
    (hid : channelId c' = channelId c) (hnext : nextSeq c' = nextSeq c)
    (hstored : resent c' = resent c) (hsent : transmitted io'.log = transmitted io.log) :
    Resends c c' io io' :=
  ⟨hid, hnext, fun _ hd => hstored ▸ hd, fun _ hd => Or.inl (hsent ▸ hd)⟩

lemma transmitted_eq_nil {effects : List Effect} (h : ∀ dst d, Effect.transmit dst d ∉ effects) :
    transmitted effects = [] := by
  rw [transmitted, List.filterMap_eq_nil_iff]
  intro effect he
  cases effect with
  | transmit dst d => exact absurd he (h dst d)
  | _ => rfl

/-- A packet of the store after an operation that keeps the datagrams of all stored packets. -/
lemma mem_encoded {W : Window} {t t' : SlotTable SentPacket W.size}
    (h : ∀ k sp', t'.get k = some sp' →
      ∃ sp, t.get k = some sp ∧ sp'.encodedPacket = sp.encodedPacket) :
    ∀ d ∈ t'.entries.map SentPacket.encodedPacket, d ∈ t.entries.map SentPacket.encodedPacket := by
  intro d hd
  obtain ⟨sp', hsp', rfl⟩ := List.mem_map.mp hd
  obtain ⟨k, hk⟩ := SlotTable.exists_get_of_mem_entries hsp'
  obtain ⟨sp, hsp, he⟩ := h k sp' hk
  exact List.mem_map.mpr ⟨sp, SlotTable.mem_entries_of_get hsp, he.symm⟩

section Reliable
variable {C : Type} {ordered : Bool} {W : Window}

structure ResendsStored (ch ch' : Channel C ordered W) (io io' : Transport) : Prop where
  id : ch'.id = ch.id
  next : ch'.nextSeq = ch.nextSeq
  stored : ∀ d ∈ ch'.sentPackets.entries.map SentPacket.encodedPacket,
    d ∈ ch.sentPackets.entries.map SentPacket.encodedPacket
  sent : ∀ d ∈ transmitted io'.log,
    d ∈ transmitted io.log ∨ d ∈ ch.sentPackets.entries.map SentPacket.encodedPacket

lemma ResendsStored.of_ordered {ch ch' : Channel O true W} {io io' : Transport}
    (h : ResendsStored ch ch' io io') :
    Resends (.ordered W ch : ChannelVar O U) (.ordered W ch') io io' :=
  ⟨h.id, h.next, h.stored, h.sent⟩

lemma ResendsStored.of_unordered {ch ch' : Channel U false W} {io io' : Transport}
    (h : ResendsStored ch ch' io io') :
    Resends (.unordered W ch : ChannelVar O U) (.unordered W ch') io io' :=
  ⟨h.id, h.next, h.stored, h.sent⟩

variable [CongestionCtrl C]

lemma sendCompleted_resends (ch : Channel C ordered W) (sequenceNumber : Seq) (handler : ℕ)
    (ec : ErrorCode) (now : Time) (io : Transport) :
    ResendsStored ch (ch.sendCompleted sequenceNumber handler ec now io).1 io
      (ch.sendCompleted sequenceNumber handler ec now io).2 := by
  obtain ⟨hframe, hnext⟩ := sendCompleted_frame ch sequenceNumber handler ec now io
  refine ⟨hframe.id, hnext, mem_encoded ?_, ?_⟩
  · intro k sp hk
    rcases sendCompleted_get ch sequenceNumber handler ec now io k with he | ⟨_, he, _⟩
    · exact ⟨sp, he ▸ hk, rfl⟩
    · rw [he] at hk
      cases hk
  · intro d hd
    unfold Channel.sendCompleted at hd
    split_ifs at hd <;> simpa [transmitted] using Or.inl hd

lemma onTick_resends (ch : Channel C ordered W) (now : Time) (io : Transport) :
    ResendsStored ch (ch.onTick now io).1 io (ch.onTick now io).2 := by
  refine ⟨rfl, rfl, mem_encoded ?_, ?_⟩
  · intro k sp hk
    rw [onTick_get] at hk
    obtain ⟨sp0, hsp0, _, hbytes⟩ := ticked_some hk
    exact ⟨sp0, hsp0, hbytes⟩
  · intro d hd
    rw [onTick_transmitted, List.mem_append] at hd
    refine hd.imp_right fun hdue => ?_
    obtain ⟨sp, hsp, rfl⟩ := List.mem_map.mp hdue
    exact List.mem_map_of_mem (List.mem_of_mem_filter hsp)

lemma onRecv_resends (ch : Channel C ordered W) (packet : Packet) (now : Time) (io : Transport) :
    ResendsStored ch (ch.onRecv packet now io).1 io (ch.onRecv packet now io).2 := by
  by_cases hack : packet.type = .ack
  · have hrecv : ch.onRecv packet now io = ch.processAck packet.ack packet.ackBits now io := by
      rw [Channel.onRecv, if_pos hack]
    rw [hrecv]
    refine ⟨rfl, rfl, mem_encoded ?_, ?_⟩
    · intro k sp hk
      rw [processAck_get] at hk
      cases hg : ch.sentPackets.get k with
      | none => rw [hg] at hk; cases hk
      | some sp0 =>
        rw [hg] at hk
        simp only [acked] at hk
        split_ifs at hk
        obtain rfl := Option.some.inj hk
        exact ⟨sp0, rfl, rfl⟩
    · intro d hd
      rw [processAck_log] at hd
      exact Or.inl hd
  · have hrecv := onRecv_receiveOnly ch hack now io
    refine ⟨hrecv.sender.id, hrecv.sender.nextSeq, ?_, ?_⟩
    · intro d hd
      rwa [hrecv.sender.sentPackets] at hd
    · intro d hd
      rw [hrecv.transmitted] at hd
      exact Or.inl hd

end Reliable

section Calls

lemma asyncRecv_resends (c : ChannelVar O U) (buf handler : ℕ) (io : Transport) :
    Resends c (c.asyncRecv buf handler io).1 io (c.asyncRecv buf handler io).2 := by
  have hio := (variant_asyncRecv c buf handler io).2
  have hsent : transmitted (c.asyncRecv buf handler io).2.log = transmitted io.log := by
    rw [hio, Transport.emit_log, transmitted_append,
      transmitted_eq_nil (asyncRecv_silent c.recvQueue buf handler), List.append_nil]
  cases c <;> exact resends_of_same rfl rfl rfl hsent

lemma close_resends (c : ChannelVar O U) (reason : ErrorCode) (io : Transport) :
    Resends c (c.close reason io).1 io (c.close reason io).2 := by
  have hio := (variant_close c reason io).2
  have hsent : transmitted (c.close reason io).2.log = transmitted io.log := by
    rw [hio, Transport.emit_log, transmitted_append,
      transmitted_eq_nil (close_silent c.recvQueue reason), List.append_nil]
  cases c <;> exact resends_of_same rfl rfl rfl hsent

lemma flush_resends (c : ChannelVar O U) (io : Transport) : Resends c c io (c.flush io) := by
  refine ⟨rfl, rfl, fun _ hd => hd, ?_⟩
  intro d hd
  cases c with
  | unreliable ch => exact Or.inl hd
  | ordered W ch => exact List.mem_append.mp (flush_transmitted ch io ▸ hd)
  | unordered W ch => exact List.mem_append.mp (flush_transmitted ch io ▸ hd)

lemma unreliable_onRecv_resends (ch : UnreliableChannel.Channel) (packet : Packet) (io : Transport) :
    Resends (.unreliable ch : ChannelVar O U) (.unreliable (ch.onRecv packet io).1) io
      (ch.onRecv packet io).2 := by
  unfold UnreliableChannel.Channel.onRecv
  split_ifs
  · exact resends_of_same rfl rfl rfl rfl
  · exact resends_of_same rfl rfl rfl rfl
  · refine resends_of_same rfl rfl rfl ?_
    unfold RecvQueue.deliver
    cases ch.recvQueue.pendingRecv <;> simp [transmitted, completeRecv]

variable [CongestionCtrl O] [CongestionCtrl U]

theorem call_resends (codec : PacketCodec) (c : ChannelVar O U) (io : Transport) {call : Call}
    (h : ∀ payload handler now, call ≠ .asyncSend payload handler now) :
    Resends c (call.run codec c io).1 io (call.run codec c io).2 := by
  cases call with
  | asyncSend payload handler now => exact absurd rfl (h payload handler now)
  | sendCompleted sequenceNumber handler ec now =>
    cases c with
    | unreliable ch => exact resends_of_same rfl rfl rfl rfl
    | ordered W ch =>
      exact (sendCompleted_resends ch sequenceNumber handler ec now io).of_ordered
    | unordered W ch =>
      exact (sendCompleted_resends ch sequenceNumber handler ec now io).of_unordered
  | asyncRecv buf handler => exact asyncRecv_resends c buf handler io
  | onTick now =>
    cases c with
    | unreliable ch => exact resends_of_same rfl rfl rfl rfl
    | ordered W ch => exact (onTick_resends ch now io).of_ordered
    | unordered W ch => exact (onTick_resends ch now io).of_unordered
  | onRecv packet now =>
    cases c with
    | unreliable ch => exact unreliable_onRecv_resends ch packet io
    | ordered W ch => exact (onRecv_resends ch packet now io).of_ordered
    | unordered W ch => exact (onRecv_resends ch packet now io).of_unordered
  | flush => exact flush_resends c io
  | close reason => exact close_resends c reason io

end Calls

section Numbering
variable {codec : PacketCodec} {k : ℕ} {sent : List (List Byte)}

lemma Resends.numbers {c c' : ChannelVar O U} {io io' : Transport} (h : Resends c c' io io')
    (hc : Numbers codec k sent c) : Numbers codec k sent c' :=
  ⟨by rw [h.id]; exact hc.id, h.next.trans hc.next, fun d hd => hc.stored d (h.stored d hd)⟩

/-- The payload of a send that moved the next sequence number from `before` to `after`. -/
def numbered (before after : Seq) (payload : List Byte) : List (List Byte) :=
  if after = before then [] else [payload]

lemma numbered_same (before : Seq) (payload : List Byte) : numbered before before payload = [] :=
  if_pos rfl

lemma numbered_succ (before : Seq) (payload : List Byte) :
    numbered before (before + 1) payload = [payload] := by
  unfold numbered
  rw [if_neg (by simp)]

lemma wire_concat {next : Seq} (hnext : next = wire sent.length) (payload : List Byte) :
    next + 1 = wire (sent ++ [payload]).length := by
  rw [hnext, ← wire_succ, List.length_append]
  rfl

/-- A send of a reliable channel numbers its payload or changes nothing the peer can see. -/
lemma reliable_asyncSend {C : Type} [CongestionCtrl C] {ordered : Bool} {W : Window}
    {ch : Channel C ordered W} (hid : ch.id.toNat = k) (hnext : ch.nextSeq = wire sent.length)
    (hstored : ∀ d ∈ ch.sentPackets.entries.map SentPacket.encodedPacket,
      EncodesData codec k sent d)
    (payload : List Byte) (handler : ℕ) (now : Time) (io : Transport)
    {r : Channel C ordered W × Transport} (hr : r = ch.asyncSend codec payload handler now io)
    {sent' : List (List Byte)} (hsent : sent' = sent ++ numbered ch.nextSeq r.1.nextSeq payload) :
    r.1.id = ch.id ∧ r.1.nextSeq = wire sent'.length ∧
      (∀ d ∈ r.1.sentPackets.entries.map SentPacket.encodedPacket, EncodesData codec k sent' d) ∧
      ∀ d ∈ transmitted r.2.log, d ∈ transmitted io.log ∨ EncodesData codec k sent' d := by
  have hmono : ∀ d ∈ ch.sentPackets.entries.map SentPacket.encodedPacket,
      EncodesData codec k (sent ++ [payload]) d :=
    fun d hd => (hstored d hd).mono (List.prefix_append _ _)
  have hcases := asyncSend_cases ch codec payload handler now io
  rw [← hr] at hcases
  cases hcases with
  | refused cc hfull =>
    rw [numbered_same, List.append_nil] at hsent
    subst hsent
    exact ⟨rfl, hnext, hstored, fun d hd => Or.inl (by simpa [transmitted] using hd)⟩
  | unencodable cc hroom hempty =>
    rw [numbered_succ] at hsent
    subst hsent
    exact ⟨rfl, wire_concat hnext payload, hmono,
      fun d hd => Or.inl (by simpa [transmitted] using hd)⟩
  | collided cc hroom old hold =>
    rw [numbered_succ] at hsent
    subst hsent
    exact ⟨rfl, wire_concat hnext payload, hmono,
      fun d hd => Or.inl (by simpa [transmitted] using hd)⟩
  | stored cc hroom hfree stats d hd hne =>
    rw [numbered_succ] at hsent
    subst hsent
    have hfresh : EncodesData codec k (sent ++ [payload]) d := by
      obtain ⟨htype, hseq, hpay⟩ := dataPacket_fields ch payload
      refine ⟨ch.dataPacket payload, sent.length, hd, htype, ?_, hseq.trans hnext, by simp [hpay]⟩
      unfold Channel.dataPacket Channel.attachAck
      split_ifs <;> exact hid
    refine ⟨rfl, wire_concat hnext payload, ?_, ?_⟩
    · intro d' hd'
      obtain ⟨sp, hsp, rfl⟩ := List.mem_map.mp hd'
      obtain ⟨j, hj⟩ := SlotTable.exists_get_of_mem_entries hsp
      rw [SlotTable.get_set _ W.pos] at hj
      split_ifs at hj
      · obtain rfl := Option.some.inj hj
        exact hfresh
      · exact hmono _ (List.mem_map_of_mem (SlotTable.mem_entries_of_get hj))
    · intro d' hd'
      rw [transmitted_sendEncoded, List.mem_append, List.mem_singleton] at hd'
      rcases hd' with hold | rfl
      · exact Or.inl hold
      · exact Or.inr hfresh

lemma unreliable_asyncSend {ch : UnreliableChannel.Channel} (hid : ch.id.toNat = k)
    (hnext : ch.nextSeq = wire sent.length) (payload : List Byte) (handler : ℕ) (io : Transport) :
    (ch.asyncSend codec payload handler io).1.id = ch.id ∧
      (ch.asyncSend codec payload handler io).1.nextSeq = ch.nextSeq + 1 ∧
      ∀ d ∈ transmitted (ch.asyncSend codec payload handler io).2.log,
        d ∈ transmitted io.log ∨ EncodesData codec k (sent ++ [payload]) d := by
  unfold UnreliableChannel.Channel.asyncSend
  dsimp only
  split_ifs
  · exact ⟨rfl, rfl, fun d hd => Or.inl (by simpa [transmitted] using hd)⟩
  · refine ⟨rfl, rfl, fun d hd => ?_⟩
    rw [transmitted_sendEncoded, List.mem_append, List.mem_singleton] at hd
    rcases hd with hold | rfl
    · exact Or.inl hold
    · exact Or.inr ⟨ch.dataPacket payload, sent.length, rfl, rfl, hid, hnext,
        by simp [UnreliableChannel.Channel.dataPacket]⟩

variable [CongestionCtrl O] [CongestionCtrl U]

theorem asyncSend_numbers {c : ChannelVar O U} (hc : Numbers codec k sent c) (payload : List Byte)
    (handler : ℕ) (now : Time) (io : Transport) {sent' : List (List Byte)}
    (hsent : sent' = sent ++
      numbered (nextSeq c) (nextSeq (c.asyncSend codec payload handler now io).1) payload) :
    Numbers codec k sent' (c.asyncSend codec payload handler now io).1 ∧
      ∀ d ∈ transmitted (c.asyncSend codec payload handler now io).2.log,
        d ∈ transmitted io.log ∨ EncodesData codec k sent' d := by
  cases c with
  | unreliable ch =>
    obtain ⟨hid, hnext, hout⟩ := unreliable_asyncSend hc.id hc.next payload handler io
    have hgrown : sent' = sent ++ [payload] := by
      rw [hsent]
      exact congrArg (sent ++ ·) ((congrArg (numbered ch.nextSeq · payload) hnext).trans
        (numbered_succ ch.nextSeq payload))
    subst hgrown
    exact ⟨⟨(congrArg BitVec.toNat hid).trans hc.id, hnext.trans (wire_concat hc.next payload),
      fun d hd => absurd hd List.not_mem_nil⟩, hout⟩
  | ordered W ch =>
    obtain ⟨hid, hnext, hstored, hout⟩ :=
      reliable_asyncSend hc.id hc.next hc.stored payload handler now io rfl hsent
    exact ⟨⟨(congrArg BitVec.toNat hid).trans hc.id, hnext, hstored⟩, hout⟩
  | unordered W ch =>
    obtain ⟨hid, hnext, hstored, hout⟩ :=
      reliable_asyncSend hc.id hc.next hc.stored payload handler now io rfl hsent
    exact ⟨⟨(congrArg BitVec.toNat hid).trans hc.id, hnext, hstored⟩, hout⟩

end Numbering

section Session

/-- What the application asked of a session so far: the payloads that got a sequence number, slot
by slot, and whether it disconnected while the session was open. -/
structure Record where
  sent : ℕ → List (List Byte) := fun _ => []
  disconnecting : Bool := false

/-- What a session may hand to its socket: a Data packet of one of its channels, or a packet of
its own, which has no payload. -/
inductive Outgoing (codec : PacketCodec) (g : Record) (d : List Byte) : Prop
  | data (k : ℕ) (hk : k < kMaxChannels) (h : EncodesData codec k (g.sent k) d)
  | control (packet : Packet) (hd : d = codec.encodePacket packet) (hempty : packet.payload = [])
      (htype : packet.type ∈ [PacketType.ack, .keepalive, .handshakeAck] ∨
        packet.type = .disconnect ∧ g.disconnecting = true)

structure Extends (g g' : Record) : Prop where
  sent : ∀ k, g.sent k <+: g'.sent k
  disconnecting : g.disconnecting = true → g'.disconnecting = true

variable {codec : PacketCodec} {g : Record}

lemma Outgoing.mono {g' : Record} {d : List Byte} (h : Outgoing codec g d) (hg : Extends g g') :
    Outgoing codec g' d := by
  cases h with
  | data k hk h => exact .data k hk (h.mono (hg.sent k))
  | control packet hd hempty htype =>
    exact .control packet hd hempty (htype.imp_right fun h => ⟨h.1, hg.disconnecting h.2⟩)

/-- The channels number their payloads as recorded and everything sent is accounted for. -/
structure Authored (codec : PacketCodec) (g : Record) (s : BasicSession O U) : Prop where
  numbers : ∀ k < kMaxChannels, ∀ c, s.channels.get k = some c → Numbers codec k (g.sent k) c
  output : ∀ d ∈ transmitted s.io.log, Outgoing codec g d

lemma forall_put {s : BasicSession O U} {P : ℕ → ChannelVar O U → Prop} {k : ℕ}
    (hk : k < kMaxChannels) {r : ChannelVar O U × Transport} (hr : P k r.1)
    (h : ∀ j < kMaxChannels, j ≠ k → ∀ c, s.channels.get j = some c → P j c) :
    ∀ j < kMaxChannels, ∀ c, (put s k r).channels.get j = some c → P j c := by
  intro j hj c hc
  simp only [put] at hc
  rw [SlotTable.get_set _ kMaxChannels_pos] at hc
  split_ifs at hc with hjk
  · obtain rfl := Option.some.inj hc
    rw [Nat.mod_eq_of_lt hk, Nat.mod_eq_of_lt hj] at hjk
    exact hjk ▸ hr
  · exact h j hj (fun he => hjk (by rw [he])) c hc

lemma buildAck_fields {c : ChannelVar O U} {packet : Packet} (h : c.buildAck = some packet) :
    packet.type = .ack ∧ packet.payload = [] := by
  have hreliable : ∀ {C : Type} {ordered : Bool} {W : Window} (ch : Channel C ordered W),
      ch.buildAck = some packet → packet.type = .ack ∧ packet.payload = [] := by
    intro C ordered W ch hch
    unfold Channel.buildAck at hch
    split_ifs at hch
    obtain rfl := Option.some.inj hch
    exact ⟨rfl, rfl⟩
  cases c with
  | unreliable ch => cases h
  | ordered W ch => exact hreliable ch h
  | unordered W ch => exact hreliable ch h

lemma own_fields {s : BasicSession O U} {e : Event} {packet : Packet} (h : Own s e packet) :
    packet.payload = [] ∧ (packet.type ∈ [PacketType.ack, .keepalive, .handshakeAck] ∨
      packet.type = .disconnect ∧ ∃ handler, e = .asyncDisconnect handler) := by
  cases h with
  | keepalive => exact ⟨rfl, Or.inl (by simp)⟩
  | handshakeAck => exact ⟨rfl, Or.inl (by simp)⟩
  | ack _ _ _ _ _ _ _ _ hack =>
    obtain ⟨htype, hempty⟩ := buildAck_fields hack
    exact ⟨hempty, Or.inl (by simp [htype])⟩
  | disconnect handler => exact ⟨rfl, Or.inr ⟨rfl, handler, rfl⟩⟩

lemma transmitted_report {origin : BasicSession O U} {e : Event} {effect : Effect}
    (h : Report codec origin e effect) (log : List Effect) :
    transmitted (log ++ [effect]) = transmitted log := by
  cases effect with
  | transmit => exact absurd h id
  | deliver => exact absurd h id
  | _ => simp [transmitted]

/-- The payloads an event gave a sequence number on slot `k`. -/
def numberedBy (s s' : BasicSession O U) (k : ℕ) : Event → List (List Byte)
  | .asyncSend ch payload _ _ =>
    match s.channel? ch, s'.channel? ch with
    | some c, some c' => if ch.toNat = k then numbered (nextSeq c) (nextSeq c') payload else []
    | _, _ => []
  | _ => []

def Record.after (g : Record) (s s' : BasicSession O U) (e : Event) : Record where
  sent k := g.sent k ++ numberedBy s s' k e
  disconnecting := g.disconnecting || match e with
    | .asyncDisconnect _ => !s.closed
    | _ => false

lemma extends_after (g : Record) (s s' : BasicSession O U) (e : Event) :
    Extends g (g.after s s' e) :=
  ⟨fun _ => List.prefix_append _ _, fun h => by simp [Record.after, h]⟩

lemma Authored.mono {s : BasicSession O U} (hs : Authored codec g s) {g' : Record}
    (hg : Extends g g') (hsent : g'.sent = g.sent) : Authored codec g' s :=
  ⟨by rw [hsent]; exact hs.numbers, fun d hd => (hs.output d hd).mono hg⟩

lemma Authored.emit {origin s : BasicSession O U} {e : Event} (hs : Authored codec g s)
    {effect : Effect} (h : Report codec origin e effect) : Authored codec g (s.emit [effect]) := by
  refine ⟨hs.numbers, ?_⟩
  simp only [BasicSession.emit, Transport.emit_log, transmitted_report h]
  exact hs.output

lemma channel?_put {s : BasicSession O U} {ch : Byte} (hch : ch.toNat < kMaxChannels)
    (r : ChannelVar O U × Transport) : (put s ch.toNat r).channel? ch = some r.1 := by
  unfold BasicSession.channel? put
  rw [if_pos hch]
  exact SlotTable.get_set_same _ kMaxChannels_pos rfl _

lemma numberedBy_emit (s : BasicSession O U) (effects : List Effect) (k : ℕ) (e : Event) :
    numberedBy s (s.emit effects) k e = [] := by
  cases e with
  | asyncSend ch payload handler now =>
    have hsame : (s.emit effects).channel? ch = s.channel? ch := rfl
    simp only [numberedBy, hsame]
    cases s.channel? ch with
    | none => rfl
    | some c => simp [numbered_same]
  | _ => rfl

lemma authored_create (config : SessionConfig) (cc : O) (cc' : U) :
    Authored codec {} (BasicSession.create config cc cc') := by
  have hfold : ∀ (cfgs : List ChannelConfig) (t : SlotTable (ChannelVar O U) kMaxChannels),
      (∀ k < kMaxChannels, ∀ c, t.get k = some c → Numbers codec k [] c) →
      ∀ k < kMaxChannels, ∀ c, (cfgs.foldl (BasicSession.openChannel cc cc') t).get k = some c →
        Numbers codec k [] c := by
    intro cfgs
    induction cfgs with
    | nil => intro t ht; exact ht
    | cons cfg cfgs ih =>
      intro t ht
      apply ih
      intro k hk c hc
      unfold BasicSession.openChannel at hc
      split_ifs at hc with hid
      · exact ht k hk c hc
      · rw [SlotTable.get_set _ kMaxChannels_pos] at hc
        split_ifs at hc with hslot
        · obtain rfl := Option.some.inj hc
          rw [Nat.mod_eq_of_lt (not_le.mp hid), Nat.mod_eq_of_lt hk] at hslot
          have hempty : ∀ {W : Window},
              (SlotTable.empty SentPacket W.size).entries.map SentPacket.encodedPacket = [] := by
            intro W
            rw [List.map_eq_nil_iff, ← List.length_eq_zero_iff]
            exact SlotTable.occupied_empty
          have hstored : ∀ {W : Window}, ∀ d ∈ (SlotTable.empty SentPacket W.size).entries.map
              SentPacket.encodedPacket, EncodesData codec k [] d := by
            intro W d hd
            rw [hempty] at hd
            cases hd
          cases cfg.mode with
          | reliableOrdered => exact ⟨hslot, rfl, hstored⟩
          | reliableUnordered => exact ⟨hslot, rfl, hstored⟩
          | unreliableSequenced => exact ⟨hslot, rfl, fun d hd => absurd hd List.not_mem_nil⟩
        · exact ht k hk c hc
  refine ⟨hfold config.channels _ ?_, fun d hd => absurd hd List.not_mem_nil⟩
  intro k _ c hc
  rw [SlotTable.get_empty] at hc
  cases hc

section Steps
variable [CongestionCtrl O] [CongestionCtrl U]

theorem Authored.move {origin s s' : BasicSession O U} {e : Event}
    (hs : Authored codec g s) (hmove : Move codec origin e s s')
    (hsend : ∀ ch payload handler now, e ≠ .asyncSend ch payload handler now)
    (hdisconnect : ∀ handler, e = .asyncDisconnect handler → g.disconnecting = true) :
    Authored codec g s' := by
  cases hmove with
  | call k hk c hc call cause =>
    have hcall : ∀ payload handler now, call ≠ .asyncSend payload handler now := by
      rintro payload handler now rfl
      cases cause
      exact hsend _ _ _ _ rfl
    have hnum := hs.numbers k hk c hc
    have hr := call_resends codec c s.io hcall
    refine ⟨forall_put hk (hr.numbers hnum) (fun j hj _ => hs.numbers j hj), ?_⟩
    intro d hd
    rcases hr.sent d hd with hold | hstored
    · exact hs.output d hold
    · exact .data k hk (hnum.stored d hstored)
  | send packet completion hown hne =>
    refine ⟨hs.numbers, ?_⟩
    intro d hd
    rw [transmitted_sendEncoded, List.mem_append, List.mem_singleton] at hd
    rcases hd with hold | rfl
    · exact hs.output d hold
    · obtain ⟨hempty, htype⟩ := own_fields hown
      exact .control packet rfl hempty
        (htype.imp_right fun h => ⟨h.1, h.2.elim fun handler => hdisconnect handler⟩)
  | report effect h => exact hs.emit h
  | bookkeeping _ h =>
    refine ⟨?_, ?_⟩
    · rw [h.channels]
      exact hs.numbers
    · rw [h.log]
      exact hs.output

lemma asyncSend_outcome (codec : PacketCodec) (s : BasicSession O U) (ch : Byte)
    (payload : List Byte) (handler : ℕ) (now : Time) :
    (∃ ec, s.asyncSend codec ch payload handler now = s.emit [.sendDone handler ec]) ∨
      ∃ c, s.channel? ch = some c ∧ payload.length + codec.maxOverhead ≤ s.config.mtu ∧
        s.asyncSend codec ch payload handler now =
          put s ch.toNat (c.asyncSend codec payload handler now s.io) := by
  unfold BasicSession.asyncSend
  by_cases hclosed : s.closed = true
  · rw [if_pos hclosed]
    exact Or.inl ⟨_, rfl⟩
  · rw [if_neg hclosed]
    cases hc : s.channel? ch with
    | none => exact Or.inl ⟨_, rfl⟩
    | some c =>
      dsimp only
      split_ifs with hlarge
      · exact Or.inl ⟨_, rfl⟩
      · exact Or.inr ⟨c, rfl, by omega, rfl⟩

theorem Authored.asyncSend {s : BasicSession O U} (hs : Authored codec g s) (ch : Byte)
    (payload : List Byte) (handler : ℕ) (now : Time) :
    Authored codec (g.after s (s.asyncSend codec ch payload handler now)
      (.asyncSend ch payload handler now)) (s.asyncSend codec ch payload handler now) := by
  have hext := extends_after g s (s.asyncSend codec ch payload handler now)
    (.asyncSend ch payload handler now)
  rcases asyncSend_outcome codec s ch payload handler now with ⟨ec, he⟩ | ⟨c, hc, _, he⟩
  · rw [he] at hext ⊢
    refine (hs.emit (show Report codec s .cancel (.sendDone handler ec) from trivial)).mono hext ?_
    funext k
    simp [Record.after, numberedBy_emit]
  · obtain ⟨hlt, hget⟩ := channel?_some hc
    rw [he] at hext ⊢
    have hgrown : ∀ k, (g.after s (put s ch.toNat (c.asyncSend codec payload handler now s.io))
        (.asyncSend ch payload handler now)).sent k = g.sent k ++ if ch.toNat = k then
          numbered (nextSeq c) (nextSeq (c.asyncSend codec payload handler now s.io).1) payload
        else [] := by
      intro k
      simp only [Record.after, numberedBy, hc, channel?_put hlt]
    have hnum := asyncSend_numbers (hs.numbers _ hlt c hget) payload handler now s.io
      ((hgrown ch.toNat).trans (by rw [if_pos rfl]))
    refine ⟨forall_put hlt hnum.1 ?_, ?_⟩
    · intro j hj hne c' hc'
      rw [hgrown, if_neg (Ne.symm hne), List.append_nil]
      exact hs.numbers j hj c' hc'
    · intro d hd
      rcases hnum.2 d hd with hold | hnew
      · exact (hs.output d hold).mono hext
      · exact .data ch.toNat hlt hnew

omit [CongestionCtrl O] [CongestionCtrl U] in
lemma asyncDisconnect_closed (codec : PacketCodec) {s : BasicSession O U} (h : s.closed = true)
    (handler : ℕ) : s.asyncDisconnect codec handler = s.emit [.sendDone handler .none] := by
  unfold BasicSession.asyncDisconnect
  rw [if_pos h]

theorem Authored.step {s : BasicSession O U} (hs : Authored codec g s) (e : Event) :
    Authored codec (g.after s (s.step codec e) e) (s.step codec e) := by
  have hkeep : (∀ ch payload handler now, e ≠ .asyncSend ch payload handler now) →
      (∀ handler, e = .asyncDisconnect handler → s.closed = false) →
      Authored codec (g.after s (s.step codec e) e) (s.step codec e) := by
    intro hsend hopen
    have hsame : (g.after s (s.step codec e) e).sent = g.sent := by
      funext k
      cases e with
      | asyncSend ch payload handler now => exact absurd rfl (hsend ch payload handler now)
      | _ => simp [Record.after, numberedBy]
    refine step_keeps codec (fun t t' ht hmove => Authored.move ht hmove hsend ?_)
      (hs.mono (extends_after g s _ e) hsame)
    rintro handler rfl
    simp [Record.after, hopen handler rfl]
  cases e with
  | asyncSend ch payload handler now => exact hs.asyncSend ch payload handler now
  | asyncDisconnect handler =>
    cases hclosed : s.closed with
    | false => exact hkeep (by simp) (fun _ _ => hclosed)
    | true =>
      have hanswered : s.step codec (.asyncDisconnect handler) =
          s.emit [.sendDone handler .none] := asyncDisconnect_closed codec hclosed handler
      rw [hanswered]
      refine (hs.emit (show Report codec s .cancel (.sendDone handler .none) from trivial)).mono
        (extends_after g s _ _) ?_
      funext k
      simp [Record.after, numberedBy]
  | _ => exact hkeep (by simp) (by simp)

/-- Every numbered payload fits into a datagram of the configured size. -/
structure Sized (codec : PacketCodec) (config : SessionConfig) (g : Record)
    (s : BasicSession O U) : Prop where
  configured : s.config = config
  fits : ∀ k, ∀ x ∈ g.sent k, x.length + codec.maxOverhead ≤ config.mtu

theorem Sized.step {config : SessionConfig} {s : BasicSession O U} (hs : Sized codec config g s)
    (e : Event) : Sized codec config (g.after s (s.step codec e) e) (s.step codec e) := by
  refine ⟨(step_config codec s e).trans hs.configured, ?_⟩
  intro k x hx
  rcases List.mem_append.mp hx with hold | hnew
  · exact hs.fits k x hold
  · cases e with
    | asyncSend ch payload handler now =>
      simp only [BasicSession.step] at hnew
      rcases asyncSend_outcome codec s ch payload handler now with ⟨ec, he⟩ | ⟨c, hc, hfits, he⟩
      · rw [he, numberedBy_emit] at hnew
        cases hnew
      · have hlt := (channel?_some hc).1
        rw [he] at hnew
        simp only [numberedBy, hc, channel?_put hlt, numbered] at hnew
        split_ifs at hnew
        · cases hnew
        · rw [List.mem_singleton.mp hnew, ← hs.configured]
          exact hfits
        · cases hnew
    | _ => cases hnew

omit [CongestionCtrl O] [CongestionCtrl U] in
lemma Sized.datagram {config : SessionConfig} {s : BasicSession O U} (hs : Sized codec config g s)
    (hfit : ∀ p, (codec.encodePacket p).length ≤ p.payload.length + codec.maxOverhead) {k : ℕ}
    {d : List Byte} (h : EncodesData codec k (g.sent k) d) : d.length ≤ config.mtu := by
  obtain ⟨packet, n, rfl, _, _, _, hx⟩ := h
  exact (hfit packet).trans (hs.fits k _ (List.mem_of_getElem? hx))

structure Recorded (O U : Type) where
  session : BasicSession O U
  record : Record := {}

def Recorded.step (codec : PacketCodec) (r : Recorded O U) (e : Event) : Recorded O U :=
  { session := r.session.step codec e
    record := r.record.after r.session (r.session.step codec e) e }

def Recorded.run (codec : PacketCodec) (config : SessionConfig) (cc : O) (cc' : U)
    (events : List Event) : Recorded O U :=
  events.foldl (Recorded.step codec) { session := BasicSession.create config cc cc' }

theorem authored_run (codec : PacketCodec) (config : SessionConfig) (cc : O) (cc' : U)
    (events : List Event) :
    Authored codec (Recorded.run codec config cc cc' events).record
        (Recorded.run codec config cc cc' events).session ∧
      Sized codec config (Recorded.run codec config cc cc' events).record
        (Recorded.run codec config cc cc' events).session := by
  refine List.foldlRecOn events (Recorded.step codec) (motive := fun r : Recorded O U =>
    Authored codec r.record r.session ∧ Sized codec config r.record r.session) ?_ ?_
  · exact ⟨authored_create config cc cc', rfl, by simp⟩
  · intro r hr e _
    exact ⟨hr.1.step e, hr.2.step e⟩

/-- Everything a session hands to its socket is a Data packet that carries a numbered payload of its
channel under the index modulo 65536, or an Ack, Keepalive, HandshakeAck or, once the
application disconnects, a Disconnect packet without payload; and it fits into a datagram. -/
theorem output_authored (codec : PacketCodec)
    (hfit : ∀ p, (codec.encodePacket p).length ≤ p.payload.length + codec.maxOverhead)
    (config : SessionConfig) (cc : O) (cc' : U) (events : List Event) (d : List Byte)
    (hd : d ∈ transmitted (Recorded.run codec config cc cc' events).session.io.log) :
    Outgoing codec (Recorded.run codec config cc cc' events).record d ∧
      d.length ≤ max config.mtu codec.maxOverhead := by
  obtain ⟨hauth, hsized⟩ := authored_run codec config cc cc' events
  have hout := hauth.output d hd
  refine ⟨hout, ?_⟩
  cases hout with
  | data k hk h => exact le_max_of_le_left (hsized.datagram hfit h)
  | control packet hd hempty htype =>
    have hlength := hfit packet
    rw [hempty, List.length_nil, Nat.zero_add] at hlength
    exact le_max_of_le_right (hd ▸ hlength)

end Steps
end Session

lemma defaultCodec_fits (p : Packet) : (DefaultCodec.defaultCodec.encodePacket p).length ≤
    p.payload.length + DefaultCodec.defaultCodec.maxOverhead := by
  have hsize : DefaultCodec.kHeaderSize + p.payload.length + DefaultCodec.kCrcSize =
      p.payload.length + DefaultCodec.maxOverhead := by
    simp only [DefaultCodec.maxOverhead, DefaultCodec.kOverhead]
    omega
  have hwritten : ∀ buf, (DefaultCodec.encode p buf).1 ≤ p.payload.length +
      DefaultCodec.maxOverhead := by
    intro buf
    rw [DefaultCodec.encode_eq]
    split_ifs
    · exact Nat.zero_le _
    · exact hsize.le
  change (List.takeD _ _ _).length ≤ _
  rw [List.takeD_length]
  exact hwritten _

/-- A message, a keepalive and a farewell; the second message is too large. -/
def farewellRun : List Event :=
  [.start ⟨1, 7#16⟩ 0, .asyncSend 0 [7#8] 0 1, .asyncSend 0 (List.replicate 9 0) 1 2,
    .keepaliveTimer .none 3, .asyncDisconnect 2]

def farewellState : Recorded Null Null :=
  Recorded.run DefaultCodec.defaultCodec.toPacketCodec { mtu := 20 } ⟨⟩ ⟨⟩ farewellRun

theorem output_authored_farewell :
    (transmitted farewellState.session.io.log).length = 3 ∧ farewellState.record.sent 0 = [[7#8]] ∧
      ∀ d ∈ transmitted farewellState.session.io.log,
        Outgoing DefaultCodec.defaultCodec.toPacketCodec farewellState.record d ∧
          d.length ≤ max 20 DefaultCodec.defaultCodec.maxOverhead := by
  refine ⟨by decide +kernel, by decide +kernel, ?_⟩
  intro d hd
  exact output_authored DefaultCodec.defaultCodec.toPacketCodec defaultCodec_fits { mtu := 20 }
    (⟨⟩ : Null) (⟨⟩ : Null) farewellRun d hd

end ReliableUdp.SessionOutput
