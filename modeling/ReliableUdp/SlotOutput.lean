import ReliableUdp.SlotCalls

/-! The Data packets and acknowledgements of one slot that a session hands to its socket. -/
namespace ReliableUdp.SlotOutput
open Protocol ChannelCommon ReliableChannel OrderedReceiver ReliableSender Session SessionSteps
open SessionMoves SessionOutput Reception ChannelTwins SlotCalls

variable {O U : Type} {type : PacketType} {k : ℕ}

/-- A datagram that decodes to a packet of this type for slot `k`. -/
def SlotPacket (codec : PacketCodec) (type : PacketType) (k : ℕ) (d : List Byte) : Prop :=
  ∃ packet, codec.decode d = .ok packet ∧ packet.type = type ∧ packet.channel.toNat = k

/-- The packets of this type for slot `k` among the new datagrams are in `out`. -/
def Utters (codec : PacketCodec) (type : PacketType) (k : ℕ) (out : List (List Byte))
    (io io' : Transport) : Prop :=
  ∀ d ∈ transmitted io'.log, SlotPacket codec type k d → d ∈ transmitted io.log ∨ d ∈ out

section Saying
variable {codec : LawfulCodec} {out : List (List Byte)} {a b c : Transport}

lemma utters_of_eq {codec : PacketCodec} (h : transmitted b.log = transmitted a.log) :
    Utters codec type k out a b := by
  intro d hd _
  rw [h] at hd
  exact Or.inl hd

lemma Utters.trans {codec : PacketCodec} (h : Utters codec type k out a b)
    (h' : Utters codec type k out b c) : Utters codec type k out a c := by
  intro d hd hslot
  rcases h' d hd hslot with hold | hnew
  · exact h d hold hslot
  · exact Or.inr hnew

lemma encodesData_slot {j : ℕ} {sent : List (List Byte)} {d : List Byte}
    (h : EncodesData codec.toPacketCodec j sent d) (hd : SlotPacket codec.toPacketCodec type k d) :
    type = .data ∧ j = k := by
  obtain ⟨packet, n, rfl, htype, hj, _, _⟩ := h
  obtain ⟨packet', hdec, htype', hk⟩ := hd
  obtain ⟨crc, hdec'⟩ := codec.decode_encodePacket packet
  obtain rfl := Except.ok.inj (hdec'.symm.trans hdec)
  exact ⟨htype'.symm.trans htype, hj.symm.trans hk⟩

lemma utters_encoded {packet : Packet} (h : packet.type ≠ type ∨ packet.channel.toNat ≠ k)
    (completion : Completion) (stats : SocketStats) :
    Utters codec.toPacketCodec type k out a
      ({ a with stats := stats }.sendEncoded (codec.encodePacket packet) completion) := by
  intro d hd hslot
  rw [transmitted_sendEncoded, List.mem_append, List.mem_singleton] at hd
  rcases hd with hold | rfl
  · exact Or.inl hold
  · obtain ⟨packet', hdec, htype, hk⟩ := hslot
    obtain ⟨crc, hdec'⟩ := codec.decode_encodePacket packet
    obtain rfl := Except.ok.inj (hdec'.symm.trans hdec)
    exact absurd hk (h.resolve_left fun hne => hne htype)

lemma utters_sendPacket {packet : Packet} (h : packet.type ≠ type ∨ packet.channel.toNat ≠ k)
    (s : BasicSession O U) :
    Utters codec.toPacketCodec type k out s.io (s.sendPacket codec.toPacketCodec packet).io := by
  unfold BasicSession.sendPacket
  dsimp only
  split_ifs
  · exact utters_of_eq rfl
  · exact utters_encoded h _ s.io.stats

lemma utters_emit {codec : PacketCodec} (s : BasicSession O U) (handler : ℕ)
    (ec : ErrorCode) :
    Utters codec type k out s.io (s.emit [.sendDone handler ec]).io := by
  refine utters_of_eq ?_
  simp [BasicSession.emit, transmitted]

lemma utters_foldl {codec : PacketCodec} {f : Transport → ChannelVar O U → Transport}
    {cs : List (ChannelVar O U)} (h : ∀ c ∈ cs, ∀ io, Utters codec type k out io (f io c))
    (io : Transport) : Utters codec type k out io (cs.foldl f io) := by
  induction cs generalizing io with
  | nil => exact utters_of_eq rfl
  | cons c cs ih =>
    have hfirst := h c List.mem_cons_self io
    exact hfirst.trans (ih (fun c' hc' => h c' (List.mem_cons_of_mem c hc')) (f io c))

end Saying

lemma buildAck_channel {c : ChannelVar O U} {ack : Packet} (h : c.buildAck = some ack) :
    ack.channel = channelId c := by
  have hreliable : ∀ {C : Type} {ordered : Bool} {W : Window} (ch : Channel C ordered W),
      ch.buildAck = some ack → ack.channel = ch.id := by
    intro C ordered W ch hch
    unfold Channel.buildAck at hch
    split_ifs at hch
    obtain rfl := Option.some.inj hch
    rfl
  cases c with
  | unreliable ch => cases h
  | ordered W ch => exact hreliable ch h
  | unordered W ch => exact hreliable ch h

section Reliable
variable {C : Type} [CongestionCtrl C] {ordered : Bool} {W : Window} (ch : Channel C ordered W)

lemma onRecv_transmitted (packet : Packet) (now : Time) (io : Transport) :
    transmitted (ch.onRecv packet now io).2.log = transmitted io.log := by
  by_cases hack : packet.type = .ack
  · unfold Channel.onRecv
    rw [if_pos hack, processAck_log]
  · exact (onRecv_receiveOnly ch hack now io).transmitted

lemma sendCompleted_transmitted (sequenceNumber : Seq) (handler : ℕ) (ec : ErrorCode) (now : Time)
    (io : Transport) :
    transmitted (ch.sendCompleted sequenceNumber handler ec now io).2.log = transmitted io.log := by
  unfold Channel.sendCompleted
  split_ifs <;> simp [transmitted]

end Reliable

section Calls
variable [CongestionCtrl O] [CongestionCtrl U] {codec : LawfulCodec}

/-- Calls of a channel that may hand something to the socket. -/
def Call.Sends : Call → Prop
  | .asyncSend .. | .onTick _ | .flush => True
  | _ => False

lemma call_transmitted (codec : PacketCodec) (c : ChannelVar O U) (io : Transport) {call : Call}
    (h : ¬Call.Sends call) : transmitted (call.run codec c io).2.log = transmitted io.log := by
  cases call with
  | asyncSend payload handler now => exact absurd trivial h
  | onTick now => exact absurd trivial h
  | flush => exact absurd trivial h
  | sendCompleted sequenceNumber handler ec now =>
    cases c with
    | unreliable ch => rfl
    | ordered W ch => exact sendCompleted_transmitted ch sequenceNumber handler ec now io
    | unordered W ch => exact sendCompleted_transmitted ch sequenceNumber handler ec now io
  | asyncRecv buf handler =>
    change transmitted (c.asyncRecv buf handler io).2.log = _
    rw [(variant_asyncRecv c buf handler io).2, Transport.emit_log, transmitted_append,
      transmitted_eq_nil (asyncRecv_silent c.recvQueue buf handler), List.append_nil]
  | onRecv packet now =>
    cases c with
    | unreliable ch =>
      simp only [Call.run, ChannelVar.onRecv, UnreliableChannel.Channel.onRecv]
      split_ifs
      · rfl
      · rfl
      · unfold RecvQueue.deliver
        cases ch.recvQueue.pendingRecv <;> simp [transmitted, completeRecv]
    | ordered W ch => exact onRecv_transmitted ch packet now io
    | unordered W ch => exact onRecv_transmitted ch packet now io
  | close reason =>
    change transmitted (c.close reason io).2.log = _
    rw [(variant_close c reason io).2, Transport.emit_log, transmitted_append,
      transmitted_eq_nil (close_silent c.recvQueue reason), List.append_nil]

lemma call_utters {c : ChannelVar O U} {j : ℕ} {sent : List (List Byte)}
    (hc : Numbers codec.toPacketCodec j sent c) (h : type ≠ .data ∨ j ≠ k) (call : Call)
    (out : List (List Byte)) (io : Transport) :
    Utters codec.toPacketCodec type k out io (call.run codec.toPacketCodec c io).2 := by
  have hforeign : ∀ {sent' : List (List Byte)} {d : List Byte},
      EncodesData codec.toPacketCodec j sent' d → ¬SlotPacket codec.toPacketCodec type k d := by
    intro sent' d hd hslot
    obtain ⟨htype, hj⟩ := encodesData_slot hd hslot
    exact h.elim (fun hne => hne htype) (fun hne => hne hj)
  intro d hd hslot
  by_cases hsend : ∃ payload handler now, call = .asyncSend payload handler now
  · obtain ⟨payload, handler, now, rfl⟩ := hsend
    obtain ⟨_, hout⟩ := asyncSend_numbers hc payload handler now io rfl
    exact (hout d hd).imp_right fun hdata => absurd hslot (hforeign hdata)
  · push Not at hsend
    have hr := call_resends codec.toPacketCodec c io hsend
    exact (hr.sent d hd).imp_right fun hstored => absurd hslot (hforeign (hc.stored d hstored))

end Calls

section Events
variable [CongestionCtrl O] [CongestionCtrl U] {codec : LawfulCodec} {g : Record}
  {s : BasicSession O U} {out : List (List Byte)}

lemma step_utters_nothing {e : Session.Event}
    (he : ∀ t j call, Causes codec.toPacketCodec s t e j call → ¬Call.Sends call) :
    Utters codec.toPacketCodec .data k out s.io (s.step codec.toPacketCodec e).io := by
  refine step_keeps codec.toPacketCodec
    (P := fun t => Utters codec.toPacketCodec .data k out s.io t.io) ?_ (utters_of_eq rfl)
  intro t t' ht hmove
  cases hmove with
  | call j hj c hc call cause =>
    exact ht.trans (utters_of_eq (call_transmitted codec.toPacketCodec c t.io (he t j call cause)))
  | send packet completion hown hne =>
    have htype : packet.type ≠ .data := by
      rcases (own_fields hown).2 with hmem | ⟨hdisconnect, _⟩
      · intro htype
        rw [htype] at hmem
        exact absurd hmem (by decide)
      · rw [hdisconnect]
        decide
    exact ht.trans (utters_encoded (Or.inl htype) completion t.io.stats)
  | report effect hreport => exact ht.trans (utters_of_eq (transmitted_report hreport t.io.log))
  | bookkeeping _ hbook => exact ht.trans (utters_of_eq (by rw [hbook.log]))

lemma utters_entries (hs : Authored codec.toPacketCodec g s) (call : Call)
    (hslot : ∀ c, s.channels.get k = some c → ∀ io, Utters codec.toPacketCodec .data k out io
      (call.run codec.toPacketCodec c io).2) :
    Utters codec.toPacketCodec .data k out s.io (s.channels.entries.foldl
      (fun io c => (call.run codec.toPacketCodec c io).2) s.io) := by
  refine utters_foldl ?_ s.io
  intro c hc io
  obtain ⟨j, hj⟩ := SlotTable.exists_get_of_mem_entries hc
  have hlt : j % kMaxChannels < kMaxChannels := Nat.mod_lt j kMaxChannels_pos
  rw [← SlotTable.get_mod] at hj
  by_cases hjk : j % kMaxChannels = k
  · rw [hjk] at hj
    exact hslot c hj io
  · exact call_utters (hs.numbers _ hlt c hj) (Or.inr hjk) call out io

variable {C : Type} [CongestionCtrl C] {ordered : Bool} {m : Mode O U C ordered} {W : Window}
  {ch : Channel C ordered W}

def repeats (ch : Channel C ordered W) : Option Call → List (List Byte)
  | some (.onTick now) => (dueAt ch now).map SentPacket.encodedPacket
  | some .flush => ch.sentPackets.entries.map SentPacket.encodedPacket
  | _ => []

/-- Apart from sends of the application a session says the Data packets of the slot again. -/
theorem step_data (hs : Authored codec.toPacketCodec g s)
    (hch : s.channels.get k = some (m.wrap W ch)) {e : Session.Event}
    (hsend : ∀ payload handler now,
      slotCall codec.toPacketCodec k s e ≠ some (.asyncSend payload handler now)) :
    Utters codec.toPacketCodec .data k (repeats ch (slotCall codec.toPacketCodec k s e)) s.io
      (s.step codec.toPacketCodec e).io := by
  cases e with
  | asyncSend id payload handler now =>
    by_cases hclosed : s.closed = true
    · simp only [BasicSession.step, BasicSession.asyncSend, if_pos hclosed]
      exact utters_emit s handler _
    · rcases asyncSend_outcome codec.toPacketCodec s id payload handler now with
        ⟨ec, hemit⟩ | ⟨c, hc, hfits, hput⟩
      · rw [BasicSession.step, hemit]
        exact utters_emit s handler ec
      · obtain ⟨hlt, hget⟩ := channel?_some hc
        have hne : id.toNat ≠ k := by
          intro hid
          refine hsend payload handler now ?_
          rw [slotCall, if_pos ⟨by simpa using hclosed, hid, hfits⟩]
        rw [BasicSession.step, hput]
        exact call_utters (hs.numbers _ hlt c hget) (Or.inr hne) (.asyncSend payload handler now) _
          s.io
  | retransmitTimer ec now =>
    by_cases hready : s.retransmitting = true ∧ ec.failed = false ∧ s.closed = false
    · have hio : (s.step codec.toPacketCodec (.retransmitTimer ec now)).io =
          s.channels.entries.foldl
            (fun io c => ((Call.onTick now).run codec.toPacketCodec c io).2) s.io := by
        obtain ⟨harmed, hec, hopen⟩ := hready
        simp only [BasicSession.step, BasicSession.retransmitTimer, harmed, hec, hopen,
          Bool.true_eq_false, Bool.false_eq_true, or_self, if_false]
        exact SlotTable.sweep_snd (fun _ => rfl) (fun _ _ => rfl) s.channels s.io
      rw [hio, slotCall, if_pos hready]
      refine utters_entries hs (.onTick now) ?_
      intro c hc io d hd _
      obtain rfl := Option.some.inj (hc.symm.trans hch)
      rw [m.run] at hd
      simp only [reliableCall, onTick_transmitted] at hd
      exact List.mem_append.mp hd
    · refine utters_of_eq ?_
      simp only [BasicSession.step, BasicSession.retransmitTimer]
      split_ifs with harmed hstop
      · rfl
      · rfl
      · exact absurd (by simp_all) hready
  | asyncFlush handler =>
    by_cases hclosed : s.closed = true
    · simp only [BasicSession.step, BasicSession.asyncFlush, if_pos hclosed]
      exact utters_emit s handler _
    · have hopen : s.closed = false := by simpa using hclosed
      rw [slotCall, if_pos hopen]
      simp only [BasicSession.step, BasicSession.asyncFlush, if_neg hclosed]
      refine Utters.trans (utters_entries hs .flush ?_) (utters_of_eq ?_)
      · intro c hc io d hd _
        obtain rfl := Option.some.inj (hc.symm.trans hch)
        rw [m.run] at hd
        simp only [reliableCall, flush_transmitted] at hd
        exact List.mem_append.mp hd
      · simp [BasicSession.emit, transmitted]
        rfl
  | _ =>
    refine step_utters_nothing ?_
    intro t j call cause
    cases cause <;> exact id

end Events

section Acknowledgements
variable [CongestionCtrl O] [CongestionCtrl U] {codec : LawfulCodec} {g : Record}
  {s : BasicSession O U} {out : List (List Byte)}

lemma utters_close (codec : PacketCodec) (reason : ErrorCode) :
    Utters codec type k out s.io (s.close reason).io := by
  unfold BasicSession.close
  split_ifs
  · exact utters_of_eq rfl
  · have hsweep : Utters codec type k out s.io (s.channels.sweep
        (BasicSession.closeSlot (BasicSession.channelReason reason)) s.io).2 := by
      refine SlotTable.sweep_invariant (P := fun io => Utters codec type k out s.io io) ?_
        s.channels s.io (utters_of_eq rfl)
      intro x io hio
      cases x with
      | none => exact hio
      | some c =>
        have hquiet : ¬Call.Sends (.close (BasicSession.channelReason reason)) := id
        exact hio.trans (utters_of_eq (call_transmitted codec c io hquiet))
    refine hsweep.trans (utters_of_eq ?_)
    simp [transmitted]

/-- A packet makes a session acknowledge a slot only if it is a Data packet for the slot. -/
lemma channelPacket_utters (hs : Authored codec.toPacketCodec g s) {packet : Packet}
    (h : packet.channel.toNat = k → packet.type ≠ .data) (now : Time) :
    Utters codec.toPacketCodec .ack k out s.io
      (s.channelPacket codec.toPacketCodec packet now).io := by
  unfold BasicSession.channelPacket
  cases hc : s.channel? packet.channel with
  | none => exact utters_of_eq rfl
  | some c =>
    obtain ⟨hlt, hget⟩ := channel?_some hc
    have hnum := hs.numbers _ hlt c hget
    have hcall : Utters codec.toPacketCodec .ack k out s.io
        ((Call.onRecv packet now).run codec.toPacketCodec c s.io).2 :=
      call_utters hnum (Or.inl (by decide)) _ out s.io
    dsimp only
    split_ifs with htype
    · exact hcall
    · cases hack : (c.onRecv packet now s.io).1.buildAck with
      | none => exact hcall
      | some ack =>
        have hid : ack.channel.toNat = packet.channel.toNat := by
          have hsame : channelId ((Call.onRecv packet now).run codec.toPacketCodec c s.io).1 =
              channelId c := Connection.call_channelId c s.io (.onRecv packet now)
          exact (congrArg BitVec.toNat ((buildAck_channel hack).trans hsame)).trans hnum.id
        have hne : ack.channel.toNat ≠ k := by
          rw [hid]
          exact fun hk => h hk (not_not.mp htype)
        exact hcall.trans (utters_sendPacket (Or.inr hne) _)

/-- A session acknowledges a slot only when a Data packet for the slot arrives. -/
theorem step_acks (hs : Authored codec.toPacketCodec g s) {e : Session.Event}
    (h : ∀ packet now, slotCall codec.toPacketCodec k s e = some (.onRecv packet now) →
      packet.type ≠ .data) :
    Utters codec.toPacketCodec .ack k out s.io (s.step codec.toPacketCodec e).io := by
  have hother : (∀ ch payload handler now, e ≠ .asyncSend ch payload handler now) →
      (∀ ec sender datagram now, e ≠ .onSocketRecv ec sender datagram now) →
      Utters codec.toPacketCodec .ack k out s.io (s.step codec.toPacketCodec e).io := by
    intro hsend hrecv
    have hleaving : Authored codec.toPacketCodec { g with disconnecting := true } s :=
      hs.mono ⟨fun _ => List.prefix_refl _, fun _ => rfl⟩ rfl
    refine (step_keeps codec.toPacketCodec (P := fun t =>
      Authored codec.toPacketCodec { g with disconnecting := true } t ∧
        Utters codec.toPacketCodec .ack k out s.io t.io) ?_ ⟨hleaving, utters_of_eq rfl⟩).2
    rintro t t' ⟨htauth, ht⟩ hmove
    refine ⟨htauth.move hmove hsend fun _ _ => rfl, ?_⟩
    cases hmove with
    | call j hj c hc call cause =>
      exact ht.trans (call_utters (htauth.numbers j hj c hc) (Or.inl (by decide)) call out t.io)
    | send packet completion hown hne =>
      have htype : packet.type ≠ .ack := by
        cases hown with
        | keepalive => decide
        | handshakeAck ec sender datagram now => exact absurd rfl (hrecv ec sender datagram now)
        | ack ec sender datagram now => exact absurd rfl (hrecv ec sender datagram now)
        | disconnect => decide
      exact ht.trans (utters_encoded (Or.inl htype) completion t.io.stats)
    | report effect hreport => exact ht.trans (utters_of_eq (transmitted_report hreport t.io.log))
    | bookkeeping _ hbook => exact ht.trans (utters_of_eq (by rw [hbook.log]))
  cases e with
  | asyncSend id payload handler now =>
    rcases asyncSend_outcome codec.toPacketCodec s id payload handler now with
      ⟨ec, hemit⟩ | ⟨c, hc, hfits, hput⟩
    · rw [BasicSession.step, hemit]
      exact utters_emit s handler ec
    · obtain ⟨hlt, hget⟩ := channel?_some hc
      rw [BasicSession.step, hput]
      exact call_utters (hs.numbers _ hlt c hget) (Or.inl (by decide))
        (.asyncSend payload handler now) out s.io
  | onSocketRecv ec sender datagram now =>
    refine onSocketRecv_rule (P := fun t => Utters codec.toPacketCodec .ack k out s.io t.io)
      (utters_of_eq rfl) (fun _ _ _ ht => ht) ?_ ?_ ?_
    · intro t reason ht
      exact ht.trans (utters_close codec.toPacketCodec reason)
    · intro t seq ht
      have htype : PacketType.handshakeAck ≠ .ack := by decide
      exact ht.trans (utters_sendPacket (Or.inl htype) t)
    · intro packet now' harrives
      have hheard : Authored codec.toPacketCodec g
          { s with receiving := false, lastRecv := now' } := ⟨hs.numbers, hs.output⟩
      refine channelPacket_utters hheard ?_ now'
      intro hpacket
      exact h packet now' (by simp only [slotCall, harrives, if_pos hpacket])
  | _ => exact hother (by simp) (by simp)

end Acknowledgements

end ReliableUdp.SlotOutput
