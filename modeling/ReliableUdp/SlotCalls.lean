import ReliableUdp.ChannelTwins
import ReliableUdp.Connection

/-! One slot of a session: which events call into its channel, what the call makes of it, and that
every other event leaves its sending half alone. -/
namespace ReliableUdp.SlotCalls
open Protocol ChannelCommon ReliableChannel OrderedReceiver ReliableSender Session SessionSteps
open SessionMoves SessionOutput Reception ChannelTwins

section Pending
variable {k : ℕ}

lemma samePending_sendEncoded (io : Transport) (stats : SocketStats) (d : List Byte)
    {completion : Completion}
    (h : ∀ ch sequenceNumber handler, ch.toNat = k → completion ≠ .data ch sequenceNumber handler) :
    SamePending k io ({ io with stats := stats }.sendEncoded d completion) := by
  refine samePending_append (show _ = io.pending ++ [completion] from rfl) ?_
  intro ch sequenceNumber handler hk hmem
  exact h ch sequenceNumber handler hk (List.mem_singleton.mp hmem).symm

variable {C : Type} {ordered : Bool} {W : Window} (ch : Channel C ordered W)

lemma flush_pending (io : Transport) : SamePending k io (ch.flush io) := by
  rw [flush_eq]
  refine samePending_append (show _ = io.pending ++ (ch.sentPackets.entries.map
    SentPacket.encodedPacket).map fun _ => .flush from rfl) ?_
  intro _ _ _ _ hmem
  obtain ⟨_, _, he⟩ := List.mem_map.mp hmem
  cases he

variable [CongestionCtrl C]

lemma sendCompleted_pending (sequenceNumber : Seq) (handler : ℕ) (ec : ErrorCode) (now : Time)
    (io : Transport) :
    SamePending k io (ch.sendCompleted sequenceNumber handler ec now io).2 := by
  unfold Channel.sendCompleted
  split_ifs
  · exact samePending_of_eq rfl
  · exact samePending_of_eq rfl

lemma onTick_pending (now : Time) (io : Transport) : SamePending k io (ch.onTick now io).2 := by
  refine SlotTable.sweep_invariant (P := fun acc : C × Transport => SamePending k io acc.2) ?_
    ch.sentPackets (ch.cc, io) (samePending_of_eq rfl)
  intro x acc hacc
  cases x with
  | none => exact hacc
  | some sp =>
    simp only [Channel.tickSlot]
    split_ifs
    · exact hacc
    · exact hacc.trans (samePending_sendEncoded acc.2 _ _ fun _ _ _ _ => by simp)

lemma processAck_pending (ack : Seq) (ackBits : AckBits) (now : Time) (io : Transport) :
    SamePending k io (ch.processAck ack ackBits now io).2 := by
  have hsweep : SamePending k io (ch.sentPackets.sweep (Channel.ackSlot ack ackBits now)
      (ch.inFlightCount, ch.cc, io)).2.2.2 := by
    refine SlotTable.sweep_invariant (P := fun acc : ℕ × C × Transport =>
      SamePending k io acc.2.2) ?_ ch.sentPackets (ch.inFlightCount, ch.cc, io)
      (samePending_of_eq rfl)
    intro x acc hacc
    cases x with
    | none => exact hacc
    | some sp =>
      simp only [Channel.ackSlot]
      split_ifs
      · exact hacc
      · exact hacc.trans (samePending_of_eq rfl)
      · exact hacc
  exact hsweep.trans (samePending_of_eq rfl)

lemma onRecv_pending (packet : Packet) (now : Time) (io : Transport) :
    SamePending k io (ch.onRecv packet now io).2 := by
  by_cases hack : packet.type = .ack
  · unfold Channel.onRecv
    rw [if_pos hack]
    exact processAck_pending ch packet.ack packet.ackBits now io
  · exact samePending_of_eq (onRecv_receiveOnly ch hack now io).pending

lemma asyncSend_pending (hid : ch.id.toNat ≠ k) (codec : PacketCodec) (payload : List Byte)
    (handler : ℕ) (now : Time) (io : Transport) :
    SamePending k io (ch.asyncSend codec payload handler now io).2 := by
  have hcases := asyncSend_cases ch codec payload handler now io
  generalize ch.asyncSend codec payload handler now io = r at hcases ⊢
  cases hcases with
  | refused => exact samePending_of_eq rfl
  | unencodable => exact samePending_of_eq rfl
  | collided => exact samePending_of_eq rfl
  | stored cc hroom hfree stats d hd hne =>
    refine samePending_sendEncoded io stats d ?_
    rintro ch' sequenceNumber handler' hk he
    cases he
    exact hid hk

end Pending

section Variants
variable {O U : Type} [CongestionCtrl O] [CongestionCtrl U] {k : ℕ}

lemma call_pending (codec : PacketCodec) (c : ChannelVar O U) (io : Transport) (call : Call)
    (hsend : ∀ payload handler now, call = .asyncSend payload handler now →
      (channelId c).toNat ≠ k) : SamePending k io (call.run codec c io).2 := by
  cases call with
  | asyncSend payload handler now =>
    have hid := hsend payload handler now rfl
    cases c with
    | unreliable ch =>
      simp only [Call.run, ChannelVar.asyncSend, UnreliableChannel.Channel.asyncSend]
      split_ifs
      · exact samePending_of_eq rfl
      · exact samePending_sendEncoded io _ _ fun _ _ _ _ => by simp
    | ordered W ch => exact asyncSend_pending ch hid codec payload handler now io
    | unordered W ch => exact asyncSend_pending ch hid codec payload handler now io
  | sendCompleted sequenceNumber handler ec now =>
    cases c with
    | unreliable ch => exact samePending_of_eq rfl
    | ordered W ch => exact sendCompleted_pending ch sequenceNumber handler ec now io
    | unordered W ch => exact sendCompleted_pending ch sequenceNumber handler ec now io
  | asyncRecv buf handler =>
    refine samePending_of_eq ?_
    change (c.asyncRecv buf handler io).2.pending = io.pending
    rw [(variant_asyncRecv c buf handler io).2]
    rfl
  | onTick now =>
    cases c with
    | unreliable ch => exact samePending_of_eq rfl
    | ordered W ch => exact onTick_pending ch now io
    | unordered W ch => exact onTick_pending ch now io
  | onRecv packet now =>
    cases c with
    | unreliable ch =>
      simp only [Call.run, ChannelVar.onRecv, UnreliableChannel.Channel.onRecv]
      split_ifs <;> exact samePending_of_eq rfl
    | ordered W ch => exact onRecv_pending ch packet now io
    | unordered W ch => exact onRecv_pending ch packet now io
  | flush =>
    cases c with
    | unreliable ch => exact samePending_of_eq rfl
    | ordered W ch => exact flush_pending ch io
    | unordered W ch => exact flush_pending ch io
  | close reason =>
    refine samePending_of_eq ?_
    change (c.close reason io).2.pending = io.pending
    rw [(variant_close c reason io).2]
    rfl

end Variants

def reliableCall {C : Type} [CongestionCtrl C] {ordered : Bool} {W : Window} (codec : PacketCodec)
    (ch : Channel C ordered W) (io : Transport) : Call → Channel C ordered W × Transport
  | .asyncSend payload handler now => ch.asyncSend codec payload handler now io
  | .sendCompleted sequenceNumber handler ec now =>
    ch.sendCompleted sequenceNumber handler ec now io
  | .asyncRecv buf handler => ch.asyncRecv buf handler io
  | .onTick now => ch.onTick now io
  | .onRecv packet now => ch.onRecv packet now io
  | .flush => (ch, ch.flush io)
  | .close reason => ch.close reason io

def Fresh {C : Type} {ordered : Bool} {W : Window} (ch : Channel C ordered W) : Prop :=
  ch = { id := ch.id, retxTimeout := ch.retxTimeout, cc := ch.cc }

structure Mode (O U C : Type) [CongestionCtrl O] [CongestionCtrl U] [CongestionCtrl C]
    (ordered : Bool) where
  wrap : (W : Window) → Channel C ordered W → ChannelVar O U
  run : ∀ codec W ch io (call : Call), call.run codec (wrap W ch) io =
    (wrap W (reliableCall codec ch io call).1, (reliableCall codec ch io call).2)
  id : ∀ W ch, channelId (wrap W ch) = ch.id
  nextSeq : ∀ W ch, nextSeq (wrap W ch) = ch.nextSeq
  buildAck : ∀ W ch, (wrap W ch).buildAck = ch.buildAck
  created : ∀ config cc cc' k W ch,
    (BasicSession.create config cc cc').channels.get k = some (wrap W ch) → Fresh ch

section Modes
variable {O U : Type} [CongestionCtrl O] [CongestionCtrl U]

def orderedMode : Mode O U O true where
  wrap W ch := .ordered W ch
  run _ _ _ _ call := by cases call <;> rfl
  id _ _ := rfl
  nextSeq _ _ := rfl
  buildAck _ _ := rfl
  created config cc cc' k W ch hch := by
    refine created_channel (P := fun c => ∀ W ch, c = .ordered W ch → Fresh ch)
      ?_ ?_ ?_ config hch W ch rfl
    · rintro cfg W ch ⟨⟩
      rfl
    · rintro cfg W ch ⟨⟩
    · rintro id W ch ⟨⟩

def unorderedMode : Mode O U U false where
  wrap W ch := .unordered W ch
  run _ _ _ _ call := by cases call <;> rfl
  id _ _ := rfl
  nextSeq _ _ := rfl
  buildAck _ _ := rfl
  created config cc cc' k W ch hch := by
    refine created_channel (P := fun c => ∀ W ch, c = .unordered W ch → Fresh ch)
      ?_ ?_ ?_ config hch W ch rfl
    · rintro cfg W ch ⟨⟩
    · rintro cfg W ch ⟨⟩
      rfl
    · rintro id W ch ⟨⟩

end Modes

instance (packet : Packet) : Decidable (ForChannel packet) :=
  inferInstanceAs (Decidable (_ ∧ _ ∧ _ ∧ _))

/-- The Data, Ack or unknown packet that an event brings to a channel, with the time. -/
def arriving {O U : Type} (codec : PacketCodec) (s : BasicSession O U) :
    Session.Event → Option (Packet × Time)
  | .onSocketRecv ec sender datagram now =>
    if s.receiving = true ∧ s.closed = false ∧ ec.failed = false ∧ sender = s.io.remote then
      match codec.decode datagram with
      | .ok packet => if ForChannel packet then some (packet, now) else none
      | .error _ => none
    else none
  | _ => none

/-- The call an event makes into the channel of slot `k`, receives and the teardown apart. -/
def slotCall {O U : Type} (codec : PacketCodec) (k : ℕ) (s : BasicSession O U) (e : Session.Event) :
    Option Call :=
  match e with
  | .asyncSend ch payload handler now =>
    if s.closed = false ∧ ch.toNat = k ∧ payload.length + codec.maxOverhead ≤ s.config.mtu then
      some (.asyncSend payload handler now)
    else none
  | .sendCompleted position ec now =>
    match s.io.pending[position]? with
    | some (.data ch sequenceNumber handler) =>
      if ch.toNat = k then some (.sendCompleted sequenceNumber handler ec now) else none
    | _ => none
  | .retransmitTimer ec now =>
    if s.retransmitting = true ∧ ec.failed = false ∧ s.closed = false then some (.onTick now)
    else none
  | .asyncFlush _ => if s.closed = false then some .flush else none
  | .onSocketRecv .. =>
    match arriving codec s e with
    | some (packet, now) => if packet.channel.toNat = k then some (.onRecv packet now) else none
    | none => none
  | _ => none

section Views
variable {O U : Type} {codec : PacketCodec} {k : ℕ} {s : BasicSession O U}

inductive Calls (codec : PacketCodec) (k : ℕ) (s : BasicSession O U) : Session.Event → Call → Prop
  | asyncSend (id : Byte) (payload : List Byte) (handler : ℕ) (now : Time)
      (hopen : s.closed = false) (hid : id.toNat = k)
      (hfits : payload.length + codec.maxOverhead ≤ s.config.mtu) :
      Calls codec k s (.asyncSend id payload handler now) (.asyncSend payload handler now)
  | sendCompleted (id : Byte) (sequenceNumber : Seq) (position handler : ℕ) (ec : ErrorCode)
      (now : Time) (hget : s.io.pending[position]? = some (.data id sequenceNumber handler))
      (hid : id.toNat = k) :
      Calls codec k s (.sendCompleted position ec now)
        (.sendCompleted sequenceNumber handler ec now)
  | onTick (ec : ErrorCode) (now : Time)
      (hready : s.retransmitting = true ∧ ec.failed = false ∧ s.closed = false) :
      Calls codec k s (.retransmitTimer ec now) (.onTick now)
  | flush (handler : ℕ) (hopen : s.closed = false) : Calls codec k s (.asyncFlush handler) .flush
  | onRecv (e : Session.Event) (packet : Packet) (now : Time)
      (harrives : arriving codec s e = some (packet, now)) (hpacket : packet.channel.toNat = k) :
      Calls codec k s e (.onRecv packet now)

lemma calls_of_slotCall {e : Session.Event} {call : Call}
    (h : slotCall codec k s e = some call) : Calls codec k s e call := by
  cases e with
  | asyncSend id payload handler now =>
    simp only [slotCall] at h
    split_ifs at h with hready
    obtain rfl := Option.some.inj h
    exact .asyncSend id payload handler now hready.1 hready.2.1 hready.2.2
  | sendCompleted position ec now =>
    simp only [slotCall] at h
    split at h
    · rename_i id sequenceNumber handler hget
      split_ifs at h with hid
      obtain rfl := Option.some.inj h
      exact .sendCompleted id sequenceNumber position handler ec now hget hid
    · cases h
  | retransmitTimer ec now =>
    simp only [slotCall] at h
    split_ifs at h with hready
    obtain rfl := Option.some.inj h
    exact .onTick ec now hready
  | asyncFlush handler =>
    simp only [slotCall] at h
    split_ifs at h with hopen
    obtain rfl := Option.some.inj h
    exact .flush handler hopen
  | onSocketRecv ec sender bytes now =>
    simp only [slotCall] at h
    split at h
    · rename_i packet now' harrives
      split_ifs at h with hpacket
      obtain rfl := Option.some.inj h
      exact .onRecv _ packet now' harrives hpacket
    · cases h
  | _ => cases h

def datagram : Session.Event → List Byte
  | .onSocketRecv _ _ bytes _ => bytes
  | _ => []

lemma arriving_decode {e : Session.Event} {packet : Packet} {now : Time}
    (h : arriving codec s e = some (packet, now)) : codec.decode (datagram e) = .ok packet := by
  cases e with
  | onSocketRecv ec sender bytes now' =>
    simp only [arriving] at h
    split_ifs at h
    cases hdec : codec.decode bytes with
    | error err => rw [hdec] at h; cases h
    | ok packet' =>
      rw [hdec] at h
      dsimp only at h
      split_ifs at h
      obtain ⟨rfl, rfl⟩ := Prod.mk.inj (Option.some.inj h)
      exact hdec
  | _ => cases h

end Views

lemma get_put_same {O U : Type} (s : BasicSession O U) (k : ℕ) (r : ChannelVar O U × Transport) :
    (put s k r).channels.get k = some r.1 := SlotTable.get_set_same _ kMaxChannels_pos rfl _

lemma get_put_other {O U : Type} {k : ℕ} {s : BasicSession O U} {j : ℕ} (hj : j < kMaxChannels)
    (hk : k < kMaxChannels) (hne : j ≠ k) (r : ChannelVar O U × Transport) :
    (put s j r).channels.get k = s.channels.get k := by
  refine SlotTable.get_set_other _ ?_ _
  rw [Nat.mod_eq_of_lt hj, Nat.mod_eq_of_lt hk]
  exact hne

section Idle
variable {O U C : Type} [CongestionCtrl O] [CongestionCtrl U] [CongestionCtrl C] {ordered : Bool}
  {m : Mode O U C ordered} {k : ℕ}

/-- The channel of slot `k` is the same up to its receives, and none of its Data packets was sent
or completed. -/
structure Idle (m : Mode O U C ordered) (k : ℕ) (s s' : BasicSession O U) : Prop where
  channel : ∀ W (ch : Channel C ordered W), s.channels.get k = some (m.wrap W ch) →
    ∃ ch', s'.channels.get k = some (m.wrap W ch') ∧ Twins ch ch'
  pending : SamePending k s.io s'.io

lemma Idle.trans {a b c : BasicSession O U} (h : Idle m k a b) (h' : Idle m k b c) :
    Idle m k a c := by
  refine ⟨?_, h.pending.trans h'.pending⟩
  intro W ch hch
  obtain ⟨ch₁, hch₁, ht₁⟩ := h.channel W ch hch
  obtain ⟨ch₂, hch₂, ht₂⟩ := h'.channel W ch₁ hch₁
  exact ⟨ch₂, hch₂, ht₁.trans ht₂⟩

lemma idle_of_channels {s s' : BasicSession O U} (hchannels : s'.channels = s.channels)
    (hpending : SamePending k s.io s'.io) : Idle m k s s' := by
  refine ⟨?_, hpending⟩
  intro W ch hch
  exact ⟨ch, by rw [hchannels]; exact hch, Twins.refl ch⟩

lemma idle_refl (s : BasicSession O U) : Idle m k s s :=
  idle_of_channels rfl (samePending_of_eq rfl)

lemma idle_emit (s : BasicSession O U) (effects : List Effect) : Idle m k s (s.emit effects) :=
  idle_of_channels rfl (samePending_of_eq rfl)

lemma idle_put (codec : PacketCodec) (call : Call) {s : BasicSession O U} {j : ℕ}
    (hj : j < kMaxChannels) (hk : k < kMaxChannels) {c : ChannelVar O U}
    (hc : s.channels.get j = some c)
    (hsame : j = k → ∀ W (ch : Channel C ordered W),
      Twins ch (reliableCall codec ch s.io call).1)
    (hsend : ∀ payload handler now, call = .asyncSend payload handler now →
      (channelId c).toNat ≠ k) : Idle m k s (put s j (call.run codec c s.io)) := by
  refine ⟨?_, call_pending codec c s.io call hsend⟩
  intro W ch hch
  by_cases hjk : j = k
  · subst hjk
    obtain rfl := Option.some.inj (hc.symm.trans hch)
    refine ⟨_, ?_, hsame rfl W ch⟩
    rw [m.run]
    exact SlotTable.get_set_same _ kMaxChannels_pos rfl _
  · exact ⟨ch, by rw [get_put_other hj hk hjk]; exact hch, Twins.refl ch⟩

lemma idle_close (codec : PacketCodec) (hk : k < kMaxChannels) (s : BasicSession O U)
    (reason : ErrorCode) : Idle m k s (s.close reason) := by
  unfold BasicSession.close
  split_ifs
  · exact idle_refl s
  · have hsweep : Idle m k s { s with
        channels := (s.channels.sweep
          (BasicSession.closeSlot (BasicSession.channelReason reason)) s.io).1
        io := (s.channels.sweep
          (BasicSession.closeSlot (BasicSession.channelReason reason)) s.io).2 } := by
      refine SlotTable.sweep_rule_occupied
        (f := BasicSession.closeSlot (BasicSession.channelReason reason))
        (P := fun channels io => Idle m k s { s with channels := channels, io := io })
        (fun _ => rfl) ?_ s.channels s.io (idle_refl s)
      intro channels io j c hj hget hbefore
      have hput : Idle m k { s with channels := channels, io := io }
          (put { s with channels := channels, io := io } j
            ((Call.close (BasicSession.channelReason reason)).run codec c io)) :=
        idle_put codec _ hj hk hget (fun _ W ch => twins_recvQueue ch _)
          (fun _ _ _ he => by cases he)
      exact hbefore.trans hput
    exact hsweep.trans (idle_of_channels rfl (samePending_of_eq rfl))

lemma idle_sendPacket (codec : PacketCodec) (s : BasicSession O U) (packet : Packet) :
    Idle m k s (s.sendPacket codec packet) := by
  unfold BasicSession.sendPacket
  dsimp only
  split_ifs
  · exact idle_refl s
  · exact idle_of_channels rfl (samePending_sendEncoded s.io s.io.stats _ fun _ _ _ _ => by simp)

lemma channelPacket_idle (codec : PacketCodec) (hk : k < kMaxChannels) (s : BasicSession O U)
    {packet : Packet} (hne : packet.channel.toNat ≠ k) (now : Time) :
    Idle m k s (s.channelPacket codec packet now) := by
  unfold BasicSession.channelPacket
  cases hc : s.channel? packet.channel with
  | none => exact idle_refl s
  | some c =>
    obtain ⟨hlt, hget⟩ := channel?_some hc
    have hput : Idle m k s (s.update packet.channel (c.onRecv packet now s.io)) :=
      idle_put codec (.onRecv packet now) hlt hk hget (fun he => absurd he hne)
        (fun _ _ _ he => by cases he)
    dsimp only
    split_ifs
    · exact hput
    · split
      · exact hput
      · exact hput.trans (idle_sendPacket codec _ _)

lemma channelPacket_slot (codec : PacketCodec) {s : BasicSession O U} {W : Window}
    {ch : Channel C ordered W} (hch : s.channels.get k = some (m.wrap W ch)) {packet : Packet}
    (hlt : k < kMaxChannels) (hpacket : packet.channel.toNat = k) (now : Time) :
    s.channelPacket codec packet now =
      if packet.type ≠ .data then
        put s k (m.wrap W (ch.onRecv packet now s.io).1, (ch.onRecv packet now s.io).2)
      else
        match (ch.onRecv packet now s.io).1.buildAck with
        | none => put s k (m.wrap W (ch.onRecv packet now s.io).1, (ch.onRecv packet now s.io).2)
        | some ack =>
          (put s k (m.wrap W (ch.onRecv packet now s.io).1,
            (ch.onRecv packet now s.io).2)).sendPacket codec ack := by
  subst hpacket
  have hc : s.channel? packet.channel = some (m.wrap W ch) := by
    unfold BasicSession.channel?
    rw [if_pos hlt]
    exact hch
  have hrun : (m.wrap W ch).onRecv packet now s.io =
      (m.wrap W (ch.onRecv packet now s.io).1, (ch.onRecv packet now s.io).2) :=
    m.run codec W ch s.io (.onRecv packet now)
  unfold BasicSession.channelPacket
  rw [hc]
  dsimp only
  rw [hrun, m.buildAck]
  rfl

lemma channelPacket_closed (codec : PacketCodec) (s : BasicSession O U) (packet : Packet)
    (now : Time) : (s.channelPacket codec packet now).closed = s.closed := by
  unfold BasicSession.channelPacket
  cases s.channel? packet.channel with
  | none => rfl
  | some c =>
    dsimp only
    split_ifs
    · rfl
    · split
      · rfl
      · unfold BasicSession.sendPacket
        dsimp only
        split_ifs <;> rfl

theorem step_arriving {codec : PacketCodec} {s : BasicSession O U} {e : Session.Event}
    {packet : Packet} {now : Time} (h : arriving codec s e = some (packet, now)) :
    s.step codec e = { ({ s with receiving := false, lastRecv := now } :
      BasicSession O U).channelPacket codec packet now with receiving := true } := by
  cases e with
  | onSocketRecv ec sender datagram now' =>
    simp only [arriving] at h
    split_ifs at h with hready
    obtain ⟨hreceiving, hopen, hec, hsender⟩ := hready
    cases hdec : codec.decode datagram with
    | error err => rw [hdec] at h; cases h
    | ok p =>
      rw [hdec] at h
      dsimp only at h
      split_ifs at h with hfor
      obtain ⟨rfl, rfl⟩ := Prod.mk.inj (Option.some.inj h)
      obtain ⟨h1, h2, h3, h4⟩ := hfor
      simp only [BasicSession.step, BasicSession.onSocketRecv, hreceiving, hopen, hec, hsender,
        BasicSession.handlePacket, hdec, h1, h2, h3, h4, Bool.true_eq_false, Bool.false_eq_true,
        if_false, if_true]
      rw [if_neg]
      rw [channelPacket_closed]
      exact Bool.false_ne_true
  | _ => cases h

lemma samePending_eraseIdx {io : Transport} {position : ℕ} (h : ∀ ch sequenceNumber handler,
    ch.toNat = k → io.pending[position]? ≠ some (.data ch sequenceNumber handler)) :
    SamePending k io { io with pending := io.pending.eraseIdx position } := by
  intro ch sequenceNumber handler hk
  dsimp only
  rcases lt_or_ge position io.pending.length with hlt | hge
  · have hsplit := List.getElem_cons_eraseIdx_perm hlt
    have hother : (io.pending[position] == Completion.data ch sequenceNumber handler) = false := by
      rw [beq_eq_false_iff_ne]
      intro he
      exact h ch sequenceNumber handler hk (by rw [List.getElem?_eq_getElem hlt, he])
    rw [← hsplit.count_eq, List.count_cons, hother]
    simp
  · rw [List.eraseIdx_of_length_le hge]

omit [CongestionCtrl C] in
/-- Rule for what a received datagram can do: flags aside it closes the session, makes it answer a
handshake or goes to a channel. -/
theorem onSocketRecv_rule {codec : PacketCodec} {s : BasicSession O U} {ec : ErrorCode}
    {sender : Endpoint} {datagram : List Byte} {now : Time} {P : BasicSession O U → Prop} (hs : P s)
    (hflags : ∀ t receiving lastRecv, P t →
      P { t with receiving := receiving, lastRecv := lastRecv })
    (hclose : ∀ t reason, P t → P (t.close reason))
    (hreply : ∀ t seq, P t → P (t.sendPacket codec { type := .handshakeAck, ack := seq }))
    (hchannel : ∀ packet now',
      arriving codec s (.onSocketRecv ec sender datagram now) = some (packet, now') →
      P (({ s with receiving := false, lastRecv := now' } : BasicSession O U).channelPacket codec
        packet now')) :
    P (s.onSocketRecv codec ec sender datagram now) := by
  have hdeaf : P { s with receiving := false } := hflags s false s.lastRecv hs
  have hseen : P { s with receiving := false, lastRecv := now } := hflags s false now hs
  unfold BasicSession.onSocketRecv
  by_cases hr : s.receiving = false
  · rw [if_pos hr]
    exact hs
  · rw [if_neg hr]
    dsimp only
    by_cases hclosed : s.closed = true
    · rw [if_pos hclosed]
      exact hdeaf
    · rw [if_neg hclosed]
      by_cases hec : ec.failed = true
      · rw [if_pos hec]
        exact hclose _ ec hdeaf
      · rw [if_neg hec]
        have hhandled : P (if sender = s.io.remote then
            ({ s with receiving := false } : BasicSession O U).handlePacket codec datagram now
            else { s with receiving := false }) := by
          split_ifs with hsender
          · unfold BasicSession.handlePacket
            cases hdec : codec.decode datagram with
            | error err => exact hdeaf
            | ok packet =>
              dsimp only
              split_ifs with hd hkeep hi ha
              · exact hclose _ _ hseen
              · exact hseen
              · exact hreply _ _ hseen
              · exact hseen
              · refine hchannel packet now ?_
                have hready : s.receiving = true ∧ s.closed = false ∧ ec.failed = false ∧
                    sender = s.io.remote := by simp_all
                have hfor : ForChannel packet := ⟨hd, hkeep, hi, ha⟩
                simp only [arriving, if_pos hready, hdec, if_pos hfor]
          · exact hdeaf
        split_ifs at hhandled ⊢
        all_goals first | exact hhandled | exact hflags _ true _ hhandled

lemma onSocketRecv_idle (codec : PacketCodec) (hk : k < kMaxChannels) (s : BasicSession O U)
    (ec : ErrorCode) (sender : Endpoint) (datagram : List Byte) (now : Time)
    (h : ∀ packet now', arriving codec s (.onSocketRecv ec sender datagram now) =
      some (packet, now') → packet.channel.toNat ≠ k) :
    Idle m k s (s.onSocketRecv codec ec sender datagram now) := by
  refine onSocketRecv_rule (P := Idle m k s) (idle_refl s) ?_ ?_ ?_ ?_
  · intro t receiving lastRecv ht
    exact ht.trans (idle_of_channels rfl (samePending_of_eq rfl))
  · intro t reason ht
    exact ht.trans (idle_close codec hk t reason)
  · intro t seq ht
    exact ht.trans (idle_sendPacket codec t _)
  · intro packet now' harrives
    have hseen : Idle m k s { s with receiving := false, lastRecv := now' } :=
      idle_of_channels rfl (samePending_of_eq rfl)
    exact hseen.trans (channelPacket_idle codec hk _ (h packet now' harrives) now')

theorem step_idle (codec : PacketCodec) (hk : k < kMaxChannels) {s : BasicSession O U}
    (hids : ∀ j < kMaxChannels, ∀ c, s.channels.get j = some c → (channelId c).toNat = j)
    {e : Session.Event} (h : slotCall codec k s e = none) : Idle m k s (s.step codec e) := by
  cases e with
  | start remote now =>
    simp only [BasicSession.step, BasicSession.start]
    split_ifs
    · exact idle_refl s
    · exact idle_of_channels rfl (samePending_of_eq rfl)
  | onSocketRecv ec sender datagram now =>
    refine onSocketRecv_idle codec hk s ec sender datagram now ?_
    intro packet now' harrives hpacket
    simp only [slotCall, harrives, if_pos hpacket] at h
    cases h
  | retransmitTimer ec now =>
    simp only [BasicSession.step, BasicSession.retransmitTimer]
    split_ifs with harmed hstop
    · exact idle_refl s
    · exact idle_of_channels rfl (samePending_of_eq rfl)
    · rw [not_or] at hstop
      have hready : s.retransmitting = true ∧ ec.failed = false ∧ s.closed = false := by
        simp_all
      simp only [slotCall, if_pos hready] at h
      cases h
  | keepaliveTimer ec now =>
    have hstopped : Idle m k s { s with keepingAlive := false } :=
      idle_of_channels rfl (samePending_of_eq rfl)
    simp only [BasicSession.step, BasicSession.keepaliveTimer]
    split_ifs
    · exact idle_refl s
    · exact hstopped
    · exact hstopped.trans (idle_close codec hk _ _)
    · exact idle_sendPacket codec s _
  | sendCompleted position ec now =>
    have hdata : ∀ ch sequenceNumber handler, ch.toNat = k →
        s.io.pending[position]? ≠ some (.data ch sequenceNumber handler) := by
      intro ch sequenceNumber handler hch hget
      simp only [slotCall, hget, if_pos hch] at h
      cases h
    have hrest : Idle m k s
        { s with io := { s.io with pending := s.io.pending.eraseIdx position } } :=
      idle_of_channels rfl (samePending_eraseIdx hdata)
    simp only [BasicSession.step, BasicSession.sendCompleted]
    split
    · rename_i ch sequenceNumber handler hget
      split
      · exact hrest
      · rename_i c hc
        obtain ⟨hlt, hslot⟩ := channel?_some hc
        have hne : ch.toNat ≠ k := fun he => hdata ch sequenceNumber handler he hget
        exact hrest.trans (idle_put codec (.sendCompleted sequenceNumber handler ec now) hlt hk
          hslot (fun he => absurd he hne) (fun _ _ _ he => by cases he))
    · exact hrest.trans (idle_emit _ _)
    · exact (hrest.trans (idle_close codec hk _ _)).trans (idle_emit _ _)
    · exact hrest
    · exact hrest
    · exact hrest
  | cancel => exact idle_close codec hk s _
  | asyncDisconnect handler =>
    simp only [BasicSession.step, BasicSession.asyncDisconnect]
    split_ifs
    · exact idle_emit s _
    · exact (idle_close codec hk s _).trans (idle_emit _ _)
    · exact idle_of_channels rfl
        (samePending_sendEncoded s.io s.io.stats _ fun _ _ _ _ => by simp)
  | asyncSend ch payload handler now =>
    simp only [BasicSession.step, BasicSession.asyncSend]
    by_cases hclosed : s.closed = true
    · rw [if_pos hclosed]
      exact idle_emit s _
    · rw [if_neg hclosed]
      cases hc : s.channel? ch with
      | none => exact idle_emit s _
      | some c =>
        dsimp only
        split_ifs with hlarge
        · exact idle_emit s _
        · obtain ⟨hlt, hslot⟩ := channel?_some hc
          have hne : ch.toNat ≠ k := by
            intro hch
            have hready : s.closed = false ∧ ch.toNat = k ∧
                payload.length + codec.maxOverhead ≤ s.config.mtu :=
              ⟨by simpa using hclosed, hch, by omega⟩
            simp only [slotCall, if_pos hready] at h
            cases h
          refine idle_put codec (.asyncSend payload handler now) hlt hk hslot
            (fun he => absurd he hne) ?_
          intro _ _ _ _
          rw [hids _ hlt c hslot]
          exact hne
  | asyncRecv ch buf handler =>
    simp only [BasicSession.step, BasicSession.asyncRecv]
    cases hc : s.channel? ch with
    | none => exact idle_emit s _
    | some c =>
      obtain ⟨hlt, hget⟩ := channel?_some hc
      exact idle_put codec (.asyncRecv buf handler) hlt hk hget
        (fun _ W ch => twins_recvQueue ch _) (fun _ _ _ he => by cases he)
  | asyncFlush handler =>
    simp only [BasicSession.step, BasicSession.asyncFlush]
    split_ifs with hclosed
    · exact idle_emit s _
    · have hopen : s.closed = false := by simpa using hclosed
      simp only [slotCall, if_pos hopen] at h
      cases h

end Idle

/-- The log grew by the acknowledgement of a channel, if at all. -/
def Replies {C : Type} {ordered : Bool} {W : Window} (codec : PacketCodec)
    (c : Channel C ordered W) (log log' : List Effect) : Prop :=
  ∃ replies, log' = log ++ replies ∧ ∀ effect ∈ replies, ∃ ack dst,
    c.buildAck = some ack ∧ effect = .transmit dst (codec.encodePacket ack)

lemma replies_sendPacket {O U C : Type} {ordered : Bool} {W : Window} {codec : PacketCodec}
    {c : Channel C ordered W} {ack : Packet} (h : c.buildAck = some ack)
    (t : BasicSession O U) : Replies codec c t.io.log (t.sendPacket codec ack).io.log := by
  unfold BasicSession.sendPacket
  dsimp only
  split_ifs
  · exact ⟨[], by simp, by simp⟩
  · refine ⟨[.transmit t.io.remote (codec.encodePacket ack)], rfl, ?_⟩
    intro effect he
    exact ⟨ack, _, h, List.mem_singleton.mp he⟩

section Calls
variable {O U C : Type} [CongestionCtrl O] [CongestionCtrl U] [CongestionCtrl C] {ordered : Bool}
  {m : Mode O U C ordered} {k : ℕ} {codec : PacketCodec} {s : BasicSession O U} {W : Window}
  {ch : Channel C ordered W}

lemma channel?_slot (hk : k < kMaxChannels) (hch : s.channels.get k = some (m.wrap W ch))
    {id : Byte} (hid : id.toNat = k) : s.channel? id = some (m.wrap W ch) := by
  unfold BasicSession.channel?
  rw [if_pos (hid ▸ hk), hid]
  exact hch

lemma step_asyncSend (hk : k < kMaxChannels) (hch : s.channels.get k = some (m.wrap W ch))
    {id : Byte} {payload : List Byte} {handler : ℕ} {now : Time} (hopen : s.closed = false)
    (hid : id.toNat = k) (hfits : payload.length + codec.maxOverhead ≤ s.config.mtu) :
    s.step codec (.asyncSend id payload handler now) =
      put s k (m.wrap W (ch.asyncSend codec payload handler now s.io).1,
        (ch.asyncSend codec payload handler now s.io).2) := by
  have hrun := m.run codec W ch s.io (.asyncSend payload handler now)
  simp only [Call.run, reliableCall] at hrun
  simp only [BasicSession.step, BasicSession.asyncSend, hopen, Bool.false_eq_true, if_false,
    channel?_slot hk hch hid, hrun]
  rw [if_neg (by omega)]
  subst hid
  rfl

variable (codec) in
lemma step_sendCompleted (hk : k < kMaxChannels) (hch : s.channels.get k = some (m.wrap W ch))
    {id : Byte} {sequenceNumber : Seq} {position handler : ℕ} (ec : ErrorCode) (now : Time)
    (hget : s.io.pending[position]? = some (.data id sequenceNumber handler))
    (hid : id.toNat = k) : ∃ io, io.pending = s.io.pending.eraseIdx position ∧
      s.step codec (.sendCompleted position ec now) =
        put s k (m.wrap W (ch.sendCompleted sequenceNumber handler ec now io).1,
          (ch.sendCompleted sequenceNumber handler ec now io).2) := by
  refine ⟨{ s.io with pending := s.io.pending.eraseIdx position }, rfl, ?_⟩
  have hslot : BasicSession.channel?
      { s with io := { s.io with pending := s.io.pending.eraseIdx position } } id =
        some (m.wrap W ch) := channel?_slot hk hch hid
  have hrun := m.run codec W ch { s.io with pending := s.io.pending.eraseIdx position }
    (.sendCompleted sequenceNumber handler ec now)
  simp only [Call.run, reliableCall] at hrun
  simp only [BasicSession.step, BasicSession.sendCompleted, hget, hslot, hrun]
  subst hid
  rfl

variable (codec) in
lemma step_onTick (hch : s.channels.get k = some (m.wrap W ch)) {ec : ErrorCode} {now : Time}
    (hready : s.retransmitting = true ∧ ec.failed = false ∧ s.closed = false) :
    (∃ io, (s.step codec (.retransmitTimer ec now)).channels.get k =
        some (m.wrap W (ch.onTick now io).1)) ∧
      SamePending k s.io (s.step codec (.retransmitTimer ec now)).io := by
  obtain ⟨harmed, hec, hopen⟩ := hready
  have hstep : s.step codec (.retransmitTimer ec now) = { s with
      channels := (s.channels.sweep (BasicSession.tickSlot now) s.io).1
      io := (s.channels.sweep (BasicSession.tickSlot now) s.io).2 } := by
    simp [BasicSession.step, BasicSession.retransmitTimer, harmed, hec, hopen]
  rw [hstep]
  constructor
  · obtain ⟨io, hio⟩ := SlotTable.get_sweep (BasicSession.tickSlot now) s.channels kMaxChannels_pos
      s.io k
    refine ⟨io, ?_⟩
    have hrun := m.run codec W ch io (.onTick now)
    simp only [Call.run, reliableCall] at hrun
    simp only [hio, hch, BasicSession.tickSlot, hrun]
  · refine SlotTable.sweep_invariant (P := fun io => SamePending k s.io io) ?_ s.channels s.io
      (samePending_of_eq rfl)
    intro x io hio
    cases x with
    | none => exact hio
    | some c =>
      exact hio.trans (call_pending codec c io (.onTick now) fun _ _ _ he => by cases he)

lemma step_flush {handler : ℕ} (hopen : s.closed = false) :
    Idle m k s (s.step codec (.asyncFlush handler)) := by
  have hflushed : SamePending k s.io
      (s.channels.entries.foldl (fun io c => ChannelVar.flush io c) s.io) := by
    refine List.foldlRecOn _ _ (motive := fun io => SamePending k s.io io)
      (samePending_of_eq rfl) ?_
    intro io hio c _
    exact hio.trans (call_pending codec c io .flush fun _ _ _ he => by cases he)
  simp only [BasicSession.step, BasicSession.asyncFlush, hopen, Bool.false_eq_true, if_false]
  exact idle_of_channels rfl hflushed

/-- A packet that reaches the slot passes through its channel; an acknowledgement may follow. -/
lemma step_onRecv (hk : k < kMaxChannels) (hch : s.channels.get k = some (m.wrap W ch))
    {e : Session.Event} {packet : Packet} {now : Time}
    (h : arriving codec s e = some (packet, now)) (hpacket : packet.channel.toNat = k) :
    (s.step codec e).channels.get k = some (m.wrap W (ch.onRecv packet now s.io).1) ∧
      SamePending k s.io (s.step codec e).io ∧
      Replies codec (ch.onRecv packet now s.io).1 (ch.onRecv packet now s.io).2.log
        (s.step codec e).io.log := by
  have hpending : SamePending k s.io (ch.onRecv packet now s.io).2 :=
    onRecv_pending ch packet now s.io
  have hslot := channelPacket_slot codec
    (show ({ s with receiving := false, lastRecv := now } : BasicSession O U).channels.get k = _
      from hch) hk hpacket now
  rw [step_arriving h, hslot]
  dsimp only
  generalize ch.onRecv packet now s.io = r at hpending ⊢
  split_ifs
  · exact ⟨get_put_same _ k _, hpending, [], by simp [put], by simp⟩
  · cases hack : r.1.buildAck with
    | none => exact ⟨get_put_same _ k _, hpending, [], by simp [put], by simp⟩
    | some ack =>
      dsimp only
      refine ⟨?_, ?_, ?_⟩
      · unfold BasicSession.sendPacket
        dsimp only
        split_ifs <;> exact get_put_same _ k _
      · exact hpending.trans (idle_sendPacket (m := m) codec _ ack).pending
      · exact replies_sendPacket hack _

end Calls

end ReliableUdp.SlotCalls
