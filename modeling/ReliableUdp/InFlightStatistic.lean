import ReliableUdp.SessionSteps
import ReliableUdp.ReliableSender
import ReliableUdp.DefaultCodec

/-! The in-flight statistic of a session. Every reliable channel stores its own count there, so the
statistic is the sum over the channels only while the channel that stores it is the only one with
packets in flight. -/
namespace ReliableUdp.InFlightStatistic
open Protocol ChannelCommon ReliableChannel OrderedReceiver ReliableSender Session SessionSteps
  Runs

/-- What an operation does to the statistic and to the number of stored packets. -/
structure Accounts (writes : Prop) (io io' : Transport) (stored stored' : ℕ) : Prop where
  wrote : writes → io'.stats.sendWindowUsed = stored'
  quiet : ¬ writes → io'.stats.sendWindowUsed = io.stats.sendWindowUsed ∧ stored' = stored

lemma Accounts.of_reliable {writes reliable : Prop} {io io' : Transport} {stored stored' : ℕ}
    (h : Accounts writes io io' stored stored') (hr : reliable) :
    Accounts (reliable ∧ writes) io io' stored stored' :=
  ⟨fun hw => h.wrote hw.2, fun hw => h.quiet fun hwrites => hw ⟨hr, hwrites⟩⟩

section Channel
variable {C : Type} {ordered : Bool} {W : Window}

def Counted (ch : Channel C ordered W) : Prop := ch.inFlightCount = ch.sentPackets.occupied

lemma used_deliver (ch : Channel C ordered W) (payload : List Byte) (io : Transport) :
    (ch.deliver payload io).2.stats.sendWindowUsed = io.stats.sendWindowUsed := rfl

lemma used_receiveOrdered (ch : Channel C ordered W) (packet : Packet) (io : Transport) :
    (ch.receiveOrdered packet io).2.stats.sendWindowUsed = io.stats.sendWindowUsed :=
  receiveOrdered_invariant (P := fun _ io' => io'.stats.sendWindowUsed = io.stats.sendWindowUsed)
    (fun _ _ _ _ h => h) (fun ch' payload io' h => (used_deliver ch' payload io').trans h) packet rfl

lemma used_receiveUnordered (ch : Channel C ordered W) (packet : Packet) (io : Transport) :
    (ch.receiveUnordered packet io).2.stats.sendWindowUsed = io.stats.sendWindowUsed := by
  unfold Channel.receiveUnordered
  split_ifs
  · rfl
  · rfl

variable [CongestionCtrl C] (ch : Channel C ordered W)

lemma used_asyncSend (codec : PacketCodec) (payload : List Byte) (handler : ℕ) (now : Time)
    (io : Transport) :
    (ch.asyncSend codec payload handler now io).1.inFlightCount = ch.inFlightCount ∨
      (ch.asyncSend codec payload handler now io).2.stats.sendWindowUsed =
        (ch.asyncSend codec payload handler now io).1.inFlightCount := by
  unfold Channel.asyncSend
  dsimp only
  split_ifs
  · exact Or.inl rfl
  · exact Or.inl rfl
  · cases Channel.storeSentPacket _ _ _ now with
    | none => exact Or.inl rfl
    | some ch' => exact Or.inr rfl

lemma asyncSend_accounts (h : Counted ch) (codec : PacketCodec) (payload : List Byte)
    (handler : ℕ) (now : Time) (io : Transport) :
    Counted (ch.asyncSend codec payload handler now io).1 ∧
      Accounts (Accepts ch codec payload now) io (ch.asyncSend codec payload handler now io).2
        ch.sentPackets.occupied
        (ch.asyncSend codec payload handler now io).1.sentPackets.occupied := by
  have hcases := asyncSend_cases ch codec payload handler now io
  have hused := used_asyncSend ch codec payload handler now io
  generalize ch.asyncSend codec payload handler now io = r at hcases hused ⊢
  cases hcases with
  | refused cc hfull =>
    refine ⟨h, fun ha => absurd ha.1 (not_lt.mpr hfull), fun _ => ⟨rfl, rfl⟩⟩
  | unencodable cc hroom hempty => exact ⟨h, fun ha => absurd hempty ha.2.1, fun _ => ⟨rfl, rfl⟩⟩
  | collided cc hroom old hold =>
    refine ⟨h, fun ha => ?_, fun _ => ⟨rfl, rfl⟩⟩
    rw [ha.2.2] at hold
    cases hold
  | stored cc hroom hfree stats d hd hne =>
    have hocc := SlotTable.occupied_set ch.sentPackets W.pos ch.nextSeq.toNat
      (some (freshPacket ch d now))
    rw [hfree] at hocc
    simp only [Option.toList_some, Option.toList_none, List.length_singleton,
      List.length_nil] at hocc
    unfold Counted at h
    have hcounted : ch.inFlightCount + 1 =
        (ch.sentPackets.set ch.nextSeq.toNat (some (freshPacket ch d now))).occupied := by omega
    rw [hd] at hne
    refine ⟨hcounted, fun _ => ?_, fun ha => absurd ⟨hroom, hne, hfree⟩ ha⟩
    rcases hused with hsame | hused
    · dsimp only at hsame
      omega
    · exact hused.trans hcounted

lemma sendCompleted_accounts (h : Counted ch) (sequenceNumber : Seq) (handler : ℕ) (ec : ErrorCode)
    (now : Time) (io : Transport) :
    Counted (ch.sendCompleted sequenceNumber handler ec now io).1 ∧
      Accounts (ec.failed = true) io (ch.sendCompleted sequenceNumber handler ec now io).2
        ch.sentPackets.occupied
        (ch.sendCompleted sequenceNumber handler ec now io).1.sentPackets.occupied := by
  have herase := eraseSentPacket_count ch sequenceNumber h
  unfold Channel.sendCompleted
  split_ifs with hfailed
  · exact ⟨herase, fun _ => herase, fun hok => absurd hfailed hok⟩
  · exact ⟨h, fun hf => absurd hf hfailed, fun _ => ⟨rfl, rfl⟩⟩

lemma used_onTick (now : Time) (io : Transport) :
    (ch.onTick now io).2.stats.sendWindowUsed = io.stats.sendWindowUsed := by
  refine SlotTable.sweep_invariant
    (P := fun acc : C × Transport => acc.2.stats.sendWindowUsed = io.stats.sendWindowUsed)
    ?_ ch.sentPackets (ch.cc, io) rfl
  intro x acc hacc
  cases x with
  | none => exact hacc
  | some sp =>
    simp only [Channel.tickSlot]
    split_ifs
    · exact hacc
    · exact hacc

lemma processAck_accounts (h : Counted ch) (ack : Seq) (ackBits : AckBits) (now : Time)
    (io : Transport) : Counted (ch.processAck ack ackBits now io).1 ∧
      (ch.processAck ack ackBits now io).2.stats.sendWindowUsed =
        (ch.processAck ack ackBits now io).1.sentPackets.occupied := by
  have hcount := processAck_inFlightCount ch ack ackBits now io
  have hocc := processAck_occupied ch ack ackBits now io
  have hcounted : Counted (ch.processAck ack ackBits now io).1 := by
    unfold Counted at h ⊢
    omega
  exact ⟨hcounted, hcounted⟩

lemma onRecv_accounts (h : Counted ch) (packet : Packet) (now : Time) (io : Transport) :
    Counted (ch.onRecv packet now io).1 ∧
      Accounts (packet.type = .ack) io (ch.onRecv packet now io).2 ch.sentPackets.occupied
        (ch.onRecv packet now io).1.sentPackets.occupied := by
  by_cases hack : packet.type = .ack
  · rw [Channel.onRecv, if_pos hack]
    obtain ⟨hcounted, hused⟩ := processAck_accounts ch h packet.ack packet.ackBits now io
    exact ⟨hcounted, fun _ => hused, fun hn => absurd hack hn⟩
  · have hsame := (onRecv_receiveOnly ch hack now io).sender
    have hused : (ch.onRecv packet now io).2.stats.sendWindowUsed = io.stats.sendWindowUsed := by
      rw [Channel.onRecv, if_neg hack]
      split_ifs
      · rfl
      · exact used_receiveOrdered ch packet io
      · exact used_receiveUnordered ch packet io
    refine ⟨?_, fun ha => absurd ha hack, fun _ => ⟨hused, by rw [hsame.sentPackets]⟩⟩
    rw [Counted, hsame.inFlightCount, hsame.sentPackets]
    exact h

end Channel

section Variant
variable {O U : Type}

/-- The packets stored in `sentPackets_`; unreliable channels store none. -/
def stored : ChannelVar O U → ℕ
  | .unreliable _ => 0
  | .ordered _ ch => ch.sentPackets.occupied
  | .unordered _ ch => ch.sentPackets.occupied

def isReliable : ChannelVar O U → Bool
  | .unreliable _ => false
  | .ordered _ _ => true
  | .unordered _ _ => true

def Consistent : ChannelVar O U → Prop
  | .unreliable _ => True
  | .ordered _ ch => Counted ch
  | .unordered _ ch => Counted ch

variable [CongestionCtrl O] [CongestionCtrl U]

/-- A reliable channel stores and sends the packet. -/
def SendAccepted (codec : PacketCodec) (payload : List Byte) (now : Time) : ChannelVar O U → Prop
  | .unreliable _ => False
  | .ordered _ ch => Accepts ch codec payload now
  | .unordered _ ch => Accepts ch codec payload now

instance (codec : PacketCodec) (payload : List Byte) (now : Time) (c : ChannelVar O U) :
    Decidable (SendAccepted codec payload now c) := by
  cases c <;> unfold SendAccepted <;> infer_instance

structure Leaves (c : ChannelVar O U) (io : Transport) (r : ChannelVar O U × Transport) : Prop where
  stored : stored r.1 = stored c
  used : r.2.stats.sendWindowUsed = io.stats.sendWindowUsed
  consistent : Consistent c → Consistent r.1

omit [CongestionCtrl O] [CongestionCtrl U] in
lemma leaves_asyncRecv (c : ChannelVar O U) (buf handler : ℕ) (io : Transport) :
    Leaves c io (c.asyncRecv buf handler io) := by
  cases c <;> exact ⟨rfl, rfl, id⟩

omit [CongestionCtrl O] [CongestionCtrl U] in
lemma leaves_close (c : ChannelVar O U) (reason : ErrorCode) (io : Transport) :
    Leaves c io (c.close reason io) := by
  cases c <;> exact ⟨rfl, rfl, id⟩

lemma leaves_onTick (c : ChannelVar O U) (now : Time) (io : Transport) :
    Leaves c io (c.onTick now io) := by
  cases c with
  | unreliable ch => exact ⟨rfl, rfl, id⟩
  | ordered W ch =>
    have hocc := onTick_occupied ch now io
    exact ⟨hocc, used_onTick ch now io, fun h => h.trans hocc.symm⟩
  | unordered W ch =>
    have hocc := onTick_occupied ch now io
    exact ⟨hocc, used_onTick ch now io, fun h => h.trans hocc.symm⟩

structure Keeps (writes : Prop) (c : ChannelVar O U) (io : Transport)
    (r : ChannelVar O U × Transport) : Prop where
  consistent : Consistent r.1
  accounts : Accounts writes io r.2 (stored c) (stored r.1)

variable {c : ChannelVar O U}

lemma keeps_asyncSend (h : Consistent c) (codec : PacketCodec) (payload : List Byte) (handler : ℕ)
    (now : Time) (io : Transport) :
    Keeps (SendAccepted codec payload now c) c io (c.asyncSend codec payload handler now io) := by
  cases c with
  | unreliable ch =>
    refine ⟨trivial, fun hf => hf.elim, fun _ => ⟨?_, rfl⟩⟩
    simp only [ChannelVar.asyncSend, UnreliableChannel.Channel.asyncSend]
    split_ifs
    · rfl
    · rfl
  | ordered W ch =>
    obtain ⟨hcounted, haccounts⟩ := asyncSend_accounts ch h codec payload handler now io
    exact ⟨hcounted, haccounts⟩
  | unordered W ch =>
    obtain ⟨hcounted, haccounts⟩ := asyncSend_accounts ch h codec payload handler now io
    exact ⟨hcounted, haccounts⟩

lemma keeps_sendCompleted (h : Consistent c) (sequenceNumber : Seq) (handler : ℕ) (ec : ErrorCode)
    (now : Time) (io : Transport) :
    Keeps (isReliable c = true ∧ ec.failed = true) c io
      (c.sendCompleted sequenceNumber handler ec now io) := by
  cases c with
  | unreliable ch => exact ⟨trivial, fun hf => absurd hf.1 Bool.false_ne_true, fun _ => ⟨rfl, rfl⟩⟩
  | ordered W ch =>
    obtain ⟨hcounted, haccounts⟩ :=
      sendCompleted_accounts ch h sequenceNumber handler ec now io
    exact ⟨hcounted, haccounts.of_reliable rfl⟩
  | unordered W ch =>
    obtain ⟨hcounted, haccounts⟩ :=
      sendCompleted_accounts ch h sequenceNumber handler ec now io
    exact ⟨hcounted, haccounts.of_reliable rfl⟩

lemma keeps_onRecv (h : Consistent c) (packet : Packet) (now : Time) (io : Transport) :
    Keeps (isReliable c = true ∧ packet.type = .ack) c io (c.onRecv packet now io) := by
  cases c with
  | unreliable ch =>
    refine ⟨trivial, fun hf => absurd hf.1 Bool.false_ne_true, fun _ => ⟨?_, rfl⟩⟩
    simp only [ChannelVar.onRecv, UnreliableChannel.Channel.onRecv]
    split_ifs <;> rfl
  | ordered W ch =>
    obtain ⟨hcounted, haccounts⟩ := onRecv_accounts ch h packet now io
    exact ⟨hcounted, haccounts.of_reliable rfl⟩
  | unordered W ch =>
    obtain ⟨hcounted, haccounts⟩ := onRecv_accounts ch h packet now io
    exact ⟨hcounted, haccounts.of_reliable rfl⟩

end Variant

section Session
variable {O U : Type} {s : BasicSession O U}

def slotStored (slot : Option (ChannelVar O U)) : ℕ := slot.elim 0 stored

def inFlight (s : BasicSession O U) : ℕ := s.channels.total slotStored

def AllConsistent (s : BasicSession O U) : Prop :=
  ∀ k c, s.channels.get k = some c → Consistent c

/-- What a step does to the statistic and to the stored packets, given the channel whose count it
stores. -/
structure Steps (writer : Option Byte) (s s' : BasicSession O U) : Prop where
  consistent : AllConsistent s'
  quiet : writer = none →
    s'.io.stats.sendWindowUsed = s.io.stats.sendWindowUsed ∧ inFlight s' = inFlight s
  wrote : ∀ ch, writer = some ch →
    s'.io.stats.sendWindowUsed = slotStored (s'.channels.get ch.toNat) ∧
      inFlight s' + slotStored (s.channels.get ch.toNat) =
        inFlight s + slotStored (s'.channels.get ch.toNat)

lemma steps_same {s' : BasicSession O U} (h : AllConsistent s)
    (hchannels : s'.channels = s.channels)
    (hused : s'.io.stats.sendWindowUsed = s.io.stats.sendWindowUsed) : Steps none s s' := by
  refine ⟨?_, fun _ => ⟨hused, ?_⟩, fun ch hch => by cases hch⟩
  · unfold AllConsistent
    rw [hchannels]
    exact h
  · rw [inFlight, hchannels, inFlight]

lemma Steps.around {writer : Option Byte} {a b c d : BasicSession O U} (h : Steps writer b c)
    (hchannels : b.channels = a.channels)
    (hused : b.io.stats.sendWindowUsed = a.io.stats.sendWindowUsed)
    (hchannels' : d.channels = c.channels)
    (hused' : d.io.stats.sendWindowUsed = c.io.stats.sendWindowUsed) : Steps writer a d := by
  refine ⟨?_, ?_, ?_⟩
  · unfold AllConsistent
    rw [hchannels']
    exact h.consistent
  · intro hnone
    have hq := h.quiet hnone
    unfold inFlight at hq ⊢
    rw [hused', hchannels', ← hused, ← hchannels]
    exact hq
  · intro ch hch
    have hw := h.wrote ch hch
    unfold inFlight at hw ⊢
    rw [hused', hchannels', ← hchannels]
    exact hw

lemma steps_update {ch : Byte} {c : ChannelVar O U} (h : AllConsistent s)
    (hc : s.channel? ch = some c) {writes : Prop} [Decidable writes]
    {r : ChannelVar O U × Transport} (hr : Keeps writes c s.io r) :
    Steps (if writes then some ch else none) s (s.update ch r) := by
  have hget := (channel?_some hc).2
  have htotal := SlotTable.total_set slotStored s.channels kMaxChannels_pos ch.toNat
    (some r.1)
  rw [hget] at htotal
  have hnew : (s.update ch r).channels.get ch.toNat = some r.1 :=
    SlotTable.get_set_same s.channels kMaxChannels_pos rfl (some r.1)
  have hconsistent : AllConsistent (s.update ch r) := by
    intro k d hd
    simp only [BasicSession.update] at hd
    rw [SlotTable.get_set _ kMaxChannels_pos] at hd
    split_ifs at hd
    · obtain rfl := Option.some.inj hd
      exact hr.consistent
    · exact h k d hd
  refine ⟨hconsistent, ?_, ?_⟩
  · intro hnone
    split_ifs at hnone with hwrites
    obtain ⟨hused, hstored⟩ := hr.accounts.quiet hwrites
    refine ⟨hused, ?_⟩
    simp only [slotStored, Option.elim_some, hstored] at htotal
    exact Nat.add_right_cancel htotal
  · intro ch' hch'
    split_ifs at hch' with hwrites
    obtain rfl := Option.some.inj hch'
    rw [hnew, hget]
    exact ⟨hr.accounts.wrote hwrites, htotal⟩

lemma Leaves.keeps {c : ChannelVar O U} {io : Transport} {r : ChannelVar O U × Transport}
    (h : Leaves c io r) (hc : Consistent c) : Keeps False c io r :=
  ⟨h.consistent hc, fun hf => hf.elim, fun _ => ⟨h.used, h.stored⟩⟩

lemma steps_sweep (h : AllConsistent s)
    {f : Option (ChannelVar O U) → Transport → Option (ChannelVar O U) × Transport}
    {op : ChannelVar O U → Transport → ChannelVar O U × Transport}
    (hnone : ∀ io, f none io = (none, io))
    (hsome : ∀ c io, f (some c) io = (some (op c io).1, (op c io).2))
    (hop : ∀ c io, Leaves c io (op c io)) {s' : BasicSession O U}
    (hchannels : s'.channels = (s.channels.sweep f s.io).1)
    (hused : s'.io.stats.sendWindowUsed = (s.channels.sweep f s.io).2.stats.sendWindowUsed) :
    Steps none s s' := by
  have hweight : ∀ x io, slotStored (f x io).1 + 0 = slotStored x + 0 := by
    intro x io
    cases x with
    | none => rw [hnone]
    | some c => simp only [hsome, slotStored, Option.elim_some, (hop c io).stored]
  have hstat : ∀ x io, io.stats.sendWindowUsed = s.io.stats.sendWindowUsed →
      (f x io).2.stats.sendWindowUsed = s.io.stats.sendWindowUsed := by
    intro x io hio
    cases x with
    | none => rw [hnone, hio]
    | some c => rw [hsome, (hop c io).used, hio]
  refine ⟨?_, fun _ => ⟨?_, ?_⟩, fun ch hch => by cases hch⟩
  · intro k d hd
    obtain ⟨io', hslot⟩ := SlotTable.get_sweep f s.channels kMaxChannels_pos s.io k
    rw [hchannels, hslot] at hd
    cases hx : s.channels.get k with
    | none => simp [hx, hnone] at hd
    | some c =>
      rw [hx, hsome] at hd
      obtain rfl := Option.some.inj hd
      exact (hop c io').consistent (h k c hx)
  · rw [hused]
    exact SlotTable.sweep_invariant
      (P := fun io : Transport => io.stats.sendWindowUsed = s.io.stats.sendWindowUsed) hstat
      s.channels s.io rfl
  · have htotal := SlotTable.total_sweep (g := fun _ : Transport => 0) hweight s.channels s.io
    rw [inFlight, hchannels]
    exact htotal

lemma steps_close (h : AllConsistent s) (reason : ErrorCode) : Steps none s (s.close reason) := by
  unfold BasicSession.close
  split_ifs
  · exact steps_same h rfl rfl
  · exact steps_sweep h (f := BasicSession.closeSlot (BasicSession.channelReason reason))
      (fun _ => rfl) (fun _ _ => rfl) (fun c io => leaves_close c _ io) rfl rfl

section Events
variable {s : BasicSession O U} (codec : PacketCodec)

lemma sendPacket_frame (s : BasicSession O U) (packet : Packet) :
    (s.sendPacket codec packet).channels = s.channels ∧
      (s.sendPacket codec packet).io.stats.sendWindowUsed = s.io.stats.sendWindowUsed := by
  unfold BasicSession.sendPacket
  dsimp only
  split_ifs
  · exact ⟨rfl, rfl⟩
  · exact ⟨rfl, rfl⟩

lemma steps_sendPacket (h : AllConsistent s) (packet : Packet) :
    Steps none s (s.sendPacket codec packet) := by
  obtain ⟨hchannels, hused⟩ := sendPacket_frame codec s packet
  exact steps_same h hchannels hused

lemma steps_keepaliveTimer (h : AllConsistent s) (ec : ErrorCode) (now : Time) :
    Steps none s (s.keepaliveTimer codec ec now) := by
  unfold BasicSession.keepaliveTimer
  split_ifs
  · exact steps_same h rfl rfl
  · exact steps_same h rfl rfl
  · exact (steps_close (s := { s with keepingAlive := false }) h _).around rfl rfl rfl rfl
  · exact steps_sendPacket codec h _

lemma steps_asyncDisconnect (h : AllConsistent s) (handler : ℕ) :
    Steps none s (s.asyncDisconnect codec handler) := by
  unfold BasicSession.asyncDisconnect
  dsimp only
  split_ifs
  · exact steps_same h rfl rfl
  · exact (steps_close h _).around rfl rfl rfl rfl
  · exact steps_same h rfl rfl

lemma steps_asyncRecv (h : AllConsistent s) (ch : Byte) (buf handler : ℕ) :
    Steps none s (s.asyncRecv ch buf handler) := by
  unfold BasicSession.asyncRecv
  cases hc : s.channel? ch with
  | none => exact steps_same h rfl rfl
  | some c =>
    have hkeeps := (leaves_asyncRecv c buf handler s.io).keeps (h _ c (channel?_some hc).2)
    exact steps_update h hc hkeeps

lemma steps_asyncFlush (h : AllConsistent s) (handler : ℕ) :
    Steps none s (s.asyncFlush handler) := by
  cases hclosed : s.closed with
  | true =>
    rw [asyncFlush_closed hclosed]
    exact steps_same h rfl rfl
  | false =>
    rw [asyncFlush_open hclosed]
    exact steps_same h rfl rfl

variable [CongestionCtrl O] [CongestionCtrl U]

lemma steps_retransmitTimer (h : AllConsistent s) (ec : ErrorCode) (now : Time) :
    Steps none s (s.retransmitTimer ec now) := by
  unfold BasicSession.retransmitTimer
  split_ifs
  · exact steps_same h rfl rfl
  · exact steps_same h rfl rfl
  · exact steps_sweep h (f := BasicSession.tickSlot now) (fun _ => rfl) (fun _ _ => rfl)
      (fun c io => leaves_onTick c now io) rfl rfl

/-- The channel whose count an accepted send stores. -/
def sendWriter (s : BasicSession O U) (ch : Byte) (payload : List Byte) (now : Time) :
    Option Byte :=
  if s.closed then none
  else
    match s.channel? ch with
    | none => none
    | some c =>
      if payload.length + codec.maxOverhead > s.config.mtu then none
      else if SendAccepted codec payload now c then some ch else none

lemma steps_asyncSend (h : AllConsistent s) (ch : Byte) (payload : List Byte) (handler : ℕ)
    (now : Time) :
    Steps (sendWriter codec s ch payload now) s (s.asyncSend codec ch payload handler now) := by
  unfold BasicSession.asyncSend sendWriter
  by_cases hclosed : s.closed = true
  · rw [if_pos hclosed, if_pos hclosed]
    exact steps_same h rfl rfl
  · rw [if_neg hclosed, if_neg hclosed]
    cases hc : s.channel? ch with
    | none => exact steps_same h rfl rfl
    | some c =>
      dsimp only
      by_cases hlong : payload.length + codec.maxOverhead > s.config.mtu
      · rw [if_pos hlong, if_pos hlong]
        exact steps_same h rfl rfl
      · rw [if_neg hlong, if_neg hlong]
        have hconsistent := h _ c (channel?_some hc).2
        exact steps_update h hc (keeps_asyncSend hconsistent codec payload handler now s.io)

def completionWriter (s : BasicSession O U) (position : ℕ) (ec : ErrorCode) : Option Byte :=
  match s.io.pending[position]? with
  | some (.data ch _ _) =>
    match s.channel? ch with
    | none => none
    | some c => if isReliable c = true ∧ ec.failed = true then some ch else none
  | _ => none

lemma steps_sendCompleted (h : AllConsistent s) (position : ℕ) (ec : ErrorCode) (now : Time) :
    Steps (completionWriter s position ec) s (s.sendCompleted position ec now) := by
  unfold BasicSession.sendCompleted completionWriter
  cases s.io.pending[position]? with
  | none => exact steps_same h rfl rfl
  | some completion =>
    cases completion with
    | data ch sequenceNumber handler =>
      simp only [BasicSession.channel?]
      cases hc : s.channel? ch with
      | none =>
        unfold BasicSession.channel? at hc
        simp only [hc]
        exact steps_same h rfl rfl
      | some c =>
        have hconsistent := h _ c (channel?_some hc).2
        have hkeeps := keeps_sendCompleted hconsistent sequenceNumber handler ec now
          { s.io with pending := s.io.pending.eraseIdx position }
        have hsteps := steps_update
          (s := { s with io := { s.io with pending := s.io.pending.eraseIdx position } })
          h hc hkeeps
        unfold BasicSession.channel? at hc
        simp only [hc]
        exact hsteps.around rfl rfl rfl rfl
    | sequenced handler => exact steps_same h rfl rfl
    | disconnect handler =>
      exact (steps_close
        (s := { s with io := { s.io with pending := s.io.pending.eraseIdx position } })
        h .none).around rfl rfl rfl rfl
    | flush => exact steps_same h rfl rfl
    | ignore => exact steps_same h rfl rfl

def ackWriter (s : BasicSession O U) (packet : Packet) : Option Byte :=
  match s.channel? packet.channel with
  | none => none
  | some c => if isReliable c = true ∧ packet.type = .ack then some packet.channel else none

/-- The channel whose count a datagram stores; the session only looks at those of its peer. -/
def recvWriter (s : BasicSession O U) (ec : ErrorCode) (sender : Endpoint)
    (datagram : List Byte) : Option Byte :=
  if s.receiving = true ∧ s.closed = false ∧ ec.failed = false ∧ sender = s.io.remote then
    match codec.decode datagram with
    | .error _ => none
    | .ok packet => ackWriter s packet
  else none

omit [CongestionCtrl O] [CongestionCtrl U] in
lemma ackWriter_of_ne (s : BasicSession O U) (packet : Packet) (h : packet.type ≠ .ack) :
    ackWriter s packet = none := by
  unfold ackWriter
  cases s.channel? packet.channel with
  | none => rfl
  | some c =>
    dsimp only
    rw [if_neg fun hw => h hw.2]

lemma steps_channelPacket (h : AllConsistent s) (packet : Packet) (now : Time) :
    Steps (ackWriter s packet) s (s.channelPacket codec packet now) := by
  unfold BasicSession.channelPacket ackWriter
  cases hc : s.channel? packet.channel with
  | none => exact steps_same h rfl rfl
  | some c =>
    have hconsistent := h _ c (channel?_some hc).2
    have hupdate := steps_update h hc (keeps_onRecv hconsistent packet now s.io)
    dsimp only
    by_cases hdata : packet.type ≠ .data
    · rw [if_pos hdata]
      exact hupdate
    · rw [if_neg hdata]
      cases (c.onRecv packet now s.io).1.buildAck with
      | none => exact hupdate
      | some ack =>
        obtain ⟨hchannels, hused⟩ :=
          sendPacket_frame codec (s.update packet.channel (c.onRecv packet now s.io)) ack
        exact hupdate.around rfl rfl hchannels hused

lemma steps_handlePacket (h : AllConsistent s) {datagram : List Byte} {packet : Packet}
    (hdecode : codec.decode datagram = .ok packet) (now : Time) :
    Steps (ackWriter s packet) s (s.handlePacket codec datagram now) := by
  have hseen : AllConsistent { s with lastRecv := now } := h
  unfold BasicSession.handlePacket
  rw [hdecode]
  dsimp only
  split_ifs with hdisconnect hkeepalive hinit hack
  · rw [ackWriter_of_ne s packet (by rw [hdisconnect]; decide)]
    exact (steps_close hseen _).around rfl rfl rfl rfl
  · rw [ackWriter_of_ne s packet (by rw [hkeepalive]; decide)]
    exact steps_same h rfl rfl
  · rw [ackWriter_of_ne s packet (by rw [hinit]; decide)]
    exact (steps_sendPacket codec hseen _).around rfl rfl rfl rfl
  · rw [ackWriter_of_ne s packet (by rw [hack]; decide)]
    exact steps_same h rfl rfl
  · exact (steps_channelPacket codec hseen packet now).around rfl rfl rfl rfl

lemma steps_onSocketRecv (h : AllConsistent s) (ec : ErrorCode) (sender : Endpoint)
    (datagram : List Byte) (now : Time) :
    Steps (recvWriter codec s ec sender datagram) s
      (s.onSocketRecv codec ec sender datagram now) := by
  have hrearm : ∀ {writer : Option Byte} {t : BasicSession O U},
      Steps writer { s with receiving := false } t →
        Steps writer s (if t.closed = true then t else { t with receiving := true }) := by
    intro writer t ht
    split_ifs
    · exact ht.around rfl rfl rfl rfl
    · exact ht.around rfl rfl rfl rfl
  have hidle : AllConsistent { s with receiving := false } := h
  unfold BasicSession.onSocketRecv recvWriter
  by_cases hr : s.receiving = false
  · rw [if_pos hr, if_neg (by simp [hr])]
    exact steps_same h rfl rfl
  · rw [if_neg hr]
    dsimp only
    by_cases hclosed : s.closed = true
    · rw [if_pos hclosed, if_neg (by simp [hclosed])]
      exact steps_same h rfl rfl
    · rw [if_neg hclosed]
      by_cases hec : ec.failed = true
      · rw [if_pos hec, if_neg (by simp [hec])]
        exact (steps_close hidle ec).around rfl rfl rfl rfl
      · rw [if_neg hec]
        by_cases hsender : sender = s.io.remote
        · rw [if_pos hsender, if_pos ⟨by simpa using hr, by simpa using hclosed,
            by simpa using hec, hsender⟩]
          cases hdecode : codec.decode datagram with
          | error e =>
            refine hrearm ?_
            unfold BasicSession.handlePacket
            rw [hdecode]
            exact steps_same hidle rfl rfl
          | ok packet => exact hrearm (steps_handlePacket codec hidle hdecode now)
        · rw [if_neg hsender, if_neg fun hw => hsender hw.2.2.2]
          exact hrearm (steps_same hidle rfl rfl)

/-- The channel whose count an event stores in the statistic, if any: that of an accepted send, of
a failed send completion or of an Ack on a reliable channel. -/
def writer (s : BasicSession O U) : Event → Option Byte
  | .asyncSend ch payload _ now => sendWriter codec s ch payload now
  | .sendCompleted position ec _ => completionWriter s position ec
  | .onSocketRecv ec sender datagram _ => recvWriter codec s ec sender datagram
  | _ => none

theorem steps_step (h : AllConsistent s) (e : Event) :
    Steps (writer codec s e) s (s.step codec e) := by
  cases e with
  | start remote now =>
    simp only [BasicSession.step, BasicSession.start]
    split_ifs
    · exact steps_same h rfl rfl
    · exact steps_same h rfl rfl
  | onSocketRecv ec sender datagram now => exact steps_onSocketRecv codec h ec sender datagram now
  | retransmitTimer ec now => exact steps_retransmitTimer h ec now
  | keepaliveTimer ec now => exact steps_keepaliveTimer codec h ec now
  | sendCompleted position ec now => exact steps_sendCompleted h position ec now
  | cancel => exact steps_close h operationAborted
  | asyncDisconnect handler => exact steps_asyncDisconnect codec h handler
  | asyncSend ch payload handler now => exact steps_asyncSend codec h ch payload handler now
  | asyncRecv ch buf handler => exact steps_asyncRecv h ch buf handler
  | asyncFlush handler => exact steps_asyncFlush h handler

omit [CongestionCtrl O] [CongestionCtrl U] in
lemma created (config : SessionConfig) (cc : O) (cc' : U) :
    AllConsistent (BasicSession.create config cc cc') ∧
      inFlight (BasicSession.create config cc cc') = 0 := by
  have hnew : ∀ k c, (BasicSession.create config cc cc').channels.get k = some c →
      Consistent c ∧ stored c = 0 := by
    intro k c hc
    have hempty : ∀ n, (SlotTable.empty SentPacket n).occupied = 0 :=
      fun n => SlotTable.occupied_empty
    exact created_channel (P := fun c => Consistent c ∧ stored c = 0)
      (fun _ => ⟨(hempty _).symm, hempty _⟩) (fun _ => ⟨(hempty _).symm, hempty _⟩)
      (fun _ => ⟨trivial, rfl⟩) config hc
  refine ⟨fun k c hc => (hnew k c hc).1, SlotTable.total_eq_zero fun k => ?_⟩
  cases hc : (BasicSession.create config cc cc').channels.get k with
  | none => rfl
  | some c => exact (hnew k c hc).2

structure Correct (s : BasicSession O U) : Prop where
  consistent : AllConsistent s
  sum : s.io.stats.sendWindowUsed = inFlight s

/-- No other reliable channel has packets in flight when an event stores the count of one. -/
def Alone (s : BasicSession O U) (e : Event) : Prop :=
  ∀ ch, writer codec s e = some ch →
    ∀ k, ch.toNat % kMaxChannels ≠ k % kMaxChannels → slotStored (s.channels.get k) = 0

lemma Correct.sum_step (h : Correct s) (e : Event) :
    (s.step codec e).io.stats.sendWindowUsed = inFlight (s.step codec e) ↔ Alone codec s e := by
  have hused := h.sum
  have hsteps := steps_step codec h.consistent e
  cases hw : writer codec s e with
  | none =>
    obtain ⟨hsame, hflight⟩ := hsteps.quiet hw
    refine iff_of_true (by rw [hsame, hflight, hused]) ?_
    intro ch hch
    rw [hw] at hch
    cases hch
  | some ch =>
    obtain ⟨hstores, hflight⟩ := hsteps.wrote ch hw
    have halone : Alone codec s e ↔ inFlight s = slotStored (s.channels.get ch.toNat) := by
      rw [inFlight, SlotTable.total_eq_get_iff rfl kMaxChannels_pos, Alone, hw]
      simp only [Option.some.injEq, forall_eq']
    rw [halone]
    omega

/-- In every run of a session the statistic is the sum over all channels after each step exactly
when each event that writes it finds the packets in flight on its own channel only. -/
theorem statistic_is_sum_iff (config : SessionConfig) (cc : O) (cc' : U) (events : List Event) :
    (∀ before, before <+: events →
      (before.foldl (BasicSession.step codec)
        (BasicSession.create config cc cc')).io.stats.sendWindowUsed =
        inFlight (before.foldl (BasicSession.step codec) (BasicSession.create config cc cc'))) ↔
      Admitted (BasicSession.step codec) (Alone codec) (BasicSession.create config cc cc')
        events := by
  obtain ⟨hconsistent, hzero⟩ := created config cc cc'
  have hstart : Correct (BasicSession.create config cc cc') := ⟨hconsistent, hzero.symm⟩
  refine forall_prefix_iff hstart (fun s hs => hs.sum) ?_ ?_ events
  · intro s e hs halone
    exact ⟨(steps_step codec hs.consistent e).consistent, (hs.sum_step codec e).mpr halone⟩
  · intro s e hs hothers hused
    exact hothers ((hs.sum_step codec e).mp hused)

/-- A session with two reliable channels and one packet sent on each. -/
def twoChannels : SessionConfig := { channels := [{}, { id := 1 }] }

def oneOnEach : List Event :=
  [.start ⟨1, 9000⟩ 0, .asyncSend 0 [7] 0 0, .asyncSend 1 [8] 1 0]

def oneOnEachState : BasicSession Null Null :=
  oneOnEach.foldl (BasicSession.step DefaultCodec.defaultCodec.toPacketCodec)
    (BasicSession.create twoChannels ⟨⟩ ⟨⟩)

theorem statistic_misses_packets :
    oneOnEachState.io.stats.sendWindowUsed = 1 ∧ inFlight oneOnEachState = 2 := by
  decide +kernel

end Events

end Session

end ReliableUdp.InFlightStatistic
