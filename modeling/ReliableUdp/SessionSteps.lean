import ReliableUdp.Session
import ReliableUdp.ReliableSender

/-! What one event does to the lifecycle, the receive queues, the datagrams and the log of a
session: it advances the session, starts it, closes it or issues a receive. -/
namespace ReliableUdp.SessionSteps
open Protocol ChannelCommon ReliableChannel OrderedReceiver ReliableSender Session

def lifecycle (log : List Effect) : List Effect :=
  log.filter fun
    | .onConnected => true
    | .onDisconnected _ => true
    | _ => false

def completions (handler : ℕ) (log : List Effect) : ℕ :=
  log.countP fun
    | .recvDone h _ _ => h == handler
    | _ => false

/-- One if the receive of this handler is parked on the queue. -/
def parked (handler : ℕ) (q : RecvQueue) : ℕ :=
  if q.pendingRecv.map PendingRecv.handler = some handler then 1 else 0

@[simp] lemma lifecycle_append (xs ys : List Effect) :
    lifecycle (xs ++ ys) = lifecycle xs ++ lifecycle ys := List.filter_append _ _

@[simp] lemma completions_append (handler : ℕ) (xs ys : List Effect) :
    completions handler (xs ++ ys) = completions handler xs + completions handler ys :=
  List.countP_append

structure Addressed (io io' : Transport) : Prop where
  remote : io'.remote = io.remote
  sent : ∀ dst d, Effect.transmit dst d ∈ io'.log → Effect.transmit dst d ∈ io.log ∨ dst = io.remote

structure Silent (io io' : Transport) : Prop where
  remote : io'.remote = io.remote
  sent : ∀ dst d, Effect.transmit dst d ∈ io'.log → Effect.transmit dst d ∈ io.log

lemma Addressed.refl (io : Transport) : Addressed io io := ⟨rfl, fun _ _ h => Or.inl h⟩

lemma Addressed.trans {a b c : Transport} (h1 : Addressed a b) (h2 : Addressed b c) :
    Addressed a c := by
  refine ⟨h2.remote.trans h1.remote, ?_⟩
  intro dst d h
  rcases h2.sent dst d h with h | h
  · exact h1.sent dst d h
  · exact Or.inr (h.trans h1.remote)

lemma Silent.refl (io : Transport) : Silent io io := ⟨rfl, fun _ _ h => h⟩

lemma Silent.trans {a b c : Transport} (h1 : Silent a b) (h2 : Silent b c) : Silent a c :=
  ⟨h2.remote.trans h1.remote, fun dst d h => h1.sent dst d (h2.sent dst d h)⟩

lemma Silent.addressed {io io' : Transport} (h : Silent io io') : Addressed io io' :=
  ⟨h.remote, fun dst d hd => Or.inl (h.sent dst d hd)⟩

lemma silent_emit (io : Transport) {effects : List Effect}
    (h : ∀ dst d, Effect.transmit dst d ∉ effects) : Silent io (io.emit effects) := by
  refine ⟨rfl, ?_⟩
  intro dst d hd
  rw [Transport.emit_log, List.mem_append] at hd
  exact hd.resolve_right (h dst d)

lemma addressed_sendEncoded (io : Transport) (datagram : List Byte) (completion : Completion) :
    Addressed io (io.sendEncoded datagram completion) := by
  refine ⟨rfl, ?_⟩
  intro dst d hd
  simp only [Transport.sendEncoded, List.mem_append, List.mem_singleton, Effect.transmit.injEq] at hd
  exact hd.imp_right And.left

/-- Nothing the session reports about receives or its lifecycle was added to the log. -/
structure Inert (io io' : Transport) : Prop where
  addressed : Addressed io io'
  lifecycle : lifecycle io'.log = lifecycle io.log
  completions : ∀ h, completions h io'.log = completions h io.log

lemma Inert.refl (io : Transport) : Inert io io := ⟨Addressed.refl io, rfl, fun _ => rfl⟩

lemma Inert.trans {a b c : Transport} (h1 : Inert a b) (h2 : Inert b c) : Inert a c :=
  ⟨h1.addressed.trans h2.addressed, h2.lifecycle.trans h1.lifecycle,
    fun h => (h2.completions h).trans (h1.completions h)⟩

lemma Inert.of_eq {io io' io'' : Transport} (h : Inert io io') (hremote : io'.remote = io''.remote)
    (hlog : io'.log = io''.log) : Inert io io'' := by
  obtain ⟨⟨h1, h2⟩, h3, h4⟩ := h
  rw [hremote] at h1
  rw [hlog] at h2 h3 h4
  exact ⟨⟨h1, h2⟩, h3, h4⟩

lemma inert_sendEncoded (io : Transport) (d : List Byte) (completion : Completion) :
    Inert io (io.sendEncoded d completion) :=
  ⟨addressed_sendEncoded io d completion, by simp [Transport.sendEncoded, SessionSteps.lifecycle],
    by simp [Transport.sendEncoded, SessionSteps.completions]⟩

lemma inert_sendDone (io : Transport) (handler : ℕ) (ec : ErrorCode) :
    Inert io (io.emit [.sendDone handler ec]) :=
  ⟨(silent_emit io (by simp)).addressed, by simp [SessionSteps.lifecycle],
    by simp [SessionSteps.completions]⟩

/-- A queue with the transport: receives complete or stay parked, and nothing else happens. -/
structure Serves (q q' : RecvQueue) (io io' : Transport) : Prop where
  addressed : Addressed io io'
  lifecycle : lifecycle io'.log = lifecycle io.log
  balance : ∀ h, completions h io'.log + parked h q' = completions h io.log + parked h q

lemma Inert.serves {io io' : Transport} (h : Inert io io') (q : RecvQueue) : Serves q q io io' :=
  ⟨h.addressed, h.lifecycle, fun k => by rw [h.completions k]⟩

lemma Serves.refl (q : RecvQueue) (io : Transport) : Serves q q io io := (Inert.refl io).serves q

lemma Serves.trans {a b c : RecvQueue} {x y z : Transport} (h1 : Serves a b x y)
    (h2 : Serves b c y z) : Serves a c x z :=
  ⟨h1.addressed.trans h2.addressed, h2.lifecycle.trans h1.lifecycle,
    fun h => (h2.balance h).trans (h1.balance h)⟩

lemma serves_deliver (q : RecvQueue) (payload : List Byte) (channel : Byte) (io : Transport)
    (stats : SocketStats) : Serves q (q.deliver payload).1 io
      ({ io with stats := stats }.emit (.deliver channel payload :: (q.deliver payload).2)) := by
  unfold RecvQueue.deliver
  cases hp : q.pendingRecv with
  | none =>
    refine ⟨⟨rfl, fun dst d hd => Or.inl (by simpa using hd)⟩, by simp [SessionSteps.lifecycle], ?_⟩
    intro h
    simp [completions, parked, hp]
  | some recv =>
    refine ⟨⟨rfl, fun dst d hd => Or.inl (by simpa [completeRecv] using hd)⟩,
      by simp [SessionSteps.lifecycle, completeRecv], ?_⟩
    intro h
    by_cases hh : recv.handler = h
    · simp [completions, parked, hp, completeRecv, hh]
    · simp [completions, parked, hp, completeRecv, hh]

section Reliable
variable {C : Type} {ordered : Bool} {W : Window}

lemma deliver_serves (ch : Channel C ordered W) (payload : List Byte) (io : Transport) :
    Serves ch.recvQueue (ch.deliver payload io).1.recvQueue io (ch.deliver payload io).2 :=
  serves_deliver ch.recvQueue payload ch.id io _

lemma receiveOrdered_serves (ch : Channel C ordered W) (packet : Packet) (io : Transport) :
    Serves ch.recvQueue (ch.receiveOrdered packet io).1.recvQueue io
      (ch.receiveOrdered packet io).2 :=
  receiveOrdered_invariant (P := fun ch' io' => Serves ch.recvQueue ch'.recvQueue io io')
    (fun _ _ _ _ h => h) (fun ch' payload io' h => h.trans (deliver_serves ch' payload io')) packet
    (Serves.refl _ _)

lemma receiveUnordered_serves (ch : Channel C ordered W) (packet : Packet) (io : Transport) :
    Serves ch.recvQueue (ch.receiveUnordered packet io).1.recvQueue io
      (ch.receiveUnordered packet io).2 := by
  unfold Channel.receiveUnordered
  split_ifs
  · exact Serves.refl _ _
  · exact deliver_serves ({ ch with
      recvAckTracker := ch.recvAckTracker.markReceived packet.seq } : Channel C ordered W)
      packet.payload io

lemma inert_resendAll (io : Transport) (packets : List (List Byte)) :
    Inert io (resendAll io packets) := by
  induction packets generalizing io with
  | nil =>
    rw [resendAll_nil]
    exact Inert.refl io
  | cons d packets ih =>
    have hrest := ih (io.sendEncoded d .flush)
    rw [show io.sendEncoded d .flush = resendAll io [d] from rfl, resendAll_append] at hrest
    exact (inert_sendEncoded io d .flush).trans hrest

variable [CongestionCtrl C]

lemma asyncSend_inert (ch : Channel C ordered W) (codec : PacketCodec) (payload : List Byte)
    (handler : ℕ) (now : Time) (io : Transport) :
    Inert io (ch.asyncSend codec payload handler now io).2 := by
  have h := asyncSend_cases ch codec payload handler now io
  generalize ch.asyncSend codec payload handler now io = r at h ⊢
  cases h with
  | refused => exact inert_sendDone io _ _
  | unencodable => exact inert_sendDone io _ _
  | collided => exact inert_sendDone io _ _
  | stored => exact (inert_sendEncoded io _ .ignore).of_eq rfl rfl

lemma sendCompleted_inert (ch : Channel C ordered W) (sequenceNumber : Seq) (handler : ℕ)
    (ec : ErrorCode) (now : Time) (io : Transport) :
    Inert io (ch.sendCompleted sequenceNumber handler ec now io).2 := by
  unfold Channel.sendCompleted
  split_ifs <;> exact (inert_sendDone io handler ec).of_eq rfl rfl

lemma onTick_inert (ch : Channel C ordered W) (now : Time) (io : Transport) :
    Inert io (ch.onTick now io).2 := by
  refine SlotTable.sweep_invariant (P := fun acc : C × Transport => Inert io acc.2) ?_ _ _
    (Inert.refl io)
  intro x acc hacc
  cases x with
  | none => exact hacc
  | some sp =>
    simp only [Channel.tickSlot]
    split_ifs
    · exact hacc
    · exact hacc.trans ((inert_sendEncoded acc.2 sp.encodedPacket .ignore).of_eq rfl rfl)

lemma processAck_inert (ch : Channel C ordered W) (ack : Seq) (ackBits : AckBits) (now : Time)
    (io : Transport) : Inert io (ch.processAck ack ackBits now io).2 := by
  refine (Inert.refl io).of_eq ?_ (processAck_log ch ack ackBits now io).symm
  refine SlotTable.sweep_invariant
    (P := fun acc : ℕ × C × Transport => io.remote = acc.2.2.remote) ?_ _ _ rfl
  intro x acc hacc
  cases x with
  | none => exact hacc
  | some sp =>
    simp only [Channel.ackSlot]
    split_ifs <;> exact hacc

lemma onRecv_serves (ch : Channel C ordered W) (packet : Packet) (now : Time) (io : Transport) :
    Serves ch.recvQueue (ch.onRecv packet now io).1.recvQueue io (ch.onRecv packet now io).2 := by
  unfold Channel.onRecv
  split_ifs
  · rw [(processAck_frame ch packet.ack packet.ackBits now io).1.recvQueue]
    exact (processAck_inert ch packet.ack packet.ackBits now io).serves _
  · exact Serves.refl _ _
  · exact receiveOrdered_serves ch packet io
  · exact receiveUnordered_serves ch packet io

end Reliable

section Variant
variable {O U : Type}

lemma variant_asyncRecv (c : ChannelVar O U) (buf handler : ℕ) (io : Transport) :
    (c.asyncRecv buf handler io).1.recvQueue = (c.recvQueue.asyncRecv buf handler).1 ∧
      (c.asyncRecv buf handler io).2 = io.emit (c.recvQueue.asyncRecv buf handler).2 := by
  cases c <;> exact ⟨rfl, rfl⟩

lemma variant_close (c : ChannelVar O U) (reason : ErrorCode) (io : Transport) :
    (c.close reason io).1.recvQueue = (c.recvQueue.close reason).1 ∧
      (c.close reason io).2 = io.emit (c.recvQueue.close reason).2 := by
  cases c <;> exact ⟨rfl, rfl⟩

def resent : ChannelVar O U → List (List Byte)
  | .unreliable _ => []
  | .ordered _ ch => ch.sentPackets.entries.map SentPacket.encodedPacket
  | .unordered _ ch => ch.sentPackets.entries.map SentPacket.encodedPacket

lemma variant_flush (c : ChannelVar O U) (io : Transport) :
    c.flush io = resendAll io (resent c) := by
  cases c with
  | unreliable ch => exact (resendAll_nil io).symm
  | ordered W ch => exact flush_eq ch io
  | unordered W ch => exact flush_eq ch io

lemma unreliable_asyncSend_inert (ch : UnreliableChannel.Channel) (codec : PacketCodec)
    (payload : List Byte) (handler : ℕ) (io : Transport) :
    (ch.asyncSend codec payload handler io).1.recvQueue = ch.recvQueue ∧
      Inert io (ch.asyncSend codec payload handler io).2 := by
  unfold UnreliableChannel.Channel.asyncSend
  dsimp only
  split_ifs
  · exact ⟨rfl, inert_sendDone io _ _⟩
  · exact ⟨rfl, (inert_sendEncoded io _ .ignore).of_eq rfl rfl⟩

lemma unreliable_onRecv_serves (ch : UnreliableChannel.Channel) (packet : Packet) (io : Transport) :
    Serves ch.recvQueue (ch.onRecv packet io).1.recvQueue io (ch.onRecv packet io).2 := by
  unfold UnreliableChannel.Channel.onRecv
  split_ifs
  · exact Serves.refl _ _
  · exact Serves.refl _ _
  · exact serves_deliver ch.recvQueue packet.payload ch.id io _

variable [CongestionCtrl O] [CongestionCtrl U]

lemma variant_asyncSend (c : ChannelVar O U) (codec : PacketCodec) (payload : List Byte)
    (handler : ℕ) (now : Time) (io : Transport) :
    (c.asyncSend codec payload handler now io).1.recvQueue = c.recvQueue ∧
      Inert io (c.asyncSend codec payload handler now io).2 := by
  cases c with
  | unreliable ch => exact unreliable_asyncSend_inert ch codec payload handler io
  | ordered W ch =>
    exact ⟨(asyncSend_receiver ch codec payload handler now io).recvQueue,
      asyncSend_inert ch codec payload handler now io⟩
  | unordered W ch =>
    exact ⟨(asyncSend_receiver ch codec payload handler now io).recvQueue,
      asyncSend_inert ch codec payload handler now io⟩

lemma variant_sendCompleted (c : ChannelVar O U) (sequenceNumber : Seq) (handler : ℕ)
    (ec : ErrorCode) (now : Time) (io : Transport) :
    (c.sendCompleted sequenceNumber handler ec now io).1.recvQueue = c.recvQueue ∧
      Inert io (c.sendCompleted sequenceNumber handler ec now io).2 := by
  cases c with
  | unreliable ch => exact ⟨rfl, Inert.refl io⟩
  | ordered W ch =>
    exact ⟨(sendCompleted_frame ch sequenceNumber handler ec now io).1.recvQueue,
      sendCompleted_inert ch sequenceNumber handler ec now io⟩
  | unordered W ch =>
    exact ⟨(sendCompleted_frame ch sequenceNumber handler ec now io).1.recvQueue,
      sendCompleted_inert ch sequenceNumber handler ec now io⟩

lemma variant_onTick (c : ChannelVar O U) (now : Time) (io : Transport) :
    (c.onTick now io).1.recvQueue = c.recvQueue ∧ Inert io (c.onTick now io).2 := by
  cases c with
  | unreliable ch => exact ⟨rfl, Inert.refl io⟩
  | ordered W ch => exact ⟨rfl, onTick_inert ch now io⟩
  | unordered W ch => exact ⟨rfl, onTick_inert ch now io⟩

lemma variant_onRecv (c : ChannelVar O U) (packet : Packet) (now : Time) (io : Transport) :
    Serves c.recvQueue (c.onRecv packet now io).1.recvQueue io (c.onRecv packet now io).2 := by
  cases c with
  | unreliable ch => exact unreliable_onRecv_serves ch packet io
  | ordered W ch => exact onRecv_serves ch packet now io
  | unordered W ch => exact onRecv_serves ch packet now io

end Variant

section Steps
variable {O U : Type}

def slotParked (handler : ℕ) (slot : Option (ChannelVar O U)) : ℕ :=
  (slot.map fun c => parked handler c.recvQueue).getD 0

lemma slotParked_some (handler : ℕ) (c : ChannelVar O U) :
    slotParked handler (some c) = parked handler c.recvQueue := rfl

/-- Receives of the handler that completed or are parked. -/
def accounted (handler : ℕ) (s : BasicSession O U) : ℕ :=
  completions handler s.io.log + s.channels.total (slotParked handler)

def queue? (s : BasicSession O U) (k : ℕ) : Option RecvQueue :=
  (s.channels.get k).map ChannelVar.recvQueue

/-- A step that neither starts nor closes the session nor issues a receive. After the teardown it
leaves all receive queues alone. -/
structure Advances (s s' : BasicSession O U) : Prop where
  closed : s'.closed = s.closed
  started : s'.started = s.started
  receiving : s'.receiving = true → s.receiving = true
  addressed : Addressed s.io s'.io
  lifecycle : lifecycle s'.io.log = lifecycle s.io.log
  balance : ∀ h, accounted h s' = accounted h s
  queues : s.closed = true → ∀ k, queue? s' k = queue? s k

/-- The step that tears the session down. It sends nothing. -/
structure Closes (s s' : BasicSession O U) (reason : ErrorCode) : Prop where
  before : s.closed = false
  closed : s'.closed = true
  started : s'.started = s.started
  receiving : s'.receiving = true → s.receiving = true
  silent : Silent s.io s'.io
  log : ∃ rest, lifecycle rest = [] ∧ s'.io.log = s.io.log ++
    s.channels.entries.flatMap (fun c => (c.recvQueue.close (BasicSession.channelReason reason)).2) ++
      [.onDisconnected reason] ++ rest
  balance : ∀ h, accounted h s' = accounted h s
  queues : ∀ k, queue? s' k =
    (queue? s k).map fun q => (q.close (BasicSession.channelReason reason)).1

structure Receives (s s' : BasicSession O U) (ch : Byte) (buf handler : ℕ) : Prop where
  closed : s'.closed = s.closed
  started : s'.started = s.started
  receiving : s'.receiving = s.receiving
  silent : Silent s.io s'.io
  lifecycle : lifecycle s'.io.log = lifecycle s.io.log
  balance : ∀ h, accounted h s' = accounted h s + if h = handler then 1 else 0
  queues : ∀ k, queue? s' k =
    if ch.toNat < kMaxChannels ∧ ch.toNat % kMaxChannels = k % kMaxChannels then
      (queue? s k).map fun q => (q.asyncRecv buf handler).1
    else queue? s k
  log : ∀ c, s.channel? ch = some c →
    s'.io.log = s.io.log ++ (c.recvQueue.asyncRecv buf handler).2

lemma Advances.refl (s : BasicSession O U) : Advances s s :=
  ⟨rfl, rfl, id, Addressed.refl _, rfl, fun _ => rfl, fun _ _ => rfl⟩

lemma Advances.trans {a b c : BasicSession O U} (h1 : Advances a b) (h2 : Advances b c) :
    Advances a c :=
  ⟨h2.closed.trans h1.closed, h2.started.trans h1.started,
    fun hr => h1.receiving (h2.receiving hr), h1.addressed.trans h2.addressed,
    h2.lifecycle.trans h1.lifecycle,
    fun h => (h2.balance h).trans (h1.balance h),
    fun hc k => (h2.queues (h1.closed.trans hc) k).trans (h1.queues hc k)⟩

lemma advances_of_inert {s s' : BasicSession O U} (hclosed : s'.closed = s.closed)
    (hstarted : s'.started = s.started) (hreceiving : s'.receiving = true → s.receiving = true)
    (hchannels : s'.channels = s.channels) (hio : Inert s.io s'.io) : Advances s s' := by
  refine ⟨hclosed, hstarted, hreceiving, hio.addressed, hio.lifecycle, ?_, ?_⟩
  · intro h
    unfold accounted
    rw [hio.completions h, hchannels]
  · intro _ k
    unfold queue?
    rw [hchannels]

lemma queue?_update (s : BasicSession O U) (ch : Byte) (r : ChannelVar O U × Transport) (k : ℕ) :
    queue? (s.update ch r) k =
      if ch.toNat % kMaxChannels = k % kMaxChannels then some r.1.recvQueue else queue? s k := by
  unfold queue? BasicSession.update
  dsimp only
  rw [SlotTable.get_set _ kMaxChannels_pos]
  split_ifs <;> rfl

lemma channel?_some {s : BasicSession O U} {ch : Byte} {c : ChannelVar O U}
    (h : s.channel? ch = some c) : ch.toNat < kMaxChannels ∧ s.channels.get ch.toNat = some c := by
  unfold BasicSession.channel? at h
  split_ifs at h with hlt
  exact ⟨hlt, h⟩

lemma created_channel {P : ChannelVar O U → Prop} {cc : O} {cc' : U}
    (hordered : ∀ cfg : ChannelConfig, P (.ordered _ (.create cfg.reliableOptions cc)))
    (hunordered : ∀ cfg : ChannelConfig, P (.unordered _ (.create cfg.reliableOptions cc')))
    (hunreliable : ∀ id, P (.unreliable { id := id })) (config : SessionConfig) {k : ℕ}
    {c : ChannelVar O U} (h : (BasicSession.create config cc cc').channels.get k = some c) :
    P c := by
  have hfold : ∀ (cfgs : List ChannelConfig) (t : SlotTable (ChannelVar O U) kMaxChannels),
      (∀ k c, t.get k = some c → P c) → ∀ k c,
      (cfgs.foldl (BasicSession.openChannel cc cc') t).get k = some c → P c := by
    intro cfgs
    induction cfgs with
    | nil => intro t ht; exact ht
    | cons cfg cfgs ih =>
      intro t ht
      apply ih
      intro k c hc
      unfold BasicSession.openChannel at hc
      split_ifs at hc
      · exact ht k c hc
      · rw [SlotTable.get_set _ kMaxChannels_pos] at hc
        split_ifs at hc
        · obtain rfl := Option.some.inj hc
          cases cfg.mode with
          | reliableOrdered => exact hordered cfg
          | reliableUnordered => exact hunordered cfg
          | unreliableSequenced => exact hunreliable cfg.id
        · exact ht k c hc
  refine hfold config.channels _ ?_ k c h
  intro k c hc
  rw [SlotTable.get_empty] at hc
  cases hc

lemma accounted_update {s : BasicSession O U} {ch : Byte} {c : ChannelVar O U}
    (hc : s.channel? ch = some c) (r : ChannelVar O U × Transport) (h : ℕ) :
    accounted h (s.update ch r) + (completions h s.io.log + parked h c.recvQueue) =
      accounted h s + (completions h r.2.log + parked h r.1.recvQueue) := by
  have hset := SlotTable.total_set (slotParked h) s.channels kMaxChannels_pos
    ch.toNat (some r.1)
  rw [(channel?_some hc).2, slotParked_some, slotParked_some] at hset
  unfold accounted BasicSession.update
  dsimp only
  omega

lemma advances_update {s : BasicSession O U} {ch : Byte} {c : ChannelVar O U}
    (hc : s.channel? ch = some c) {r : ChannelVar O U × Transport}
    (hr : Serves c.recvQueue r.1.recvQueue s.io r.2)
    (hqueue : s.closed = true → r.1.recvQueue = c.recvQueue) : Advances s (s.update ch r) := by
  refine ⟨rfl, rfl, id, hr.addressed, hr.lifecycle, ?_, ?_⟩
  · intro h
    have hset := accounted_update hc r h
    have hbalance := hr.balance h
    omega
  · intro hclosed k
    rw [queue?_update, hqueue hclosed]
    split_ifs with hk
    · have hget := (channel?_some hc).2
      rw [SlotTable.get_congr _ hk] at hget
      unfold queue?
      rw [hget]
      rfl
    · rfl

lemma closeEffects_lifecycle (q : RecvQueue) (reason : ErrorCode) :
    lifecycle (q.close reason).2 = [] := by
  unfold RecvQueue.close
  cases q.pendingRecv <;> rfl

lemma closeEffects_balance (q : RecvQueue) (reason : ErrorCode) (log : List Effect) (h : ℕ) :
    completions h (log ++ (q.close reason).2) + parked h (q.close reason).1 =
      completions h log + parked h q := by
  unfold RecvQueue.close
  cases hp : q.pendingRecv with
  | none => simp [completions, parked, hp]
  | some recv =>
    by_cases hh : recv.handler = h
    · simp [completions, parked, hp, hh]
    · simp [completions, parked, hp, hh]

lemma close_silent (q : RecvQueue) (reason : ErrorCode) (dst : Endpoint) (d : List Byte) :
    Effect.transmit dst d ∉ (q.close reason).2 := by
  unfold RecvQueue.close
  cases q.pendingRecv <;> simp

lemma sweep_close_silent (t : SlotTable (ChannelVar O U) kMaxChannels) (reason : ErrorCode)
    (io : Transport) : Silent io (t.sweep (BasicSession.closeSlot reason) io).2 := by
  refine SlotTable.sweep_invariant (P := Silent io) ?_ t io (Silent.refl io)
  intro x io' h
  cases x with
  | none => exact h
  | some c =>
    simp only [BasicSession.closeSlot, (variant_close c reason io').2]
    exact h.trans (silent_emit io' (close_silent c.recvQueue reason))

lemma close_log (reason : ErrorCode) (cs : List (ChannelVar O U)) (io : Transport) :
    (cs.foldl (fun io c => (c.close reason io).2) io).log =
      io.log ++ cs.flatMap fun c => (c.recvQueue.close reason).2 := by
  induction cs generalizing io with
  | nil => simp
  | cons c cs ih =>
    rw [List.foldl_cons, ih, (variant_close c reason io).2]
    simp

lemma sweep_close_balance (t : SlotTable (ChannelVar O U) kMaxChannels) (reason : ErrorCode)
    (io : Transport) (h : ℕ) :
    (t.sweep (BasicSession.closeSlot reason) io).1.total (slotParked h) +
        completions h (t.sweep (BasicSession.closeSlot reason) io).2.log =
      t.total (slotParked h) + completions h io.log := by
  refine SlotTable.total_sweep (g := fun io : Transport => completions h io.log) ?_ t io
  intro x io
  cases x with
  | none => rfl
  | some c =>
    have hb := closeEffects_balance c.recvQueue reason io.log h
    obtain ⟨hqueue, hio⟩ := variant_close c reason io
    simp only [BasicSession.closeSlot, slotParked_some, hqueue, hio, Transport.emit_log]
    omega

lemma sweep_close_queue (t : SlotTable (ChannelVar O U) kMaxChannels) (reason : ErrorCode)
    (io : Transport) (k : ℕ) :
    ((t.sweep (BasicSession.closeSlot reason) io).1.get k).map ChannelVar.recvQueue =
      ((t.get k).map ChannelVar.recvQueue).map fun q => (q.close reason).1 := by
  have hfst : (t.sweep (BasicSession.closeSlot reason) io).1 =
      t.map (Option.map fun c => (c.close reason {}).1) := by
    refine SlotTable.sweep_fst ?_ t io
    intro x io
    cases x with
    | none => rfl
    | some c => cases c <;> rfl
  rw [hfst, SlotTable.get_map _ rfl]
  cases t.get k with
  | none => rfl
  | some c => exact congrArg some (variant_close c reason {}).1

lemma closes_close {s : BasicSession O U} (hopen : s.closed = false) (reason : ErrorCode) :
    Closes s (s.close reason) reason := by
  have hclose : s.close reason = { s with
      closed := true
      channels := (s.channels.sweep
        (BasicSession.closeSlot (BasicSession.channelReason reason)) s.io).1
      io := (s.channels.sweep (BasicSession.closeSlot (BasicSession.channelReason reason))
        s.io).2.emit [.onDisconnected reason] } := by
    simp [BasicSession.close, hopen]
  have hsnd : (s.channels.sweep (BasicSession.closeSlot (BasicSession.channelReason reason))
      s.io).2 = s.channels.entries.foldl
        (fun io c => (c.close (BasicSession.channelReason reason) io).2) s.io :=
    SlotTable.sweep_snd (fun _ => rfl) (fun _ _ => rfl) _ _
  rw [hclose]
  refine ⟨hopen, rfl, rfl, id, (sweep_close_silent _ _ _).trans (silent_emit _ (by simp)),
    ⟨[], rfl, ?_⟩, ?_, ?_⟩
  · rw [Transport.emit_log, hsnd, close_log, List.append_nil]
  · intro h
    have hb := sweep_close_balance s.channels (BasicSession.channelReason reason) s.io h
    have hlast : completions h [.onDisconnected reason] = 0 := rfl
    simp only [accounted, Transport.emit_log, completions_append, hlast]
    omega
  · exact sweep_close_queue s.channels (BasicSession.channelReason reason) s.io

inductive Stepped (s : BasicSession O U) : Event → BasicSession O U → Prop
  | advances (e : Event) (s' : BasicSession O U) (h : Advances s s')
      (hrecv : ∀ ch buf handler, e ≠ .asyncRecv ch buf handler) : Stepped s e s'
  | starts (remote : Endpoint) (now : Time) (hnew : s.started = false) (hopen : s.closed = false) :
      Stepped s (.start remote now) (s.start remote now)
  | closes (e : Event) (s' : BasicSession O U) (reason : ErrorCode) (h : Closes s s' reason)
      (hrecv : ∀ ch buf handler, e ≠ .asyncRecv ch buf handler) : Stepped s e s'
  | receives (ch : Byte) (buf handler : ℕ) (s' : BasicSession O U)
      (h : Receives s s' ch buf handler) : Stepped s (.asyncRecv ch buf handler) s'

lemma completions_recvDone (h handler : ℕ) (ec : ErrorCode) (data : List Byte) :
    completions h [.recvDone handler ec data] = if h = handler then 1 else 0 := by
  by_cases hh : h = handler
  · simp [completions, hh]
  · simp [completions, hh, Ne.symm hh]

lemma asyncRecv_balance (q : RecvQueue) (buf handler : ℕ) (log : List Effect) (h : ℕ) :
    completions h (log ++ (q.asyncRecv buf handler).2) + parked h (q.asyncRecv buf handler).1 =
      completions h log + parked h q + if h = handler then 1 else 0 := by
  unfold RecvQueue.asyncRecv
  cases hq : q.queuedMessages with
  | cons message rest =>
    simp only [completions_append, completeRecv, completions_recvDone, parked]
    omega
  | nil =>
    cases hc : q.closed with
    | true =>
      simp only [if_true, completions_append, completions_recvDone]
      omega
    | false =>
      simp only [Bool.false_eq_true, if_false]
      cases hp : q.pendingRecv with
      | some recv =>
        simp only [completions_append, completions_recvDone]
        omega
      | none =>
        simp only [List.append_nil, parked, hp, Option.map_some, Option.map_none, reduceCtorEq,
          if_false, Option.some.injEq, eq_comm]
        omega

lemma asyncRecv_lifecycle (q : RecvQueue) (buf handler : ℕ) :
    lifecycle (q.asyncRecv buf handler).2 = [] := by
  unfold RecvQueue.asyncRecv
  cases q.queuedMessages with
  | cons message rest => rfl
  | nil =>
    cases q.closed with
    | true => rfl
    | false => cases q.pendingRecv <;> rfl

lemma asyncRecv_silent (q : RecvQueue) (buf handler : ℕ) (dst : Endpoint) (d : List Byte) :
    Effect.transmit dst d ∉ (q.asyncRecv buf handler).2 := by
  unfold RecvQueue.asyncRecv
  cases q.queuedMessages with
  | cons message rest => simp [completeRecv]
  | nil =>
    cases q.closed with
    | true => simp
    | false => cases q.pendingRecv <;> simp

lemma receives_asyncRecv (s : BasicSession O U) (ch : Byte) (buf handler : ℕ) :
    Receives s (s.asyncRecv ch buf handler) ch buf handler := by
  unfold BasicSession.asyncRecv
  cases hc : s.channel? ch with
  | none =>
    refine ⟨rfl, rfl, rfl, silent_emit _ (by simp), by simp [BasicSession.emit, lifecycle], ?_, ?_,
      ?_⟩
    · intro h
      simp only [accounted, BasicSession.emit, Transport.emit_log, completions_append,
        completions_recvDone]
      omega
    · intro k
      split_ifs with hk
      · have hnone : s.channels.get k = none := by
          unfold BasicSession.channel? at hc
          rw [if_pos hk.1, SlotTable.get_congr _ hk.2] at hc
          exact hc
        simp [queue?, BasicSession.emit, hnone]
      · rfl
    · intro c h
      rw [hc] at h
      cases h
  | some c =>
    obtain ⟨hlt, hget⟩ := channel?_some hc
    obtain ⟨hqueue, hio⟩ := variant_asyncRecv c buf handler s.io
    dsimp only
    refine ⟨rfl, rfl, rfl, ?_, ?_, ?_, ?_, ?_⟩
    · simp only [BasicSession.update, hio]
      exact silent_emit s.io (asyncRecv_silent c.recvQueue buf handler)
    · simp [BasicSession.update, hio, asyncRecv_lifecycle]
    · intro h
      have hset := accounted_update hc (c.asyncRecv buf handler s.io) h
      have hb := asyncRecv_balance c.recvQueue buf handler s.io.log h
      rw [hqueue, hio, Transport.emit_log] at hset
      omega
    · intro k
      rw [queue?_update, hqueue]
      by_cases hk : ch.toNat % kMaxChannels = k % kMaxChannels
      · rw [SlotTable.get_congr _ hk] at hget
        simp [hk, hlt, queue?, hget]
      · rw [if_neg hk, if_neg (fun h => hk h.2)]
    · intro c' h
      rw [hc] at h
      cases h
      simp [BasicSession.update, hio]

lemma sendPacket_advances (codec : PacketCodec) (s : BasicSession O U) (packet : Packet) :
    Advances s (s.sendPacket codec packet) := by
  unfold BasicSession.sendPacket
  dsimp only
  split_ifs
  · exact Advances.refl s
  · exact advances_of_inert rfl rfl id rfl (inert_sendEncoded _ _ _)

lemma emit_sendDone_advances (s : BasicSession O U) (handler : ℕ) (ec : ErrorCode) :
    Advances s (s.emit [.sendDone handler ec]) :=
  advances_of_inert rfl rfl id rfl (inert_sendDone _ _ _)

def resends (s : BasicSession O U) : List (List Byte) := s.channels.entries.flatMap resent

lemma asyncFlush_open {s : BasicSession O U} (hopen : s.closed = false) (handler : ℕ) :
    s.asyncFlush handler =
      { s with io := resendAll s.io (resends s) }.emit [.sendDone handler .none] := by
  have hfold : ∀ (cs : List (ChannelVar O U)) (io : Transport),
      cs.foldl (fun io c => ChannelVar.flush io c) io = resendAll io (cs.flatMap resent) := by
    intro cs
    induction cs with
    | nil => intro io; exact (resendAll_nil io).symm
    | cons c cs ih =>
      intro io
      rw [List.foldl_cons, ih, variant_flush]
      exact resendAll_append io _ _
  unfold BasicSession.asyncFlush
  rw [if_neg (by simp [hopen]), hfold]
  rfl

lemma asyncFlush_closed {s : BasicSession O U} (hclosed : s.closed = true) (handler : ℕ) :
    s.asyncFlush handler = s.emit [.sendDone handler (makeErrorCode .channelClosed)] := by
  simp [BasicSession.asyncFlush, hclosed]

lemma asyncFlush_advances (s : BasicSession O U) (handler : ℕ) :
    Advances s (s.asyncFlush handler) := by
  cases hclosed : s.closed with
  | true =>
    rw [asyncFlush_closed hclosed]
    exact emit_sendDone_advances s handler _
  | false =>
    rw [asyncFlush_open hclosed]
    have hresent := inert_resendAll s.io (resends s)
    exact advances_of_inert rfl rfl id rfl (hresent.trans (inert_sendDone _ _ _))

lemma Advances.rearm {s s' : BasicSession O U} (h : Advances { s with receiving := false } s')
    (hr : s.receiving = true) (armed : Bool) : Advances s { s' with receiving := armed } :=
  ⟨h.closed, h.started, fun _ => hr, h.addressed, h.lifecycle, h.balance, h.queues⟩

lemma Closes.emit_sendDone {s s' : BasicSession O U} {reason : ErrorCode} (h : Closes s s' reason)
    (handler : ℕ) (ec : ErrorCode) : Closes s (s'.emit [.sendDone handler ec]) reason := by
  obtain ⟨rest, hrest, hlog⟩ := h.log
  refine ⟨h.before, h.closed, h.started, h.receiving, h.silent.trans (silent_emit _ (by simp)),
    ⟨rest ++ [.sendDone handler ec], ?_, ?_⟩, ?_, h.queues⟩
  · rw [lifecycle_append, hrest]
    rfl
  · simp only [BasicSession.emit, Transport.emit_log, hlog, List.append_assoc]
  · intro k
    rw [← h.balance k]
    exact (emit_sendDone_advances s' handler ec).balance k

lemma Closes.of_same {s t s' : BasicSession O U} {reason : ErrorCode} (h : Closes t s' reason)
    (hclosed : t.closed = s.closed) (hstarted : t.started = s.started)
    (hreceiving : t.receiving = true → s.receiving = true) (hchannels : t.channels = s.channels)
    (hremote : t.io.remote = s.io.remote) (hlog : t.io.log = s.io.log) : Closes s s' reason := by
  refine ⟨hclosed ▸ h.before, h.closed, h.started.trans hstarted,
    fun hr => hreceiving (h.receiving hr), ⟨h.silent.remote.trans hremote, ?_⟩, ?_, ?_, ?_⟩
  · rw [← hlog]
    exact h.silent.sent
  · rw [← hlog, ← hchannels]
    exact h.log
  · intro k
    rw [h.balance k]
    unfold accounted
    rw [hchannels, hlog]
  · intro k
    rw [h.queues k]
    unfold queue?
    rw [hchannels]

lemma keepaliveTimer_cases (codec : PacketCodec) (s : BasicSession O U) (ec : ErrorCode)
    (now : Time) :
    Advances s (s.keepaliveTimer codec ec now) ∨
      Closes s (s.keepaliveTimer codec ec now) (makeErrorCode .timeout) := by
  unfold BasicSession.keepaliveTimer
  split_ifs with harmed hstop hsilent
  · exact Or.inl (Advances.refl s)
  · exact Or.inl (advances_of_inert rfl rfl id rfl (Inert.refl _))
  · have hopen : ({ s with keepingAlive := false } : BasicSession O U).closed = false := by
      rw [not_or] at hstop
      simpa using hstop.2
    exact Or.inr (Closes.of_same (closes_close hopen _) rfl rfl id rfl rfl rfl)
  · exact Or.inl (sendPacket_advances codec s _)

lemma asyncDisconnect_cases (codec : PacketCodec) (s : BasicSession O U) (handler : ℕ) :
    Advances s (s.asyncDisconnect codec handler) ∨
      Closes s (s.asyncDisconnect codec handler) (makeErrorCode .badPacket) := by
  unfold BasicSession.asyncDisconnect
  dsimp only
  split_ifs with hclosed hempty
  · exact Or.inl (emit_sendDone_advances s handler _)
  · have hopen : s.closed = false := by simpa using hclosed
    exact Or.inr ((closes_close hopen _).emit_sendDone handler _)
  · exact Or.inl (advances_of_inert rfl rfl id rfl (inert_sendEncoded _ _ _))

variable [CongestionCtrl O] [CongestionCtrl U]

lemma asyncSend_advances (codec : PacketCodec) (s : BasicSession O U) (ch : Byte)
    (payload : List Byte) (handler : ℕ) (now : Time) :
    Advances s (s.asyncSend codec ch payload handler now) := by
  unfold BasicSession.asyncSend
  cases hc : s.channel? ch with
  | none =>
    dsimp only
    split_ifs <;> exact emit_sendDone_advances s handler _
  | some c =>
    obtain ⟨hqueue, hlog⟩ := variant_asyncSend c codec payload handler now s.io
    dsimp only
    split_ifs
    · exact emit_sendDone_advances s handler _
    · exact emit_sendDone_advances s handler _
    · refine advances_update hc ?_ (fun _ => hqueue)
      rw [hqueue]
      exact hlog.serves _

lemma channelPacket_advances (codec : PacketCodec) {s : BasicSession O U} (hopen : s.closed = false)
    (packet : Packet) (now : Time) : Advances s (s.channelPacket codec packet now) := by
  unfold BasicSession.channelPacket
  cases hc : s.channel? packet.channel with
  | none => exact Advances.refl s
  | some c =>
    have hupdate : Advances s (s.update packet.channel (c.onRecv packet now s.io)) := by
      refine advances_update hc (variant_onRecv c packet now s.io) ?_
      intro hclosed
      rw [hopen] at hclosed
      cases hclosed
    dsimp only
    split_ifs
    · exact hupdate
    · cases (c.onRecv packet now s.io).1.buildAck with
      | none => exact hupdate
      | some ack => exact hupdate.trans (sendPacket_advances codec _ ack)

lemma handlePacket_cases (codec : PacketCodec) {s : BasicSession O U} (hopen : s.closed = false)
    (datagram : List Byte) (now : Time) :
    Advances s (s.handlePacket codec datagram now) ∨
      Closes s (s.handlePacket codec datagram now) (makeErrorCode .connectionReset) := by
  have hseen : Advances s { s with lastRecv := now } :=
    advances_of_inert rfl rfl id rfl (Inert.refl _)
  unfold BasicSession.handlePacket
  cases codec.decode datagram with
  | error e => exact Or.inl (Advances.refl s)
  | ok packet =>
    dsimp only
    split_ifs
    · refine Or.inr (Closes.of_same (closes_close ?_ _) rfl rfl id rfl rfl rfl)
      exact hopen
    · exact Or.inl hseen
    · exact Or.inl (hseen.trans (sendPacket_advances codec _ _))
    · exact Or.inl hseen
    · refine Or.inl (hseen.trans (channelPacket_advances codec ?_ packet now))
      exact hopen

lemma onSocketRecv_cases (codec : PacketCodec) (s : BasicSession O U) (ec : ErrorCode)
    (sender : Endpoint) (datagram : List Byte) (now : Time) :
    Advances s (s.onSocketRecv codec ec sender datagram now) ∨
      ∃ reason, Closes s (s.onSocketRecv codec ec sender datagram now) reason := by
  unfold BasicSession.onSocketRecv
  by_cases hr : s.receiving = false
  · rw [if_pos hr]
    exact Or.inl (Advances.refl s)
  · have hreceiving : s.receiving = true := by simpa using hr
    have hidle : ({ s with receiving := false } : BasicSession O U).receiving = true →
        s.receiving = true := fun _ => hreceiving
    rw [if_neg hr]
    dsimp only
    by_cases hclosed : s.closed = true
    · rw [if_pos hclosed]
      exact Or.inl ((Advances.refl _).rearm hreceiving false)
    · have hopen : ({ s with receiving := false } : BasicSession O U).closed = false := by
        simpa using hclosed
      rw [if_neg hclosed]
      by_cases hec : ec.failed = true
      · rw [if_pos hec]
        exact Or.inr ⟨ec, Closes.of_same (closes_close hopen ec) rfl rfl hidle rfl rfl rfl⟩
      · rw [if_neg hec]
        by_cases hsender : sender = s.io.remote
        · rw [if_pos hsender]
          rcases handlePacket_cases codec hopen datagram now with h | h
          · rw [if_neg (by rw [h.closed]; exact hclosed)]
            exact Or.inl (h.rearm hreceiving true)
          · rw [if_pos h.closed]
            exact Or.inr ⟨_, h.of_same rfl rfl hidle rfl rfl rfl⟩
        · rw [if_neg hsender, if_neg hclosed]
          exact Or.inl ((Advances.refl _).rearm hreceiving true)

lemma sweep_tick (t : SlotTable (ChannelVar O U) kMaxChannels) (now : Time) (io : Transport) :
    Inert io (t.sweep (BasicSession.tickSlot now) io).2 ∧
      ∀ h, (t.sweep (BasicSession.tickSlot now) io).1.total (slotParked h) =
        t.total (slotParked h) := by
  constructor
  · refine SlotTable.sweep_invariant (P := Inert io) ?_ t io (Inert.refl io)
    intro x io' h
    cases x with
    | none => exact h
    | some c => exact h.trans (variant_onTick c now io').2
  · intro h
    have hslot : ∀ (x : Option (ChannelVar O U)) (io' : Transport),
        slotParked h (BasicSession.tickSlot now x io').1 + 0 = slotParked h x + 0 := by
      intro x io'
      cases x with
      | none => rfl
      | some c => simp only [BasicSession.tickSlot, slotParked_some, (variant_onTick c now io').1]
    simpa using SlotTable.total_sweep (g := fun _ : Transport => 0) hslot t io

lemma retransmitTimer_advances (s : BasicSession O U) (ec : ErrorCode) (now : Time) :
    Advances s (s.retransmitTimer ec now) := by
  unfold BasicSession.retransmitTimer
  split_ifs with harmed hstop
  · exact Advances.refl s
  · exact advances_of_inert rfl rfl id rfl (Inert.refl _)
  · obtain ⟨hinert, htotal⟩ := sweep_tick s.channels now s.io
    refine ⟨rfl, rfl, id, hinert.addressed, hinert.lifecycle, ?_, ?_⟩
    · intro h
      simp only [accounted, hinert.completions h, htotal h]
    · intro hclosed
      exact absurd (Or.inr hclosed) hstop

lemma sendCompleted_cases (s : BasicSession O U) (position : ℕ) (ec : ErrorCode) (now : Time) :
    Advances s (s.sendCompleted position ec now) ∨
      Closes s (s.sendCompleted position ec now) .none := by
  obtain ⟨rest, hr⟩ : ∃ rest : BasicSession O U,
      rest = { s with io := { s.io with pending := s.io.pending.eraseIdx position } } := ⟨_, rfl⟩
  have hrest : Advances s rest := by
    rw [hr]
    exact advances_of_inert rfl rfl id rfl ((Inert.refl s.io).of_eq rfl rfl)
  unfold BasicSession.sendCompleted
  rw [← hr]
  dsimp only
  split
  · rename_i ch sequenceNumber handler _
    cases hc : rest.channel? ch with
    | none => exact Or.inl hrest
    | some c =>
      obtain ⟨hqueue, hlog⟩ := variant_sendCompleted c sequenceNumber handler ec now rest.io
      refine Or.inl (hrest.trans (advances_update hc ?_ (fun _ => hqueue)))
      rw [hqueue]
      exact hlog.serves _
  · exact Or.inl (hrest.trans (emit_sendDone_advances rest _ ec))
  · rename_i handler _
    by_cases hclosed : rest.closed = true
    · have hsame : rest.close .none = rest := by simp [BasicSession.close, hclosed]
      rw [hsame]
      exact Or.inl (hrest.trans (emit_sendDone_advances rest handler ec))
    · have hopen : rest.closed = false := by simpa using hclosed
      have hcloses := (closes_close hopen .none).emit_sendDone handler ec
      exact Or.inr (hcloses.of_same hrest.closed hrest.started hrest.receiving (by rw [hr]) (by rw [hr])
        (by rw [hr]))
  · exact Or.inl hrest
  · exact Or.inl hrest
  · exact Or.inl hrest

theorem stepped (codec : PacketCodec) (s : BasicSession O U) (e : Event) :
    Stepped s e (s.step codec e) := by
  cases e with
  | start remote now =>
    by_cases h : s.started = true ∨ s.closed = true
    · have hsame : s.start remote now = s := by simp only [BasicSession.start, h, if_true]
      simp only [BasicSession.step, hsame]
      exact .advances _ _ (Advances.refl s) (by simp)
    · rw [not_or] at h
      exact .starts remote now (by simpa using h.1) (by simpa using h.2)
  | onSocketRecv ec sender datagram now =>
    rcases onSocketRecv_cases codec s ec sender datagram now with h | ⟨reason, h⟩
    · exact .advances _ _ h (by simp)
    · exact .closes _ _ reason h (by simp)
  | retransmitTimer ec now => exact .advances _ _ (retransmitTimer_advances s ec now) (by simp)
  | keepaliveTimer ec now =>
    rcases keepaliveTimer_cases codec s ec now with h | h
    · exact .advances _ _ h (by simp)
    · exact .closes _ _ _ h (by simp)
  | sendCompleted position ec now =>
    rcases sendCompleted_cases s position ec now with h | h
    · exact .advances _ _ h (by simp)
    · exact .closes _ _ _ h (by simp)
  | cancel =>
    by_cases hclosed : s.closed = true
    · have hsame : s.cancel = s := by simp [BasicSession.cancel, BasicSession.close, hclosed]
      simp only [BasicSession.step, hsame]
      exact .advances _ _ (Advances.refl s) (by simp)
    · exact .closes _ _ _ (closes_close (by simpa using hclosed) operationAborted) (by simp)
  | asyncDisconnect handler =>
    rcases asyncDisconnect_cases codec s handler with h | h
    · exact .advances _ _ h (by simp)
    · exact .closes _ _ _ h (by simp)
  | asyncSend ch payload handler now =>
    exact .advances _ _ (asyncSend_advances codec s ch payload handler now) (by simp)
  | asyncRecv ch buf handler => exact .receives ch buf handler _ (receives_asyncRecv s ch buf handler)
  | asyncFlush handler => exact .advances _ _ (asyncFlush_advances s handler) (by simp)

end Steps

end ReliableUdp.SessionSteps
