import ReliableUdp.InFlightStatistic
import ReliableUdp.SessionOutput
import ReliableUdp.SessionTeardown

/-! Every handler of a send, a flush or a disconnect is called exactly once: at once, or by the
completion of the one socket send it waits for. -/
namespace ReliableUdp.SendCompletions
open Protocol ChannelCommon ReliableChannel OrderedReceiver ReliableSender Session SessionSteps
open InFlightStatistic SessionMoves SessionOutput SessionTeardown

def answers (handler : ℕ) (log : List Effect) : ℕ :=
  log.countP fun
    | .sendDone h _ => h == handler
    | _ => false

/-- The handler a completion of a socket send calls. -/
def Completion.handler? : Completion → Option ℕ
  | .data _ _ handler | .sequenced handler | .disconnect handler => some handler
  | .flush | .ignore => none

/-- How many outstanding socket sends will call the handler. -/
def awaited (handler : ℕ) (pending : List Completion) : ℕ :=
  pending.countP fun completion => Completion.handler? completion == some handler

/-- The calls of a handler, made or to come. -/
def owed (handler : ℕ) (io : Transport) : ℕ := answers handler io.log + awaited handler io.pending

/-- How often events pass a handler for a send. -/
def requests (handler : ℕ) (es : List Event) : ℕ :=
  es.countP fun
    | .asyncSend _ _ h _ | .asyncFlush h | .asyncDisconnect h => h == handler
    | _ => false

@[simp] lemma answers_append (handler : ℕ) (xs ys : List Effect) :
    answers handler (xs ++ ys) = answers handler xs + answers handler ys := List.countP_append

@[simp] lemma awaited_append (handler : ℕ) (xs ys : List Completion) :
    awaited handler (xs ++ ys) = awaited handler xs + awaited handler ys := List.countP_append

def same (h handler : ℕ) : ℕ := if h = handler then 1 else 0

lemma answers_sendDone (handler h : ℕ) (ec : ErrorCode) :
    answers handler [.sendDone h ec] = same h handler := by
  simp [answers, same, List.countP_singleton]

lemma awaited_singleton {completion : Completion} {h : ℕ}
    (hc : Completion.handler? completion = some h) (handler : ℕ) :
    awaited handler [completion] = same h handler := by
  simp [awaited, same, List.countP_singleton, hc]

lemma awaited_eraseIdx {pending : List Completion} {position : ℕ} {completion : Completion}
    (h : pending[position]? = some completion) (handler : ℕ) :
    awaited handler pending =
      awaited handler (pending.eraseIdx position) + awaited handler [completion] := by
  obtain ⟨hlt, hget⟩ := List.getElem?_eq_some_iff.mp h
  have hsplit : pending = pending.take position ++ completion :: pending.drop (position + 1) := by
    rw [← hget, List.getElem_cons_drop, List.take_append_drop]
  rw [List.eraseIdx_eq_take_drop_succ, awaited_append]
  conv_lhs => rw [hsplit, ← List.singleton_append, awaited_append, awaited_append]
  omega

/-- What an operation does for the handlers of sends: it owes so many calls more, and the new
completions of Data packets name a channel with `P`. -/
structure Answers (P : Byte → Prop) (io io' : Transport) (calls : ℕ → ℕ) : Prop where
  owed : ∀ h, owed h io' = owed h io + calls h
  pending : ∀ ch sequenceNumber h, .data ch sequenceNumber h ∈ io'.pending →
    .data ch sequenceNumber h ∈ io.pending ∨ P ch

/-- An operation that has no handler of a send to call. -/
abbrev Quiet (io io' : Transport) : Prop := Answers (fun _ => False) io io' fun _ => 0

section Transports
variable {P : Byte → Prop} {a b c : Transport} {calls : ℕ → ℕ}

lemma Quiet.trans (h : Quiet a b) (h' : Answers P b c calls) : Answers P a c calls := by
  refine ⟨fun k => ?_, fun ch sequenceNumber k hk => ?_⟩
  · rw [h'.owed, h.owed, Nat.add_zero]
  · rcases h'.pending ch sequenceNumber k hk with hk | hk
    · exact Or.inl ((h.pending ch sequenceNumber k hk).resolve_right id)
    · exact Or.inr hk

lemma Quiet.answers (h : Quiet a b) : Answers P a b fun _ => 0 :=
  ⟨h.owed, fun ch sequenceNumber k hk =>
    (h.pending ch sequenceNumber k hk).imp_right False.elim⟩

lemma quiet_emit (io : Transport) (stats : SocketStats) {effects : List Effect}
    (h : ∀ handler, answers handler effects = 0) :
    Quiet io ({ io with stats := stats }.emit effects) := by
  refine ⟨fun k => ?_, fun _ _ _ hk => Or.inl hk⟩
  simp [owed, Transport.emit, h]

lemma quiet_of_eq {io io' : Transport} (hlog : io'.log = io.log)
    (hpending : io'.pending = io.pending) : Quiet io io' := by
  refine ⟨fun k => ?_, fun _ _ _ hk => Or.inl (hpending ▸ hk)⟩
  rw [owed, owed, hlog, hpending, Nat.add_zero]

lemma quiet_sendEncoded (io : Transport) (stats : SocketStats) (d : List Byte)
    {completion : Completion} (h : Completion.handler? completion = none) :
    Quiet io ({ io with stats := stats }.sendEncoded d completion) := by
  refine ⟨fun k => ?_, fun ch sequenceNumber k hk => ?_⟩
  · simp [owed, Transport.sendEncoded, answers, awaited, h]
  · simp only [Transport.sendEncoded, List.mem_append, List.mem_singleton] at hk
    rcases hk with hk | rfl
    · exact Or.inl hk
    · cases h

lemma answers_emit (io : Transport) (stats : SocketStats) (h : ℕ)
    (ec : ErrorCode) :
    Answers P io ({ io with stats := stats }.emit [.sendDone h ec]) (same h) := by
  refine ⟨fun k => ?_, fun _ _ _ hk => Or.inl hk⟩
  simp only [owed, Transport.emit, answers_append, answers_sendDone]
  omega

lemma answers_sendEncoded (io : Transport) (stats : SocketStats) (d : List Byte)
    {completion : Completion} {h : ℕ} (hh : Completion.handler? completion = some h)
    (hdata : ∀ ch sequenceNumber k, completion = .data ch sequenceNumber k → P ch) :
    Answers P io ({ io with stats := stats }.sendEncoded d completion) (same h) := by
  refine ⟨fun k => ?_, fun ch sequenceNumber k hk => ?_⟩
  · have hlog : answers k [Effect.transmit io.remote d] = 0 := rfl
    simp only [owed, Transport.sendEncoded, answers_append, awaited_append, hlog,
      awaited_singleton hh]
    omega
  · simp only [Transport.sendEncoded, List.mem_append, List.mem_singleton] at hk
    rcases hk with hk | hk
    · exact Or.inl hk
    · exact Or.inr (hdata ch sequenceNumber k hk.symm)

end Transports

section Queue
variable (q : RecvQueue)

lemma answers_recvQueue_asyncRecv (buf handler h : ℕ) : answers h (q.asyncRecv buf handler).2 = 0 := by
  unfold RecvQueue.asyncRecv
  cases q.queuedMessages with
  | cons message rest => rfl
  | nil =>
    dsimp only
    split_ifs
    · rfl
    · cases q.pendingRecv <;> rfl

lemma answers_recvQueue_deliver (payload : List Byte) (channel : Byte) (h : ℕ) :
    answers h (.deliver channel payload :: (q.deliver payload).2) = 0 := by
  unfold RecvQueue.deliver
  cases q.pendingRecv <;> rfl

lemma answers_recvQueue_close (reason : ErrorCode) (h : ℕ) : answers h (q.close reason).2 = 0 := by
  unfold RecvQueue.close
  cases q.pendingRecv <;> rfl

end Queue

section Reliable
variable {C : Type} {ordered : Bool} {W : Window} (ch : Channel C ordered W)

lemma deliver_quiet (payload : List Byte) (io : Transport) :
    Quiet io (ch.deliver payload io).2 :=
  quiet_emit io _ (answers_recvQueue_deliver ch.recvQueue payload ch.id)

lemma receiveOrdered_quiet (packet : Packet) (io : Transport) :
    Quiet io (ch.receiveOrdered packet io).2 :=
  receiveOrdered_invariant (P := fun _ io' => Quiet io io') (fun _ _ _ _ h => h)
    (fun ch' payload io' h => h.trans (deliver_quiet ch' payload io')) packet
    (quiet_of_eq rfl rfl)

lemma flush_quiet (io : Transport) : Quiet io (ch.flush io) := by
  unfold Channel.flush
  refine List.foldlRecOn _ _ (motive := fun io' => Quiet io io') (quiet_of_eq rfl rfl) ?_
  intro io' h sp _
  exact h.trans (quiet_sendEncoded io' io'.stats _ rfl)

variable [CongestionCtrl C]

lemma asyncSend_id (codec : PacketCodec) (payload : List Byte) (handler : ℕ) (now : Time)
    (io : Transport) : (ch.asyncSend codec payload handler now io).1.id = ch.id := by
  have hcases := asyncSend_cases ch codec payload handler now io
  generalize ch.asyncSend codec payload handler now io = r at hcases
  cases hcases <;> rfl

lemma asyncSend_answers {P : Byte → Prop} (hP : P ch.id) (codec : PacketCodec)
    (payload : List Byte) (handler : ℕ) (now : Time) (io : Transport) :
    Answers P io (ch.asyncSend codec payload handler now io).2 (same handler) := by
  unfold Channel.asyncSend
  dsimp only
  split_ifs
  · exact answers_emit io io.stats handler _
  · exact answers_emit io io.stats handler _
  · cases hstore : Channel.storeSentPacket _ _ _ now with
    | none => exact answers_emit io io.stats handler _
    | some ch' =>
      have hid : ch'.id = ch.id := by
        unfold Channel.storeSentPacket at hstore
        split at hstore
        · cases hstore
        · obtain rfl := Option.some.inj hstore
          rfl
      refine answers_sendEncoded io _ _ rfl ?_
      rintro c sequenceNumber k hk
      cases hk
      rw [hid]
      exact hP

lemma sendCompleted_answers {P : Byte → Prop} (sequenceNumber : Seq) (handler : ℕ) (ec : ErrorCode)
    (now : Time) (io : Transport) :
    Answers P io (ch.sendCompleted sequenceNumber handler ec now io).2 (same handler) := by
  unfold Channel.sendCompleted
  split_ifs
  · exact answers_emit io _ handler ec
  · exact answers_emit io io.stats handler ec

lemma onTick_quiet (now : Time) (io : Transport) : Quiet io (ch.onTick now io).2 := by
  refine SlotTable.sweep_invariant (P := fun acc : C × Transport => Quiet io acc.2) ?_
    ch.sentPackets (ch.cc, io) (quiet_of_eq rfl rfl)
  intro x acc hacc
  cases x with
  | none => exact hacc
  | some sp =>
    simp only [Channel.tickSlot]
    split_ifs
    · exact hacc
    · exact hacc.trans (quiet_sendEncoded acc.2 _ _ rfl)

lemma processAck_quiet (ack : Seq) (ackBits : AckBits) (now : Time) (io : Transport) :
    Quiet io (ch.processAck ack ackBits now io).2 := by
  have hsweep : Quiet io (ch.sentPackets.sweep (Channel.ackSlot ack ackBits now)
      (ch.inFlightCount, ch.cc, io)).2.2.2 := by
    refine SlotTable.sweep_invariant (P := fun acc : ℕ × C × Transport => Quiet io acc.2.2) ?_
      ch.sentPackets (ch.inFlightCount, ch.cc, io) (quiet_of_eq rfl rfl)
    intro x acc hacc
    cases x with
    | none => exact hacc
    | some sp =>
      simp only [Channel.ackSlot]
      split_ifs
      · exact hacc
      · exact hacc.trans (quiet_of_eq rfl rfl)
      · exact hacc
  exact hsweep.trans (quiet_of_eq rfl rfl)

lemma onRecv_quiet (packet : Packet) (now : Time) (io : Transport) :
    Quiet io (ch.onRecv packet now io).2 := by
  unfold Channel.onRecv
  split_ifs
  · exact processAck_quiet ch _ _ now io
  · exact quiet_of_eq rfl rfl
  · exact receiveOrdered_quiet ch packet io
  · unfold Channel.receiveUnordered
    split_ifs
    · exact quiet_of_eq rfl rfl
    · exact deliver_quiet _ packet.payload io

end Reliable

section Variants
variable {O U : Type}

/-- An operation of a channel: it keeps number and mode of the channel, and completions of Data
packets name it only when it is reliable. -/
structure Serves (c : ChannelVar O U) (io : Transport) (r : ChannelVar O U × Transport)
    (calls : ℕ → ℕ) : Prop where
  id : channelId r.1 = channelId c
  mode : isReliable r.1 = isReliable c
  answers : Answers (fun ch => ch = channelId c ∧ isReliable c = true) io r.2 calls

lemma variant_asyncRecv_serves (c : ChannelVar O U) (buf handler : ℕ) (io : Transport) :
    Serves c io (c.asyncRecv buf handler io) fun _ => 0 := by
  have hquiet : ∀ q : RecvQueue, Quiet io (io.emit (q.asyncRecv buf handler).2) :=
    fun q => quiet_emit io io.stats (answers_recvQueue_asyncRecv q buf handler)
  cases c with
  | unreliable ch => exact ⟨rfl, rfl, (hquiet _).answers⟩
  | ordered W ch => exact ⟨rfl, rfl, (hquiet _).answers⟩
  | unordered W ch => exact ⟨rfl, rfl, (hquiet _).answers⟩

lemma variant_close_serves (c : ChannelVar O U) (reason : ErrorCode) (io : Transport) :
    Serves c io (c.close reason io) fun _ => 0 := by
  have hquiet : ∀ q : RecvQueue, Quiet io (io.emit (q.close reason).2) :=
    fun q => quiet_emit io io.stats (answers_recvQueue_close q reason)
  cases c with
  | unreliable ch => exact ⟨rfl, rfl, (hquiet _).answers⟩
  | ordered W ch => exact ⟨rfl, rfl, (hquiet _).answers⟩
  | unordered W ch => exact ⟨rfl, rfl, (hquiet _).answers⟩

lemma variant_flush_quiet (c : ChannelVar O U) (io : Transport) : Quiet io (c.flush io) := by
  cases c with
  | unreliable ch => exact quiet_of_eq rfl rfl
  | ordered W ch => exact flush_quiet ch io
  | unordered W ch => exact flush_quiet ch io

variable [CongestionCtrl O] [CongestionCtrl U] (c : ChannelVar O U)

lemma variant_asyncSend_serves (codec : PacketCodec) (payload : List Byte) (handler : ℕ) (now : Time)
    (io : Transport) : Serves c io (c.asyncSend codec payload handler now io) (same handler) := by
  cases c with
  | unreliable ch =>
    refine ⟨?_, rfl, ?_⟩
    · simp only [ChannelVar.asyncSend, UnreliableChannel.Channel.asyncSend]
      split_ifs <;> rfl
    · simp only [ChannelVar.asyncSend, UnreliableChannel.Channel.asyncSend]
      split_ifs
      · exact answers_emit io io.stats handler _
      · exact answers_sendEncoded io _ _ rfl (fun _ _ _ hk => by cases hk)
  | ordered W ch =>
    exact ⟨asyncSend_id ch codec payload handler now io, rfl,
      asyncSend_answers ch ⟨rfl, rfl⟩ codec payload handler now io⟩
  | unordered W ch =>
    exact ⟨asyncSend_id ch codec payload handler now io, rfl,
      asyncSend_answers ch ⟨rfl, rfl⟩ codec payload handler now io⟩

lemma variant_sendCompleted_serves (hc : isReliable c = true) (sequenceNumber : Seq) (handler : ℕ)
    (ec : ErrorCode) (now : Time) (io : Transport) :
    Serves c io (c.sendCompleted sequenceNumber handler ec now io) (same handler) := by
  cases c with
  | unreliable ch => cases hc
  | ordered W ch =>
    exact ⟨(sendCompleted_frame ch sequenceNumber handler ec now io).1.id, rfl,
      sendCompleted_answers ch sequenceNumber handler ec now io⟩
  | unordered W ch =>
    exact ⟨(sendCompleted_frame ch sequenceNumber handler ec now io).1.id, rfl,
      sendCompleted_answers ch sequenceNumber handler ec now io⟩

lemma variant_onTick_serves (now : Time) (io : Transport) :
    Serves c io (c.onTick now io) fun _ => 0 := by
  cases c with
  | unreliable ch => exact ⟨rfl, rfl, (quiet_of_eq rfl rfl).answers⟩
  | ordered W ch => exact ⟨rfl, rfl, (onTick_quiet ch now io).answers⟩
  | unordered W ch => exact ⟨rfl, rfl, (onTick_quiet ch now io).answers⟩

lemma variant_onRecv_serves (packet : Packet) (now : Time) (io : Transport) :
    Serves c io (c.onRecv packet now io) fun _ => 0 := by
  cases c with
  | unreliable ch =>
    simp only [ChannelVar.onRecv, UnreliableChannel.Channel.onRecv]
    split_ifs
    · exact ⟨rfl, rfl, (quiet_of_eq rfl rfl).answers⟩
    · exact ⟨rfl, rfl, (quiet_of_eq rfl rfl).answers⟩
    · exact ⟨rfl, rfl, (quiet_emit io _ (answers_recvQueue_deliver _ _ _)).answers⟩
  | ordered W ch =>
    exact ⟨(onRecv_resends ch packet now io).id, rfl, (onRecv_quiet ch packet now io).answers⟩
  | unordered W ch =>
    exact ⟨(onRecv_resends ch packet now io).id, rfl, (onRecv_quiet ch packet now io).answers⟩

end Variants

section Sessions
variable {O U : Type}

/-- Channels sit in the slot of their number, and the Data packets whose completion is
outstanding are of open reliable channels. -/
structure Kept (s : BasicSession O U) : Prop where
  ids : ∀ k < kMaxChannels, ∀ c, s.channels.get k = some c → (channelId c).toNat = k
  pending : ∀ ch sequenceNumber h, .data ch sequenceNumber h ∈ s.io.pending →
    ∃ c, s.channel? ch = some c ∧ isReliable c = true

/-- A part of an event keeps `Kept` and owes so many calls more. -/
def Settles (s s' : BasicSession O U) (calls : ℕ → ℕ) : Prop :=
  Kept s → Kept s' ∧ ∀ h, owed h s'.io = owed h s.io + calls h

lemma Settles.trans {a b c : BasicSession O U} {calls : ℕ → ℕ} (h : Settles a b fun _ => 0)
    (h' : Settles b c calls) : Settles a c calls := by
  intro ha
  obtain ⟨hb, hab⟩ := h ha
  obtain ⟨hc, hbc⟩ := h' hb
  exact ⟨hc, fun k => by rw [hbc, hab, Nat.add_zero]⟩

lemma settles_of_channels {s s' : BasicSession O U} {calls : ℕ → ℕ}
    (hchannels : s'.channels = s.channels) (h : Answers (fun _ => False) s.io s'.io calls) :
    Settles s s' calls := by
  rintro ⟨hids, hpending⟩
  have hsame : ∀ ch, s'.channel? ch = s.channel? ch := fun ch => by
    unfold BasicSession.channel?
    rw [hchannels]
  refine ⟨⟨hchannels ▸ hids, ?_⟩, h.owed⟩
  intro ch sequenceNumber k hk
  rw [hsame]
  exact hpending ch sequenceNumber k ((h.pending ch sequenceNumber k hk).resolve_right id)

lemma settles_refl (s : BasicSession O U) : Settles s s fun _ => 0 :=
  settles_of_channels rfl (quiet_of_eq rfl rfl)

lemma settles_answer (s : BasicSession O U) (handler : ℕ) (ec : ErrorCode) :
    Settles s (s.emit [.sendDone handler ec]) (same handler) :=
  settles_of_channels rfl (answers_emit s.io s.io.stats handler ec)

lemma settles_put {s : BasicSession O U} {k : ℕ} (hk : k < kMaxChannels) {c : ChannelVar O U}
    (hc : s.channels.get k = some c) {r : ChannelVar O U × Transport} {calls : ℕ → ℕ}
    (h : Serves c s.io r calls) : Settles s (put s k r) calls := by
  rintro ⟨hids, hpending⟩
  have hid := hids k hk c hc
  refine ⟨⟨?_, ?_⟩, h.answers.owed⟩
  · refine forall_put hk ?_ fun j hj _ => hids j hj
    rw [h.id]
    exact hid
  · intro ch sequenceNumber handler hdata
    by_cases hch : ch.toNat = k
    · subst hch
      refine ⟨r.1, channel?_put hk r, ?_⟩
      rw [h.mode]
      rcases h.answers.pending ch sequenceNumber handler hdata with hold | ⟨_, hreliable⟩
      · obtain ⟨c', hc', hreliable⟩ := hpending ch sequenceNumber handler hold
        have hsame : c = c' := Option.some.inj (hc.symm.trans (channel?_some hc').2)
        rw [hsame]
        exact hreliable
      · exact hreliable
    · rcases h.answers.pending ch sequenceNumber handler hdata with hold | ⟨hname, _⟩
      · obtain ⟨c', hc', hreliable⟩ := hpending ch sequenceNumber handler hold
        obtain ⟨hlt, hget⟩ := channel?_some hc'
        refine ⟨c', ?_, hreliable⟩
        unfold BasicSession.channel? put
        rw [if_pos hlt, SlotTable.get_set_other _ ?_, hget]
        rw [Nat.mod_eq_of_lt hk, Nat.mod_eq_of_lt hlt]
        exact Ne.symm hch
      · exact absurd (hname ▸ hid) hch

lemma settles_update {s : BasicSession O U} {ch : Byte} {c : ChannelVar O U}
    (hc : s.channel? ch = some c) {r : ChannelVar O U × Transport} {calls : ℕ → ℕ}
    (h : Serves c s.io r calls) : Settles s (s.update ch r) calls :=
  settles_put (channel?_some hc).1 (channel?_some hc).2 h

lemma settles_sweep {f : Option (ChannelVar O U) → Transport → Option (ChannelVar O U) × Transport}
    {g : ChannelVar O U → Transport → ChannelVar O U × Transport}
    (hnone : ∀ io, f none io = (none, io)) (hsome : ∀ c io, f (some c) io = (some (g c io).1, (g c io).2))
    (h : ∀ c io, Serves c io (g c io) fun _ => 0) (s : BasicSession O U) :
    Settles s { s with channels := (s.channels.sweep f s.io).1, io := (s.channels.sweep f s.io).2 }
      fun _ => 0 := by
  refine SlotTable.sweep_rule_occupied
    (P := fun channels io => Settles s { s with channels := channels, io := io } fun _ => 0)
    hnone ?_ s.channels s.io (settles_refl s)
  intro channels io k c hk hget hbefore
  rw [hsome]
  exact hbefore.trans
    (settles_put (s := { s with channels := channels, io := io }) hk hget (h c io))

lemma settles_close (s : BasicSession O U) (reason : ErrorCode) :
    Settles s (s.close reason) fun _ => 0 := by
  unfold BasicSession.close
  split_ifs
  · exact settles_refl s
  · have hsweep := settles_sweep (f := BasicSession.closeSlot (BasicSession.channelReason reason))
      (fun _ => rfl) (fun _ _ => rfl)
      (fun c io => variant_close_serves c (BasicSession.channelReason reason) io) s
    exact hsweep.trans (settles_of_channels rfl (quiet_emit _ _ fun _ => rfl))

lemma settles_sendPacket (codec : PacketCodec) (s : BasicSession O U) (packet : Packet) :
    Settles s (s.sendPacket codec packet) fun _ => 0 := by
  unfold BasicSession.sendPacket
  dsimp only
  split_ifs
  · exact settles_refl s
  · exact settles_of_channels rfl (quiet_sendEncoded s.io s.io.stats _ rfl)

lemma kept_create (config : SessionConfig) (cc : O) (cc' : U) :
    Kept (BasicSession.create config cc cc') := by
  have hauthored : Authored DefaultCodec.defaultCodec.toPacketCodec {}
      (BasicSession.create config cc cc') := authored_create config cc cc'
  exact ⟨fun k hk c hc => (hauthored.numbers k hk c hc).id,
    fun _ _ _ hk => absurd hk List.not_mem_nil⟩

lemma settles_asyncRecv (s : BasicSession O U) (ch : Byte) (buf handler : ℕ) :
    Settles s (s.asyncRecv ch buf handler) fun _ => 0 := by
  unfold BasicSession.asyncRecv
  cases hc : s.channel? ch with
  | none => exact settles_of_channels rfl (quiet_emit s.io s.io.stats fun _ => rfl)
  | some c => exact settles_update hc (variant_asyncRecv_serves c buf handler s.io)

lemma settles_asyncFlush (s : BasicSession O U) (handler : ℕ) :
    Settles s (s.asyncFlush handler) (same handler) := by
  unfold BasicSession.asyncFlush
  split_ifs
  · exact settles_answer s handler _
  · have hflush : Quiet s.io
        (s.channels.entries.foldl (fun io c => ChannelVar.flush io c) s.io) := by
      refine List.foldlRecOn _ _ (motive := fun io => Quiet s.io io) (quiet_of_eq rfl rfl) ?_
      intro io h c _
      exact h.trans (variant_flush_quiet c io)
    have hresent : Settles s
        { s with io := s.channels.entries.foldl (fun io c => ChannelVar.flush io c) s.io }
        fun _ => 0 := settles_of_channels rfl hflush
    exact hresent.trans (settles_answer _ handler .none)

lemma settles_asyncDisconnect (codec : PacketCodec) (s : BasicSession O U) (handler : ℕ) :
    Settles s (s.asyncDisconnect codec handler) (same handler) := by
  unfold BasicSession.asyncDisconnect
  dsimp only
  split_ifs
  · exact settles_answer s handler _
  · exact (settles_close s _).trans (settles_answer _ handler _)
  · exact settles_of_channels rfl
      (answers_sendEncoded s.io s.io.stats _ rfl fun _ _ _ hk => by cases hk)

variable [CongestionCtrl O] [CongestionCtrl U]

lemma settles_asyncSend (codec : PacketCodec) (s : BasicSession O U) (ch : Byte)
    (payload : List Byte) (handler : ℕ) (now : Time) :
    Settles s (s.asyncSend codec ch payload handler now) (same handler) := by
  unfold BasicSession.asyncSend
  by_cases hclosed : s.closed = true
  · rw [if_pos hclosed]
    exact settles_answer s handler _
  · rw [if_neg hclosed]
    cases hc : s.channel? ch with
    | none => exact settles_answer s handler _
    | some c =>
      dsimp only
      split_ifs
      · exact settles_answer s handler _
      · exact settles_update hc (variant_asyncSend_serves c codec payload handler now s.io)

lemma settles_channelPacket (codec : PacketCodec) (s : BasicSession O U) (packet : Packet)
    (now : Time) : Settles s (s.channelPacket codec packet now) fun _ => 0 := by
  unfold BasicSession.channelPacket
  cases hc : s.channel? packet.channel with
  | none => exact settles_refl s
  | some c =>
    have hcall := settles_update hc (variant_onRecv_serves c packet now s.io)
    dsimp only
    split_ifs
    · exact hcall
    · split
      · exact hcall
      · exact hcall.trans (settles_sendPacket codec _ _)

lemma settles_handlePacket (codec : PacketCodec) (s : BasicSession O U) (datagram : List Byte)
    (now : Time) : Settles s (s.handlePacket codec datagram now) fun _ => 0 := by
  unfold BasicSession.handlePacket
  cases codec.decode datagram with
  | error err => exact settles_refl s
  | ok packet =>
    have hseen : Settles s { s with lastRecv := now } fun _ => 0 :=
      settles_of_channels rfl (quiet_of_eq rfl rfl)
    dsimp only
    split_ifs
    · exact hseen.trans (settles_close _ _)
    · exact hseen
    · exact hseen.trans (settles_sendPacket codec _ _)
    · exact hseen
    · exact hseen.trans (settles_channelPacket codec _ packet now)

lemma settles_onSocketRecv (codec : PacketCodec) (s : BasicSession O U) (ec : ErrorCode)
    (sender : Endpoint) (datagram : List Byte) (now : Time) :
    Settles s (s.onSocketRecv codec ec sender datagram now) fun _ => 0 := by
  have hflag : ∀ (t : BasicSession O U) (receiving : Bool),
      Settles t { t with receiving := receiving } fun _ => 0 :=
    fun t receiving => settles_of_channels rfl (quiet_of_eq rfl rfl)
  unfold BasicSession.onSocketRecv
  by_cases hr : s.receiving = false
  · rw [if_pos hr]
    exact settles_refl s
  · rw [if_neg hr]
    dsimp only
    by_cases hclosed : s.closed = true
    · rw [if_pos hclosed]
      exact hflag s false
    · rw [if_neg hclosed]
      by_cases hec : ec.failed = true
      · rw [if_pos hec]
        exact (hflag s false).trans (settles_close _ ec)
      · rw [if_neg hec]
        by_cases hsender : sender = s.io.remote
        · rw [if_pos hsender]
          have hhandled := (hflag s false).trans (settles_handlePacket codec _ datagram now)
          split_ifs
          · exact hhandled
          · exact hhandled.trans (hflag _ true)
        · rw [if_neg hsender, if_neg hclosed]
          exact (hflag s false).trans (hflag _ true)

lemma settles_sendCompleted (s : BasicSession O U) (position : ℕ) (ec : ErrorCode) (now : Time) :
    Settles s (s.sendCompleted position ec now) fun _ => 0 := by
  intro hs
  have hdrop : Kept { s with io := { s.io with pending := s.io.pending.eraseIdx position } } :=
    ⟨hs.ids, fun ch sequenceNumber k hk =>
      hs.pending ch sequenceNumber k (List.mem_of_mem_eraseIdx hk)⟩
  have howed : ∀ completion, s.io.pending[position]? = some completion → ∀ k,
      owed k s.io = owed k { s.io with pending := s.io.pending.eraseIdx position } +
        awaited k [completion] := by
    intro completion hget k
    simp only [owed]
    rw [awaited_eraseIdx hget, Nat.add_assoc]
  have hcall : ∀ {completion : Completion} {handler : ℕ} {s' : BasicSession O U},
      s.io.pending[position]? = some completion → Completion.handler? completion = some handler →
      Settles { s with io := { s.io with pending := s.io.pending.eraseIdx position } } s'
        (same handler) →
      Kept s' ∧ ∀ k, owed k s'.io = owed k s.io + 0 := by
    intro completion handler s' hget hhandler hsettles
    obtain ⟨hkept, hcount⟩ := hsettles hdrop
    refine ⟨hkept, fun k => ?_⟩
    rw [hcount, howed completion hget, awaited_singleton hhandler, Nat.add_zero]
  have hnone : ∀ completion, s.io.pending[position]? = some completion →
      Completion.handler? completion = none → ∀ k,
      owed k { s.io with pending := s.io.pending.eraseIdx position } = owed k s.io + 0 := by
    intro completion hget hhandler k
    rw [howed completion hget]
    simp [awaited, hhandler]
  unfold BasicSession.sendCompleted
  dsimp only
  split
  · rename_i ch sequenceNumber handler hget
    obtain ⟨c, hc, hreliable⟩ :=
      hs.pending ch sequenceNumber handler (List.mem_of_getElem? hget)
    have hopen : BasicSession.channel?
        { s with io := { s.io with pending := s.io.pending.eraseIdx position } } ch = some c := hc
    rw [hopen]
    exact hcall hget rfl (settles_update hopen
      (variant_sendCompleted_serves c hreliable sequenceNumber handler ec now _))
  · rename_i handler hget
    exact hcall hget rfl (settles_answer _ handler ec)
  · rename_i handler hget
    exact hcall hget rfl ((settles_close _ .none).trans (settles_answer _ handler ec))
  · rename_i hget
    exact ⟨hdrop, hnone _ hget rfl⟩
  · rename_i hget
    exact ⟨hdrop, hnone _ hget rfl⟩
  · rename_i hget
    have hlast : s.io.pending.eraseIdx position = s.io.pending :=
      List.eraseIdx_of_length_le (List.getElem?_eq_none_iff.mp hget)
    exact ⟨hdrop, fun k => by rw [hlast, Nat.add_zero]⟩

theorem settles_step (codec : PacketCodec) (s : BasicSession O U) (e : Event) :
    Settles s (s.step codec e) fun h => requests h [e] := by
  have hone : ∀ handler, (fun h => if handler == h then 1 else 0) = same handler := by
    intro handler
    funext h
    simp [same]
  cases e with
  | start remote now =>
    simp only [BasicSession.step, BasicSession.start]
    split_ifs
    · exact settles_refl s
    · have hpeer : Quiet s.io { s.io with remote := remote } := quiet_of_eq rfl rfl
      exact settles_of_channels rfl (hpeer.trans (quiet_emit _ s.io.stats fun _ => rfl))
  | onSocketRecv ec sender datagram now => exact settles_onSocketRecv codec s ec sender datagram now
  | retransmitTimer ec now =>
    simp only [BasicSession.step, BasicSession.retransmitTimer]
    split_ifs
    · exact settles_refl s
    · exact settles_of_channels rfl (quiet_of_eq rfl rfl)
    · exact settles_sweep (f := BasicSession.tickSlot now) (fun _ => rfl) (fun _ _ => rfl)
        (fun c io => variant_onTick_serves c now io) s
  | keepaliveTimer ec now =>
    have hstopped : Settles s { s with keepingAlive := false } fun _ => 0 :=
      settles_of_channels rfl (quiet_of_eq rfl rfl)
    simp only [BasicSession.step, BasicSession.keepaliveTimer]
    split_ifs
    · exact settles_refl s
    · exact hstopped
    · exact hstopped.trans (settles_close _ _)
    · exact settles_sendPacket codec s _
  | sendCompleted position ec now => exact settles_sendCompleted s position ec now
  | cancel => exact settles_close s _
  | asyncRecv ch buf handler => exact settles_asyncRecv s ch buf handler
  | asyncDisconnect handler =>
    simp only [requests, List.countP_singleton, hone]
    exact settles_asyncDisconnect codec s handler
  | asyncSend ch payload handler now =>
    simp only [requests, List.countP_singleton, hone]
    exact settles_asyncSend codec s ch payload handler now
  | asyncFlush handler =>
    simp only [requests, List.countP_singleton, hone]
    exact settles_asyncFlush s handler

lemma sendCompleted_pending (s : BasicSession O U) (position : ℕ) (ec : ErrorCode) (now : Time) :
    (s.sendCompleted position ec now).io.pending = s.io.pending.eraseIdx position := by
  have hclose : ∀ (t : BasicSession O U) (reason : ErrorCode),
      (t.close reason).io.pending = t.io.pending := by
    intro t reason
    unfold BasicSession.close
    split_ifs
    · rfl
    · refine SlotTable.sweep_invariant (P := fun io : Transport => io.pending = t.io.pending)
        ?_ t.channels t.io rfl
      intro x io h
      cases x with
      | none => exact h
      | some c => cases c <;> exact h
  have hreliable : ∀ {C : Type} [CongestionCtrl C] {ordered : Bool} {W : Window}
      (ch : Channel C ordered W) (sequenceNumber : Seq) (handler : ℕ) (io : Transport),
      (ch.sendCompleted sequenceNumber handler ec now io).2.pending = io.pending := by
    intro C _ ordered W ch sequenceNumber handler io
    unfold Channel.sendCompleted
    split_ifs <;> rfl
  unfold BasicSession.sendCompleted
  dsimp only
  split
  · split
    · rfl
    · rename_i c _
      cases c with
      | unreliable ch => rfl
      | ordered W ch => exact hreliable ch _ _ _
      | unordered W ch => exact hreliable ch _ _ _
  · rfl
  · exact hclose _ _
  · rfl
  · rfl
  · rfl

theorem settles_run (codec : PacketCodec) {s : BasicSession O U} (hs : Kept s) (es : List Event) :
    Kept (run codec s es) ∧ ∀ h, owed h (run codec s es).io = owed h s.io + requests h es := by
  induction es using List.reverseRecOn with
  | nil => exact ⟨hs, fun _ => rfl⟩
  | append_singleton es e ih =>
    obtain ⟨hkept, howed⟩ := ih
    obtain ⟨hkept', howed'⟩ := settles_step codec (run codec s es) e hkept
    rw [run_concat]
    refine ⟨hkept', fun h => ?_⟩
    have hrequests : requests h (es ++ [e]) = requests h es + requests h [e] := List.countP_append
    rw [howed', howed, hrequests, Nat.add_assoc]

end Sessions

/-- The outcome of a socket send and the position of its completion among the outstanding ones. -/
structure Outcome where
  position : ℕ
  ec : ErrorCode
  now : Time

def Outcome.event (o : Outcome) : Event := .sendCompleted o.position o.ec o.now

/-- All of `n` outstanding socket sends end, in any order. -/
def Drains : ℕ → List Outcome → Prop
  | n, [] => n = 0
  | n, o :: os => o.position < n ∧ Drains (n - 1) os

instance decidableDrains : (n : ℕ) → (os : List Outcome) → Decidable (Drains n os)
  | n, [] => inferInstanceAs (Decidable (n = 0))
  | n, _ :: os =>
    have := decidableDrains (n - 1) os
    inferInstanceAs (Decidable (_ ∧ Drains (n - 1) os))

section Drained
variable {O U : Type} [CongestionCtrl O] [CongestionCtrl U]

lemma drained_pending (codec : PacketCodec) (os : List Outcome) (s : BasicSession O U)
    (h : Drains s.io.pending.length os) :
    (run codec s (os.map Outcome.event)).io.pending = [] := by
  induction os generalizing s with
  | nil => exact List.eq_nil_of_length_eq_zero h
  | cons o os ih =>
    obtain ⟨hlt, hrest⟩ := h
    have hpending : (s.step codec o.event).io.pending = s.io.pending.eraseIdx o.position :=
      sendCompleted_pending s o.position o.ec o.now
    refine ih (s.step codec o.event) ?_
    rw [hpending, List.length_eraseIdx_of_lt hlt]
    exact hrest

lemma requests_outcomes (h : ℕ) (os : List Outcome) : requests h (os.map Outcome.event) = 0 := by
  rw [requests, List.countP_eq_zero]
  intro e he
  obtain ⟨o, _, rfl⟩ := List.mem_map.mp he
  exact Bool.false_ne_true

/-- In every run a handler passed to `asyncSend`, `asyncFlush` or `asyncDisconnect` was called or
waits for the completion of one socket send, and once all of these have ended, in any order and
with any result, it was called exactly as often as it was passed. -/
theorem sends_answered_once (codec : PacketCodec) (config : SessionConfig) (cc : O) (cc' : U)
    (es : List Event) (h : ℕ) :
    answers h (run codec (.create config cc cc') es).io.log +
        awaited h (run codec (.create config cc cc') es).io.pending = requests h es ∧
      ∀ os, Drains (run codec (.create config cc cc') es).io.pending.length os →
        answers h (run codec (.create config cc cc') (es ++ os.map Outcome.event)).io.log =
          requests h es := by
  have hzero : owed h (BasicSession.create config cc cc').io = 0 := rfl
  obtain ⟨hkept, howed⟩ := settles_run codec (kept_create config cc cc') es
  have hrun := howed h
  rw [hzero, Nat.zero_add] at hrun
  refine ⟨hrun, fun os hos => ?_⟩
  obtain ⟨_, hdrained⟩ := settles_run codec hkept (os.map Outcome.event)
  have hlast := hdrained h
  have hempty := drained_pending codec os _ hos
  rw [hrun, requests_outcomes, owed, hempty] at hlast
  rw [run, List.foldl_append]
  exact hlast

end Drained

def farewellEvents : List Event :=
  [.start ⟨1, 7#16⟩ 0, .asyncSend 0 [7#8] 10 1, .asyncSend 1 [8#8] 11 2, .asyncFlush 12,
    .asyncDisconnect 13]

/-- The farewell is out first and tears the session down; the message fails after that. -/
def farewellOutcomes : List Outcome :=
  [⟨3, .none, 3⟩, ⟨0, operationAborted, 4⟩, ⟨1, .none, 5⟩, ⟨0, .none, 6⟩]

theorem sends_answered_once_farewell :
    Drains (run DefaultCodec.defaultCodec.toPacketCodec
        (.create { channels := [{}, { id := 1, mode := .unreliableSequenced }] } (⟨⟩ : Null)
          (⟨⟩ : Null)) farewellEvents).io.pending.length farewellOutcomes ∧
      answers 10 (run DefaultCodec.defaultCodec.toPacketCodec
        (.create { channels := [{}, { id := 1, mode := .unreliableSequenced }] } (⟨⟩ : Null)
          (⟨⟩ : Null)) (farewellEvents ++ farewellOutcomes.map Outcome.event)).io.log = 1 := by
  have hdrains : Drains (run DefaultCodec.defaultCodec.toPacketCodec
      (.create { channels := [{}, { id := 1, mode := .unreliableSequenced }] } (⟨⟩ : Null)
        (⟨⟩ : Null)) farewellEvents).io.pending.length farewellOutcomes := by decide +kernel
  exact ⟨hdrains, (sends_answered_once _ _ _ _ farewellEvents 10).2 farewellOutcomes hdrains⟩

end ReliableUdp.SendCompletions
