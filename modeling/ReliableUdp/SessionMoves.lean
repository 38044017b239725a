import ReliableUdp.SessionSteps

/-! Every event of a session as a sequence of small moves: one call into one channel, one packet
the session sends on its own, one report to the application, or a change of its bookkeeping. -/
namespace ReliableUdp.SessionMoves
open Protocol ChannelCommon ReliableChannel Session SessionSteps

inductive Call
  | asyncSend (payload : List Byte) (handler : ℕ) (now : Time)
  | sendCompleted (sequenceNumber : Seq) (handler : ℕ) (ec : ErrorCode) (now : Time)
  | asyncRecv (buf handler : ℕ)
  | onTick (now : Time)
  | onRecv (packet : Packet) (now : Time)
  | flush
  | close (reason : ErrorCode)

variable {O U : Type}

lemma close_of_closed {s : BasicSession O U} (hclosed : s.closed = true) (reason : ErrorCode) :
    s.close reason = s := by
  unfold BasicSession.close
  rw [if_pos hclosed]

def put (s : BasicSession O U) (k : ℕ) (r : ChannelVar O U × Transport) : BasicSession O U :=
  { s with channels := s.channels.set k (some r.1), io := r.2 }

variable [CongestionCtrl O] [CongestionCtrl U]

def Call.run (codec : PacketCodec) (c : ChannelVar O U) (io : Transport) :
    Call → ChannelVar O U × Transport
  | .asyncSend payload handler now => c.asyncSend codec payload handler now io
  | .sendCompleted sequenceNumber handler ec now => c.sendCompleted sequenceNumber handler ec now io
  | .asyncRecv buf handler => c.asyncRecv buf handler io
  | .onTick now => c.onTick now io
  | .onRecv packet now => c.onRecv packet now io
  | .flush => (c, c.flush io)
  | .close reason => c.close reason io

def ForChannel (packet : Packet) : Prop :=
  packet.type ≠ .disconnect ∧ packet.type ≠ .keepalive ∧ packet.type ≠ .handshakeInit ∧
    packet.type ≠ .handshakeAck

/-- Why an event that found the session as `origin` tears it down. -/
inductive Reason (codec : PacketCodec) (origin : BasicSession O U) : Event → ErrorCode → Prop
  | reset (ec : ErrorCode) (datagram : List Byte) (now : Time) (packet : Packet)
      (hec : ec.failed = false) (hdec : codec.decode datagram = .ok packet)
      (htype : packet.type = .disconnect) :
      Reason codec origin (.onSocketRecv ec origin.io.remote datagram now)
        (makeErrorCode .connectionReset)
  | socket (ec : ErrorCode) (sender : Endpoint) (datagram : List Byte) (now : Time)
      (hec : ec.failed = true) : Reason codec origin (.onSocketRecv ec sender datagram now) ec
  | silent (ec : ErrorCode) (now : Time)
      (h : now - origin.lastRecv > milliseconds origin.config.timeoutMs.toNat) :
      Reason codec origin (.keepaliveTimer ec now) (makeErrorCode .timeout)
  | cancelled : Reason codec origin .cancel operationAborted
  | unencodable (handler : ℕ) (h : codec.encodePacket { type := .disconnect } = []) :
      Reason codec origin (.asyncDisconnect handler) (makeErrorCode .badPacket)
  | farewell (position handler : ℕ) (ec : ErrorCode) (now : Time)
      (h : origin.io.pending[position]? = some (.disconnect handler)) :
      Reason codec origin (.sendCompleted position ec now) .none

/-- Which call an event that found the session as `origin` makes on slot `k`. -/
inductive Causes (codec : PacketCodec) (origin s : BasicSession O U) : Event → ℕ → Call → Prop
  | asyncSend (ch : Byte) (payload : List Byte) (handler : ℕ) (now : Time)
      (hopen : origin.closed = false)
      (hfits : payload.length + codec.maxOverhead ≤ origin.config.mtu) (hsame : s = origin) :
      Causes codec origin s (.asyncSend ch payload handler now) ch.toNat
        (.asyncSend payload handler now)
  | sendCompleted (position : ℕ) (ch : Byte) (sequenceNumber : Seq) (handler : ℕ) (ec : ErrorCode)
      (now : Time) (h : origin.io.pending[position]? = some (.data ch sequenceNumber handler)) :
      Causes codec origin s (.sendCompleted position ec now) ch.toNat
        (.sendCompleted sequenceNumber handler ec now)
  | asyncRecv (ch : Byte) (buf handler : ℕ) :
      Causes codec origin s (.asyncRecv ch buf handler) ch.toNat (.asyncRecv buf handler)
  | onTick (ec : ErrorCode) (now : Time) (k : ℕ) (hopen : origin.closed = false) :
      Causes codec origin s (.retransmitTimer ec now) k (.onTick now)
  | onRecv (ec : ErrorCode) (datagram : List Byte) (now : Time) (packet : Packet)
      (hopen : origin.closed = false) (hec : ec.failed = false)
      (hdec : codec.decode datagram = .ok packet) (htype : ForChannel packet)
      (hchannels : s.channels = origin.channels) (hio : s.io = origin.io) :
      Causes codec origin s (.onSocketRecv ec origin.io.remote datagram now) packet.channel.toNat
        (.onRecv packet now)
  | flush (handler k : ℕ) (hopen : origin.closed = false) :
      Causes codec origin s (.asyncFlush handler) k .flush
  | close (e : Event) (k : ℕ) (reason : ErrorCode) (hopen : origin.closed = false)
      (hreason : Reason codec origin e reason) :
      Causes codec origin s e k (.close (BasicSession.channelReason reason))

inductive Own (s : BasicSession O U) : Event → Packet → Prop
  | keepalive (ec : ErrorCode) (now : Time) :
      Own s (.keepaliveTimer ec now) { type := .keepalive }
  | handshakeAck (ec : ErrorCode) (sender : Endpoint) (datagram : List Byte) (now : Time) (seq : Seq) :
      Own s (.onSocketRecv ec sender datagram now) { type := .handshakeAck, ack := seq }
  | ack (ec : ErrorCode) (sender : Endpoint) (datagram : List Byte) (now : Time) (k : ℕ)
      (c : ChannelVar O U) (hc : s.channels.get k = some c) (packet : Packet)
      (hack : c.buildAck = some packet) : Own s (.onSocketRecv ec sender datagram now) packet
  | disconnect (handler : ℕ) : Own s (.asyncDisconnect handler) { type := .disconnect }

def Report (codec : PacketCodec) (origin : BasicSession O U) (e : Event) : Effect → Prop
  | .transmit .. | .deliver .. => False
  | .recvDone .. | .sendDone .. => True
  | .onConnected => ∃ remote now, e = .start remote now
  | .onDisconnected reason => Reason codec origin e reason

/-- A change of flags, pending completions or peer address. -/
structure Bookkeeping (e : Event) (s s' : BasicSession O U) : Prop where
  config : s'.config = s.config
  channels : s'.channels = s.channels
  log : s'.io.log = s.io.log
  stats : s'.io.stats = s.io.stats
  remote : s'.io.remote = s.io.remote ∨ ∃ remote now, e = .start remote now

inductive Move (codec : PacketCodec) (origin : BasicSession O U) (e : Event) :
    BasicSession O U → BasicSession O U → Prop
  | call (s : BasicSession O U) (k : ℕ) (hk : k < kMaxChannels) (c : ChannelVar O U)
      (hc : s.channels.get k = some c) (call : Call) (cause : Causes codec origin s e k call) :
      Move codec origin e s (put s k (call.run codec c s.io))
  | send (s : BasicSession O U) (packet : Packet) (completion : Completion) (hown : Own s e packet)
      (hne : codec.encodePacket packet ≠ []) :
      Move codec origin e s
        { s with io := s.io.sendEncoded (codec.encodePacket packet) completion }
  | report (s : BasicSession O U) (effect : Effect) (h : Report codec origin e effect) :
      Move codec origin e s (s.emit [effect])
  | bookkeeping (s s' : BasicSession O U) (h : Bookkeeping e s s') : Move codec origin e s s'

abbrev Moves (codec : PacketCodec) (origin : BasicSession O U) (e : Event) :
    BasicSession O U → BasicSession O U → Prop :=
  Relation.ReflTransGen (Move codec origin e)

section Chains
variable {codec : PacketCodec} {origin : BasicSession O U} {e : Event}

lemma moves_call {s : BasicSession O U} {ch : Byte} {c : ChannelVar O U}
    (hc : s.channel? ch = some c) {call : Call} (cause : Causes codec origin s e ch.toNat call) :
    Moves codec origin e s (s.update ch (call.run codec c s.io)) :=
  .single (.call s ch.toNat (channel?_some hc).1 c (channel?_some hc).2 call cause)

lemma moves_report (s : BasicSession O U) (effect : Effect) (h : Report codec origin e effect) :
    Moves codec origin e s (s.emit [effect]) :=
  .single (.report s effect h)

lemma moves_sendPacket (s : BasicSession O U) {packet : Packet} (hown : Own s e packet) :
    Moves codec origin e s (s.sendPacket codec packet) := by
  unfold BasicSession.sendPacket
  dsimp only
  split_ifs with hempty
  · exact .refl
  · exact .single (.send s packet .ignore hown hempty)

variable (codec) in
lemma moves_sweep {f : Option (ChannelVar O U) → Transport → Option (ChannelVar O U) × Transport}
    {call : Call} (hnone : ∀ io, f none io = (none, io))
    (hsome : ∀ c io, f (some c) io = (some (call.run codec c io).1, (call.run codec c io).2))
    (cause : ∀ s k, Causes codec origin s e k call) (s : BasicSession O U) :
    Moves codec origin e s
      { s with channels := (s.channels.sweep f s.io).1, io := (s.channels.sweep f s.io).2 } := by
  refine SlotTable.sweep_rule_occupied
    (P := fun channels io => Moves codec origin e s { s with channels := channels, io := io })
    hnone ?_ s.channels s.io .refl
  intro channels io k c hk hget hmoves
  rw [hsome]
  exact hmoves.tail (.call { s with channels := channels, io := io } k hk c hget call (cause _ k))

lemma moves_close (s : BasicSession O U) (hopen : origin.closed = false) {reason : ErrorCode}
    (hreason : Reason codec origin e reason) : Moves codec origin e s (s.close reason) := by
  unfold BasicSession.close
  split_ifs
  · exact .refl
  · have hflag : Move codec origin e s { s with closed := true } :=
      .bookkeeping _ _ ⟨rfl, rfl, rfl, rfl, Or.inl rfl⟩
    have hsweep := moves_sweep codec (f := BasicSession.closeSlot (BasicSession.channelReason reason))
      (fun _ => rfl) (fun _ _ => rfl) (fun _ k => .close e k _ hopen hreason)
      { s with closed := true }
    exact (Relation.ReflTransGen.head hflag hsweep).tail (.report _ (.onDisconnected reason) hreason)

lemma moves_bookkeeping {s s' : BasicSession O U} (hconfig : s'.config = s.config)
    (hchannels : s'.channels = s.channels) (hlog : s'.io.log = s.io.log)
    (hstats : s'.io.stats = s.io.stats) (hremote : s'.io.remote = s.io.remote) :
    Moves codec origin e s s' :=
  .single (.bookkeeping _ _ ⟨hconfig, hchannels, hlog, hstats, Or.inl hremote⟩)

end Chains

section Events
variable (codec : PacketCodec)

lemma start_moves (s : BasicSession O U) (remote : Endpoint) (now : Time) :
    Moves codec s (.start remote now) s (s.start remote now) := by
  unfold BasicSession.start
  split_ifs
  · exact .refl
  · have hbook : Move codec s (.start remote now) s
        { s with
          started := true
          io := { s.io with remote := remote }
          lastRecv := now
          receiving := true
          retransmitting := true
          keepingAlive := true } :=
      .bookkeeping _ _ ⟨rfl, rfl, rfl, rfl, Or.inr ⟨remote, now, rfl⟩⟩
    exact .tail (.single hbook) (.report _ .onConnected ⟨remote, now, rfl⟩)

lemma channelPacket_moves {origin s : BasicSession O U} {ec : ErrorCode} {datagram : List Byte}
    {packet : Packet} {now : Time} (hopen : origin.closed = false) (hec : ec.failed = false)
    (hdec : codec.decode datagram = .ok packet) (htype : ForChannel packet)
    (hchannels : s.channels = origin.channels) (hio : s.io = origin.io) :
    Moves codec origin (.onSocketRecv ec origin.io.remote datagram now) s
      (s.channelPacket codec packet now) := by
  unfold BasicSession.channelPacket
  cases hc : s.channel? packet.channel with
  | none => exact .refl
  | some c =>
    have hcall := moves_call hc
      (.onRecv ec datagram now packet hopen hec hdec htype hchannels hio)
    have hget : (s.update packet.channel (c.onRecv packet now s.io)).channels.get
        packet.channel.toNat = some (c.onRecv packet now s.io).1 :=
      SlotTable.get_set_same _ kMaxChannels_pos rfl _
    dsimp only
    split_ifs
    · exact hcall
    · cases hack : (c.onRecv packet now s.io).1.buildAck with
      | none => exact hcall
      | some ack => exact hcall.trans (moves_sendPacket _ (.ack _ _ _ _ _ _ hget ack hack))

lemma handlePacket_moves {origin s : BasicSession O U} {ec : ErrorCode} {datagram : List Byte}
    {now : Time} (hopen : origin.closed = false) (hec : ec.failed = false)
    (hchannels : s.channels = origin.channels) (hio : s.io = origin.io) :
    Moves codec origin (.onSocketRecv ec origin.io.remote datagram now) s
      (s.handlePacket codec datagram now) := by
  unfold BasicSession.handlePacket
  cases hdec : codec.decode datagram with
  | error err => exact .refl
  | ok packet =>
    have hseen : Moves codec origin (.onSocketRecv ec origin.io.remote datagram now) s
        { s with lastRecv := now } := moves_bookkeeping rfl rfl rfl rfl rfl
    dsimp only
    split_ifs with hd hk hi ha
    · exact hseen.trans (moves_close _ hopen (.reset ec datagram now packet hec hdec hd))
    · exact hseen
    · exact hseen.trans (moves_sendPacket _ (.handshakeAck _ _ _ _ packet.seq))
    · exact hseen
    · exact hseen.trans (channelPacket_moves codec hopen hec hdec ⟨hd, hk, hi, ha⟩ hchannels hio)

lemma onSocketRecv_moves (s : BasicSession O U) (ec : ErrorCode) (sender : Endpoint)
    (datagram : List Byte) (now : Time) :
    Moves codec s (.onSocketRecv ec sender datagram now) s
      (s.onSocketRecv codec ec sender datagram now) := by
  have hidle : Moves codec s (.onSocketRecv ec sender datagram now) s { s with receiving := false } :=
    moves_bookkeeping rfl rfl rfl rfl rfl
  have hrearm : ∀ t : BasicSession O U,
      Moves codec s (.onSocketRecv ec sender datagram now) t { t with receiving := true } :=
    fun t => moves_bookkeeping rfl rfl rfl rfl rfl
  unfold BasicSession.onSocketRecv
  by_cases hr : s.receiving = false
  · rw [if_pos hr]
  · rw [if_neg hr]
    dsimp only
    by_cases hclosed : s.closed = true
    · rw [if_pos hclosed]
      exact hidle
    · have hopen : s.closed = false := by simpa using hclosed
      rw [if_neg hclosed]
      by_cases hec : ec.failed = true
      · rw [if_pos hec]
        exact hidle.trans (moves_close _ hopen (.socket ec sender datagram now hec))
      · rw [if_neg hec]
        by_cases hsender : sender = s.io.remote
        · subst hsender
          have hhandled : Moves codec s (.onSocketRecv ec s.io.remote datagram now) s
              (({ s with receiving := false } : BasicSession O U).handlePacket codec datagram now) :=
            hidle.trans (handlePacket_moves codec hopen (by simpa using hec) rfl rfl)
          rw [if_pos rfl]
          split_ifs
          · exact hhandled
          · exact hhandled.trans (hrearm _)
        · rw [if_neg hsender, if_neg hclosed]
          exact hidle.trans (hrearm _)

lemma keepaliveTimer_moves (s : BasicSession O U) (ec : ErrorCode) (now : Time) :
    Moves codec s (.keepaliveTimer ec now) s (s.keepaliveTimer codec ec now) := by
  have hstopped : Moves codec s (.keepaliveTimer ec now) s { s with keepingAlive := false } :=
    moves_bookkeeping rfl rfl rfl rfl rfl
  unfold BasicSession.keepaliveTimer
  split_ifs with harmed hstop hsilent
  · exact .refl
  · exact hstopped
  · rw [not_or] at hstop
    exact hstopped.trans (moves_close _ (by simpa using hstop.2) (.silent ec now hsilent))
  · exact moves_sendPacket s (.keepalive ec now)

lemma sendCompleted_moves (s : BasicSession O U) (position : ℕ) (ec : ErrorCode) (now : Time) :
    Moves codec s (.sendCompleted position ec now) s (s.sendCompleted position ec now) := by
  have hrest : Moves codec s (.sendCompleted position ec now) s
      { s with io := { s.io with pending := s.io.pending.eraseIdx position } } :=
    moves_bookkeeping rfl rfl rfl rfl rfl
  unfold BasicSession.sendCompleted
  dsimp only
  split
  · rename_i ch sequenceNumber handler hpending
    split
    · exact hrest
    · rename_i c hc
      exact hrest.trans (moves_call hc (.sendCompleted position ch sequenceNumber handler ec now
        hpending))
  · exact hrest.trans (moves_report _ _ trivial)
  · rename_i handler hpending
    refine (hrest.trans ?_).trans (moves_report _ _ trivial)
    cases hclosed : s.closed with
    | true =>
      rw [close_of_closed rfl]
    | false => exact moves_close _ hclosed (.farewell position handler ec now hpending)
  · exact hrest
  · exact hrest
  · exact hrest

def flushSlot (x : Option (ChannelVar O U)) (io : Transport) :
    Option (ChannelVar O U) × Transport :=
  (x, x.elim io fun c => c.flush io)

lemma asyncFlush_moves (s : BasicSession O U) (handler : ℕ) :
    Moves codec s (.asyncFlush handler) s (s.asyncFlush handler) := by
  unfold BasicSession.asyncFlush
  split_ifs with hclosed
  · exact moves_report s _ trivial
  · have hopen : s.closed = false := by simpa using hclosed
    have hsweep := moves_sweep codec (f := flushSlot) (fun _ => rfl) (fun _ _ => rfl)
      (fun _ k => .flush handler k hopen) s
    have hfst : (s.channels.sweep flushSlot s.io).1 = s.channels := by
      rw [SlotTable.sweep_fst (g := id) (fun _ _ => rfl)]
      simp [SlotTable.map]
    have hsnd : (s.channels.sweep flushSlot s.io).2 =
        s.channels.entries.foldl (fun io c => ChannelVar.flush io c) s.io :=
      SlotTable.sweep_snd (fun _ => rfl) (fun _ _ => rfl) _ _
    rw [hfst, hsnd] at hsweep
    exact hsweep.trans (moves_report _ _ trivial)

lemma asyncDisconnect_moves (s : BasicSession O U) (handler : ℕ) :
    Moves codec s (.asyncDisconnect handler) s (s.asyncDisconnect codec handler) := by
  unfold BasicSession.asyncDisconnect
  dsimp only
  split_ifs with hclosed hempty
  · exact moves_report s _ trivial
  · exact (moves_close s (by simpa using hclosed) (.unencodable handler hempty)).trans (moves_report _ _ trivial)
  · exact .single (.send s _ _ (.disconnect handler) hempty)

lemma asyncSend_moves (s : BasicSession O U) (ch : Byte) (payload : List Byte) (handler : ℕ)
    (now : Time) : Moves codec s (.asyncSend ch payload handler now) s
      (s.asyncSend codec ch payload handler now) := by
  unfold BasicSession.asyncSend
  by_cases hclosed : s.closed = true
  · rw [if_pos hclosed]
    exact moves_report s _ trivial
  · rw [if_neg hclosed]
    cases hc : s.channel? ch with
    | none => exact moves_report s _ trivial
    | some c =>
      dsimp only
      split_ifs with hlarge
      · exact moves_report s _ trivial
      · exact moves_call hc (.asyncSend ch payload handler now (by simpa using hclosed)
          (by omega) rfl)

theorem moves (s : BasicSession O U) (e : Event) : Moves codec s e s (s.step codec e) := by
  cases e with
  | start remote now => exact start_moves codec s remote now
  | onSocketRecv ec sender datagram now => exact onSocketRecv_moves codec s ec sender datagram now
  | retransmitTimer ec now =>
    simp only [BasicSession.step, BasicSession.retransmitTimer]
    split_ifs with harmed hstop
    · exact .refl
    · exact moves_bookkeeping rfl rfl rfl rfl rfl
    · rw [not_or] at hstop
      exact moves_sweep codec (f := BasicSession.tickSlot now) (fun _ => rfl) (fun _ _ => rfl)
        (fun _ k => .onTick ec now k (by simpa using hstop.2)) s
  | keepaliveTimer ec now => exact keepaliveTimer_moves codec s ec now
  | sendCompleted position ec now => exact sendCompleted_moves codec s position ec now
  | cancel =>
    simp only [BasicSession.step, BasicSession.cancel]
    cases hclosed : s.closed with
    | true =>
      rw [close_of_closed hclosed]
    | false => exact moves_close s hclosed .cancelled
  | asyncDisconnect handler => exact asyncDisconnect_moves codec s handler
  | asyncSend ch payload handler now => exact asyncSend_moves codec s ch payload handler now
  | asyncRecv ch buf handler =>
    simp only [BasicSession.step, BasicSession.asyncRecv]
    cases hc : s.channel? ch with
    | none => exact moves_report s _ trivial
    | some c => exact moves_call hc (.asyncRecv ch buf handler)
  | asyncFlush handler => exact asyncFlush_moves codec s handler

theorem step_keeps {P : BasicSession O U → Prop} {s : BasicSession O U} {e : Event}
    (h : ∀ t t', P t → Move codec s e t t' → P t') (hs : P s) : P (s.step codec e) := by
  have hmoves := moves codec s e
  generalize s.step codec e = s' at hmoves
  induction hmoves with
  | refl => exact hs
  | tail _ hmove ih => exact h _ _ ih hmove

lemma step_config (s : BasicSession O U) (e : Event) :
    (s.step codec e).config = s.config := by
  refine step_keeps codec (P := fun t => t.config = s.config) ?_ rfl
  intro t t' ht hmove
  cases hmove with
  | bookkeeping _ h => exact h.config.trans ht
  | _ => exact ht

end Events
end ReliableUdp.SessionMoves
