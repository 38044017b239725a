import ReliableUdp.HandshakeAgreement

/-! Progress of the handshake: it ends with the first retry after its deadline, and until then one
more exchange with the acceptor connects, whatever was lost before. -/
namespace ReliableUdp.HandshakeProgress
open Protocol ReliableChannel Session Handshake HandshakeNetwork HandshakeAgreement

section Client
variable {codec : LawfulCodec} {state : ClientState}

/-- A codec that writes into the buffer it is given. -/
def Framed (codec : LawfulCodec) : Prop :=
  codec.maxOverhead ≤ bufferSize ∧ ∀ p buf, (codec.encode p buf).2.length = buf.length

/-- The client has its receive outstanding until it is done, and its buffer has its size. -/
structure Trying (state : ClientState) : Prop where
  listening : state.done = true ∨ state.receiving = true
  buffer : state.sendBuffer.length = bufferSize

lemma length_encodePacket (hcodec : Framed codec) {p : Packet} (hp : p.payload = []) :
    (codec.encodePacket p).length ≤ bufferSize := by
  have hfits := codec.encode_fits p (List.replicate (p.payload.length + codec.maxOverhead) 0)
    (by simp)
  rw [hcodec.2, List.length_replicate, hp, List.length_nil, Nat.zero_add] at hfits
  unfold PacketCodec.encodePacket
  dsimp only
  rw [List.takeD_length, hp, List.length_nil, Nat.zero_add]
  exact hfits.2.trans hcodec.1

lemma sendInit_open (hcodec : Framed codec) (hstate : Trying state) :
    ∃ init crc, init.length ≤ bufferSize ∧
      codec.decode init = .ok { type := .handshakeInit, crc := crc } ∧
      state.sendInit codec.toPacketCodec =
        { state with
          sendBuffer := (codec.encode { type := .handshakeInit } state.sendBuffer).2
          log := state.log ++ [.transmit state.server init] } := by
  obtain ⟨hpos, hle⟩ := codec.encode_fits { type := .handshakeInit } state.sendBuffer (by
    rw [hstate.buffer, List.length_nil, Nat.zero_add]
    exact hcodec.1)
  obtain ⟨crc, hdecode⟩ := codec.decode_encode { type := .handshakeInit } state.sendBuffer hpos
  have hbuffer := hcodec.2 { type := .handshakeInit } state.sendBuffer
  refine ⟨_, crc, ?_, hdecode, ?_⟩
  · rw [List.length_take]
    rw [hbuffer, hstate.buffer] at hle
    omega
  · unfold ClientState.sendInit
    dsimp only
    rw [if_neg (Nat.pos_iff_ne_zero.mp hpos), List.takeD_eq_take _ hle]

lemma sendInit_trying (hcodec : Framed codec) (hstate : Trying state) :
    Trying (state.sendInit codec.toPacketCodec) := by
  obtain ⟨init, crc, _, _, he⟩ := sendInit_open hcodec hstate
  rw [he]
  refine ⟨hstate.listening, ?_⟩
  dsimp only
  rw [hcodec.2]
  exact hstate.buffer

lemma complete_trying (s : ClientState) (hbuffer : s.sendBuffer.length = bufferSize)
    (ec : ErrorCode) (adopted : Endpoint) : Trying (s.complete ec adopted) := by
  unfold ClientState.complete
  split_ifs with hdone
  · exact ⟨Or.inl hdone, hbuffer⟩
  · exact ⟨Or.inl rfl, hbuffer⟩

lemma onRetry_trying (hcodec : Framed codec) (hstate : Trying state) (ec : ErrorCode) (now : Time) :
    Trying (state.onRetry codec.toPacketCodec ec now) := by
  have hidle : Trying { state with waiting := false } := ⟨hstate.listening, hstate.buffer⟩
  unfold ClientState.onRetry
  dsimp only
  split_ifs
  · exact hstate
  · exact hidle
  · obtain ⟨hlistening, hbuffer⟩ := complete_trying _ hidle.buffer (makeErrorCode .timeout) ⟨0, 0⟩
    exact ⟨hlistening, hbuffer⟩
  · obtain ⟨hlistening, hbuffer⟩ := sendInit_trying hcodec hidle
    exact ⟨hlistening, hbuffer⟩

lemma onRecv_trying (hstate : Trying state) (ec : ErrorCode) (sender : Endpoint)
    (datagram : List Byte) : Trying (state.onRecv codec.toPacketCodec ec sender datagram) := by
  have hagain : Trying (ClientState.receiveNext { state with receiving := false }) :=
    ⟨Or.inr rfl, hstate.buffer⟩
  have hcomplete : ∀ code adopted,
      Trying (ClientState.complete { state with receiving := false } code adopted) :=
    fun code adopted =>
      complete_trying { state with receiving := false } hstate.buffer code adopted
  unfold ClientState.onRecv
  dsimp only
  split_ifs with hr hdone hec
  · exact hstate
  · exact ⟨Or.inl hdone, hstate.buffer⟩
  · exact hcomplete ec ⟨0, 0⟩
  · cases codec.decode datagram with
    | error e => exact hagain
    | ok packet =>
      dsimp only
      split_ifs
      · exact hcomplete .none sender
      · exact hagain

end Client

section Network
variable {O U : Type} {codec : LawfulCodec} {w : World O U}

/-- The acceptor waits for an INIT or for the completion of an ACK. -/
def Waiting (a : BasicAcceptor O U) : Prop :=
  a.accepting = true ∨ ∃ (position : ℕ) (r : OpenedSession O U),
    a.opened[position]? = some r ∧ r.opening = true

/-- What the acceptor has outstanding before it takes the next INIT. -/
inductive Completes (a : BasicAcceptor O U) (now : Time) : List NetEvent → Prop
  | nothing (h : a.accepting = true) : Completes a now []
  | ack (position : ℕ) (r : OpenedSession O U) (hr : a.opened[position]? = some r)
      (hopening : r.opening = true) : Completes a now [.ackSent position .none now]

/-- One exchange: the client retries, the acceptor completes what is outstanding, the INIT arrives
and opens a session on `socket`, its ACK goes out and arrives. -/
def exchange (codec : PacketCodec) (w : World O U) (outstanding : List NetEvent) (init : List Byte)
    (socket : Endpoint) (now : Time) : List NetEvent :=
  .retryTimer .none now :: (outstanding ++
    [.acceptorRecv (.datagram ⟨w.connector.socket, w.acceptor.socket, init⟩) socket,
      .ackSent w.acceptor.opened.length .none now,
      .handshakeRecv (.datagram ⟨socket, w.connector.socket,
        codec.encodePacket { type := .handshakeAck, ack := 0 }⟩) now])

structure Poised (w : World O U) : Prop where
  client : Trying w.connector.handshake
  acceptor : Waiting w.acceptor

lemma waiting_onRecv {a : BasicAcceptor O U} (h : Waiting a) (socket : Endpoint) (ec : ErrorCode)
    (sender : Endpoint) (datagram : List Byte) :
    Waiting (a.onRecv codec.toPacketCodec socket ec sender datagram) := by
  unfold BasicAcceptor.onRecv
  split_ifs
  · exact h
  · exact h
  · cases codec.decode datagram with
    | error e => exact h
    | ok packet =>
      dsimp only
      split_ifs
      · exact h
      · unfold BasicAcceptor.openSession
        dsimp only
        split_ifs
        · exact h
        · exact Or.inr ⟨a.opened.length, _, List.getElem?_concat_length, rfl⟩

lemma waiting_ackSent {a : BasicAcceptor O U} (h : Waiting a) (position : ℕ) (ec : ErrorCode)
    (now : Time) : Waiting (a.ackSent position ec now) := by
  unfold BasicAcceptor.ackSent
  split
  · exact h
  · split_ifs
    · exact h
    · exact Or.inl rfl
    · exact Or.inl rfl

lemma waiting_updateSession (h : Waiting w.acceptor) (position : ℕ)
    (f : BasicSession O U → BasicSession O U) : Waiting (w.updateSession position f).acceptor := by
  unfold World.updateSession
  cases hr : w.acceptor.opened[position]? with
  | none => exact h
  | some r =>
    rcases h with h | ⟨i, r', hr', hopening⟩
    · exact Or.inl h
    · refine Or.inr ?_
      by_cases hi : position = i
      · subst hi
        obtain rfl := Option.some.inj (hr.symm.trans hr')
        refine ⟨position, { r with session := f r.session }, ?_, hopening⟩
        exact List.getElem?_set_self (List.getElem?_eq_some_iff.mp hr).1
      · exact ⟨i, r', by rw [← hr']; exact List.getElem?_set_ne hi, hopening⟩

lemma updateSession_connector (position : ℕ) (f : BasicSession O U → BasicSession O U) :
    (w.updateSession position f).connector = w.connector := by
  unfold World.updateSession
  cases w.acceptor.opened[position]? <;> rfl

lemma poised_start (hcodec : Framed codec) (client server : Endpoint)
    (clientConfig serverConfig : SessionConfig) (cc : O) (cc' : U) (now : Time) :
    Poised (World.start codec.toPacketCodec client server clientConfig serverConfig cc cc' now) := by
  refine ⟨⟨Or.inr rfl, ?_⟩, Or.inl rfl⟩
  have hidle : ∀ deadline, (ClientState.sendInit codec.toPacketCodec
      { server := server, deadline := deadline }).sendBuffer.length = bufferSize := by
    intro deadline
    unfold ClientState.sendInit ClientState.complete
    dsimp only
    split_ifs
    all_goals
      dsimp only
      rw [hcodec.2, List.length_replicate]
  exact hidle _

variable [CongestionCtrl O] [CongestionCtrl U]

lemma poised_step (hcodec : Framed codec) (h : Poised w) (e : NetEvent) :
    Poised (w.step codec.toPacketCodec e) := by
  cases e with
  | retryTimer ec now => exact ⟨onRetry_trying hcodec h.client ec now, h.acceptor⟩
  | handshakeRecv arrival now => exact ⟨onRecv_trying h.client _ _ _, h.acceptor⟩
  | acceptorRecv arrival socket => exact ⟨h.client, waiting_onRecv h.acceptor _ _ _ _⟩
  | ackSent position ec now => exact ⟨h.client, waiting_ackSent h.acceptor position ec now⟩
  | sessionRecv position arrival now =>
    rw [World.step]
    exact ⟨by rw [updateSession_connector]; exact h.client, waiting_updateSession h.acceptor _ _⟩
  | sessionCall position e =>
    rw [World.step]
    exact ⟨by rw [updateSession_connector]; exact h.client, waiting_updateSession h.acceptor _ _⟩
  | clientRecv arrival now => exact ⟨h.client, h.acceptor⟩
  | clientCall e => exact ⟨h.client, h.acceptor⟩
  | foreignSends d => exact ⟨h.client, h.acceptor⟩

lemma retry_step (hcodec : Framed codec) (h : Trying w.connector.handshake)
    (hopen : w.connector.handshake.done = false) (hwaiting : w.connector.handshake.waiting = true)
    {now : Time} (hnow : now < w.connector.handshake.deadline) :
    ∃ state init crc, init.length ≤ bufferSize ∧
      codec.decode init = .ok { type := .handshakeInit, crc := crc } ∧
      state.done = false ∧ state.receiving = true ∧
      state.server = w.connector.handshake.server ∧
      state.log = w.connector.handshake.log ++ [.transmit w.connector.handshake.server init] ∧
      w.step codec.toPacketCodec (.retryTimer .none now) =
        { w with connector := { w.connector with handshake := state } } := by
  have hidle : Trying { w.connector.handshake with waiting := false } := ⟨h.listening, h.buffer⟩
  obtain ⟨init, crc, hlength, hdecode, hsend⟩ := sendInit_open hcodec hidle
  have hlate : ¬ w.connector.handshake.deadline ≤ now := not_le.mpr hnow
  have hretry : w.connector.handshake.onRetry codec.toPacketCodec .none now =
      ((ClientState.sendInit codec.toPacketCodec
        { w.connector.handshake with waiting := false }).scheduleRetry) := by
    unfold ClientState.onRetry
    simp [hwaiting, hopen, hlate, ErrorCode.failed]
  have hlistening : w.connector.handshake.receiving = true :=
    h.listening.resolve_left (by rw [hopen]; exact Bool.false_ne_true)
  refine ⟨w.connector.handshake.onRetry codec.toPacketCodec .none now, init, crc, hlength,
    hdecode, ?_⟩
  rw [World.step, hretry, hsend]
  refine ⟨hopen, hlistening, rfl, rfl, ?_⟩
  simp [BasicConnector.advance, ClientState.scheduleRetry, BasicConnector.onHandshake]

variable (codec) in
lemma ready_step (h : Waiting w.acceptor) (now : Time) :
    ∃ (es : List NetEvent) (a : BasicAcceptor O U), Completes w.acceptor now es ∧
      Runs.Admitted (World.step codec.toPacketCodec) (World.Admits codec.toPacketCodec) w es ∧
      es.foldl (World.step codec.toPacketCodec) w = { w with acceptor := a } ∧
      a.accepting = true ∧ a.socket = w.acceptor.socket ∧
      a.opened.map OpenedSession.socket = w.acceptor.opened.map OpenedSession.socket := by
  rcases h with h | ⟨position, r, hr, hopening⟩
  · exact ⟨[], w.acceptor, .nothing h, trivial, rfl, h, rfl, rfl⟩
  · refine ⟨[.ackSent position .none now], w.acceptor.ackSent position .none now,
      .ack position r hr hopening, ⟨trivial, trivial⟩, rfl, ?_⟩
    have hsockets := map_set_same OpenedSession.socket hr
      (y := { r with opening := false, session := r.session.start r.client now }) rfl
    unfold BasicAcceptor.ackSent
    rw [hr]
    simp only [hopening, Bool.true_eq_false, if_false, ErrorCode.failed, Bool.false_eq_true]
    exact ⟨trivial, trivial, hsockets⟩

/-- The acceptor opens a session for an INIT, and the session starts when its ACK is out. -/
lemma accept_steps (haccepting : w.acceptor.accepting = true) {d : Datagram} {packet : Packet}
    (hlength : d.bytes.length ≤ kRecvBufSize) (hdecode : codec.decode d.bytes = .ok packet)
    (htype : packet.type = .handshakeInit) (socket : Endpoint) (now : Time) :
    ∃ r : OpenedSession O U, r.socket = socket ∧ r.client = d.src ∧ r.session.started = true ∧
      r.session.closed = false ∧ r.session.io.remote = d.src ∧
      Effect.transmit d.src (codec.encodePacket { type := .handshakeAck, ack := packet.seq }) ∈
        r.session.io.log ∧
      (w.step codec.toPacketCodec (.acceptorRecv (.datagram d) socket)).step codec.toPacketCodec
          (.ackSent w.acceptor.opened.length .none now) =
        { w with acceptor := { w.acceptor with
            opened := w.acceptor.opened ++ [r]
            results := w.acceptor.results ++ [(.none, some socket)] } } := by
  have hne := codec.encodePacket_ne_nil { type := .handshakeAck, ack := packet.seq }
  obtain ⟨session, hsession⟩ : ∃ s : BasicSession O U, s =
      (BasicSession.create w.acceptor.config w.acceptor.orderedCc w.acceptor.unorderedCc).emit
        [.transmit d.src (codec.encodePacket { type := .handshakeAck, ack := packet.seq })] :=
    ⟨_, rfl⟩
  have hnew : session.started = false ∧ session.closed = false := by
    rw [hsession]
    exact ⟨rfl, rfl⟩
  have hrecv : w.acceptor.onRecv codec.toPacketCodec socket .none d.src (d.bytes.take kRecvBufSize) =
      { w.acceptor with
        accepting := false
        opened := w.acceptor.opened ++ [⟨socket, d.src, true, session⟩] } := by
    unfold BasicAcceptor.onRecv BasicAcceptor.openSession
    rw [haccepting, List.take_of_length_le hlength, hdecode]
    simp only [Bool.true_eq_false, if_false, ErrorCode.failed, Bool.false_eq_true, htype, ne_eq,
      not_true_eq_false, hne, hsession]
  have hstart : session.start d.src now =
      { session with
        started := true
        io := { session.io with remote := d.src }.emit [.onConnected]
        lastRecv := now
        receiving := true
        retransmitting := true
        keepingAlive := true } := by
    unfold BasicSession.start
    rw [if_neg]
    simp [hnew.1, hnew.2]
  refine ⟨⟨socket, d.src, false, session.start d.src now⟩, rfl, rfl, ?_, ?_, ?_, ?_, ?_⟩
  · rw [hstart]
  · rw [hstart]
    exact hnew.2
  · rw [hstart]
    rfl
  · rw [hstart, hsession]
    simp [BasicSession.emit]
  · simp only [World.step, Arrival.code, Arrival.sender, Arrival.received]
    rw [hrecv]
    unfold BasicAcceptor.ackSent
    simp [ErrorCode.failed, haccepting]

structure Connected (w : World O U) (socket : Endpoint) : Prop where
  adopted : Adopted w socket
  client : w.connector.session.started = true ∧ w.connector.session.closed = false ∧
    w.connector.session.io.remote = socket
  accepted : ∃ r ∈ w.acceptor.opened, r.socket = socket ∧ r.client = w.connector.socket ∧
    r.session.started = true ∧ r.session.closed = false ∧
    r.session.io.remote = w.connector.socket

variable (codec) in
lemma adopt_step (hopen : w.connector.handshake.done = false)
    (hreceiving : w.connector.handshake.receiving = true) {socket : Endpoint}
    (haddress : socket.address = w.connector.handshake.server.address)
    (hnew : w.connector.session.started = false) (hclosed : w.connector.session.closed = false)
    {d : Datagram} {packet : Packet} (hsrc : d.src = socket)
    (hlength : d.bytes.length ≤ bufferSize) (hdecode : codec.decode d.bytes = .ok packet)
    (htype : packet.type = .handshakeAck)
    (haccepted : ∃ r ∈ w.acceptor.opened, r.socket = socket ∧ r.client = w.connector.socket ∧
      r.session.started = true ∧ r.session.closed = false ∧
      r.session.io.remote = w.connector.socket) (now : Time) :
    Connected (w.step codec.toPacketCodec (.handshakeRecv (.datagram d) now)) socket := by
  have hrecv : w.connector.handshake.onRecv codec.toPacketCodec .none d.src
      (d.bytes.take bufferSize) =
      { w.connector.handshake with
        receiving := false
        done := true
        log := w.connector.handshake.log ++ [.handler .none socket] } := by
    unfold ClientState.onRecv ClientState.complete
    rw [hreceiving, List.take_of_length_le hlength, hdecode]
    simp [hopen, ErrorCode.failed, htype, hsrc, haddress]
  have hstep : w.step codec.toPacketCodec (.handshakeRecv (.datagram d) now) =
      { w with connector := { w.connector with
          handshake := w.connector.handshake.onRecv codec.toPacketCodec .none d.src
            (d.bytes.take bufferSize)
          session := w.connector.session.start socket now } } := by
    simp only [World.step, Arrival.code, Arrival.sender, Arrival.received, BasicConnector.advance]
    rw [hrecv]
    simp [BasicConnector.onHandshake, ErrorCode.failed]
  have hstart : (w.connector.session.start socket now).started = true ∧
      (w.connector.session.start socket now).closed = false ∧
      (w.connector.session.start socket now).io.remote = socket := by
    unfold BasicSession.start
    rw [if_neg (by simp [hnew, hclosed])]
    exact ⟨rfl, hclosed, rfl⟩
  rw [hstep]
  refine ⟨?_, hstart, haccepted⟩
  unfold Adopted
  dsimp only
  rw [hrecv]
  exact List.mem_append_right _ (List.mem_singleton.mpr rfl)

/-- From every reachable state in which the client still tries, one retry before the deadline, at
most one completion of an earlier ACK, the arrival of the INIT of this retry, the completion of its
ACK and the arrival of this ACK connect the client to a session on any fresh socket of the
server. -/
theorem handshake_connects (codec : LawfulCodec) (hcodec : Framed codec) (client server : Endpoint)
    (hne : client ≠ server)
    (clientConfig serverConfig : SessionConfig) (cc : O) (cc' : U) (begun : Time)
    (hw : Runs.Reachable (World.step codec.toPacketCodec) (World.Admits codec.toPacketCodec)
      (World.start codec.toPacketCodec client server clientConfig serverConfig cc cc' begun) w)
    (hopen : w.connector.handshake.done = false) (hwaiting : w.connector.handshake.waiting = true)
    (hclosed : w.connector.session.closed = false) {now : Time}
    (hnow : now < w.connector.handshake.deadline) {socket : Endpoint}
    (haddress : socket.address = w.acceptor.socket.address) (hfresh : socket ∉ w.sockets)
    (hunused : socket ∉ w.foreign.map Datagram.src) :
    ∃ outstanding init, Completes w.acceptor now outstanding ∧
      (w.step codec.toPacketCodec (.retryTimer .none now)).connector.handshake.log =
        w.connector.handshake.log ++ [.transmit w.acceptor.socket init] ∧
      let es := exchange codec.toPacketCodec w outstanding init socket now
      Runs.Admitted (World.step codec.toPacketCodec) (World.Admits codec.toPacketCodec) w es ∧
      Connected (es.foldl (World.step codec.toPacketCodec) w) socket := by
  have hagreed : Agreed codec.toPacketCodec w :=
    hw.invariant (agreed_start _ hne clientConfig serverConfig cc cc' begun)
      fun _ _ h he => agreed_step h he
  have hpoised : Poised w :=
    hw.invariant (poised_start hcodec client server clientConfig serverConfig cc cc' begun)
      fun _ e h _ => poised_step hcodec h e
  have hnew : w.connector.session.started = false := by
    by_contra hstarted
    have hdone := hagreed.done_of_adopted (hagreed.remote (by simpa using hstarted))
    rw [hopen] at hdone
    cases hdone
  obtain ⟨state, init, crc, hlength, hdecode, hdone, hreceiving, hserver, hsent, hretry⟩ :=
    retry_step hcodec hpoised.client hopen hwaiting hnow
  obtain ⟨outstanding, a, hcompletes, hadmitted, hready, haccepting, hsocket, hsockets⟩ :=
    ready_step codec (w := { w with connector := { w.connector with handshake := state } })
      hpoised.acceptor now
  have hserver' : w.connector.handshake.server = w.acceptor.socket := hagreed.server
  obtain ⟨r, hrsocket, hrclient, hrstarted, hrclosed, hrremote, hrsent, hopened⟩ :=
    accept_steps (w := ⟨{ w.connector with handshake := state }, a, w.foreign⟩) haccepting
      (d := ⟨w.connector.socket, w.acceptor.socket, init⟩) hlength hdecode rfl socket now
  obtain ⟨crc', hack⟩ := codec.decode_encodePacket { type := .handshakeAck, ack := 0 }
  have hacklength : (codec.encodePacket { type := .handshakeAck, ack := 0 }).length ≤ bufferSize :=
    length_encodePacket hcodec rfl
  have hposition : w.acceptor.opened.length = a.opened.length := by
    rw [← List.length_map OpenedSession.socket, ← hsockets, List.length_map]
  refine ⟨outstanding, init, hcompletes, ?_, ?_, ?_⟩
  · rw [hretry, ← hserver']
    exact hsent
  · refine ⟨trivial, ?_⟩
    rw [hretry, Runs.admitted_append, hready, hposition]
    refine ⟨hadmitted, ⟨⟨Or.inl ⟨rfl, Or.inl ?_⟩, hsocket.symm⟩, ?_, hunused⟩, trivial, ?_, trivial⟩
    · rw [hserver'] at hsent
      rw [hsent]
      exact List.mem_append_right _ (List.mem_singleton.mpr rfl)
    · simpa only [World.sockets, hsocket, hsockets] using hfresh
    · rw [hopened]
      refine ⟨Or.inr (Or.inl ⟨r, List.mem_append_right _ (List.mem_singleton.mpr rfl), hrsocket.symm,
        hrsent⟩), rfl⟩
  · rw [exchange, List.foldl_cons, hretry, List.foldl_append, hready, hposition]
    simp only [List.foldl_cons, List.foldl_nil]
    rw [hopened]
    refine adopt_step codec (d := ⟨socket, w.connector.socket,
      codec.encodePacket { type := .handshakeAck, ack := 0 }⟩) ?_ ?_ ?_ ?_ ?_ rfl hacklength hack
      ?_ ?_ now
    · exact hdone
    · exact hreceiving
    · dsimp only
      rw [hserver, hserver']
      exact haddress
    · exact hnew
    · exact hclosed
    · rfl
    · exact ⟨r, List.mem_append_right _ (List.mem_singleton.mpr rfl), hrsocket, hrclient, hrstarted,
        hrclosed, hrremote⟩

/-- The waits on the retry timer end with an error only when they are cancelled, which the
handshake does when it is done. -/
def Waits (codec : PacketCodec) (w : World O U) (e : NetEvent) : Prop :=
  w.Admits codec e ∧ ∀ ec now, e = .retryTimer ec now → ec.failed = true →
    w.connector.handshake.done = true

structure Ticking (deadline : Time) (w : World O U) : Prop where
  waiting : w.connector.handshake.done = true ∨ w.connector.handshake.waiting = true
  deadline : w.connector.handshake.deadline = deadline

section Ending
variable {state : ClientState} (codec : PacketCodec)

lemma onRetry_ticking (h : state.done = true ∨ state.waiting = true) (ec : ErrorCode) (now : Time)
    (hec : ec.failed = true → state.done = true) :
    ((state.onRetry codec ec now).done = true ∨ (state.onRetry codec ec now).waiting = true) ∧
      (state.onRetry codec ec now).deadline = state.deadline ∧
      (state.done = true → (state.onRetry codec ec now).done = true) ∧
      (state.deadline ≤ now → (state.onRetry codec ec now).done = true) := by
  have hwaiting : state.waiting = false → state.done = true := by
    intro hw
    rw [hw] at h
    simpa using h
  unfold ClientState.onRetry ClientState.sendInit ClientState.complete ClientState.scheduleRetry
  dsimp only
  split_ifs with hw hstop hlate hdone hempty
  · exact ⟨h, rfl, id, fun _ => hwaiting hw⟩
  · have hend : state.done = true := hstop.elim hec id
    exact ⟨Or.inl hend, rfl, id, fun _ => hend⟩
  · exact ⟨Or.inl hdone, rfl, id, fun _ => hdone⟩
  · exact ⟨Or.inl rfl, rfl, fun _ => rfl, fun _ => rfl⟩
  · exact ⟨Or.inr rfl, rfl, id, fun hle => absurd hle hlate⟩
  · exact ⟨Or.inr rfl, rfl, fun _ => rfl, fun hle => absurd hle hlate⟩
  · exact ⟨Or.inr rfl, rfl, id, fun hle => absurd hle hlate⟩

lemma onRecv_ticking (h : state.done = true ∨ state.waiting = true) (ec : ErrorCode)
    (sender : Endpoint) (datagram : List Byte) :
    ((state.onRecv codec ec sender datagram).done = true ∨
        (state.onRecv codec ec sender datagram).waiting = true) ∧
      (state.onRecv codec ec sender datagram).deadline = state.deadline ∧
      (state.done = true → (state.onRecv codec ec sender datagram).done = true) := by
  unfold ClientState.onRecv ClientState.complete ClientState.receiveNext
  dsimp only
  split_ifs with hr hdone hec
  · exact ⟨h, rfl, id⟩
  · exact ⟨h, rfl, id⟩
  · exact ⟨Or.inl rfl, rfl, fun _ => rfl⟩
  · cases codec.decode datagram with
    | error e => exact ⟨h, rfl, id⟩
    | ok packet =>
      dsimp only
      split_ifs
      · exact ⟨Or.inl rfl, rfl, fun _ => rfl⟩
      · exact ⟨h, rfl, id⟩

end Ending

lemma ticking_step {codec : PacketCodec} {deadline : Time} (h : Ticking deadline w) {e : NetEvent}
    (he : Waits codec w e) : Ticking deadline (w.step codec e) ∧
      (w.connector.handshake.done = true → (w.step codec e).connector.handshake.done = true) := by
  have hkept : ∀ w' : World O U, w'.connector.handshake = w.connector.handshake →
      Ticking deadline w' ∧
        (w.connector.handshake.done = true → w'.connector.handshake.done = true) := by
    intro w' hsame
    refine ⟨⟨?_, ?_⟩, ?_⟩
    · rw [hsame]
      exact h.waiting
    · rw [hsame]
      exact h.deadline
    · rw [hsame]
      exact id
  cases e with
  | retryTimer ec now =>
    obtain ⟨hwaiting, hdeadline, hdone, _⟩ := onRetry_ticking codec h.waiting ec now
      (he.2 ec now rfl)
    exact ⟨⟨hwaiting, hdeadline.trans h.deadline⟩, hdone⟩
  | handshakeRecv arrival now =>
    obtain ⟨hwaiting, hdeadline, hdone⟩ := onRecv_ticking codec h.waiting arrival.code
      arrival.sender (arrival.received bufferSize)
    exact ⟨⟨hwaiting, hdeadline.trans h.deadline⟩, hdone⟩
  | sessionRecv position arrival now =>
    exact hkept _ (by rw [World.step, updateSession_connector])
  | sessionCall position e => exact hkept _ (by rw [World.step, updateSession_connector])
  | clientRecv arrival now => exact hkept _ rfl
  | clientCall e => exact hkept _ rfl
  | acceptorRecv arrival socket => exact hkept _ rfl
  | ackSent position ec now => exact hkept _ rfl
  | foreignSends d => exact hkept _ rfl

def deadlineAfter (config : SessionConfig) (begun : Time) : Time :=
  begun + milliseconds (if config.maxHandshakeMs = 0 then 5000 else config.maxHandshakeMs.toNat)

omit [CongestionCtrl O] [CongestionCtrl U] in
lemma ticking_start (codec : PacketCodec) (client server : Endpoint)
    (clientConfig serverConfig : SessionConfig) (cc : O) (cc' : U) (begun : Time) :
    Ticking (deadlineAfter clientConfig begun)
      (World.start codec client server clientConfig serverConfig cc cc' begun) := by
  refine ⟨Or.inr rfl, ?_⟩
  have hsend : ∀ state : ClientState, (state.sendInit codec).deadline = state.deadline := by
    intro state
    unfold ClientState.sendInit ClientState.complete
    dsimp only
    split_ifs <;> rfl
  exact hsend _

/-- In every run the first wait on the retry timer that ends at or after the deadline ends the
handshake: from then on its handler was called exactly once. -/
theorem handshake_ends (codec : PacketCodec) (client server : Endpoint) (hne : client ≠ server)
    (clientConfig serverConfig : SessionConfig) (cc : O) (cc' : U) (begun now : Time)
    (hlate : deadlineAfter clientConfig begun ≤ now) (before later : List NetEvent)
    (hrun : Runs.Admitted (World.step codec) (Waits codec)
      (World.start codec client server clientConfig serverConfig cc cc' begun)
      (before ++ .retryTimer .none now :: later)) :
    handlerCalls ((before ++ .retryTimer .none now :: later).foldl (World.step codec)
      (World.start codec client server clientConfig serverConfig cc cc' begun)).connector.handshake.log
        = 1 := by
  have hreach := Runs.reachable_foldl .start _ hrun
  have hadmits : Runs.Reachable (World.step codec) (World.Admits codec) _ _ :=
    hreach.mono fun _ _ he => he.1
  have hagreed := hadmits.invariant
    (agreed_start codec hne clientConfig serverConfig cc cc' begun) fun _ _ h he => agreed_step h he
  rw [hagreed.calls, if_pos]
  rw [List.foldl_append, List.foldl_cons]
  obtain ⟨hbefore, hretry, hlater⟩ := (Runs.admitted_append _ _ _).mp hrun
  have hticking := (Runs.reachable_foldl .start before hbefore).invariant
    (ticking_start codec client server clientConfig serverConfig cc cc' begun)
    fun _ _ h he => (ticking_step h he).1
  have hended := (onRetry_ticking codec hticking.waiting .none now
    (fun hf => absurd hf Bool.false_ne_true)).2.2.2 (hticking.deadline ▸ hlate)
  have hlast := (Runs.reachable_foldl .start later hlater).invariant
    (P := fun w => Ticking (deadlineAfter clientConfig begun) w ∧
      w.connector.handshake.done = true)
    ⟨(ticking_step hticking hretry).1, hended⟩
    fun _ _ h he => ⟨(ticking_step h.1 he).1, (ticking_step h.1 he).2 h.2⟩
  exact hlast.2

end Network

lemma framed_defaultCodec : Framed DefaultCodec.defaultCodec := by
  refine ⟨by decide, ?_⟩
  intro p buf
  change (DefaultCodec.encode p buf).2.length = buf.length
  rw [DefaultCodec.encode_eq]
  split_ifs with hshort
  · rfl
  · rw [List.length_append, List.length_drop, DefaultCodec.frame_length]
    omega

/-- An INIT was answered, and the completion of the ACK is outstanding. -/
def answeredRun : List NetEvent :=
  [.acceptorRecv (.datagram ⟨clientSocket, serverSocket, encoded { type := .handshakeInit }⟩)
    firstSocket]

def answeredWorld : World Null Null :=
  answeredRun.foldl (World.step DefaultCodec.defaultCodec.toPacketCodec)
    (World.start DefaultCodec.defaultCodec.toPacketCodec clientSocket serverSocket {} {} ⟨⟩ ⟨⟩ 0)

theorem handshake_connects_answered :
    answeredWorld.acceptor.accepting = false ∧ ∃ outstanding init,
      Completes answeredWorld.acceptor 1000000000 outstanding ∧
      (answeredWorld.step DefaultCodec.defaultCodec.toPacketCodec
        (.retryTimer .none 1000000000)).connector.handshake.log =
          answeredWorld.connector.handshake.log ++ [.transmit answeredWorld.acceptor.socket init] ∧
      let es := exchange DefaultCodec.defaultCodec.toPacketCodec answeredWorld outstanding init
        secondSocket 1000000000
      Runs.Admitted (World.step DefaultCodec.defaultCodec.toPacketCodec)
        (World.Admits DefaultCodec.defaultCodec.toPacketCodec) answeredWorld es ∧
      Connected (es.foldl (World.step DefaultCodec.defaultCodec.toPacketCodec) answeredWorld)
        secondSocket := by
  have hreach : Runs.Reachable (World.step DefaultCodec.defaultCodec.toPacketCodec)
      (World.Admits DefaultCodec.defaultCodec.toPacketCodec)
      (World.start DefaultCodec.defaultCodec.toPacketCodec clientSocket serverSocket {} {} ⟨⟩ ⟨⟩ 0)
      answeredWorld := Runs.reachable_foldl .start answeredRun (by decide +kernel)
  have hdeadline : 1000000000 < answeredWorld.connector.handshake.deadline := by decide +kernel
  have hopen : answeredWorld.connector.handshake.done = false := by decide +kernel
  have hwaiting : answeredWorld.connector.handshake.waiting = true := by decide +kernel
  have hclosed : answeredWorld.connector.session.closed = false := by decide +kernel
  have haddress : secondSocket.address = answeredWorld.acceptor.socket.address := by
    decide +kernel
  have hfresh : secondSocket ∉ answeredWorld.sockets := by decide +kernel
  have hunused : secondSocket ∉ answeredWorld.foreign.map Datagram.src := by decide +kernel
  refine ⟨by decide +kernel, ?_⟩
  exact handshake_connects (O := Null) (U := Null) (w := answeredWorld) DefaultCodec.defaultCodec
    framed_defaultCodec clientSocket serverSocket (by decide) {} {} ⟨⟩ ⟨⟩ 0 hreach hopen hwaiting
    hclosed hdeadline haddress hfresh hunused

/-- Nobody answers. -/
theorem handshake_ends_unanswered :
    handlerCalls (([.retryTimer .none 1000000000, .retryTimer .none 5000000000,
      .retryTimer .none 6000000000] : List NetEvent).foldl
      (World.step DefaultCodec.defaultCodec.toPacketCodec)
      (World.start DefaultCodec.defaultCodec.toPacketCodec clientSocket serverSocket {} {}
        (⟨⟩ : Null) (⟨⟩ : Null) 0)).connector.handshake.log = 1 := by
  have hwaits : ∀ (w : World Null Null) (now : Time),
      Waits DefaultCodec.defaultCodec.toPacketCodec w (.retryTimer .none now) := by
    intro w now
    refine ⟨trivial, fun ec now' he hf => ?_⟩
    cases he
    cases hf
  exact handshake_ends _ _ _ (by decide) _ _ _ _ 0 5000000000 (by decide)
    [.retryTimer .none 1000000000] [.retryTimer .none 6000000000]
    ⟨hwaits _ _, hwaits _ _, hwaits _ _, trivial⟩

end ReliableUdp.HandshakeProgress
