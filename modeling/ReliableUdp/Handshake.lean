import ReliableUdp.Session

/-! The two-packet handshake: the client side, the connector that adopts its result and the
acceptor that answers every INIT from the socket of a new session. -/
namespace ReliableUdp.Handshake
open Protocol ReliableChannel Session

/-- What the handshake does to the outside; `handler` is the call of the completion handler. -/
inductive HandshakeEffect
  | transmit (remote : Endpoint) (datagram : List Byte)
  | cancelSocket
  | handler (ec : ErrorCode) (adopted : Endpoint)
  deriving DecidableEq, Repr

def bufferSize : ℕ := 1500

/-- `receiving` and `waiting` tell whether the socket receive and the wait on the retry timer are
outstanding. -/
structure ClientState where
  server : Endpoint
  deadline : Time
  sendBuffer : List Byte := List.replicate bufferSize 0
  done : Bool := false
  receiving : Bool := false
  waiting : Bool := false
  log : List HandshakeEffect := []
  deriving DecidableEq, Repr

namespace ClientState

def complete (state : ClientState) (ec : ErrorCode) (adopted : Endpoint) : ClientState :=
  if state.done then state
  else { state with done := true, log := state.log ++ [.handler ec adopted] }

def sendInit (codec : PacketCodec) (state : ClientState) : ClientState :=
  let encoded := codec.encode { type := .handshakeInit } state.sendBuffer
  let state := { state with sendBuffer := encoded.2 }
  if encoded.1 = 0 then state.complete (makeErrorCode .badPacket) ⟨0, 0⟩
  else { state with log := state.log ++ [.transmit state.server (encoded.2.takeD encoded.1 0)] }

def receiveNext (state : ClientState) : ClientState := { state with receiving := true }

def scheduleRetry (state : ClientState) : ClientState := { state with waiting := true }

/-- The completion of the socket receive. -/
def onRecv (codec : PacketCodec) (state : ClientState) (ec : ErrorCode) (sender : Endpoint)
    (datagram : List Byte) : ClientState :=
  if state.receiving = false then state
  else
    let state := { state with receiving := false }
    if state.done then state
    else if ec.failed then state.complete ec ⟨0, 0⟩
    else
      match codec.decode datagram with
      | .error _ => state.receiveNext
      | .ok packet =>
        if packet.type = .handshakeAck ∧ sender.address = state.server.address then
          state.complete .none sender
        else state.receiveNext

/-- The completion of the wait on the retry timer. -/
def onRetry (codec : PacketCodec) (state : ClientState) (ec : ErrorCode) (now : Time) : ClientState :=
  if state.waiting = false then state
  else
    let state := { state with waiting := false }
    if ec.failed = true ∨ state.done = true then state
    else if state.deadline ≤ now then
      let state := state.complete (makeErrorCode .timeout) ⟨0, 0⟩
      { state with log := state.log ++ [.cancelSocket] }
    else (state.sendInit codec).scheduleRetry

end ClientState

def asyncClientHandshake (codec : PacketCodec) (server : Endpoint) (cfg : SessionConfig)
    (now : Time) : ClientState :=
  let timeout := milliseconds (if cfg.maxHandshakeMs = 0 then 5000 else cfg.maxHandshakeMs.toNat)
  let state : ClientState := { server := server, deadline := now + timeout }
  (state.sendInit codec).receiveNext.scheduleRetry

/-- A connection attempt: the socket of the new session, its handshake and the session. -/
structure BasicConnector (O U : Type) where
  socket : Endpoint
  handshake : ClientState
  session : BasicSession O U

namespace BasicConnector

variable {O U : Type}

/-- The handler `asyncConnect` passes to the handshake. -/
def onHandshake (now : Time) (session : BasicSession O U) : HandshakeEffect → BasicSession O U
  | .handler ec adopted => if ec.failed then session else session.start adopted now
  | .transmit _ _ | .cancelSocket => session

/-- Store a step of the handshake and run the handler if the step called it. -/
def advance (c : BasicConnector O U) (state : ClientState) (now : Time) : BasicConnector O U :=
  { c with
    handshake := state
    session := (state.log.drop c.handshake.log.length).foldl (onHandshake now) c.session }

def asyncConnect (codec : PacketCodec) (socket remote : Endpoint) (config : SessionConfig)
    (orderedCc : O) (unorderedCc : U) (now : Time) : BasicConnector O U :=
  let state := asyncClientHandshake codec remote config now
  { socket := socket
    handshake := state
    session := state.log.foldl (onHandshake now) (.create config orderedCc unorderedCc) }

end BasicConnector

/-- A session opened by the acceptor, with its own socket and the client it was opened for.
`opening` tells whether the send of the ACK is outstanding. -/
structure OpenedSession (O U : Type) where
  socket : Endpoint
  client : Endpoint
  opening : Bool := true
  session : BasicSession O U

def kRecvBufSize : ℕ := 1500

/-- An acceptor whose application calls `asyncAccept` again from every completion. `accepting`
tells whether its receive is outstanding, `results` what the completions reported. -/
structure BasicAcceptor (O U : Type) where
  socket : Endpoint
  config : SessionConfig
  orderedCc : O
  unorderedCc : U
  accepting : Bool := true
  opened : List (OpenedSession O U) := []
  results : List (ErrorCode × Option Endpoint) := []

namespace BasicAcceptor

variable {O U : Type}

/-- `socket` is the endpoint the new session's socket is bound to. -/
def openSession (codec : PacketCodec) (a : BasicAcceptor O U) (socket client : Endpoint)
    (initSeq : Seq) : BasicAcceptor O U :=
  let session : BasicSession O U := .create a.config a.orderedCc a.unorderedCc
  let encoded := codec.encodePacket { type := .handshakeAck, ack := initSeq }
  if encoded = [] then { a with results := a.results ++ [(makeErrorCode .badPacket, none)] }
  else
    { a with
      accepting := false
      opened := a.opened ++ [{
        socket := socket
        client := client
        session := session.emit [.transmit client encoded] }] }

/-- The completion of the receive issued by `startAccept`. -/
def onRecv (codec : PacketCodec) (a : BasicAcceptor O U) (socket : Endpoint) (ec : ErrorCode)
    (sender : Endpoint) (datagram : List Byte) : BasicAcceptor O U :=
  if a.accepting = false then a
  else if ec.failed then { a with results := a.results ++ [(ec, none)] }
  else
    match codec.decode datagram with
    | .error _ => a
    | .ok packet =>
      if packet.type ≠ .handshakeInit then a else a.openSession codec socket sender packet.seq

/-- The completion of the ACK's send. -/
def ackSent (a : BasicAcceptor O U) (position : ℕ) (ec : ErrorCode) (now : Time) :
    BasicAcceptor O U :=
  match a.opened[position]? with
  | none => a
  | some r =>
    if r.opening = false then a
    else if ec.failed then
      { a with
        accepting := true
        opened := a.opened.set position { r with opening := false }
        results := a.results ++ [(ec, none)] }
    else
      { a with
        accepting := true
        opened := a.opened.set position
          { r with opening := false, session := r.session.start r.client now }
        results := a.results ++ [(.none, some r.socket)] }

end BasicAcceptor

end ReliableUdp.Handshake
