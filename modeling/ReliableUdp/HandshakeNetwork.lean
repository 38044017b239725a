import ReliableUdp.Handshake
import ReliableUdp.Runs

/-! One connecting client, one acceptor and a network that may lose, duplicate, delay and reorder
datagrams: what was sent once may arrive at its destination at any later time, any number of
times or never. Other programs on the network send what they like from sockets of their own. -/
namespace ReliableUdp.HandshakeNetwork
open Protocol ReliableChannel Session Handshake

structure Datagram where
  src : Endpoint
  dst : Endpoint
  bytes : List Byte
  deriving DecidableEq, Repr

inductive Arrival
  | failed (ec : ErrorCode)
  | datagram (d : Datagram)
  deriving DecidableEq, Repr

namespace Arrival

def code : Arrival → ErrorCode
  | .failed ec => ec
  | .datagram _ => .none

def sender : Arrival → Endpoint
  | .failed _ => ⟨0, 0⟩
  | .datagram d => d.src

/-- The bytes that fit into a receive buffer. -/
def received (size : ℕ) : Arrival → List Byte
  | .failed _ => []
  | .datagram d => d.bytes.take size

end Arrival

structure World (O U : Type) where
  connector : BasicConnector O U
  acceptor : BasicAcceptor O U
  foreign : List Datagram := []

/-- Events of the whole system; `socket` is the endpoint of the socket a new session gets. -/
inductive NetEvent
  | retryTimer (ec : ErrorCode) (now : Time)
  | handshakeRecv (arrival : Arrival) (now : Time)
  | clientRecv (arrival : Arrival) (now : Time)
  | clientCall (e : Session.Event)
  | acceptorRecv (arrival : Arrival) (socket : Endpoint)
  | ackSent (position : ℕ) (ec : ErrorCode) (now : Time)
  | sessionRecv (position : ℕ) (arrival : Arrival) (now : Time)
  | sessionCall (position : ℕ) (e : Session.Event)
  | foreignSends (d : Datagram)
  deriving DecidableEq, Repr

/-- Timers, completions of sends and calls of the application. -/
def isCall : Session.Event → Bool
  | .start _ _ => false
  | .onSocketRecv _ _ _ _ => false
  | _ => true

def isHandshakeAck (codec : PacketCodec) (datagram : List Byte) : Bool :=
  match codec.decode datagram with
  | .ok packet => decide (packet.type = .handshakeAck)
  | .error _ => false

def recvBufferSize {O U : Type} (s : BasicSession O U) : ℕ := max s.config.recvBufSize 2048

def arrive {O U : Type} [CongestionCtrl O] [CongestionCtrl U] (codec : PacketCodec)
    (s : BasicSession O U) (arrival : Arrival) (now : Time) : BasicSession O U :=
  s.onSocketRecv codec arrival.code arrival.sender (arrival.received (recvBufferSize s)) now

/-- The packet a session acts on when a receive ends: one from its peer that decodes. -/
def processes {O U : Type} (codec : PacketCodec) (s : BasicSession O U) (arrival : Arrival) :
    Option Packet :=
  if s.receiving = true ∧ s.closed = false ∧ arrival.code.failed = false ∧
      arrival.sender = s.io.remote then
    (codec.decode (arrival.received (recvBufferSize s))).toOption
  else none

structure Processing where
  receiver : Endpoint
  sender : Endpoint
  packet : Packet
  deriving DecidableEq, Repr

namespace World

variable {O U : Type}

/-- A client that has just called `asyncConnect` and an acceptor that waits. -/
def start (codec : PacketCodec) (client server : Endpoint) (clientConfig serverConfig : SessionConfig)
    (orderedCc : O) (unorderedCc : U) (now : Time) : World O U :=
  { connector := .asyncConnect codec client server clientConfig orderedCc unorderedCc now
    acceptor :=
      { socket := server
        config := serverConfig
        orderedCc := orderedCc
        unorderedCc := unorderedCc } }

def sockets (w : World O U) : List Endpoint :=
  w.connector.socket :: w.acceptor.socket :: w.acceptor.opened.map OpenedSession.socket

def Sent (w : World O U) (d : Datagram) : Prop :=
  (d.src = w.connector.socket ∧
    (HandshakeEffect.transmit d.dst d.bytes ∈ w.connector.handshake.log ∨
      Effect.transmit d.dst d.bytes ∈ w.connector.session.io.log)) ∨
  (∃ r ∈ w.acceptor.opened, d.src = r.socket ∧
    Effect.transmit d.dst d.bytes ∈ r.session.io.log) ∨
  d ∈ w.foreign

instance (w : World O U) (d : Datagram) : Decidable (w.Sent d) :=
  inferInstanceAs (Decidable ((_ ∧ (_ ∨ _)) ∨ (∃ r ∈ w.acceptor.opened, _ ∧ _) ∨ _))

/-- A receive on the socket may end this way. -/
def Arrives (w : World O U) (socket : Endpoint) : Arrival → Prop
  | .failed ec => ec.failed = true
  | .datagram d => w.Sent d ∧ d.dst = socket

instance (w : World O U) (socket : Endpoint) (arrival : Arrival) :
    Decidable (w.Arrives socket arrival) :=
  match arrival with
  | .failed ec => inferInstanceAs (Decidable (ec.failed = true))
  | .datagram d => inferInstanceAs (Decidable (w.Sent d ∧ d.dst = socket))

/-- The assumptions on the network: only what was sent arrives, every socket has an endpoint of
its own, and no other program sends a HandshakeAck from the server's address. An application
holds a session only after its start, apart from `BasicConnector::cancel`. -/
def Admits (codec : PacketCodec) (w : World O U) : NetEvent → Prop
  | .retryTimer _ _ => True
  | .handshakeRecv arrival _ => w.Arrives w.connector.socket arrival
  | .clientRecv arrival _ => w.Arrives w.connector.socket arrival
  | .clientCall e =>
    isCall e = true ∧ (w.connector.session.started = true ∨ e = .cancel)
  | .acceptorRecv arrival socket =>
    w.Arrives w.acceptor.socket arrival ∧ socket ∉ w.sockets ∧ socket ∉ w.foreign.map Datagram.src
  | .ackSent _ _ _ => True
  | .sessionRecv position arrival _ =>
    ∀ r ∈ w.acceptor.opened[position]?, w.Arrives r.socket arrival
  | .sessionCall position e =>
    isCall e = true ∧ ∀ r ∈ w.acceptor.opened[position]?, r.session.started = true
  | .foreignSends d =>
    d.src ∉ w.sockets ∧ (d.src.address = w.acceptor.socket.address →
      isHandshakeAck codec (d.bytes.take bufferSize) = false)

instance (codec : PacketCodec) (w : World O U) (e : NetEvent) : Decidable (w.Admits codec e) :=
  match e with
  | .retryTimer _ _ => .isTrue trivial
  | .handshakeRecv _ _ => inferInstanceAs (Decidable (w.Arrives _ _))
  | .clientRecv _ _ => inferInstanceAs (Decidable (w.Arrives _ _))
  | .clientCall _ => inferInstanceAs (Decidable (_ ∧ (_ ∨ _)))
  | .acceptorRecv _ _ => inferInstanceAs (Decidable (w.Arrives _ _ ∧ _ ∉ w.sockets ∧ ¬_ ∈ _))
  | .ackSent _ _ _ => .isTrue trivial
  | .sessionRecv position _ _ =>
    inferInstanceAs (Decidable (∀ r ∈ w.acceptor.opened[position]?, w.Arrives r.socket _))
  | .sessionCall position _ =>
    inferInstanceAs (Decidable (_ ∧ ∀ r ∈ w.acceptor.opened[position]?, r.session.started = true))
  | .foreignSends _ => inferInstanceAs (Decidable (_ ∉ w.sockets ∧ (_ → _)))

def updateSession (w : World O U) (position : ℕ) (f : BasicSession O U → BasicSession O U) :
    World O U :=
  match w.acceptor.opened[position]? with
  | none => w
  | some r => { w with acceptor := { w.acceptor with
      opened := w.acceptor.opened.set position { r with session := f r.session } } }

/-- The packet that an event makes the client's or one of the acceptor's sessions act on. -/
def processed (codec : PacketCodec) (w : World O U) : NetEvent → Option Processing
  | .clientRecv arrival _ =>
    (processes codec w.connector.session arrival).map
      fun packet => ⟨w.connector.socket, arrival.sender, packet⟩
  | .sessionRecv position arrival _ =>
    w.acceptor.opened[position]?.bind fun r => (processes codec r.session arrival).map
      fun packet => ⟨r.socket, arrival.sender, packet⟩
  | _ => none

variable [CongestionCtrl O] [CongestionCtrl U]

def step (codec : PacketCodec) (w : World O U) : NetEvent → World O U
  | .retryTimer ec now =>
    { w with
      connector := w.connector.advance (w.connector.handshake.onRetry codec ec now) now }
  | .handshakeRecv arrival now =>
    { w with
      connector := w.connector.advance (w.connector.handshake.onRecv codec arrival.code
        arrival.sender (arrival.received bufferSize)) now }
  | .clientRecv arrival now =>
    { w with
      connector := { w.connector with
        session := arrive codec w.connector.session arrival now } }
  | .clientCall e =>
    { w with
      connector := { w.connector with session := w.connector.session.step codec e } }
  | .acceptorRecv arrival socket =>
    { w with
      acceptor := w.acceptor.onRecv codec socket arrival.code arrival.sender
        (arrival.received kRecvBufSize) }
  | .ackSent position ec now => { w with acceptor := w.acceptor.ackSent position ec now }
  | .sessionRecv position arrival now =>
    w.updateSession position fun s => arrive codec s arrival now
  | .sessionCall position e => w.updateSession position fun s => s.step codec e
  | .foreignSends d => { w with foreign := w.foreign ++ [d] }

end World

/-- A receive that is not processed leaves everything but the receive flag as it is. -/
theorem arrive_unprocessed {O U : Type} [CongestionCtrl O] [CongestionCtrl U] {codec : PacketCodec}
    {s : BasicSession O U} {arrival : Arrival} (hec : arrival.code.failed = false)
    (h : processes codec s arrival = none) (now : Time) :
    ∃ receiving, arrive codec s arrival now = { s with receiving := receiving } := by
  unfold arrive BasicSession.onSocketRecv
  cases hr : s.receiving with
  | false => exact ⟨s.receiving, by simp⟩
  | true =>
    cases hc : s.closed with
    | true => exact ⟨false, by simp⟩
    | false =>
      refine ⟨true, ?_⟩
      by_cases hs : arrival.sender = s.io.remote
      · have hdecode : ∀ packet, codec.decode (arrival.received (recvBufferSize s)) ≠ .ok packet := by
          intro packet hp
          simp [processes, hr, hc, hec, hs, hp, Except.toOption] at h
        cases hd : codec.decode (arrival.received (recvBufferSize s)) with
        | ok packet => exact absurd hd (hdecode packet)
        | error e => simp [hec, hs, BasicSession.handlePacket, hd]
      · simp [hec, hs]

end ReliableUdp.HandshakeNetwork
