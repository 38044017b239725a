import ReliableUdp.ReliableSender
import ReliableUdp.Runs

/-! Runs of the sending half of a reliable channel next to the history of its packets: when
each was stored, every datagram handed to the socket for it, and when it left the store.
Codec and congestion controller are arbitrary. -/
namespace ReliableUdp.SenderRun
open Protocol ChannelCommon ReliableChannel OrderedReceiver ReliableSender Runs

inductive Cause
  | acknowledged
  | sendFailed
  deriving DecidableEq, Repr

/-- An entry of the history. Packets are named by their unbounded index and datagrams carry the
index they were built for. -/
inductive Mark
  | stored (n : ℕ) (now : Time) (datagram : List Byte)
  | tick (now : Time) (resent : List (ℕ × List Byte))
  | flush (resent : List (ℕ × List Byte))
  | removed (cause : Cause) (indices : List ℕ)
  deriving DecidableEq, Repr

namespace Mark

def datagrams : Mark → List (ℕ × List Byte)
  | stored n _ d => [(n, d)]
  | tick _ resent => resent
  | flush resent => resent
  | removed _ _ => []

def resends : Mark → List ℕ
  | tick _ resent => resent.map Prod.fst
  | _ => []

def flushes : Mark → List ℕ
  | flush resent => resent.map Prod.fst
  | _ => []

def dropped : Mark → List ℕ
  | removed _ indices => indices
  | _ => []

def acknowledged : Mark → List ℕ
  | removed .acknowledged indices => indices
  | _ => []

def indices (m : Mark) : List ℕ := m.datagrams.map Prod.fst ++ m.dropped

/-- When the packet in the store was last sent on its schedule: stored or resent by a tick. -/
def lastSend (n : ℕ) (last : Option Time) : Mark → Option Time
  | stored m now _ => if m = n then some now else last
  | tick now resent => if n ∈ resent.map Prod.fst then some now else last
  | flush _ => last
  | removed _ indices => if n ∈ indices then none else last

end Mark

def datagrams (trace : List Mark) : List (ℕ × List Byte) := trace.flatMap Mark.datagrams

def resends (trace : List Mark) : List ℕ := trace.flatMap Mark.resends

def flushes (trace : List Mark) : List ℕ := trace.flatMap Mark.flushes

def dropped (trace : List Mark) : List ℕ := trace.flatMap Mark.dropped

/-- The packets that left the store because an Ack named them. -/
def acknowledged (trace : List Mark) : List ℕ := trace.flatMap Mark.acknowledged

def lastSend (n : ℕ) (trace : List Mark) : Option Time := trace.foldl (Mark.lastSend n) none

section Concat
variable (trace : List Mark) (m : Mark) (n : ℕ)

@[simp] lemma datagrams_concat : datagrams (trace ++ [m]) = datagrams trace ++ m.datagrams := by
  simp [datagrams]

@[simp] lemma resends_concat : resends (trace ++ [m]) = resends trace ++ m.resends := by
  simp [resends]

@[simp] lemma flushes_concat : flushes (trace ++ [m]) = flushes trace ++ m.flushes := by
  simp [flushes]

@[simp] lemma dropped_concat : dropped (trace ++ [m]) = dropped trace ++ m.dropped := by
  simp [dropped]

@[simp] lemma acknowledged_concat :
    acknowledged (trace ++ [m]) = acknowledged trace ++ m.acknowledged := by
  simp [acknowledged]

@[simp] lemma lastSend_concat : lastSend n (trace ++ [m]) = m.lastSend n (lastSend n trace) := by
  simp [lastSend]

end Concat

/-- The channel with its transport; `allocated` counts the sequence numbers taken and `owner`
gives the index of the packet in an occupied slot. -/
structure SendRun (C : Type) (ordered : Bool) (W : Window) where
  channel : Channel C ordered W
  io : Transport := {}
  allocated : ℕ := 0
  owner : ℕ → ℕ := fun _ => 0
  trace : List Mark := []

/-- Positions select a pending completion of the socket. -/
inductive Event
  | asyncSend (payload : List Byte) (handler : ℕ) (now : Time)
  | sendCompleted (position : ℕ) (ec : ErrorCode) (now : Time)
  | onTick (now : Time)
  | flush
  | onRecv (packet : Packet) (now : Time)
  deriving DecidableEq, Repr

/-- The stored packets with their indices, in slot order. -/
def indexed {n : ℕ} (store : SlotTable SentPacket n) (owner : ℕ → ℕ) : List (ℕ × SentPacket) :=
  (List.range n).filterMap fun i => (store.get i).map fun sp => (owner i, sp)

def emptied {n : ℕ} (before after : SlotTable SentPacket n) (owner : ℕ → ℕ) : List ℕ :=
  ((List.range n).filter fun i => (before.get i).isSome && (after.get i).isNone).map owner

def datagramOf (p : ℕ × SentPacket) : ℕ × List Byte := (p.1, p.2.encodedPacket)

namespace SendRun

variable {C : Type} [CongestionCtrl C] {ordered : Bool} {W : Window}

def asyncSend (codec : PacketCodec) (s : SendRun C ordered W) (payload : List Byte) (handler : ℕ)
    (now : Time) : SendRun C ordered W :=
  let r := s.channel.asyncSend codec payload handler now s.io
  let fresh := transmitted (r.2.log.drop s.io.log.length)
  { channel := r.1
    io := r.2
    allocated := if r.1.nextSeq = s.channel.nextSeq then s.allocated else s.allocated + 1
    owner := if fresh = [] then s.owner
      else Function.update s.owner (s.channel.nextSeq.toNat % W.size) s.allocated
    trace := s.trace ++ fresh.map fun d => .stored s.allocated now d }

def sendCompleted (s : SendRun C ordered W) (position : ℕ) (ec : ErrorCode) (now : Time) :
    SendRun C ordered W :=
  let io := { s.io with pending := s.io.pending.eraseIdx position }
  match s.io.pending[position]? with
  | some (.data _ sequenceNumber handler) =>
    let r := s.channel.sendCompleted sequenceNumber handler ec now io
    { s with
      channel := r.1
      io := r.2
      trace := s.trace ++
        [.removed .sendFailed (emptied s.channel.sentPackets r.1.sentPackets s.owner)] }
  | _ => { s with io := io }

omit [CongestionCtrl C] in
def due (s : SendRun C ordered W) (now : Time) : List (ℕ × SentPacket) :=
  (indexed s.channel.sentPackets s.owner).filter fun p => decide (p.2.nextRetx ≤ now)

def onTick (s : SendRun C ordered W) (now : Time) : SendRun C ordered W :=
  let r := s.channel.onTick now s.io
  { s with
    channel := r.1
    io := r.2
    trace := s.trace ++ [.tick now ((s.due now).map datagramOf)] }

def flush (s : SendRun C ordered W) : SendRun C ordered W :=
  { s with
    io := s.channel.flush s.io
    trace := s.trace ++ [.flush ((indexed s.channel.sentPackets s.owner).map datagramOf)] }

def onRecv (s : SendRun C ordered W) (packet : Packet) (now : Time) : SendRun C ordered W :=
  let r := s.channel.onRecv packet now s.io
  { s with
    channel := r.1
    io := r.2
    trace := s.trace ++
      [.removed .acknowledged (emptied s.channel.sentPackets r.1.sentPackets s.owner)] }

def step (codec : PacketCodec) (s : SendRun C ordered W) : Event → SendRun C ordered W
  | .asyncSend payload handler now => s.asyncSend codec payload handler now
  | .sendCompleted position ec now => s.sendCompleted position ec now
  | .onTick now => s.onTick now
  | .flush => s.flush
  | .onRecv packet now => s.onRecv packet now

omit [CongestionCtrl C] in
def start (id : Byte) (retxTimeout : ℕ) (cc : C) : SendRun C ordered W :=
  { channel := { id := id, retxTimeout := retxTimeout, cc := cc } }

end SendRun

end ReliableUdp.SenderRun
