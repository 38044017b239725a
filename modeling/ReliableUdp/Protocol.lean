import ReliableUdp.SerialNumber

/-! Packets, error codes and statistics shared by codec, channels and sessions.
Fixed-width fields are bit vectors; 64-bit counters and clock readings are naturals. -/
namespace ReliableUdp.Protocol
open SerialNumber

abbrev Byte := BitVec 8
/-- `std::uint16_t` sequence numbers. -/
abbrev Seq := BitVec 16
abbrev AckBits := BitVec 32
/-- A reading of `steady_clock` in nanoseconds. -/
abbrev Time := ℕ

/-- The sequence number that carries an unbounded index on the wire. -/
abbrev wire (n : ℕ) : Seq := serial 16 n

abbrev Close (a b : ℕ) : Prop := Near 16 a b

lemma wire_succ (n : ℕ) : wire (n + 1) = wire n + 1 := serial_succ 16 n

lemma wire_toNat (n : ℕ) : (wire n).toNat = n % 65536 := serial_toNat 16 n

lemma wire_sub_of_le {m n : ℕ} (h : m ≤ n) (hlt : n < m + 65536) :
    (wire n - wire m).toNat = n - m :=
  forward_distance 16 h (by norm_num; omega)

lemma wire_sub_of_lt {m n : ℕ} (h : n < m) (hlt : m < n + 65536) :
    (wire n - wire m).toNat = 65536 - (m - n) :=
  backward_distance 16 h (by norm_num; omega)

lemma wire_inj {m n : ℕ} (h : wire n = wire m) (hn : n < m + 65536) (hm : m < n + 65536) :
    n = m :=
  serial_injOn 16 h (by norm_num; omega) (by norm_num; omega)

lemma close_iff {a b : ℕ} : Close a b ↔ a < b + 32768 ∧ b < a + 32768 := by
  simp [Near]

/-- `enum class PacketType : std::uint8_t`: a cast from the wire admits every byte. -/
structure PacketType where
  code : Byte
  deriving DecidableEq, Repr

namespace PacketType
def handshakeInit : PacketType := ⟨0x01⟩
def handshakeAck : PacketType := ⟨0x02⟩
def data : PacketType := ⟨0x10⟩
def ack : PacketType := ⟨0x11⟩
def keepalive : PacketType := ⟨0x20⟩
def disconnect : PacketType := ⟨0x30⟩
end PacketType

structure Packet where
  type : PacketType := .data
  seq : Seq := 0
  ack : Seq := 0
  ackBits : AckBits := 0
  channel : Byte := 0
  payload : List Byte := []
  crc : BitVec 32 := 0
  deriving DecidableEq, Repr

inductive Error
  | connectionReset
  | timeout
  | badPacket
  | sendWindowFull
  | channelClosed
  | versionMismatch
  | messageTooLarge
  deriving DecidableEq, Repr

/-- `boost::system::error_code`: empty, of the rude category, or a system error
such as `operation_aborted`. -/
inductive ErrorCode
  | none
  | rude (e : Error)
  | system (value : ℕ)
  deriving DecidableEq, Repr

/-- The conversion of an error code to `bool`. -/
def ErrorCode.failed : ErrorCode → Bool
  | .none => false
  | .rude _ => true
  | .system _ => true

def makeErrorCode (e : Error) : ErrorCode := .rude e

def operationAborted : ErrorCode := .system 125

structure Endpoint where
  address : ℕ
  port : BitVec 16
  deriving DecidableEq, Repr

/-- Live counters of a session. The averaged round-trip time is kept exact. -/
structure SocketStats where
  bytesSent : ℕ := 0
  bytesRecv : ℕ := 0
  packetsSent : ℕ := 0
  packetsRecv : ℕ := 0
  packetsLost : ℕ := 0
  avgRttUs : ℚ := 0
  sendWindowUsed : ℕ := 0
  deriving DecidableEq, Repr

/-- The functions the `PacketCodec` concept asks for. `encode` returns the number of
bytes written and the buffer afterwards. -/
structure PacketCodec where
  encode : Packet → List Byte → ℕ × List Byte
  decode : List Byte → Except Error Packet
  maxOverhead : ℕ

/-- Encode into a zeroed buffer of the announced size and cut it to the written part;
empty when the codec refuses the packet. -/
def PacketCodec.encodePacket (codec : PacketCodec) (packet : Packet) : List Byte :=
  let buffer := List.replicate (packet.payload.length + codec.maxOverhead) 0
  let r := codec.encode packet buffer
  r.2.takeD r.1 0

/-- A codec that fits every packet into its announced overhead and decodes what it encoded. -/
structure LawfulCodec extends PacketCodec where
  encode_fits : ∀ p buf, p.payload.length + maxOverhead ≤ buf.length →
    0 < (encode p buf).1 ∧ (encode p buf).1 ≤ (encode p buf).2.length
  decode_encode : ∀ p buf, 0 < (encode p buf).1 →
    ∃ crc, decode ((encode p buf).2.take (encode p buf).1) = .ok { p with crc := crc }

lemma LawfulCodec.encodePacket_eq (codec : LawfulCodec) (p : Packet) :
    ∃ buf, codec.encodePacket p = (codec.encode p buf).2.take (codec.encode p buf).1 ∧
      0 < (codec.encode p buf).1 ∧ (codec.encode p buf).1 ≤ (codec.encode p buf).2.length := by
  refine ⟨List.replicate (p.payload.length + codec.maxOverhead) 0, ?_, ?_⟩
  · exact List.takeD_eq_take _ (codec.encode_fits p _ (by simp)).2
  · exact codec.encode_fits p _ (by simp)

lemma LawfulCodec.encodePacket_ne_nil (codec : LawfulCodec) (p : Packet) :
    codec.encodePacket p ≠ [] := by
  obtain ⟨buf, he, hpos, hle⟩ := codec.encodePacket_eq p
  rw [he]
  apply List.ne_nil_of_length_pos
  rw [List.length_take]
  omega

lemma LawfulCodec.decode_encodePacket (codec : LawfulCodec) (p : Packet) :
    ∃ crc, codec.decode (codec.encodePacket p) = .ok { p with crc := crc } := by
  obtain ⟨buf, he, hpos, _⟩ := codec.encodePacket_eq p
  rw [he]
  exact codec.decode_encode p buf hpos

inductive Completion
  | data (channel : Byte) (sequenceNumber : Seq) (handler : ℕ)
  | sequenced (handler : ℕ)
  | flush
  | disconnect (handler : ℕ)
  | ignore
  deriving DecidableEq, Repr

/-- What the operations of a session do to the outside, in order. Handlers of
asynchronous calls are numbered by the caller. -/
inductive Effect
  | transmit (remote : Endpoint) (datagram : List Byte)
  | deliver (channel : Byte) (payload : List Byte)
  | recvDone (handler : ℕ) (ec : ErrorCode) (data : List Byte)
  | sendDone (handler : ℕ) (ec : ErrorCode)
  | onConnected
  | onDisconnected (ec : ErrorCode)
  deriving DecidableEq, Repr

/-- The peer address, statistics and socket a session lends to its channels:
the sends whose completion has not run yet, and everything done so far. -/
structure Transport where
  remote : Endpoint := ⟨0, 0⟩
  stats : SocketStats := {}
  pending : List Completion := []
  log : List Effect := []
  deriving DecidableEq, Repr

namespace Transport

def emit (io : Transport) (effects : List Effect) : Transport :=
  { io with log := io.log ++ effects }

/-- `sendEncoded`: hand a datagram for the peer to the socket. -/
def sendEncoded (io : Transport) (datagram : List Byte) (completion : Completion) : Transport :=
  { io with
    pending := io.pending ++ [completion]
    log := io.log ++ [.transmit io.remote datagram] }

@[simp] lemma emit_log (io : Transport) (effects : List Effect) :
    (io.emit effects).log = io.log ++ effects := rfl
@[simp] lemma emit_stats (io : Transport) (effects : List Effect) :
    (io.emit effects).stats = io.stats := rfl

end Transport

def delivered (log : List Effect) : List (List Byte) :=
  log.filterMap fun
    | .deliver _ payload => some payload
    | _ => none

@[simp] lemma delivered_append (xs ys : List Effect) :
    delivered (xs ++ ys) = delivered xs ++ delivered ys := by simp [delivered]

def transmitted (log : List Effect) : List (List Byte) :=
  log.filterMap fun
    | .transmit _ datagram => some datagram
    | _ => none

@[simp] lemma transmitted_append (xs ys : List Effect) :
    transmitted (xs ++ ys) = transmitted xs ++ transmitted ys := by simp [transmitted]

@[simp] lemma transmitted_sendEncoded (io : Transport) (datagram : List Byte)
    (completion : Completion) : transmitted (io.sendEncoded datagram completion).log =
      transmitted io.log ++ [datagram] := by
  simp [Transport.sendEncoded, transmitted]

end ReliableUdp.Protocol
