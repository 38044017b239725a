import ReliableUdp.Protocol

/-! The default binary codec: a ten-byte little-endian header, the payload and a
four-byte FNV-1a checksum over everything before it. The bytes are the same on
little- and big-endian hosts, so the model writes them in wire order. -/
namespace ReliableUdp.DefaultCodec
open Protocol

def kHeaderSize : ℕ := 10
def kCrcSize : ℕ := 4
def kOverhead : ℕ := kHeaderSize + kCrcSize

/-- `memcpy` of some bytes to an offset of a buffer. -/
def writeBytes (p : List Byte) (offset : ℕ) (bytes : List Byte) : List Byte :=
  p.take offset ++ bytes ++ p.drop (offset + bytes.length)

def le16 (v : BitVec 16) : List Byte := [v.setWidth 8, (v >>> 8).setWidth 8]

def le32 (v : BitVec 32) : List Byte :=
  [v.setWidth 8, (v >>> 8).setWidth 8, (v >>> 16).setWidth 8, (v >>> 24).setWidth 8]

def writeU16 (p : List Byte) (offset : ℕ) (v : BitVec 16) : List Byte :=
  writeBytes p offset (le16 v)

def writeU32 (p : List Byte) (offset : ℕ) (v : BitVec 32) : List Byte :=
  writeBytes p offset (le32 v)

def byteAt (p : List Byte) (offset : ℕ) : Byte := p.getD offset 0

def readU16 (p : List Byte) (offset : ℕ) : BitVec 16 :=
  (byteAt p (offset + 1) ++ byteAt p offset : BitVec (8 + 8))

def readU32 (p : List Byte) (offset : ℕ) : BitVec 32 :=
  (byteAt p (offset + 3) ++ byteAt p (offset + 2) ++ byteAt p (offset + 1) ++ byteAt p offset :
    BitVec (8 + 8 + 8 + 8))

def fnvStep (h : BitVec 32) (b : Byte) : BitVec 32 := (h ^^^ b.setWidth 32) * 16777619#32

def checksum (data : List Byte) (len : ℕ) : BitVec 32 :=
  (data.take len).foldl fnvStep 2166136261#32

/-- Returns the number of bytes written and the buffer afterwards. -/
def encode (pkt : Packet) (outBuf : List Byte) : ℕ × List Byte :=
  let total := kHeaderSize + pkt.payload.length + kCrcSize
  if outBuf.length < total then (0, outBuf)
  else
    let p := writeBytes outBuf 0 [pkt.type.code]
    let p := writeU16 p 1 pkt.seq
    let p := writeU16 p 3 pkt.ack
    let p := writeU32 p 5 pkt.ackBits
    let p := writeBytes p 9 [pkt.channel]
    let p := writeBytes p kHeaderSize pkt.payload
    let crc := checksum p (kHeaderSize + pkt.payload.length)
    let p := writeU32 p (kHeaderSize + pkt.payload.length) crc
    (total, p)

def decode (inBuf : List Byte) : Except Error Packet :=
  if inBuf.length < kHeaderSize + kCrcSize then .error .badPacket
  else
    let payloadSize := inBuf.length - kHeaderSize - kCrcSize
    let storedCrc := readU32 inBuf (kHeaderSize + payloadSize)
    let computedCrc := checksum inBuf (kHeaderSize + payloadSize)
    if storedCrc ≠ computedCrc then .error .badPacket
    else .ok {
      type := ⟨byteAt inBuf 0⟩
      seq := readU16 inBuf 1
      ack := readU16 inBuf 3
      ackBits := readU32 inBuf 5
      channel := byteAt inBuf 9
      payload := (inBuf.drop kHeaderSize).take payloadSize
      crc := storedCrc }

def maxOverhead : ℕ := kOverhead

lemma le16_length (v : BitVec 16) : (le16 v).length = 2 := rfl

lemma le32_length (v : BitVec 32) : (le32 v).length = 4 := rfl

lemma le16_bytes (v : BitVec 16) :
    ((v >>> 8).setWidth 8 ++ v.setWidth 8 : BitVec (8 + 8)) = v := by
  apply BitVec.eq_of_getLsbD_eq
  intro i hi
  simp only [BitVec.getLsbD_append, BitVec.getLsbD_setWidth, BitVec.getLsbD_ushiftRight]
  grind

lemma le32_bytes (v : BitVec 32) :
    ((v >>> 24).setWidth 8 ++ (v >>> 16).setWidth 8 ++ (v >>> 8).setWidth 8 ++ v.setWidth 8 :
      BitVec (8 + 8 + 8 + 8)) = v := by
  apply BitVec.eq_of_getLsbD_eq
  intro i hi
  simp only [BitVec.getLsbD_append, BitVec.getLsbD_setWidth, BitVec.getLsbD_ushiftRight]
  grind

lemma le16_append (b c : Byte) : le16 (c ++ b : BitVec (8 + 8)) = [b, c] := by
  simp only [le16, List.cons.injEq, and_true]
  constructor <;> apply BitVec.eq_of_getLsbD_eq <;> intro i hi <;>
    simp only [BitVec.getLsbD_append, BitVec.getLsbD_setWidth, BitVec.getLsbD_ushiftRight] <;>
    grind

lemma le32_append (b c d e : Byte) :
    le32 (e ++ d ++ c ++ b : BitVec (8 + 8 + 8 + 8)) = [b, c, d, e] := by
  simp only [le32, List.cons.injEq, and_true]
  refine ⟨?_, ?_, ?_, ?_⟩ <;> apply BitVec.eq_of_getLsbD_eq <;> intro i hi <;>
    simp only [BitVec.getLsbD_append, BitVec.getLsbD_setWidth, BitVec.getLsbD_ushiftRight] <;>
    grind

lemma writeBytes_append {offset : ℕ} {done rest bytes : List Byte} (h : done.length = offset) :
    writeBytes (done ++ rest) offset bytes = (done ++ bytes) ++ rest.drop bytes.length := by
  subst h
  simp [writeBytes, List.drop_append]

/-- The bytes covered by the checksum. -/
def body (pkt : Packet) : List Byte :=
  pkt.type.code :: (le16 pkt.seq ++ le16 pkt.ack ++ le32 pkt.ackBits ++ [pkt.channel] ++ pkt.payload)

def bodyChecksum (pkt : Packet) : BitVec 32 := (body pkt).foldl fnvStep 2166136261#32

def frame (pkt : Packet) : List Byte := body pkt ++ le32 (bodyChecksum pkt)

lemma body_length (pkt : Packet) : (body pkt).length = kHeaderSize + pkt.payload.length := by
  simp [body, le16, le32, kHeaderSize]
  omega

lemma frame_length (pkt : Packet) :
    (frame pkt).length = kHeaderSize + pkt.payload.length + kCrcSize := by
  simp [frame, body_length, le32_length, kCrcSize]

/-- The writes at successive offsets assemble the frame in front of the untouched rest. -/
theorem encode_eq (pkt : Packet) (outBuf : List Byte) :
    encode pkt outBuf =
      if outBuf.length < kHeaderSize + pkt.payload.length + kCrcSize then (0, outBuf)
      else (kHeaderSize + pkt.payload.length + kCrcSize,
        frame pkt ++ outBuf.drop (kHeaderSize + pkt.payload.length + kCrcSize)) := by
  unfold encode writeU16 writeU32
  dsimp only
  split_ifs with h
  · rfl
  · have h0 : writeBytes outBuf 0 [pkt.type.code] = [pkt.type.code] ++ outBuf.drop 1 := by
      simp [writeBytes]
    rw [h0, writeBytes_append (by simp), writeBytes_append (by simp [le16]),
      writeBytes_append (by simp [le16]), writeBytes_append (by simp [le16, le32]),
      writeBytes_append (by simp [le16, le32, kHeaderSize])]
    have hb : [pkt.type.code] ++ le16 pkt.seq ++ le16 pkt.ack ++ le32 pkt.ackBits ++
        [pkt.channel] ++ pkt.payload = body pkt := by simp [body]
    rw [hb, checksum, ← body_length, List.take_left, writeBytes_append rfl]
    simp only [frame, bodyChecksum, List.drop_drop, le16_length, le32_length,
      List.length_singleton, body_length, kHeaderSize, kCrcSize]

lemma byteAt_append_right {p q : List Byte} (i : ℕ) :
    byteAt (p ++ q) (p.length + i) = byteAt q i := by
  simp [byteAt, List.getElem?_append_right]

lemma readU32_append (p : List Byte) (v : BitVec 32) : readU32 (p ++ le32 v) p.length = v := by
  have h0 := byteAt_append_right (p := p) (q := le32 v) 0
  rw [Nat.add_zero] at h0
  simp only [readU32, byteAt_append_right, h0]
  exact le32_bytes v

/-- Decoding depends only on whether the last four bytes are the checksum of the rest. -/
theorem decode_body (pkt : Packet) (v : BitVec 32) :
    decode (body pkt ++ le32 v) =
      if v = bodyChecksum pkt then .ok { pkt with crc := v } else .error .badPacket := by
  have hlen : (body pkt ++ le32 v).length = kHeaderSize + pkt.payload.length + kCrcSize := by
    simp [body_length, le32_length, kCrcSize]
  have hp : (body pkt ++ le32 v).length - kHeaderSize - kCrcSize = pkt.payload.length := by
    rw [hlen]
    omega
  have hs : checksum (body pkt ++ le32 v) (body pkt).length = bodyChecksum pkt := by
    simp [checksum, bodyChecksum]
  unfold decode
  rw [if_neg (by rw [hlen]; omega)]
  dsimp only
  rw [hp, ← body_length, readU32_append, hs]
  by_cases hv : v = bodyChecksum pkt
  · rw [if_neg (by simpa using hv), if_pos hv]
    congr 1
    have h16 := le16_bytes
    have h32 := le32_bytes
    simp [body, byteAt, readU16, readU32, le16, le32, kHeaderSize, h16, h32]
  · rw [if_pos (by simpa using hv), if_neg hv]

theorem decode_frame (pkt : Packet) :
    decode (frame pkt) = .ok { pkt with crc := bodyChecksum pkt } := by
  rw [frame, decode_body, if_pos rfl]

/-- Every byte string with room for header and checksum is a packet body with four bytes behind. -/
lemma exists_body {b : List Byte} (h : kHeaderSize + kCrcSize ≤ b.length) :
    ∃ pkt v, b = body pkt ++ le32 v := by
  have h14 : 14 ≤ b.length := h
  have hhead : (b.take 10).length = 10 := by simp; omega
  have htail : (b.drop (b.length - 4)).length = 4 := by simp; omega
  have hmid : b = b.take 10 ++ ((b.drop 10).take (b.length - 14) ++ b.drop (b.length - 4)) := by
    have hd : b.drop (b.length - 4) = (b.drop 10).drop (b.length - 14) := by
      rw [List.drop_drop]
      congr 1
      omega
    rw [hd, List.take_append_drop, List.take_append_drop]
  generalize (b.drop 10).take (b.length - 14) = payload at hmid
  match b.take 10, hhead, b.drop (b.length - 4), htail, hmid with
  | [b0, b1, b2, b3, b4, b5, b6, b7, b8, b9], _, [c0, c1, c2, c3], _, hb =>
    refine ⟨{ type := ⟨b0⟩, seq := (b2 ++ b1 : BitVec (8 + 8)), ack := (b4 ++ b3 : BitVec (8 + 8)),
              ackBits := (b8 ++ b7 ++ b6 ++ b5 : BitVec (8 + 8 + 8 + 8)), channel := b9,
              payload := payload }, (c3 ++ c2 ++ c1 ++ c0 : BitVec (8 + 8 + 8 + 8)), ?_⟩
    simp only [body, le16_append, le32_append]
    exact hb

/-- Whatever the decoder accepts is the frame of the packet it returns. -/
theorem eq_frame_of_decode {b : List Byte} {pkt : Packet} (h : decode b = .ok pkt) :
    b = frame pkt := by
  by_cases hlen : b.length < kHeaderSize + kCrcSize
  · simp [decode, hlen] at h
  · obtain ⟨p, v, rfl⟩ := exists_body (not_lt.mp hlen)
    rw [decode_body] at h
    split_ifs at h with hv
    have hp : { p with crc := v } = pkt := by simpa using h
    subst hp
    rw [hv]
    rfl

/-- Encoding fails on a short buffer without touching it; otherwise it fills exactly the
frame, which decodes to the same fields; and re-encoding an accepted frame reproduces it. -/
theorem encode_decode_round_trip :
    (∀ (pkt : Packet) (outBuf : List Byte),
      (encode pkt outBuf = (0, outBuf) ↔ outBuf.length < pkt.payload.length + 14) ∧
      (pkt.payload.length + 14 ≤ outBuf.length →
        (encode pkt outBuf).1 = pkt.payload.length + 14 ∧
        (encode pkt outBuf).2.length = outBuf.length ∧
        (encode pkt outBuf).2.drop (pkt.payload.length + 14) =
          outBuf.drop (pkt.payload.length + 14) ∧
        decode ((encode pkt outBuf).2.take (pkt.payload.length + 14)) =
          .ok { pkt with
            crc := checksum (encode pkt outBuf).2 (kHeaderSize + pkt.payload.length) })) ∧
    (∀ (b outBuf : List Byte) (pkt : Packet), decode b = .ok pkt → b.length ≤ outBuf.length →
      encode pkt outBuf = (b.length, b ++ outBuf.drop b.length)) := by
  have htotal : ∀ pkt : Packet,
      kHeaderSize + pkt.payload.length + kCrcSize = pkt.payload.length + 14 := by
    intro pkt
    simp only [kHeaderSize, kCrcSize]
    omega
  refine ⟨fun pkt outBuf => ?_, fun b outBuf pkt hd hb => ?_⟩
  · have hf : (frame pkt).length = pkt.payload.length + 14 := by rw [frame_length, htotal]
    rw [encode_eq, htotal]
    by_cases hlt : outBuf.length < pkt.payload.length + 14
    · simp [hlt]
    · rw [if_neg hlt]
      refine ⟨by simp [hlt], fun _ => ⟨rfl, ?_, ?_, ?_⟩⟩
      · simp only [List.length_append, List.length_drop, hf]
        omega
      · simp [← hf]
      · have hc : checksum (frame pkt ++ outBuf.drop (pkt.payload.length + 14))
            (kHeaderSize + pkt.payload.length) = bodyChecksum pkt := by
          rw [checksum, ← body_length, frame, List.append_assoc, List.take_left]
          rfl
        rw [hc, ← hf, List.take_left, decode_frame]
  · have hframe := eq_frame_of_decode hd
    have hlen : kHeaderSize + pkt.payload.length + kCrcSize = b.length := by
      rw [hframe, frame_length]
    rw [encode_eq, hlen, if_neg (not_lt.mpr hb), ← hframe]

/-- The default codec satisfies the laws the channels rely on. -/
def defaultCodec : LawfulCodec where
  encode := encode
  decode := decode
  maxOverhead := maxOverhead
  encode_fits := by
    intro p buf h
    have hlen : ¬ buf.length < kHeaderSize + p.payload.length + kCrcSize := by
      simp only [maxOverhead, kOverhead] at h
      omega
    rw [encode_eq, if_neg hlen]
    simp only [List.length_append, frame_length, kHeaderSize]
    omega
  decode_encode := by
    intro p buf h
    rw [encode_eq] at h ⊢
    split_ifs at h ⊢ with hlen
    · exact absurd h (lt_irrefl 0)
    · exact ⟨bodyChecksum p, by rw [← frame_length, List.take_left, decode_frame]⟩

end ReliableUdp.DefaultCodec
