import ReliableUdp.ChannelCommon
import ReliableUdp.DefaultCodec
import ReliableUdp.RunningMaxima
import ReliableUdp.Runs

/-! The unreliable sequenced channel: fire and forget on the sending side, only newer packets on
the receiving side. -/
namespace ReliableUdp.UnreliableChannel
open Protocol ChannelCommon RunningMaxima

structure Channel where
  id : Byte := 0
  nextSeq : Seq := 0
  lastSeq : Seq := 0
  hasDelivered : Bool := false
  recvQueue : RecvQueue := {}
  deriving DecidableEq, Repr

namespace Channel

def dataPacket (ch : Channel) (payload : List Byte) : Packet :=
  { type := .data, seq := ch.nextSeq, channel := ch.id, payload := payload }

def asyncSend (ch : Channel) (codec : PacketCodec) (payload : List Byte) (handler : ℕ)
    (io : Transport) : Channel × Transport :=
  let packet := ch.dataPacket payload
  let ch := { ch with nextSeq := ch.nextSeq + 1 }
  let encodedPacket := codec.encodePacket packet
  if encodedPacket = [] then
    (ch, io.emit [.sendDone handler (makeErrorCode .badPacket)])
  else
    let stats := { io.stats with
      packetsSent := io.stats.packetsSent + 1
      bytesSent := io.stats.bytesSent + encodedPacket.length }
    (ch, { io with stats := stats }.sendEncoded encodedPacket (.sequenced handler))

def asyncRecv (ch : Channel) (buf handler : ℕ) (io : Transport) : Channel × Transport :=
  let r := ch.recvQueue.asyncRecv buf handler
  ({ ch with recvQueue := r.1 }, io.emit r.2)

def close (ch : Channel) (reason : ErrorCode) (io : Transport) : Channel × Transport :=
  let r := ch.recvQueue.close reason
  ({ ch with recvQueue := r.1 }, io.emit r.2)

def onRecv (ch : Channel) (packet : Packet) (io : Transport) : Channel × Transport :=
  if packet.type ≠ .data then (ch, io)
  else if ch.hasDelivered = true ∧ isStaleOrDuplicate packet.seq ch.lastSeq = true then (ch, io)
  else
    let r := ch.recvQueue.deliver packet.payload
    let stats := { io.stats with
      packetsRecv := io.stats.packetsRecv + 1
      bytesRecv := io.stats.bytesRecv + packet.payload.length }
    ({ ch with hasDelivered := true, lastSeq := packet.seq, recvQueue := r.1 },
      { io with stats := stats }.emit (.deliver ch.id packet.payload :: r.2))

end Channel

/-- A sender and a receiver with the payloads sent, the datagrams ever handed to the socket with
their indices, and the indices that arrived and that were delivered. -/
structure Pair where
  sender : Channel
  senderIo : Transport := {}
  receiver : Channel
  receiverIo : Transport := {}
  sent : List (List Byte) := []
  data : List (ℕ × List Byte) := []
  arrived : List ℕ := []
  handed : List ℕ := []
  deriving DecidableEq, Repr

inductive Event
  | asyncSend (payload : List Byte) (handler : ℕ)
  | dataArrives (position : ℕ)
  | asyncRecv (buf handler : ℕ)
  deriving DecidableEq, Repr

namespace Pair

def start (id : Byte) : Pair := { sender := { id := id }, receiver := { id := id } }

def asyncSend (codec : LawfulCodec) (s : Pair) (payload : List Byte) (handler : ℕ) : Pair :=
  let r := s.sender.asyncSend codec.toPacketCodec payload handler s.senderIo
  { s with
    sender := r.1
    senderIo := r.2
    sent := s.sent ++ [payload]
    data := s.data ++ (transmitted (r.2.log.drop s.senderIo.log.length)).map
      fun d => (s.sent.length, d) }

def dataArrives (s : Pair) (n : ℕ) (packet : Packet) : Pair :=
  let r := s.receiver.onRecv packet s.receiverIo
  let count := (delivered r.2.log).length - (delivered s.receiverIo.log).length
  { s with
    receiver := r.1
    receiverIo := r.2
    arrived := s.arrived ++ [n]
    handed := s.handed ++ List.replicate count n }

def asyncRecv (s : Pair) (buf handler : ℕ) : Pair :=
  let r := s.receiver.asyncRecv buf handler s.receiverIo
  { s with receiver := r.1, receiverIo := r.2 }

def step (codec : LawfulCodec) (s : Pair) : Event → Pair
  | .asyncSend payload handler => s.asyncSend codec payload handler
  | .dataArrives position =>
    match s.data[position]? with
    | none => s
    | some (n, d) =>
      match codec.decode d with
      | .error _ => s
      | .ok packet => s.dataArrives n packet
  | .asyncRecv buf handler => s.asyncRecv buf handler

end Pair

/-- Every datagram carries the payload of its index under the index modulo 65536. -/
structure Sound (codec : LawfulCodec) (s : Pair) : Prop where
  next : s.sender.nextSeq = wire s.sent.length
  data : ∀ p ∈ s.data, ∃ packet, codec.decode p.2 = .ok packet ∧ packet.type = .data ∧
    packet.seq = wire p.1 ∧ s.sent[p.1]? = some packet.payload
  socket : s.data.map Prod.snd = transmitted s.senderIo.log

lemma Sound.asyncSend {codec : LawfulCodec} {s : Pair} (h : Sound codec s) (payload : List Byte)
    (handler : ℕ) : Sound codec (s.asyncSend codec payload handler) := by
  have hne := codec.encodePacket_ne_nil (s.sender.dataPacket payload)
  obtain ⟨crc, hdec⟩ := codec.decode_encodePacket (s.sender.dataPacket payload)
  have hdata : (s.asyncSend codec payload handler).data =
      s.data ++ [(s.sent.length, codec.encodePacket (s.sender.dataPacket payload))] := by
    simp [Pair.asyncSend, Channel.asyncSend, hne, Transport.sendEncoded, transmitted]
  refine ⟨?_, ?_, ?_⟩
  · simp only [Pair.asyncSend, Channel.asyncSend, hne, if_false, List.length_append,
      List.length_singleton, h.next, wire_succ]
  · intro p hp
    rw [hdata, List.mem_append, List.mem_singleton] at hp
    rcases hp with hold | rfl
    · obtain ⟨packet, hd, htype, hseq, hx⟩ := h.data p hold
      have hlt := (List.getElem?_eq_some_iff.mp hx).1
      exact ⟨packet, hd, htype, hseq, by
        simp only [Pair.asyncSend]
        rw [List.getElem?_append_left hlt, hx]⟩
    · exact ⟨_, hdec, rfl, h.next, by simp [Pair.asyncSend, Channel.dataPacket]⟩
  · rw [hdata]
    simp [Pair.asyncSend, Channel.asyncSend, hne, h.socket]

lemma Sound.step {codec : LawfulCodec} {s : Pair} (h : Sound codec s) (e : Event) :
    Sound codec (s.step codec e) := by
  cases e with
  | asyncSend payload handler => exact h.asyncSend payload handler
  | dataArrives position =>
    simp only [Pair.step]
    split
    · exact h
    · split
      · exact h
      · exact ⟨h.next, h.data, h.socket⟩
  | asyncRecv buf handler => exact ⟨h.next, h.data, h.socket⟩

/-- The delivered indices are the running maxima of the arrivals; the channel remembers the last. -/
structure Sequenced (s : Pair) : Prop where
  handed : s.handed = maxima s.arrived
  fresh : s.handed = [] → s.receiver.hasDelivered = false
  last : ∀ L ∈ s.handed.getLast?, s.receiver.hasDelivered = true ∧ s.receiver.lastSeq = wire L ∧
    L < s.sent.length
  delivered : (delivered s.receiverIo.log).map some = s.handed.map fun n => s.sent[n]?
  subsequence : (Protocol.delivered s.receiverIo.log).Sublist
    (s.sent.take (s.handed.getLast?.elim 0 (· + 1)))

lemma onRecv_cases (ch : Channel) {packet : Packet} (io : Transport) (htype : packet.type = .data) :
    ch.onRecv packet io = (ch, io) ∧ ch.hasDelivered = true ∧
        isStaleOrDuplicate packet.seq ch.lastSeq = true ∨
      (ch.hasDelivered = true → isStaleOrDuplicate packet.seq ch.lastSeq = false) ∧
        (ch.onRecv packet io).1.hasDelivered = true ∧
        (ch.onRecv packet io).1.lastSeq = packet.seq ∧
        Protocol.delivered (ch.onRecv packet io).2.log =
          Protocol.delivered io.log ++ [packet.payload] := by
  unfold Channel.onRecv
  rw [if_neg (by simp [htype])]
  split_ifs with hstale
  · exact Or.inl ⟨rfl, hstale.1, hstale.2⟩
  · refine Or.inr ⟨?_, rfl, rfl, ?_⟩
    · intro hd
      simpa [hd] using hstale
    · unfold RecvQueue.deliver
      cases ch.recvQueue.pendingRecv <;> simp [Protocol.delivered, completeRecv]

/-- The channel takes a number for new exactly when its index is above the last delivered one. -/
lemma Sequenced.newer_iff {s : Pair} (h : Sequenced s) {n : ℕ}
    (hn : ∀ L ∈ s.handed.getLast?, Close n L) :
    (s.receiver.hasDelivered = true →
        isStaleOrDuplicate (wire n) s.receiver.lastSeq = false) ↔
      ∀ L ∈ s.handed.getLast?, L < n := by
  cases hlast : s.handed.getLast? with
  | none =>
    have hfresh := h.fresh (List.getLast?_eq_none_iff.mp hlast)
    simp [hfresh]
  | some L =>
    obtain ⟨hd, hw, _⟩ := h.last L hlast
    rw [hw, isStaleOrDuplicate, isNewerSequence_wire (hn L hlast)]
    simp [hd]

theorem Sequenced.arrival {s : Pair} (h : Sequenced s) {n : ℕ} {packet : Packet}
    (hn : ∀ L ∈ s.handed.getLast?, Close n L) (htype : packet.type = .data)
    (hseq : packet.seq = wire n) (hsent : s.sent[n]? = some packet.payload) :
    Sequenced (s.dataArrives n packet) := by
  have hlt := (List.getElem?_eq_some_iff.mp hsent).1
  have hlarger : (∀ m ∈ s.arrived, m < n) ↔ ∀ L ∈ s.handed.getLast?, L < n := by
    rw [h.handed]
    exact forall_lt_iff
  have hmaxima : maxima (s.dataArrives n packet).arrived =
      if ∀ m ∈ s.arrived, m < n then maxima s.arrived ++ [n] else maxima s.arrived :=
    maxima_concat s.arrived n
  rcases onRecv_cases s.receiver s.receiverIo htype with
    ⟨hsame, hd, hstale⟩ | ⟨hnew, hd, hl, hdel⟩
  · have hs : s.dataArrives n packet = { s with arrived := s.arrived ++ [n] } := by
      simp [Pair.dataArrives, hsame]
    have hold : ¬∀ m ∈ s.arrived, m < n := by
      rw [hlarger, ← h.newer_iff hn, ← hseq]
      intro hnew
      rw [hnew hd] at hstale
      cases hstale
    rw [if_neg hold] at hmaxima
    rw [hs] at hmaxima ⊢
    exact ⟨by rw [hmaxima]; exact h.handed, h.fresh, h.last, h.delivered, h.subsequence⟩
  · have hhanded : (s.dataArrives n packet).handed = s.handed ++ [n] := by
      simp [Pair.dataArrives, hdel]
    have hlast : (s.dataArrives n packet).handed.getLast? = some n := by simp [hhanded]
    have hall : ∀ L ∈ s.handed.getLast?, L < n := by
      rw [← h.newer_iff hn, ← hseq]
      exact hnew
    rw [if_pos (hlarger.mpr hall), ← h.handed] at hmaxima
    refine ⟨hhanded.trans hmaxima.symm, ?_, ?_, ?_, ?_⟩
    · intro hempty
      rw [hempty] at hlast
      cases hlast
    · intro L hL
      have he : n = L := Option.some.inj (hlast.symm.trans hL)
      exact ⟨hd, by rw [← he, ← hseq]; exact hl, by rw [← he]; exact hlt⟩
    · rw [hhanded]
      simp only [Pair.dataArrives, hdel, List.map_append, h.delivered, List.map_cons, List.map_nil,
        hsent]
    · have htake : s.sent.take (n + 1) = s.sent.take n ++ [packet.payload] := by
        rw [List.take_add_one, hsent]
        rfl
      have hbelow : s.handed.getLast?.elim 0 (· + 1) ≤ n := by
        cases hL : s.handed.getLast? with
        | none => exact Nat.zero_le n
        | some L => exact hall L hL
      rw [hlast, Option.elim_some]
      simp only [Pair.dataArrives, hdel, htake]
      exact (h.subsequence.trans (List.take_sublist_take_left hbelow)).append
        (List.Sublist.refl _)

lemma Sequenced.asyncSend {codec : LawfulCodec} {s : Pair} (h : Sequenced s) (payload : List Byte)
    (handler : ℕ) : Sequenced (s.asyncSend codec payload handler) := by
  have hlength : s.handed.getLast?.elim 0 (· + 1) ≤ s.sent.length := by
    cases hL : s.handed.getLast? with
    | none => exact Nat.zero_le _
    | some L => exact (h.last L hL).2.2
  refine ⟨h.handed, h.fresh, ?_, ?_, ?_⟩
  · intro L hL
    obtain ⟨hd, hw, hlt⟩ := h.last L hL
    refine ⟨hd, hw, ?_⟩
    simp only [Pair.asyncSend, List.length_append]
    omega
  · simp only [Pair.asyncSend, h.delivered]
    apply List.map_congr_left
    intro n hn
    have hmem : s.sent[n]? ∈ (Protocol.delivered s.receiverIo.log).map some := by
      rw [h.delivered]
      exact List.mem_map_of_mem hn
    obtain ⟨x, _, hx⟩ := List.mem_map.mp hmem
    rw [List.getElem?_append_left (List.getElem?_eq_some_iff.mp hx.symm).1]
  · simp only [Pair.asyncSend]
    rw [List.take_append_of_le_length hlength]
    exact h.subsequence

lemma delivered_asyncRecv (s : Pair) (buf handler : ℕ) :
    Protocol.delivered (s.asyncRecv buf handler).receiverIo.log =
      Protocol.delivered s.receiverIo.log := by
  unfold Pair.asyncRecv Channel.asyncRecv
  simp [delivered_recvQueue_asyncRecv]

lemma Sequenced.asyncRecv {s : Pair} (h : Sequenced s) (buf handler : ℕ) :
    Sequenced (s.asyncRecv buf handler) :=
  ⟨h.handed, h.fresh, h.last, by rw [delivered_asyncRecv]; exact h.delivered,
    by rw [delivered_asyncRecv]; exact h.subsequence⟩

/-- Every arriving Data packet has an index less than 32768 away from the last delivered one. -/
def NearLast (s : Pair) : Event → Prop
  | .dataArrives position => ∀ p ∈ s.data[position]?, ∀ L ∈ s.handed.getLast?, Close p.1 L
  | _ => True

instance (s : Pair) (e : Event) : Decidable (NearLast s e) :=
  match e with
  | .dataArrives position =>
    inferInstanceAs (Decidable (∀ p ∈ s.data[position]?, ∀ L ∈ s.handed.getLast?, Close p.1 L))
  | .asyncSend .. | .asyncRecv .. => .isTrue trivial

theorem sequenced_of_reachable {codec : LawfulCodec} {id : Byte} {s : Pair}
    (h : Runs.Reachable (Pair.step codec) NearLast (Pair.start id) s) :
    Sound codec s ∧ Sequenced s := by
  refine h.invariant (P := fun s => Sound codec s ∧ Sequenced s) ⟨⟨rfl, ?_, rfl⟩, ?_⟩ ?_
  · intro p hp
    cases hp
  · refine ⟨rfl, fun _ => rfl, ?_, rfl, List.Sublist.refl _⟩
    intro L hL
    cases hL
  · intro s e hs hg
    obtain ⟨hsound, hs⟩ := hs
    refine ⟨hsound.step e, ?_⟩
    cases e with
    | asyncSend payload handler => exact hs.asyncSend payload handler
    | dataArrives position =>
      cases hget : s.data[position]? with
      | none =>
        simp only [Pair.step, hget]
        exact hs
      | some p =>
        obtain ⟨n, d⟩ := p
        obtain ⟨packet, hdec, htype, hseq, hsent⟩ := hsound.data (n, d) (List.mem_of_getElem? hget)
        simp only [Pair.step, hget, hdec]
        exact hs.arrival (hg (n, d) hget) htype hseq hsent
    | asyncRecv buf handler => exact hs.asyncRecv buf handler

/-- The delivered messages are those of the strict running maxima of the arrivals, in send order
and without duplicates. -/
theorem delivered_running_maxima (codec : LawfulCodec) (id : Byte) (s : Pair)
    (h : Runs.Reachable (Pair.step codec) NearLast (Pair.start id) s) :
    s.sender.nextSeq = wire s.sent.length ∧ s.handed = maxima s.arrived ∧
      (delivered s.receiverIo.log).map some = (maxima s.arrived).map (fun n => s.sent[n]?) ∧
      (maxima s.arrived).Pairwise (· < ·) ∧ (delivered s.receiverIo.log).Sublist s.sent := by
  obtain ⟨hsound, hs⟩ := sequenced_of_reachable h
  refine ⟨hsound.next, hs.handed, ?_, pairwise_maxima _,
    hs.subsequence.trans (List.take_sublist _ _)⟩
  rw [← hs.handed]
  exact hs.delivered

/-- Three messages; the second arrives first and twice. -/
def shuffledRun : List Event :=
  [.asyncSend [7#8] 0, .asyncSend [8#8] 1, .asyncSend [9#8] 2, .dataArrives 1, .dataArrives 0,
    .dataArrives 1, .dataArrives 2]

def shuffledState : Pair := shuffledRun.foldl (Pair.step DefaultCodec.defaultCodec) (Pair.start 2)

theorem delivered_running_maxima_shuffled :
    shuffledState.arrived = [1, 0, 1, 2] ∧ delivered shuffledState.receiverIo.log = [[8#8], [9#8]] ∧
      shuffledState.handed = maxima shuffledState.arrived := by
  have hreach : Runs.Reachable (Pair.step DefaultCodec.defaultCodec) NearLast (Pair.start 2)
      shuffledState := Runs.reachable_foldl .start shuffledRun (by decide +kernel)
  exact ⟨by decide +kernel, by decide +kernel,
    (delivered_running_maxima DefaultCodec.defaultCodec 2 shuffledState hreach).2.1⟩

end ReliableUdp.UnreliableChannel
