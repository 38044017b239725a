import ReliableUdp.ReliableSender
import ReliableUdp.Runs

/-! A reliable sender and its receiver over a network that keeps every datagram ever handed to
a socket and delivers any of them any number of times, in any order, or never. The state
carries the unbounded index behind every sequence number next to the two channels. -/
namespace ReliableUdp.ReliablePair
open Protocol ChannelCommon ReliableChannel OrderedReceiver ReliableSender

/-- `sent` lists the payloads in the order their sequence numbers were allocated and `owner`
gives the index of the packet in an occupied slot of the sender. Datagrams in flight carry the
index they were built for, acknowledgements the index behind their latest sequence number.
`expected` and `latest` are the indices behind `expectedRecvSeq_` and `latestSequence_`;
`received` and `handed` list the indices that arrived and that went to the receive queue. -/
structure Pair (C : Type) (ordered : Bool) (Ws Wr : Window) where
  sender : Channel C ordered Ws
  senderIo : Transport := {}
  receiver : Channel C ordered Wr
  receiverIo : Transport := {}
  sent : List (List Byte) := []
  owner : ℕ → ℕ := fun _ => 0
  data : List (ℕ × List Byte) := []
  acks : List (ℕ × List Byte) := []
  expected : ℕ := 0
  latest : ℕ := 0
  received : List ℕ := []
  handed : List ℕ := []

/-- Positions select a pending completion or a datagram in flight. -/
inductive Event
  | asyncSend (payload : List Byte) (handler : ℕ) (now : Time)
  | sendCompleted (position : ℕ) (ec : ErrorCode) (now : Time)
  | onTick (now : Time)
  | flush
  | ackArrives (position : ℕ) (now : Time)
  | packetArrives (packet : Packet) (now : Time)
  | dataArrives (position : ℕ) (now : Time)
  | asyncRecv (buf handler : ℕ)
  deriving DecidableEq, Repr

namespace Pair

variable {C : Type} [CongestionCtrl C] {ordered : Bool} {Ws Wr : Window}

def start (id : Byte) (retxTimeout retxTimeout' : ℕ) (cc cc' : C) : Pair C ordered Ws Wr :=
  { sender := { id := id, retxTimeout := retxTimeout, cc := cc }
    receiver := { id := id, retxTimeout := retxTimeout', cc := cc' } }

/-- The stored packets of the sender with their indices, in slot order. -/
def indexed (s : Pair C ordered Ws Wr) : List (ℕ × SentPacket) :=
  (List.range Ws.size).filterMap fun i => (s.sender.sentPackets.get i).map fun sp => (s.owner i, sp)

def asyncSend (codec : LawfulCodec) (s : Pair C ordered Ws Wr) (payload : List Byte) (handler : ℕ)
    (now : Time) : Pair C ordered Ws Wr :=
  let r := s.sender.asyncSend codec.toPacketCodec payload handler now s.senderIo
  let fresh := transmitted (r.2.log.drop s.senderIo.log.length)
  { s with
    sender := r.1
    senderIo := r.2
    sent := if r.1.nextSeq = s.sender.nextSeq then s.sent else s.sent ++ [payload]
    owner := if fresh = [] then s.owner
      else Function.update s.owner (s.sender.nextSeq.toNat % Ws.size) s.sent.length
    data := s.data ++ fresh.map fun d => (s.sent.length, d) }

def sendCompleted (s : Pair C ordered Ws Wr) (position : ℕ) (ec : ErrorCode) (now : Time) :
    Pair C ordered Ws Wr :=
  let io := { s.senderIo with pending := s.senderIo.pending.eraseIdx position }
  match s.senderIo.pending[position]? with
  | some (.data _ sequenceNumber handler) =>
    let r := s.sender.sendCompleted sequenceNumber handler ec now io
    { s with sender := r.1, senderIo := r.2 }
  | _ => { s with senderIo := io }

def onTick (s : Pair C ordered Ws Wr) (now : Time) : Pair C ordered Ws Wr :=
  let r := s.sender.onTick now s.senderIo
  { s with
    sender := r.1
    senderIo := r.2
    data := s.data ++ (s.indexed.filter fun p => decide (p.2.nextRetx ≤ now)).map
      fun p => (p.1, p.2.encodedPacket) }

def flush (s : Pair C ordered Ws Wr) : Pair C ordered Ws Wr :=
  { s with
    senderIo := s.sender.flush s.senderIo
    data := s.data ++ s.indexed.map fun p => (p.1, p.2.encodedPacket) }

def packetArrives (s : Pair C ordered Ws Wr) (packet : Packet) (now : Time) :
    Pair C ordered Ws Wr :=
  let r := s.sender.onRecv packet now s.senderIo
  { s with sender := r.1, senderIo := r.2 }

/-- `handlePacket` on a Data packet of index `n`: `onRecv`, then the acknowledgement. -/
def dataArrives (codec : LawfulCodec) (s : Pair C ordered Ws Wr) (n : ℕ) (packet : Packet)
    (now : Time) : Pair C ordered Ws Wr :=
  let r := s.receiver.onRecv packet now s.receiverIo
  let moved := (r.1.expectedRecvSeq - s.receiver.expectedRecvSeq).toNat
  let count := (delivered r.2.log).length - (delivered s.receiverIo.log).length
  let latest := if r.1.recvAckTracker.latestSequence = packet.seq then n else s.latest
  let reply := (r.1.buildAck.map codec.encodePacket).getD []
  { s with
    receiver := r.1
    receiverIo := if reply = [] then r.2 else r.2.sendEncoded reply .ignore
    acks := if reply = [] then s.acks else s.acks ++ [(latest, reply)]
    expected := s.expected + moved
    latest := latest
    received := s.received ++ [n]
    handed := s.handed ++
      if ordered then List.range' s.expected moved else List.replicate count n }

def asyncRecv (s : Pair C ordered Ws Wr) (buf handler : ℕ) : Pair C ordered Ws Wr :=
  let r := s.receiver.asyncRecv buf handler s.receiverIo
  { s with receiver := r.1, receiverIo := r.2 }

def step (codec : LawfulCodec) (s : Pair C ordered Ws Wr) : Event → Pair C ordered Ws Wr
  | .asyncSend payload handler now => s.asyncSend codec payload handler now
  | .sendCompleted position ec now => s.sendCompleted position ec now
  | .onTick now => s.onTick now
  | .flush => s.flush
  | .ackArrives position now =>
    match s.acks[position]? with
    | none => s
    | some (_, d) =>
      match codec.decode d with
      | .error _ => s
      | .ok packet => s.packetArrives packet now
  | .packetArrives packet now => s.packetArrives packet now
  | .dataArrives position now =>
    match s.data[position]? with
    | none => s
    | some (n, d) =>
      match codec.decode d with
      | .error _ => s
      | .ok packet => s.dataArrives codec n packet now
  | .asyncRecv buf handler => s.asyncRecv buf handler

end Pair

section Shifts
variable {C : Type} {ordered : Bool} {Ws Wr : Window}

/-- The receiver never marks an arriving Data packet exactly 32 ahead of the latest one. An ordered
receiver marks what lies in its window. -/
def ShiftDefined (s : Pair C ordered Ws Wr) : Event → Prop
  | .dataArrives position _ => ∀ p ∈ s.data[position]?,
      (ordered = true → s.expected ≤ p.1 ∧ p.1 < s.expected + Wr.size) →
        s.receiver.recvAckTracker.ShiftDefined (wire p.1)
  | _ => True

instance (s : Pair C ordered Ws Wr) (e : Event) : Decidable (ShiftDefined s e) :=
  match e with
  | .dataArrives position _ =>
    inferInstanceAs (Decidable (∀ p ∈ s.data[position]?,
      (ordered = true → s.expected ≤ p.1 ∧ p.1 < s.expected + Wr.size) →
        s.receiver.recvAckTracker.ShiftDefined (wire p.1)))
  | .asyncSend .. | .sendCompleted .. | .onTick _ | .flush | .ackArrives .. | .packetArrives ..
  | .asyncRecv .. => .isTrue trivial

end Shifts

section Store
variable {C : Type} {ordered : Bool} {Ws Wr : Window}

/-- A datagram that decodes to the Data packet of an index with its payload. -/
def Carries (codec : LawfulCodec) (sent : List (List Byte)) (n : ℕ) (d : List Byte) : Prop :=
  ∃ packet, codec.decode d = .ok packet ∧ packet.type = .data ∧ packet.seq = wire n ∧
    sent[n]? = some packet.payload

lemma Carries.mono {codec : LawfulCodec} {sent sent' : List (List Byte)} {n : ℕ} {d : List Byte}
    (h : Carries codec sent n d) (hp : sent <+: sent') : Carries codec sent' n d := by
  obtain ⟨packet, hdec, htype, hseq, hx⟩ := h
  refine ⟨packet, hdec, htype, hseq, ?_⟩
  obtain ⟨hlt, _⟩ := List.getElem?_eq_some_iff.mp hx
  obtain ⟨rest, rfl⟩ := hp
  rw [List.getElem?_append_left hlt, hx]

structure Stored (codec : LawfulCodec) (W : Window) (sent : List (List Byte)) (n k : ℕ)
    (sp : SentPacket) : Prop where
  seq : sp.sequenceNumber = wire n
  slot : (wire n).toNat % W.size = k % W.size
  carries : Carries codec sent n sp.encodedPacket

/-- The indices next to the sender are the ones its numbers and datagrams stand for. -/
structure Sound (codec : LawfulCodec) (s : Pair C ordered Ws Wr) : Prop where
  next : s.sender.nextSeq = wire s.sent.length
  stored : ∀ k sp, s.sender.sentPackets.get k = some sp →
    Stored codec Ws s.sent (s.owner (k % Ws.size)) k sp
  data : ∀ p ∈ s.data, Carries codec s.sent p.1 p.2
  socket : s.data.map Prod.snd = transmitted s.senderIo.log

lemma sound_start (codec : LawfulCodec) (id : Byte) (retxTimeout retxTimeout' : ℕ) (cc cc' : C) :
    Sound codec (Pair.start id retxTimeout retxTimeout' cc cc' : Pair C ordered Ws Wr) := by
  refine ⟨rfl, ?_, by simp [Pair.start], rfl⟩
  intro k sp h
  simp [Pair.start] at h

lemma mem_indexed {s : Pair C ordered Ws Wr} {p : ℕ × SentPacket} (h : p ∈ s.indexed) :
    ∃ k, s.sender.sentPackets.get k = some p.2 ∧ p.1 = s.owner (k % Ws.size) := by
  simp only [Pair.indexed, List.mem_filterMap, List.mem_range, Option.map_eq_some_iff] at h
  obtain ⟨k, hk, sp, hsp, rfl⟩ := h
  exact ⟨k, hsp, by rw [Nat.mod_eq_of_lt hk]⟩

lemma mem_indexed_of_get {s : Pair C ordered Ws Wr} {k : ℕ} {sp : SentPacket}
    (h : s.sender.sentPackets.get k = some sp) : (s.owner (k % Ws.size), sp) ∈ s.indexed := by
  simp only [Pair.indexed, List.mem_filterMap, List.mem_range, Option.map_eq_some_iff]
  exact ⟨k % Ws.size, Nat.mod_lt _ Ws.pos, sp, by rw [SlotTable.get_mod, h], rfl⟩

lemma indexed_packets (s : Pair C ordered Ws Wr) :
    s.indexed.map Prod.snd = s.sender.sentPackets.entries := by
  rw [SlotTable.entries_eq, Pair.indexed, List.map_filterMap]
  congr 1
  funext i
  cases s.sender.sentPackets.get i <;> rfl

lemma Sound.indexed {codec : LawfulCodec} {s : Pair C ordered Ws Wr} (h : Sound codec s)
    {p : ℕ × SentPacket} (hp : p ∈ s.indexed) : Carries codec s.sent p.1 p.2.encodedPacket := by
  obtain ⟨k, hk, hn⟩ := mem_indexed hp
  rw [hn]
  exact (h.stored k p.2 hk).carries

lemma Sound.of_store {codec : LawfulCodec} {s s' : Pair C ordered Ws Wr} (h : Sound codec s)
    (hsent : s'.sent = s.sent) (howner : s'.owner = s.owner)
    (hnext : s'.sender.nextSeq = s.sender.nextSeq)
    (hstore : ∀ k sp', s'.sender.sentPackets.get k = some sp' →
      ∃ sp, s.sender.sentPackets.get k = some sp ∧ sp'.sequenceNumber = sp.sequenceNumber ∧
        sp'.encodedPacket = sp.encodedPacket)
    (hdata : ∀ p ∈ s'.data, p ∈ s.data ∨ Carries codec s.sent p.1 p.2)
    (hsocket : s'.data.map Prod.snd = transmitted s'.senderIo.log) : Sound codec s' := by
  refine ⟨by rw [hnext, h.next, hsent], ?_, ?_, hsocket⟩
  · intro k sp' hk
    obtain ⟨sp, hsp, hseq, hbytes⟩ := hstore k sp' hk
    have hs := h.stored k sp hsp
    rw [hsent, howner]
    exact ⟨hseq.trans hs.seq, hs.slot, hbytes ▸ hs.carries⟩
  · intro p hp
    rw [hsent]
    rcases hdata p hp with hold | hnew
    · exact h.data p hold
    · exact hnew

theorem Sound.flush {codec : LawfulCodec} {s : Pair C ordered Ws Wr} (h : Sound codec s) :
    Sound codec s.flush := by
  refine h.of_store rfl rfl rfl (fun k sp hk => ⟨sp, hk, rfl, rfl⟩) ?_ ?_
  · intro p hp
    rcases List.mem_append.mp hp with hold | hnew
    · exact Or.inl hold
    · obtain ⟨q, hq, rfl⟩ := List.mem_map.mp hnew
      exact Or.inr (h.indexed hq)
  · simp only [Pair.flush, List.map_append, h.socket, flush_transmitted, ← indexed_packets,
      List.map_map]
    rfl

/-- A step of the sender: the receiver and what it produced are the same, and the list of
allocated payloads may have grown. -/
structure SenderStep (s s' : Pair C ordered Ws Wr) : Prop where
  receiver : s'.receiver = s.receiver
  receiverIo : s'.receiverIo = s.receiverIo
  acks : s'.acks = s.acks
  expected : s'.expected = s.expected
  latest : s'.latest = s.latest
  received : s'.received = s.received
  handed : s'.handed = s.handed
  sent : s.sent <+: s'.sent

lemma SenderStep.refl (s : Pair C ordered Ws Wr) : SenderStep s s :=
  ⟨rfl, rfl, rfl, rfl, rfl, rfl, rfl, List.prefix_refl _⟩

lemma SenderStep.getElem? {s s' : Pair C ordered Ws Wr} (h : SenderStep s s') {n : ℕ}
    {x : List Byte} (hx : s.sent[n]? = some x) : s'.sent[n]? = some x := by
  obtain ⟨hlt, _⟩ := List.getElem?_eq_some_iff.mp hx
  obtain ⟨rest, hrest⟩ := h.sent
  rw [← hrest, List.getElem?_append_left hlt, hx]

end Store

section Sender
variable {C : Type} [CongestionCtrl C] {ordered : Bool} {Ws Wr : Window}

/-- The three ways an `asyncSend` of the pair ends. -/
inductive PairSending (codec : LawfulCodec) (s : Pair C ordered Ws Wr) (payload : List Byte)
    (handler : ℕ) (now : Time) : Pair C ordered Ws Wr → Prop
  | refused (cc : C) (hfull : (s.sender.effectiveSendWindow now).1 ≤ s.sender.inFlightCount) :
      PairSending codec s payload handler now
        { s with
          sender := { s.sender with cc := cc }
          senderIo := s.senderIo.emit [.sendDone handler (makeErrorCode .sendWindowFull)] }
  | collided (cc : C) (hroom : s.sender.inFlightCount < (s.sender.effectiveSendWindow now).1)
      (old : SentPacket) (hold : s.sender.sentPackets.get s.sender.nextSeq.toNat = some old) :
      PairSending codec s payload handler now
        { s with
          sender := { s.sender with cc := cc, nextSeq := s.sender.nextSeq + 1 }
          senderIo := s.senderIo.emit [.sendDone handler (makeErrorCode .sendWindowFull)]
          sent := s.sent ++ [payload] }
  | stored (cc : C) (hroom : s.sender.inFlightCount < (s.sender.effectiveSendWindow now).1)
      (hfree : s.sender.sentPackets.get s.sender.nextSeq.toNat = none) (stats : SocketStats)
      (d : List Byte) (hd : d = codec.encodePacket (s.sender.dataPacket payload)) :
      PairSending codec s payload handler now
        { s with
          sender := { s.sender with
            cc := cc
            nextSeq := s.sender.nextSeq + 1
            sentPackets := s.sender.sentPackets.set s.sender.nextSeq.toNat
              (some (freshPacket s.sender d now))
            inFlightCount := s.sender.inFlightCount + 1 }
          senderIo := { s.senderIo with stats := stats }.sendEncoded d
            (.data s.sender.id s.sender.nextSeq handler)
          sent := s.sent ++ [payload]
          owner := Function.update s.owner (s.sender.nextSeq.toNat % Ws.size) s.sent.length
          data := s.data ++ [(s.sent.length, d)] }

theorem pairSending_cases (codec : LawfulCodec) (s : Pair C ordered Ws Wr) (payload : List Byte)
    (handler : ℕ) (now : Time) :
    PairSending codec s payload handler now (s.asyncSend codec payload handler now) := by
  have hnext : s.sender.nextSeq + 1 ≠ s.sender.nextSeq := by
    intro h
    simp at h
  have h := asyncSend_cases s.sender codec.toPacketCodec payload handler now s.senderIo
  unfold Pair.asyncSend
  generalize s.sender.asyncSend codec.toPacketCodec payload handler now s.senderIo = r at h ⊢
  cases h with
  | refused cc hfull =>
    have hc : PairSending codec s payload handler now _ := .refused cc hfull
    simpa [transmitted] using hc
  | unencodable cc hroom hempty => exact absurd hempty (codec.encodePacket_ne_nil _)
  | collided cc hroom old hold =>
    have hc : PairSending codec s payload handler now _ := .collided cc hroom old hold
    simpa [transmitted, hnext] using hc
  | stored cc hroom hfree stats d hd hne =>
    have hc : PairSending codec s payload handler now _ := .stored cc hroom hfree stats d hd
    simpa [transmitted, hnext, Transport.sendEncoded] using hc

theorem Sound.asyncSend {codec : LawfulCodec} {s : Pair C ordered Ws Wr} (h : Sound codec s)
    (payload : List Byte) (handler : ℕ) (now : Time) :
    Sound codec (s.asyncSend codec payload handler now) := by
  have hprefix : s.sent <+: s.sent ++ [payload] := List.prefix_append _ _
  have hnext : s.sender.nextSeq + 1 = wire (s.sent ++ [payload]).length := by
    rw [h.next, ← wire_succ, List.length_append]
    rfl
  have hc := pairSending_cases codec s payload handler now
  generalize s.asyncSend codec payload handler now = s' at hc ⊢
  cases hc with
  | refused cc hfull =>
    exact ⟨h.next, h.stored, h.data, by simp [h.socket, transmitted]⟩
  | collided cc hroom old hold =>
    refine ⟨hnext, ?_, ?_, by simp [h.socket, transmitted]⟩
    · intro k sp hk
      have hs := h.stored k sp hk
      exact ⟨hs.seq, hs.slot, hs.carries.mono hprefix⟩
    · intro p hp
      exact (h.data p hp).mono hprefix
  | stored cc hroom hfree stats d hd =>
    have hcarries : Carries codec (s.sent ++ [payload]) s.sent.length d := by
      obtain ⟨crc, hdec⟩ := codec.decode_encodePacket (s.sender.dataPacket payload)
      obtain ⟨htype, hseq, hpay⟩ := dataPacket_fields s.sender payload
      refine ⟨{ s.sender.dataPacket payload with crc := crc }, by rw [hd]; exact hdec, htype,
        hseq.trans h.next, ?_⟩
      simp [hpay]
    refine ⟨hnext, ?_, ?_, ?_⟩
    · intro k sp hk
      dsimp only at hk ⊢
      rw [SlotTable.get_set _ Ws.pos] at hk
      split_ifs at hk with hslot
      · have he := (Option.some.inj hk).symm
        subst he
        rw [hslot, Function.update_self]
        exact ⟨h.next, by rw [← h.next]; exact hslot, hcarries⟩
      · rw [Function.update_of_ne (Ne.symm hslot)]
        have hs := h.stored k sp hk
        exact ⟨hs.seq, hs.slot, hs.carries.mono hprefix⟩
    · intro p hp
      rcases List.mem_append.mp hp with hold | hnew
      · exact (h.data p hold).mono hprefix
      · rw [List.mem_singleton.mp hnew]
        exact hcarries
    · simp [h.socket]

theorem Sound.sendCompleted {codec : LawfulCodec} {s : Pair C ordered Ws Wr} (h : Sound codec s)
    (position : ℕ) (ec : ErrorCode) (now : Time) :
    Sound codec (s.sendCompleted position ec now) := by
  unfold Pair.sendCompleted
  dsimp only
  split
  · rename_i id sequenceNumber handler _
    refine h.of_store rfl rfl (sendCompleted_frame _ _ _ _ _ _).2 ?_ (fun p hp => Or.inl hp) ?_
    · intro k sp hk
      dsimp only at hk
      rcases sendCompleted_get s.sender sequenceNumber handler ec now
        { s.senderIo with pending := s.senderIo.pending.eraseIdx position } k with he | ⟨_, he, _⟩
      · exact ⟨sp, he ▸ hk, rfl, rfl⟩
      · rw [he] at hk
        cases hk
    · rw [h.socket]
      unfold Channel.sendCompleted
      split_ifs <;> simp [transmitted]
  · exact h.of_store rfl rfl rfl (fun k sp hk => ⟨sp, hk, rfl, rfl⟩) (fun p hp => Or.inl hp) h.socket

theorem Sound.onTick {codec : LawfulCodec} {s : Pair C ordered Ws Wr} (h : Sound codec s)
    (now : Time) : Sound codec (s.onTick now) := by
  refine h.of_store rfl rfl (onTick_frame s.sender now s.senderIo).2 ?_ ?_ ?_
  · intro k sp hk
    have hg := onTick_get s.sender now s.senderIo k
    exact ticked_some (hg.symm.trans hk)
  · intro p hp
    rcases List.mem_append.mp hp with hold | hnew
    · exact Or.inl hold
    · obtain ⟨q, hq, rfl⟩ := List.mem_map.mp hnew
      exact Or.inr (h.indexed (List.mem_of_mem_filter hq))
  · simp only [Pair.onTick, List.map_append, h.socket, onTick_transmitted, dueAt, ← indexed_packets,
      List.filter_map, List.map_map]
    rfl

theorem Sound.packetArrives {codec : LawfulCodec} {s : Pair C ordered Ws Wr} (h : Sound codec s)
    (packet : Packet) (now : Time) : Sound codec (s.packetArrives packet now) := by
  unfold Pair.packetArrives
  by_cases hack : packet.type = .ack
  · have hrecv : s.sender.onRecv packet now s.senderIo =
        s.sender.processAck packet.ack packet.ackBits now s.senderIo := by
      rw [Channel.onRecv, if_pos hack]
    rw [hrecv]
    refine h.of_store rfl rfl (processAck_frame _ _ _ _ _).2 ?_ (fun p hp => Or.inl hp) ?_
    · intro k sp hk
      dsimp only at hk
      rw [processAck_get] at hk
      cases hg : s.sender.sentPackets.get k with
      | none => rw [hg] at hk; cases hk
      | some sp0 =>
        rw [hg] at hk
        simp only [acked] at hk
        split_ifs at hk
        have he := Option.some.inj hk
        exact ⟨sp0, rfl, by rw [he], by rw [he]⟩
    · dsimp only
      rw [processAck_log, h.socket]
  · have hrecv := onRecv_receiveOnly s.sender hack now s.senderIo
    refine h.of_store rfl rfl hrecv.sender.nextSeq ?_ (fun p hp => Or.inl hp) ?_
    · intro k sp hk
      dsimp only at hk
      rw [hrecv.sender.sentPackets] at hk
      exact ⟨sp, hk, rfl, rfl⟩
    · exact h.socket.trans hrecv.transmitted.symm

theorem Sound.step {codec : LawfulCodec} {s : Pair C ordered Ws Wr} (h : Sound codec s)
    (e : Event) : Sound codec (s.step codec e) := by
  cases e with
  | asyncSend payload handler now => exact h.asyncSend payload handler now
  | sendCompleted position ec now => exact h.sendCompleted position ec now
  | onTick now => exact h.onTick now
  | flush => exact h.flush
  | ackArrives position now =>
    simp only [Pair.step]
    split
    · exact h
    · split
      · exact h
      · exact h.packetArrives _ now
  | packetArrives packet now => exact h.packetArrives packet now
  | dataArrives position now =>
    simp only [Pair.step]
    split
    · exact h
    · split
      · exact h
      · exact ⟨h.next, h.stored, h.data, h.socket⟩
  | asyncRecv buf handler => exact ⟨h.next, h.stored, h.data, h.socket⟩

lemma asyncSend_senderStep (codec : LawfulCodec) (s : Pair C ordered Ws Wr) (payload : List Byte)
    (handler : ℕ) (now : Time) : SenderStep s (s.asyncSend codec payload handler now) := by
  have hc := pairSending_cases codec s payload handler now
  generalize s.asyncSend codec payload handler now = s' at hc ⊢
  cases hc with
  | refused => exact ⟨rfl, rfl, rfl, rfl, rfl, rfl, rfl, List.prefix_refl _⟩
  | collided => exact ⟨rfl, rfl, rfl, rfl, rfl, rfl, rfl, List.prefix_append _ _⟩
  | stored => exact ⟨rfl, rfl, rfl, rfl, rfl, rfl, rfl, List.prefix_append _ _⟩

inductive Stepped (codec : LawfulCodec) (s : Pair C ordered Ws Wr) :
    Event → Pair C ordered Ws Wr → Prop
  | sender (e : Event) (s' : Pair C ordered Ws Wr) (h : SenderStep s s') : Stepped codec s e s'
  | arrival (position : ℕ) (now : Time) (n : ℕ) (d : List Byte) (packet : Packet)
      (hget : s.data[position]? = some (n, d)) (htype : packet.type = .data)
      (hseq : packet.seq = wire n) (hsent : s.sent[n]? = some packet.payload) :
      Stepped codec s (.dataArrives position now) (s.dataArrives codec n packet now)
  | asyncRecv (buf handler : ℕ) :
      Stepped codec s (.asyncRecv buf handler) (s.asyncRecv buf handler)

theorem Sound.stepped {codec : LawfulCodec} {s : Pair C ordered Ws Wr} (h : Sound codec s)
    (e : Event) : Stepped codec s e (s.step codec e) := by
  cases e with
  | asyncSend payload handler now =>
    exact .sender _ _ (asyncSend_senderStep codec s payload handler now)
  | sendCompleted position ec now =>
    refine .sender _ _ ?_
    simp only [Pair.step, Pair.sendCompleted]
    split <;> exact ⟨rfl, rfl, rfl, rfl, rfl, rfl, rfl, List.prefix_refl _⟩
  | onTick now => exact .sender _ _ ⟨rfl, rfl, rfl, rfl, rfl, rfl, rfl, List.prefix_refl _⟩
  | flush => exact .sender _ _ ⟨rfl, rfl, rfl, rfl, rfl, rfl, rfl, List.prefix_refl _⟩
  | ackArrives position now =>
    refine .sender _ _ ?_
    simp only [Pair.step]
    split
    · exact SenderStep.refl s
    · split
      · exact SenderStep.refl s
      · exact ⟨rfl, rfl, rfl, rfl, rfl, rfl, rfl, List.prefix_refl _⟩
  | packetArrives packet now =>
    exact .sender _ _ ⟨rfl, rfl, rfl, rfl, rfl, rfl, rfl, List.prefix_refl _⟩
  | dataArrives position now =>
    cases hget : s.data[position]? with
    | none =>
      simp only [Pair.step, hget]
      exact .sender _ _ (SenderStep.refl s)
    | some p =>
      obtain ⟨n, d⟩ := p
      obtain ⟨packet, hdec, htype, hseq, hsent⟩ := h.data (n, d) (List.mem_of_getElem? hget)
      simp only [Pair.step, hget, hdec]
      exact .arrival position now n d packet hget htype hseq hsent
  | asyncRecv buf handler => exact .asyncRecv buf handler

/-- Whatever the environment does, the sender's side stays sound. -/
theorem sound_of_reachable {codec : LawfulCodec} {guard : Pair C ordered Ws Wr → Event → Prop}
    {id : Byte} {retxTimeout retxTimeout' : ℕ} {cc cc' : C} {s : Pair C ordered Ws Wr}
    (h : Runs.Reachable (Pair.step codec) guard (Pair.start id retxTimeout retxTimeout' cc cc') s) :
    Sound codec s :=
  h.invariant (sound_start codec id retxTimeout retxTimeout' cc cc') fun _ e hs _ => hs.step e

/-- Rule for invariants of the receiver: kept by every step of the sender, by the arrival of
every packet the sender built, and by the receiver's own calls. -/
theorem receiver_invariant {codec : LawfulCodec} {guard : Pair C ordered Ws Wr → Event → Prop}
    {id : Byte} {retxTimeout retxTimeout' : ℕ} {cc cc' : C} {s : Pair C ordered Ws Wr}
    (h : Runs.Reachable (Pair.step codec) guard (Pair.start id retxTimeout retxTimeout' cc cc') s)
    {P : Pair C ordered Ws Wr → Prop} (hstart : P (Pair.start id retxTimeout retxTimeout' cc cc'))
    (hsender : ∀ s s', P s → SenderStep s s' → P s')
    (harrival : ∀ s position now n d packet, P s → guard s (.dataArrives position now) →
      s.data[position]? = some (n, d) → packet.type = .data → packet.seq = wire n →
      s.sent[n]? = some packet.payload → P (s.dataArrives codec n packet now))
    (hrecv : ∀ s buf handler, P s → P (s.asyncRecv buf handler)) : P s := by
  have hboth : Sound codec s ∧ P s := by
    refine h.invariant (P := fun s => Sound codec s ∧ P s)
      ⟨sound_start codec id retxTimeout retxTimeout' cc cc', hstart⟩ ?_
    intro s e hs hg
    refine ⟨hs.1.step e, ?_⟩
    have hstep := hs.1.stepped e
    generalize s.step codec e = s' at hstep
    cases hstep with
    | sender _ _ hsame => exact hsender s s' hs.2 hsame
    | arrival position now n d packet hget htype hseq hsent =>
      exact harrival s position now n d packet hs.2 hg hget htype hseq hsent
    | asyncRecv buf handler => exact hrecv s buf handler hs.2
  exact hboth.2

lemma delivered_dataArrives (codec : LawfulCodec) (s : Pair C ordered Ws Wr) (n : ℕ)
    (packet : Packet) (now : Time) :
    delivered (s.dataArrives codec n packet now).receiverIo.log =
      delivered (s.receiver.onRecv packet now s.receiverIo).2.log := by
  unfold Pair.dataArrives
  dsimp only
  split_ifs
  · rfl
  · simp [Transport.sendEncoded, delivered]

end Sender

lemma delivered_asyncRecv {C : Type} {ordered : Bool} {Ws Wr : Window} (s : Pair C ordered Ws Wr)
    (buf handler : ℕ) :
    delivered (s.asyncRecv buf handler).receiverIo.log = delivered s.receiverIo.log := by
  unfold Pair.asyncRecv Channel.asyncRecv
  simp [delivered_recvQueue_asyncRecv]

end ReliableUdp.ReliablePair
