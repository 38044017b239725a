import ReliableUdp.OrderedProgress

/-! Recovery of an ordered channel whose window divides the range of sequence numbers: from every
state of an orderly run, one tick of the sender and the arrival of its datagrams are enough. -/
namespace ReliableUdp.Recovery
open Protocol ChannelCommon ReliableChannel OrderedReceiver ReliableSender ReliablePair
open OrderedDelivery AckTracking OrderedProgress ReceiveAckTracker

variable {C : Type} {ordered : Bool} {W : Window}

structure Confined (s : Pair C true W W) : Prop where
  stored : ∀ n, Retained s n → s.sent.length ≤ n + W.size
  received : ∀ n ∈ s.received, n < s.sent.length
  latest : s.receiver.recvAckTracker.hasReceived = true → s.latest ∈ s.received

/-- The tracker marks exactly what the receiver has. -/
def Exact (s : Pair C true W W) (held : ℕ → Option (List Byte)) : Prop :=
  s.receiver.recvAckTracker.hasReceived = true →
    Tracks s.receiver.recvAckTracker s.latest {k | Has s.expected held k}

structure Recoverable (codec : LawfulCodec) (s : Pair C true W W)
    (held : ℕ → Option (List Byte)) : Prop where
  sound : Sound codec s
  tracking : Tracking codec s held
  complete : Complete s held
  confined : Confined s
  exact : Exact s held

lemma recoverable_start (codec : LawfulCodec) (id : Byte) (retxTimeout retxTimeout' : ℕ)
    (cc cc' : C) :
    Recoverable codec (Pair.start id retxTimeout retxTimeout' cc cc' : Pair C true W W)
      (fun _ => none) := by
  refine ⟨sound_start codec id retxTimeout retxTimeout' cc cc',
    tracking_start codec id retxTimeout retxTimeout' cc cc', ?_, ⟨?_, ?_, ?_⟩, ?_⟩
  · intro n hn
    cases hn
  · rintro n ⟨k, sp, hsp, _⟩
    simp [Pair.start] at hsp
  · intro n hn
    cases hn
  · intro h
    cases h
  · intro h
    cases h

lemma arrived_tracker {s s' : Pair C true W W} {held held' : ℕ → Option (List Byte)} {n : ℕ}
    (h : Arrived s s' held held' n) :
    s'.receiver.recvAckTracker = s.receiver.recvAckTracker ∨
      s'.receiver.recvAckTracker = s.receiver.recvAckTracker.markReceived (wire n) := by
  cases h with
  | outside _ htracker => exact Or.inl htracker
  | occupied _ _ _ htracker => exact Or.inr htracker
  | stored _ _ htracker => exact Or.inr htracker

section Facts
variable {codec : LawfulCodec} {s : Pair C true W W} {held : ℕ → Option (List Byte)}

lemma Recoverable.near (h : Recoverable codec s held) {n : ℕ} (hn : s.sent.length ≤ n + W.size)
    (hle : n ≤ s.expected) : ∀ M ∈ s.received.max?, Close n M := by
  intro M hM
  have hmax := W.le_max
  have hlow : s.expected ≤ M + 1 := by
    rcases Nat.eq_zero_or_pos s.expected with hzero | hpos
    · omega
    · obtain ⟨hreceived, hlatest⟩ := h.tracking.bounded (s.expected - 1) (Or.inl (by omega))
      have hM' := (List.max?_eq_some_iff.mp hM).2 _ (h.confined.latest hreceived)
      omega
  have hhigh := h.confined.received M (List.max?_eq_some_iff.mp hM).1
  exact close_iff.mpr (by omega)

lemma Recoverable.retained_expected (h : Recoverable codec s held)
    (hlt : s.expected < s.sent.length) : Retained s s.expected := by
  refine (h.complete s.expected hlt).resolve_left ?_
  unfold Has
  rw [h.tracking.reassembles.stopped]
  simp

lemma Recoverable.expected_shiftDefined (h : Recoverable codec s held)
    (hnear : ∀ M ∈ s.received.max?, Close s.expected M) :
    s.receiver.recvAckTracker.ShiftDefined (wire s.expected) := by
  intro hreceived
  have hpos := W.pos
  have hle := h.tracking.expected_le
  have hclose := h.tracking.close_latest hreceived ⟨le_rfl, by omega⟩ hnear
  exact (h.exact hreceived).shiftDefined hclose (by omega) hreceived

end Facts

lemma retained_lt {codec : LawfulCodec} {s : Pair C ordered W W} (h : Sound codec s) {n : ℕ}
    (hn : Retained s n) : n < s.sent.length := by
  obtain ⟨k, sp, hsp, rfl⟩ := hn
  obtain ⟨packet, _, _, _, hx⟩ := (h.stored k sp hsp).carries
  exact (List.getElem?_eq_some_iff.mp hx).1

section Sender
variable [CongestionCtrl C] {codec : LawfulCodec} {s : Pair C ordered W W}

lemma stored_step {e : Event} (hsend : ∀ payload handler now, e ≠ .asyncSend payload handler now) :
    (s.step codec e).owner = s.owner ∧
      ∀ k sp', (s.step codec e).sender.sentPackets.get k = some sp' →
        ∃ sp, s.sender.sentPackets.get k = some sp := by
  have hpacket : ∀ (packet : Packet) (now : Time) (k : ℕ) (sp' : SentPacket),
      (s.packetArrives packet now).sender.sentPackets.get k = some sp' →
        ∃ sp, s.sender.sentPackets.get k = some sp := by
    intro packet now k sp' hk
    simp only [Pair.packetArrives] at hk
    by_cases hack : packet.type = .ack
    · rw [Channel.onRecv, if_pos hack, processAck_get] at hk
      cases hget : s.sender.sentPackets.get k with
      | none =>
        rw [hget] at hk
        cases hk
      | some sp => exact ⟨sp, rfl⟩
    · rw [(onRecv_receiveOnly s.sender hack now s.senderIo).sender.sentPackets] at hk
      exact ⟨sp', hk⟩
  cases e with
  | asyncSend payload handler now => exact absurd rfl (hsend payload handler now)
  | sendCompleted position ec now =>
    simp only [Pair.step, Pair.sendCompleted]
    split
    · rename_i id sequenceNumber handler _
      refine ⟨rfl, ?_⟩
      intro k sp' hk
      rcases sendCompleted_get s.sender sequenceNumber handler ec now
        { s.senderIo with pending := s.senderIo.pending.eraseIdx position } k with he | ⟨_, he, _⟩
      · exact ⟨sp', he ▸ hk⟩
      · rw [he] at hk
        cases hk
    · exact ⟨rfl, fun k sp' hk => ⟨sp', hk⟩⟩
  | onTick now =>
    refine ⟨rfl, ?_⟩
    intro k sp' hk
    obtain ⟨sp, hsp, _⟩ := ticked_some ((onTick_get s.sender now s.senderIo k).symm.trans hk)
    exact ⟨sp, hsp⟩
  | flush => exact ⟨rfl, fun k sp' hk => ⟨sp', hk⟩⟩
  | ackArrives position now =>
    simp only [Pair.step]
    split
    · exact ⟨rfl, fun k sp' hk => ⟨sp', hk⟩⟩
    · split
      · exact ⟨rfl, fun k sp' hk => ⟨sp', hk⟩⟩
      · exact ⟨rfl, hpacket _ now⟩
  | packetArrives packet now => exact ⟨rfl, hpacket packet now⟩
  | dataArrives position now =>
    simp only [Pair.step]
    split
    · exact ⟨rfl, fun k sp' hk => ⟨sp', hk⟩⟩
    · split <;> exact ⟨rfl, fun k sp' hk => ⟨sp', hk⟩⟩
  | asyncRecv buf handler => exact ⟨rfl, fun k sp' hk => ⟨sp', hk⟩⟩

/-- A slot is free again before its next number is allocated, so nothing stored is older than a
window. -/
lemma retained_within (h : ∀ n, Retained s n → s.sent.length ≤ n + W.size)
    (hsound : Sound codec s) (hW : W.size ∣ 65536) {e : Event} (hg : Supplied s e) {n : ℕ}
    (hn : Retained (s.step codec e) n) : (s.step codec e).sent.length ≤ n + W.size := by
  by_cases hsend : ∃ payload handler now, e = .asyncSend payload handler now
  · obtain ⟨payload, handler, now, rfl⟩ := hsend
    simp only [Pair.step] at hn ⊢
    have hc := pairSending_cases codec s payload handler now
    generalize s.asyncSend codec payload handler now = s' at hc hn ⊢
    cases hc with
    | refused cc hfull => exact h n hn
    | collided cc hroom old hold =>
      rw [hg hroom] at hold
      cases hold
    | stored cc hroom hfree stats d hd =>
      obtain ⟨k, sp, hsp, hk⟩ := hn
      dsimp only at hsp hk ⊢
      rw [List.length_append, List.length_singleton]
      rw [SlotTable.get_set _ W.pos] at hsp
      split_ifs at hsp with hslot
      · rw [hslot, Function.update_self] at hk
        have hpos := W.pos
        omega
      · rw [Function.update_of_ne (Ne.symm hslot)] at hk
        have hstored := hsound.stored k sp hsp
        have hle := h n ⟨k, sp, hsp, hk⟩
        have hne : s.sent.length ≠ n + W.size := by
          intro he
          apply hslot
          rw [hsound.next, ← hstored.slot, hk, wire_toNat, wire_toNat, Nat.mod_mod_of_dvd _ hW,
            Nat.mod_mod_of_dvd _ hW, he, Nat.add_mod_right]
        omega
  · have hother : ∀ payload handler now, e ≠ .asyncSend payload handler now :=
      fun payload handler now he => hsend ⟨payload, handler, now, he⟩
    obtain ⟨k, sp', hsp', hk⟩ := hn
    have hkept : (s.step codec e).owner = s.owner ∧
        ∀ k sp', (s.step codec e).sender.sentPackets.get k = some sp' →
          ∃ sp, s.sender.sentPackets.get k = some sp := Recovery.stored_step hother
    obtain ⟨howner, hstore⟩ := hkept
    obtain ⟨sp, hsp⟩ := hstore k sp' hsp'
    rw [sent_step hother]
    exact h n ⟨k, sp, hsp, by rw [← howner]; exact hk⟩

structure SenderIdle (s s' : Pair C ordered W W) : Prop where
  sender : s'.sender = s.sender
  owner : s'.owner = s.owner
  sent : s'.sent = s.sent
  data : s'.data = s.data
  acks : s.acks.length ≤ s'.acks.length

lemma dataArrives_idle (s : Pair C ordered W W) (position : ℕ) (now : Time) :
    SenderIdle s (s.step codec (.dataArrives position now)) := by
  simp only [Pair.step]
  split
  · exact ⟨rfl, rfl, rfl, rfl, le_rfl⟩
  · split
    · exact ⟨rfl, rfl, rfl, rfl, le_rfl⟩
    · refine ⟨rfl, rfl, rfl, rfl, ?_⟩
      simp only [Pair.dataArrives]
      split_ifs <;> simp

lemma arrivals_idle (codec : LawfulCodec) (s : Pair C ordered W W) (positions : List ℕ) (now : Time) :
    SenderIdle s ((positions.map (.dataArrives · now)).foldl (Pair.step codec) s) := by
  induction positions generalizing s with
  | nil => exact ⟨rfl, rfl, rfl, rfl, le_rfl⟩
  | cons position positions ih =>
    rw [List.map_cons, List.foldl_cons]
    have hone : SenderIdle s (s.step codec (.dataArrives position now)) :=
      dataArrives_idle s position now
    have hrest := ih (s.step codec (.dataArrives position now))
    exact ⟨hrest.sender.trans hone.sender, hrest.owner.trans hone.owner,
      hrest.sent.trans hone.sent, hrest.data.trans hone.data, hone.acks.trans hrest.acks⟩

lemma fresh_onTick (now : Time)
    (hdue : ∀ k sp, s.sender.sentPackets.get k = some sp → sp.nextRetx ≤ now) {n : ℕ}
    (hn : Retained (s.onTick now) n) : ∃ position, s.data.length ≤ position ∧
      ∃ d, (s.onTick now).data[position]? = some (n, d) := by
  obtain ⟨k, sp', hsp', rfl⟩ := hn
  obtain ⟨sp, hsp, _⟩ := ticked_some ((onTick_get s.sender now s.senderIo k).symm.trans hsp')
  have hmem : (s.owner (k % W.size), sp.encodedPacket) ∈
      (s.indexed.filter fun p => decide (p.2.nextRetx ≤ now)).map
        fun p => (p.1, p.2.encodedPacket) := by
    refine List.mem_map.mpr ⟨(s.owner (k % W.size), sp), ?_, rfl⟩
    exact List.mem_filter.mpr ⟨mem_indexed_of_get hsp, by simpa using hdue k sp hsp⟩
  obtain ⟨i, hi⟩ := List.mem_iff_getElem?.mp hmem
  refine ⟨s.data.length + i, Nat.le_add_right _ _, sp.encodedPacket, ?_⟩
  simp only [Pair.onTick]
  rw [List.getElem?_append_right (Nat.le_add_right _ _), Nat.add_sub_cancel_left]
  exact hi

/-- A receiver that has received anything answers a datagram with the state of its tracker. -/
lemma acks_dataArrives {n : ℕ} {packet : Packet} {now : Time}
    (h : (s.dataArrives codec n packet now).receiver.recvAckTracker.hasReceived = true) :
    ∃ reply : Packet, reply.type = .ack ∧
      reply.ack = (s.dataArrives codec n packet now).receiver.recvAckTracker.latestSequence ∧
      reply.ackBits = (s.dataArrives codec n packet now).receiver.recvAckTracker.ackBits ∧
      (s.dataArrives codec n packet now).acks =
        s.acks ++ [((s.dataArrives codec n packet now).latest, codec.encodePacket reply)] := by
  unfold Pair.dataArrives at h ⊢
  dsimp only at h ⊢
  generalize s.receiver.onRecv packet now s.receiverIo = r at h ⊢
  obtain ⟨reply, hbuild, htype, hack, hbits⟩ : ∃ reply, r.1.buildAck = some reply ∧
      reply.type = .ack ∧ reply.ack = r.1.recvAckTracker.latestSequence ∧
      reply.ackBits = r.1.recvAckTracker.ackBits := by
    unfold Channel.buildAck
    rw [if_neg (by simp [h])]
    exact ⟨_, rfl, rfl, rfl, rfl⟩
  refine ⟨reply, htype, hack, hbits, ?_⟩
  rw [hbuild, Option.map_some, Option.getD_some, if_neg (codec.encodePacket_ne_nil _)]

lemma empties_store (h : Sound codec s) {S : Set ℕ}
    (htracks : Tracks s.receiver.recvAckTracker s.latest S)
    (hreach : ∀ n, Retained s n → Close n s.latest ∧ n ∈ S ∧ s.latest ≤ n + 32) {position : ℕ}
    {reply : Packet} (hget : s.acks[position]? = some (s.latest, codec.encodePacket reply))
    (htype : reply.type = .ack) (hack : reply.ack = s.receiver.recvAckTracker.latestSequence)
    (hbits : reply.ackBits = s.receiver.recvAckTracker.ackBits) (now : Time) :
    Supplied s (.ackArrives position now) ∧
      ∀ k, (s.step codec (.ackArrives position now)).sender.sentPackets.get k = none := by
  refine ⟨?_, ?_⟩
  · intro a ha p hp
    rw [hget, Option.mem_some_iff] at ha
    subst ha
    obtain ⟨k, hk, hn⟩ := mem_indexed hp
    exact (hreach p.1 ⟨k, p.2, hk, hn.symm⟩).1
  · intro k
    obtain ⟨crc, hdec⟩ := codec.decode_encodePacket reply
    simp only [Pair.step, hget, hdec, Pair.packetArrives, Channel.onRecv, htype, if_true,
      processAck_get, hack, hbits]
    cases hsp : s.sender.sentPackets.get k with
    | none => rfl
    | some sp =>
      obtain ⟨hclose, hmem, hle⟩ := hreach (s.owner (k % W.size)) ⟨k, sp, hsp, rfl⟩
      have hacked := (htracks.isAcknowledged_iff hclose).mpr ⟨hmem, hle⟩
      simp only [acked, (h.stored k sp hsp).seq, hacked, Bool.true_eq_false, if_false]

end Sender

section Controlled
variable [CongestionCtrl C] {codec : LawfulCodec} {s : Pair C true W W}
  {held : ℕ → Option (List Byte)}

lemma Confined.latest_arrival (h : Confined s) {n : ℕ} {packet : Packet} {now : Time}
    (hseq : packet.seq = wire n) {held' : ℕ → Option (List Byte)}
    (har : Arrived s (s.dataArrives codec n packet now) held held' n)
    (hreceived : (s.dataArrives codec n packet now).receiver.recvAckTracker.hasReceived = true) :
    (s.dataArrives codec n packet now).latest ∈ s.received ++ [n] := by
  have hlatest : (s.dataArrives codec n packet now).latest =
      if (s.dataArrives codec n packet now).receiver.recvAckTracker.latestSequence = packet.seq
        then n else s.latest := rfl
  rw [hlatest]
  split_ifs with hsame
  · simp
  · cases hbefore : s.receiver.recvAckTracker.hasReceived with
    | true => exact List.mem_append_left _ (h.latest hbefore)
    | false =>
      rcases arrived_tracker har with ht | ht
      · rw [ht, hbefore] at hreceived
        cases hreceived
      · rw [ht, (tracks_first hbefore n).latest] at hsame
        exact absurd hseq.symm hsame

lemma Exact.arrival (h : Exact s held) (ht : Tracking codec s held) {n : ℕ} {packet : Packet}
    {now : Time} (hseq : packet.seq = wire n) (hn : Close n s.expected)
    (hnear : ∀ M ∈ s.received.max?, Close n M)
    (hown : ∀ b ∈ s.receiver.receiveBuffer.get (wire n).toNat,
      s.expected ≤ n ∧ n < s.expected + W.size → b.sequenceNumber = wire n)
    {held' : ℕ → Option (List Byte)}
    (har : Arrived s (s.dataArrives codec n packet now) held held' n) :
    Exact (s.dataArrives codec n packet now) held' := by
  have hmarked : s.expected ≤ n ∧ n < s.expected + W.size →
      (s.dataArrives codec n packet now).receiver.recvAckTracker =
        s.receiver.recvAckTracker.markReceived (wire n) →
      Tracks (s.dataArrives codec n packet now).receiver.recvAckTracker
        (s.dataArrives codec n packet now).latest (insert n {k | Has s.expected held k}) := by
    intro hin htracker
    have hlatest := (ht.marked hseq hin hnear htracker).2
    cases hreceived : s.receiver.recvAckTracker.hasReceived with
    | false =>
      have hnone : {k | Has s.expected held k} = ∅ := by
        rw [Set.eq_empty_iff_forall_notMem]
        intro k hk
        rw [(ht.bounded k hk).1] at hreceived
        cases hreceived
      rw [htracker, hlatest, hreceived, hnone, insert_empty_eq]
      exact tracks_first hreceived n
    | true =>
      rw [htracker, hlatest, hreceived]
      exact (h hreceived).mark (ht.close_latest hreceived hin hnear)
  intro hreceived
  cases har with
  | outside hout htracker hexpected hheld =>
    rw [htracker] at hreceived
    rw [htracker, ht.unmarked hseq hn htracker hreceived, hexpected, hheld]
    exact h hreceived
  | occupied hin b hb htracker hexpected hheld =>
    have hhas := has_of_occupied ht.reassembles hin hb (hown b hb hin)
    have hmark := hmarked hin htracker
    rw [Set.insert_eq_of_mem (show n ∈ {k | Has s.expected held k} from hhas)] at hmark
    rw [hexpected, hheld]
    exact hmark
  | stored hin hfree htracker hexpected hhas =>
    have hset : {k | Has (s.dataArrives codec n packet now).expected held' k} =
        insert n {k | Has s.expected held k} := by
      ext k
      exact (hhas k).trans or_comm
    rw [hset]
    exact hmarked hin htracker

theorem Recoverable.step (h : Recoverable codec s held) (hW : W.size ∣ 65536) {e : Event}
    (hg : Orderly s e) : ∃ held', Recoverable codec (s.step codec e) held' := by
  have hsound := h.sound.step e
  have hcomplete : ∀ held', (∀ k, Has s.expected held k → Has (s.step codec e).expected held' k) →
      Complete (s.step codec e) held' :=
    fun held' hhas => h.complete.step h.sound h.tracking hg hhas
  have hstored : ∀ n, Retained (s.step codec e) n → (s.step codec e).sent.length ≤ n + W.size :=
    fun n hn => retained_within h.confined.stored h.sound hW (supplied_of_orderly hg) hn
  have hstep := h.sound.stepped e
  generalize s.step codec e = s' at hsound hcomplete hstored hstep ⊢
  cases hstep with
  | sender _ _ hsame =>
    refine ⟨held, hsound, h.tracking.sender hsame, hcomplete held ?_, ⟨hstored, ?_, ?_⟩, ?_⟩
    · intro k hk
      rw [hsame.expected]
      exact hk
    · intro n hn
      rw [hsame.received] at hn
      exact (h.confined.received n hn).trans_le hsame.sent.length_le
    · rw [hsame.receiver, hsame.latest, hsame.received]
      exact h.confined.latest
    · unfold Exact
      rw [hsame.receiver, hsame.latest, hsame.expected]
      exact h.exact
  | arrival position now n d packet hget htype hseq hsent =>
    obtain ⟨hn, hnear, hown⟩ := unclashing_of_orderly hg (n, d) hget
    obtain ⟨held', ht', har⟩ := h.tracking.arrival hn hnear hown htype hseq hsent now
    refine ⟨held', hsound, ht', hcomplete held' ?_, ⟨hstored, ?_, ?_⟩, ?_⟩
    · intro k hk
      cases har with
      | outside _ _ hexpected hheld =>
        rw [hexpected, hheld]
        exact hk
      | occupied _ _ _ _ hexpected hheld =>
        rw [hexpected, hheld]
        exact hk
      | stored _ _ _ _ hhas => exact (hhas k).mpr (Or.inl hk)
    · intro m hm
      rcases List.mem_append.mp hm with hold | hnew
      · exact h.confined.received m hold
      · rw [List.mem_singleton.mp hnew]
        exact (List.getElem?_eq_some_iff.mp hsent).1
    · exact h.confined.latest_arrival hseq har
    · exact h.exact.arrival h.tracking hseq hn hnear hown har
  | asyncRecv buf handler =>
    exact ⟨held, hsound, h.tracking.asyncRecv buf handler, hcomplete held fun _ hk => hk,
      ⟨hstored, h.confined.received, h.confined.latest⟩, h.exact⟩

theorem recoverable_of_reachable {id : Byte} {retxTimeout retxTimeout' : ℕ} {cc cc' : C}
    (hW : W.size ∣ 65536) (h : Runs.Reachable (Pair.step codec) Orderly
      (Pair.start id retxTimeout retxTimeout' cc cc') s) : ∃ held, Recoverable codec s held := by
  refine h.invariant (P := fun s => ∃ held, Recoverable codec s held)
    ⟨_, recoverable_start codec id retxTimeout retxTimeout' cc cc'⟩ ?_
  rintro s e ⟨held, hs⟩ hg
  exact hs.step hW hg

lemma Recoverable.expected_arrives (h : Recoverable codec s held) (hW : W.size ∣ 65536)
    (hlt : s.expected < s.sent.length) {position : ℕ} {d : List Byte}
    (hget : s.data[position]? = some (s.expected, d)) (now : Time) :
    Orderly s (.dataArrives position now) ∧
      s.expected < (s.step codec (.dataArrives position now)).expected := by
  have hpos := W.pos
  have hstored := h.confined.stored _ (h.retained_expected hlt)
  have hstopped := h.tracking.reassembles.stopped
  have hempty : ∀ b, s.receiver.receiveBuffer.get (wire s.expected).toNat ≠ some b := by
    intro b hb
    obtain ⟨m, hm, _, hslot⟩ := h.tracking.reassembles.holds.only _ b hb
    have hin := h.tracking.reassembles.holds.window m _ hm
    have hme : m = s.expected := slot_injective hin ⟨le_rfl, by omega⟩ hslot (Or.inl hW)
    rw [hme, hstopped] at hm
    cases hm
  have hnear := h.near hstored le_rfl
  have hclose : Close s.expected s.expected := close_iff.mpr (by omega)
  refine ⟨?_, ?_⟩
  · constructor
    · intro p hp
      rw [hget, Option.mem_some_iff] at hp
      subst hp
      exact ⟨hclose, hnear, fun b hb => absurd hb (hempty b)⟩
    · intro p hp _
      rw [hget, Option.mem_some_iff] at hp
      subst hp
      exact h.expected_shiftDefined hnear
  · obtain ⟨packet, hdec, htype, hseq, hsent⟩ := h.sound.data _ (List.mem_of_getElem? hget)
    obtain ⟨held', hre, har⟩ :=
      h.tracking.reassembles.arrival codec hclose htype hseq hsent now
    have hstep : s.step codec (.dataArrives position now) =
        s.dataArrives codec s.expected packet now := by
      simp only [Pair.step, hget, hdec]
    rw [hstep]
    cases har with
    | outside hout => exact absurd ⟨le_rfl, by omega⟩ hout
    | occupied _ b hb => exact absurd hb (hempty b)
    | stored hin hfree htracker hexpected hhas =>
      refine lt_of_le_of_ne hexpected ?_
      intro he
      have hnow := (hhas s.expected).mpr (Or.inr rfl)
      unfold Has at hnow
      rw [← he, lt_self_iff_false, false_or] at hnow
      have hstopped' := hre.stopped
      rw [← he] at hstopped'
      rw [hstopped'] at hnow
      cases hnow

/-- The receiver catches up when the datagrams of all that is stored arrive in order. -/
theorem Recoverable.catches_up (hW : W.size ∣ 65536) (now : Time) {first : ℕ}
    (h : Recoverable codec s held)
    (hfresh : ∀ n, Retained s n → ∃ position, first ≤ position ∧
      ∃ d, s.data[position]? = some (n, d)) :
    ∃ positions : List ℕ, (∀ position ∈ positions, first ≤ position) ∧
      positions.length ≤ s.sent.length - s.expected ∧
      Runs.Admitted (Pair.step codec) Orderly s (positions.map (.dataArrives · now)) ∧
      ((positions.map (.dataArrives · now)).foldl (Pair.step codec) s).expected =
        s.sent.length := by
  generalize hrest : s.sent.length - s.expected = rest
  induction rest using Nat.strong_induction_on generalizing s held with
  | _ rest ih =>
    rcases h.tracking.reassembles.progress.eq_or_lt with heq | hlt
    · exact ⟨[], by simp, Nat.zero_le _, trivial, heq⟩
    · obtain ⟨position, hposition, d, hget⟩ := hfresh _ (h.retained_expected hlt)
      obtain ⟨horderly, hmoved⟩ := h.expected_arrives hW hlt hget now
      obtain ⟨held', hnext⟩ := h.step hW horderly
      have hidle : SenderIdle s (s.step codec (.dataArrives position now)) :=
        dataArrives_idle s position now
      have hsent := hidle.sent
      generalize hs' : s.step codec (.dataArrives position now) = s' at *
      have hprogress := hnext.tracking.reassembles.progress
      have hfresh' : ∀ n, Retained s' n → ∃ position, first ≤ position ∧
          ∃ d, s'.data[position]? = some (n, d) := by
        unfold Retained
        rw [hidle.sender, hidle.owner, hidle.data]
        exact hfresh
      obtain ⟨positions, hall, hlength, hadmitted, hexpected⟩ :=
        ih (s'.sent.length - s'.expected) (by rw [hsent] at hprogress ⊢; omega) hnext hfresh' rfl
      refine ⟨position :: positions, ?_, ?_, ?_, ?_⟩
      · exact List.forall_mem_cons.mpr ⟨hposition, hall⟩
      · rw [hsent] at hlength hprogress
        rw [List.length_cons]
        omega
      · exact ⟨horderly, by rw [hs']; exact hadmitted⟩
      · rw [List.map_cons, List.foldl_cons, hs', hexpected, hsent]

lemma Recoverable.acknowledged (h : Recoverable codec s held) (hsmall : W.size ≤ 32)
    (hall : s.expected = s.sent.length)
    (hreceived : s.receiver.recvAckTracker.hasReceived = true) {position : ℕ} {reply : Packet}
    (hget : s.acks[position]? = some (s.latest, codec.encodePacket reply))
    (htype : reply.type = .ack) (hack : reply.ack = s.receiver.recvAckTracker.latestSequence)
    (hbits : reply.ackBits = s.receiver.recvAckTracker.ackBits) (now : Time) :
    Orderly s (.ackArrives position now) ∧
      ∀ k, (s.step codec (.ackArrives position now)).sender.sentPackets.get k = none := by
  have hlow := h.tracking.expected_le
  have hhigh := h.confined.received _ (h.confined.latest hreceived)
  refine empties_store h.sound (h.exact hreceived) ?_ hget htype hack hbits now
  intro n hn
  have hlt := retained_lt h.sound hn
  have hstored := h.confined.stored n hn
  exact ⟨close_iff.mpr (by omega), Or.inl (by omega), by omega⟩

/-- Once everything was delivered, a repeated datagram makes the receiver acknowledge everything
that is stored. -/
theorem Recoverable.settles (h : Recoverable codec s held) (hW : W.size ∣ 65536)
    (hsmall : W.size ≤ 32) (hall : s.expected = s.sent.length) {n : ℕ} (hn : Retained s n)
    {position : ℕ} {d : List Byte} (hget : s.data[position]? = some (n, d)) (now : Time) :
    Runs.Admitted (Pair.step codec) Orderly s
        [.dataArrives position now, .ackArrives s.acks.length now] ∧
      let t := [Event.dataArrives position now, .ackArrives s.acks.length now].foldl
        (Pair.step codec) s
      t.sent = s.sent ∧ delivered t.receiverIo.log = s.sent ∧
        ∀ k, t.sender.sentPackets.get k = none := by
  have hlt := retained_lt h.sound hn
  have hstored := h.confined.stored n hn
  have hclose : Close n s.expected := close_iff.mpr (by omega)
  have horderly : Orderly s (.dataArrives position now) := by
    constructor
    · intro p hp
      rw [hget, Option.mem_some_iff] at hp
      subst hp
      exact ⟨hclose, h.near hstored (by omega), fun b _ hin => absurd hin.1 (by simp only; omega)⟩
    · intro p hp hin
      rw [hget, Option.mem_some_iff] at hp
      subst hp
      exact absurd (hin rfl).1 (by simp only; omega)
  obtain ⟨packet, hdec, htype, hseq, hsent⟩ := h.sound.data _ (List.mem_of_getElem? hget)
  have hstep : s.step codec (.dataArrives position now) = s.dataArrives codec n packet now := by
    simp only [Pair.step, hget, hdec]
  obtain ⟨_, _, har⟩ := h.tracking.reassembles.arrival codec hclose htype hseq hsent now
  have hexpected : (s.dataArrives codec n packet now).expected = s.expected := by
    cases har with
    | outside _ _ hexpected => exact hexpected
    | occupied hin => omega
    | stored hin => omega
  obtain ⟨held', hnext⟩ := h.step hW horderly
  rw [hstep] at hnext
  obtain ⟨hreceived, _⟩ := hnext.tracking.bounded n (Or.inl (by rw [hexpected]; omega))
  obtain ⟨reply, hack, hlatest, hbits, hacks⟩ := acks_dataArrives hreceived
  have hgetAck : (s.dataArrives codec n packet now).acks[s.acks.length]? =
      some ((s.dataArrives codec n packet now).latest, codec.encodePacket reply) := by
    rw [hacks, List.getElem?_concat_length]
  obtain ⟨hordered, hempty⟩ := hnext.acknowledged hsmall (hexpected.trans hall) hreceived hgetAck
    hack hlatest hbits now
  have hdelivered := hnext.tracking.reassembles.delivered
  have hsent1 : (s.dataArrives codec n packet now).sent = s.sent := rfl
  rw [hexpected, hall, hsent1, List.take_length] at hdelivered
  have hlast : ∀ s' : Pair C true W W, (s'.step codec (.ackArrives s.acks.length now)).sent =
      s'.sent ∧ (s'.step codec (.ackArrives s.acks.length now)).receiverIo = s'.receiverIo := by
    intro s'
    simp only [Pair.step]
    split
    · exact ⟨rfl, rfl⟩
    · split <;> exact ⟨rfl, rfl⟩
  simp only [Runs.Admitted, List.foldl_cons, List.foldl_nil, hstep, and_true]
  refine ⟨⟨horderly, hordered⟩, (hlast _).1, ?_, hempty⟩
  rw [(hlast _).2]
  exact hdelivered

/-- After a tick at which all deadlines have passed, at most a window of its datagrams have to
arrive. -/
lemma Recoverable.one_tick (h : Recoverable codec s held) (hW : W.size ∣ 65536) (now : Time)
    (hdue : ∀ k sp, s.sender.sentPackets.get k = some sp → sp.nextRetx ≤ now) :
    ∃ positions : List ℕ, (∀ position ∈ positions, s.data.length ≤ position) ∧
      positions.length ≤ W.size ∧
      Runs.Admitted (Pair.step codec) Orderly s
        (.onTick now :: positions.map (.dataArrives · now)) ∧
      ((Event.onTick now :: positions.map (.dataArrives · now)).foldl (Pair.step codec)
        s).expected = s.sent.length := by
  obtain ⟨held', htick⟩ := h.step hW (e := .onTick now) trivial
  obtain ⟨positions, hfresh, hlength, hadmitted, hexpected⟩ :=
    htick.catches_up hW now fun n hn => fresh_onTick now hdue hn
  refine ⟨positions, hfresh, hlength.trans ?_, ⟨trivial, hadmitted⟩, hexpected⟩
  rcases htick.tracking.reassembles.progress.eq_or_lt with heq | hlt
  · rw [heq, Nat.sub_self]
    exact Nat.zero_le _
  · have hstored := htick.confined.stored _ (htick.retained_expected hlt)
    omega

/-- In every orderly run of an ordered channel whose window divides the range of sequence numbers,
whatever was lost so far: one tick at which all deadlines have passed and the arrival of at most a
window of its datagrams deliver every payload that was sent. -/
theorem one_tick_recovers (codec : LawfulCodec) (id : Byte) (retxTimeout retxTimeout' : ℕ)
    (cc cc' : C) (s : Pair C true W W) (hW : W.size ∣ 65536)
    (h : Runs.Reachable (Pair.step codec) Orderly (Pair.start id retxTimeout retxTimeout' cc cc') s)
    (now : Time) (hdue : ∀ k sp, s.sender.sentPackets.get k = some sp → sp.nextRetx ≤ now) :
    ∃ positions : List ℕ, (∀ position ∈ positions, s.data.length ≤ position) ∧
      positions.length ≤ W.size ∧
      Runs.Admitted (Pair.step codec) Orderly s
        (.onTick now :: positions.map (.dataArrives · now)) ∧
      delivered ((Event.onTick now :: positions.map (.dataArrives · now)).foldl (Pair.step codec)
        s).receiverIo.log = s.sent := by
  obtain ⟨held, hs⟩ := recoverable_of_reachable hW h
  obtain ⟨positions, hfresh, hlength, hadmitted, hexpected⟩ := hs.one_tick hW now hdue
  obtain ⟨_, ht⟩ := recoverable_of_reachable hW (Runs.reachable_foldl h _ hadmitted)
  have hidle := arrivals_idle codec (s.step codec (.onTick now)) positions now
  refine ⟨positions, hfresh, hlength, hadmitted, ?_⟩
  rw [ht.tracking.reassembles.delivered, hexpected]
  exact (congrArg (List.take s.sent.length) hidle.sent).trans List.take_length

/-- With a window of at most 32 the sender needs nothing else to forget everything: some
acknowledgement of one of these datagrams empties its store. -/
theorem one_tick_settles (codec : LawfulCodec) (id : Byte) (retxTimeout retxTimeout' : ℕ)
    (cc cc' : C) (s : Pair C true W W) (hW : W.size ∣ 65536) (hsmall : W.size ≤ 32)
    (h : Runs.Reachable (Pair.step codec) Orderly (Pair.start id retxTimeout retxTimeout' cc cc') s)
    (now : Time) (hdue : ∀ k sp, s.sender.sentPackets.get k = some sp → sp.nextRetx ≤ now) :
    ∃ events : List Event, (∀ e ∈ events, e = .onTick now ∨
        (∃ position, s.data.length ≤ position ∧ e = .dataArrives position now) ∨
        ∃ position, s.acks.length ≤ position ∧ e = .ackArrives position now) ∧
      Runs.Admitted (Pair.step codec) Orderly s events ∧
      delivered (events.foldl (Pair.step codec) s).receiverIo.log = s.sent ∧
      ∀ k, (events.foldl (Pair.step codec) s).sender.sentPackets.get k = none := by
  obtain ⟨held, hs⟩ := recoverable_of_reachable hW h
  obtain ⟨positions, hfresh, _, hadmitted, hexpected⟩ := hs.one_tick hW now hdue
  have hreach := Runs.reachable_foldl h _ hadmitted
  have hidle := arrivals_idle codec (s.step codec (.onTick now)) positions now
  have hkinds : ∀ e ∈ Event.onTick now :: positions.map (.dataArrives · now), e = .onTick now ∨
      (∃ position, s.data.length ≤ position ∧ e = .dataArrives position now) ∨
        ∃ position, s.acks.length ≤ position ∧ e = .ackArrives position now := by
    intro e he
    rcases List.mem_cons.mp he with rfl | hmem
    · exact Or.inl rfl
    · obtain ⟨position, hposition, rfl⟩ := List.mem_map.mp hmem
      exact Or.inr (Or.inl ⟨position, hfresh position hposition, rfl⟩)
  obtain ⟨_, ht⟩ := recoverable_of_reachable hW hreach
  rw [List.foldl_cons] at ht hexpected
  have hall := hexpected.trans (congrArg List.length hidle.sent).symm
  by_cases hstore : ∃ n, Retained ((positions.map (.dataArrives · now)).foldl (Pair.step codec)
      (s.step codec (.onTick now))) n
  · obtain ⟨n, hn⟩ := hstore
    have htick : Retained (s.onTick now) n := by
      unfold Retained at hn
      rw [hidle.sender, hidle.owner] at hn
      exact hn
    obtain ⟨position, hposition, d, hget⟩ := fresh_onTick now hdue htick
    rw [← show _ = (s.onTick now).data from hidle.data] at hget
    obtain ⟨hlast, hsent, hdelivered, hempty⟩ := ht.settles hW hsmall hall hn hget now
    refine ⟨_, ?_, (Runs.admitted_append s _ _).mpr ⟨hadmitted, hlast⟩, ?_, ?_⟩
    · intro e he
      rcases List.mem_append.mp he with hold | hnew
      · exact hkinds e hold
      · rcases List.mem_pair.mp hnew with rfl | rfl
        · exact Or.inr (Or.inl ⟨position, hposition, rfl⟩)
        · exact Or.inr (Or.inr ⟨_, hidle.acks, rfl⟩)
    · rw [List.foldl_append]
      exact hdelivered.trans hidle.sent
    · rw [List.foldl_append]
      exact hempty
  · refine ⟨_, hkinds, hadmitted, ?_, ?_⟩
    · rw [List.foldl_cons, ht.tracking.reassembles.delivered, hall, List.take_length]
      exact hidle.sent
    · intro k
      by_contra hne
      obtain ⟨sp, hsp⟩ := Option.ne_none_iff_exists'.mp hne
      exact hstore ⟨_, k, sp, hsp, rfl⟩

end Controlled

lemma overtaking_reachable : Runs.Reachable (Pair.step DefaultCodec.defaultCodec) Orderly
    (Pair.start 0 200 200 ⟨⟩ ⟨⟩) overtakingState :=
  Runs.reachable_foldl .start overtakingRun (by decide +kernel)

lemma overtaking_due : ∀ k sp, overtakingState.sender.sentPackets.get k = some sp →
    sp.nextRetx ≤ milliseconds 1000 := by
  have hall : ∀ sp ∈ overtakingState.sender.sentPackets.entries,
      sp.nextRetx ≤ milliseconds 1000 := by
    decide +kernel
  exact fun k sp hsp => hall sp (SlotTable.mem_entries_of_get hsp)

/-- The first packet was lost and the second acknowledged. -/
theorem one_tick_recovers_overtaking :
    delivered overtakingState.receiverIo.log = [] ∧
      ∃ positions : List ℕ, (∀ position ∈ positions, overtakingState.data.length ≤ position) ∧
        positions.length ≤ (normalizeWindow 2).size ∧
        Runs.Admitted (Pair.step DefaultCodec.defaultCodec) Orderly overtakingState
          (.onTick (milliseconds 1000) ::
            positions.map (.dataArrives · (milliseconds 1000))) ∧
        delivered ((Event.onTick (milliseconds 1000) ::
          positions.map (.dataArrives · (milliseconds 1000))).foldl
            (Pair.step DefaultCodec.defaultCodec) overtakingState).receiverIo.log =
          overtakingState.sent := by
  refine ⟨by decide +kernel, ?_⟩
  exact one_tick_recovers DefaultCodec.defaultCodec 0 200 200 ⟨⟩ ⟨⟩ overtakingState (by decide)
    overtaking_reachable (milliseconds 1000) overtaking_due

theorem one_tick_settles_overtaking :
    overtakingState.sender.inFlightCount = 1 ∧
      ∃ events : List Event, (∀ e ∈ events, e = .onTick (milliseconds 1000) ∨
          (∃ position, overtakingState.data.length ≤ position ∧
            e = .dataArrives position (milliseconds 1000)) ∨
          ∃ position, overtakingState.acks.length ≤ position ∧
            e = .ackArrives position (milliseconds 1000)) ∧
        Runs.Admitted (Pair.step DefaultCodec.defaultCodec) Orderly overtakingState events ∧
        delivered (events.foldl (Pair.step DefaultCodec.defaultCodec)
          overtakingState).receiverIo.log = overtakingState.sent ∧
        ∀ k, (events.foldl (Pair.step DefaultCodec.defaultCodec)
          overtakingState).sender.sentPackets.get k = none := by
  refine ⟨by decide +kernel, ?_⟩
  exact one_tick_settles DefaultCodec.defaultCodec 0 200 200 ⟨⟩ ⟨⟩ overtakingState (by decide)
    (by decide) overtaking_reachable (milliseconds 1000) overtaking_due

end ReliableUdp.Recovery
