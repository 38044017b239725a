import ReliableUdp.HandshakeNetwork
import ReliableUdp.NothingLost

/-! Recovery of two whole sessions: one retransmission tick and the arrival of its datagrams hand
over everything that was accepted. -/
namespace ReliableUdp.SessionRecovery
open Protocol ChannelCommon ReliableChannel OrderedReceiver ReliableSender ReliablePair Session
open SessionSteps SessionMoves SessionOutput Reception UnorderedDelivery OrderedProgress Recovery
open UnorderedRecovery ChannelTwins SlotCalls SlotOutput SessionLane SessionRefinement NothingLost
open Connection (Side Occurrence)
open HandshakeNetwork (recvBufferSize)

variable {O U C : Type} {ordered : Bool} {W : Window}

def Overdue (now : Time) : ChannelVar O U → Prop
  | .unreliable _ => True
  | .ordered _ ch => ∀ sp ∈ ch.sentPackets.entries, sp.nextRetx ≤ now
  | .unordered _ ch => ∀ sp ∈ ch.sentPackets.entries, sp.nextRetx ≤ now

instance (now : Time) (c : ChannelVar O U) : Decidable (Overdue now c) :=
  match c with
  | .unreliable _ => .isTrue trivial
  | .ordered _ ch => inferInstanceAs (Decidable (∀ sp ∈ ch.sentPackets.entries, _))
  | .unordered _ ch => inferInstanceAs (Decidable (∀ sp ∈ ch.sentPackets.entries, _))

variable [CongestionCtrl O] [CongestionCtrl U] [CongestionCtrl C]

section Listening
variable {codec : PacketCodec} {r : BasicSession O U} {remote : Endpoint}

structure Listening (remote : Endpoint) (r : BasicSession O U) : Prop where
  receiving : r.receiving = true
  closed : r.closed = false
  remote : r.io.remote = remote

lemma channelPacket_remote (s : BasicSession O U) (packet : Packet) (now : Time) :
    (s.channelPacket codec packet now).io.remote = s.io.remote := by
  unfold BasicSession.channelPacket
  cases s.channel? packet.channel with
  | none => rfl
  | some c =>
    have hcall : (c.onRecv packet now s.io).2.remote = s.io.remote :=
      (variant_onRecv c packet now s.io).addressed.remote
    dsimp only
    split_ifs
    · exact hcall
    · split
      · exact hcall
      · unfold BasicSession.sendPacket
        dsimp only
        split_ifs <;> exact hcall

lemma Listening.step (h : Listening remote r) {e : Session.Event} {packet : Packet} {now : Time}
    (harrives : arriving codec r e = some (packet, now)) : Listening remote (r.step codec e) := by
  rw [step_arriving harrives]
  exact ⟨rfl, (channelPacket_closed codec _ packet now).trans h.closed,
    (channelPacket_remote _ packet now).trans h.remote⟩

omit [CongestionCtrl O] [CongestionCtrl U] in
lemma Listening.arriving (h : Listening remote r) {bytes : List Byte} {packet : Packet}
    (hdec : codec.decode bytes = .ok packet) (htype : packet.type = .data) (now : Time) :
    arriving codec r (.onSocketRecv .none remote bytes now) = some (packet, now) := by
  have hfor : ForChannel packet := by
    unfold ForChannel
    rw [htype]
    decide
  have hready : r.receiving = true ∧ r.closed = false ∧ ErrorCode.none.failed = false ∧
      remote = r.io.remote := ⟨h.receiving, h.closed, rfl, h.remote.symm⟩
  simp only [SlotCalls.arriving, if_pos hready, hdec, if_pos hfor]

end Listening

section Arrivals
variable {m : Mode O U C ordered} {codec : LawfulCodec} {d : Side} {k : ℕ}
  {w : Lane O U C ordered W W} {remote : Endpoint} {size : ℕ}

/-- A datagram in flight arrives at the other side, in a receive buffer of the given size. -/
def arrival (d : Side) (remote : Endpoint) (size : ℕ) (now : Time) (q : ℕ × List Byte) :
    Occurrence :=
  ⟨d.other, .onSocketRecv .none remote (q.2.take size) now, q.1⟩

lemma laneEvent_arrival (hl : Listening remote (w.session d.other)) {q : ℕ × List Byte}
    (hslot : SlotPacket codec.toPacketCodec .data k q.2) (hlength : q.2.length ≤ size)
    (now : Time) :
    laneEvent codec d k w (arrival d remote size now q) =
        some (.dataArrives (w.pair.data.idxOf q) now) ∧
      Listening remote ((step codec d k w (arrival d remote size now q)).session d.other) := by
  have hwhole : arrival d remote size now q =
      ⟨d.other, .onSocketRecv .none remote q.2 now, q.1⟩ := by
    rw [arrival, List.take_of_length_le hlength]
  rw [hwhole]
  obtain ⟨packet, hdec, htype, hk⟩ := hslot
  have harrives := hl.arriving hdec htype now
  have hcall : slotCall codec.toPacketCodec k (w.session d.other)
      (.onSocketRecv .none remote q.2 now) = some (.onRecv packet now) := by
    simp only [slotCall, harrives, if_pos hk]
  refine ⟨?_, ?_⟩
  · rw [laneEvent, if_neg d.other_ne]
    change (slotCall codec.toPacketCodec k (w.session d.other)
      (.onSocketRecv .none remote q.2 now)).bind _ = _
    rw [hcall]
    simp only [Option.bind_some, receiverEvent, if_pos htype, datagram]
  · simp only [SessionLane.step, Function.update_self]
    exact hl.step harrives

lemma arrivals_lane {guard : Pair C ordered W W → ReliablePair.Event → Prop}
    (hm : Mirrors m codec d k w) (hk : k < kMaxChannels)
    (hl : Listening remote (w.session d.other)) (now : Time) (qs : List (ℕ × List Byte))
    (hqs : ∀ q ∈ qs, q ∈ w.pair.data ∧ SlotPacket codec.toPacketCodec .data k q.2 ∧
      q.2.length ≤ size)
    (hadmitted : Runs.Admitted (Pair.step codec) guard w.pair
      ((qs.map w.pair.data.idxOf).map (.dataArrives · now))) :
    Runs.Admitted (step codec d k) (Admits guard codec d k) w (qs.map (arrival d remote size now)) ∧
      Mirrors m codec d k ((qs.map (arrival d remote size now)).foldl (step codec d k) w) ∧
      ((qs.map (arrival d remote size now)).foldl (step codec d k) w).pair =
        ((qs.map w.pair.data.idxOf).map (.dataArrives · now)).foldl (Pair.step codec) w.pair := by
  induction qs generalizing w with
  | nil => exact ⟨trivial, hm, rfl⟩
  | cons q qs ih =>
    obtain ⟨hmem, hslot, hlength⟩ := hqs q List.mem_cons_self
    obtain ⟨hlane, hlisten⟩ := laneEvent_arrival hl hslot hlength now
    have hpresent : Present w.pair (.dataArrives (w.pair.data.idxOf q) now) :=
      List.idxOf_lt_length_iff.mpr hmem
    have hpair : (step codec d k w (arrival d remote size now q)).pair =
        w.pair.step codec (.dataArrives (w.pair.data.idxOf q) now) := by
      simp only [SessionLane.step, hlane, follow]
    have hdata : (step codec d k w (arrival d remote size now q)).pair.data = w.pair.data := by
      rw [hpair]
      exact (dataArrives_idle w.pair _ now).data
    have hm' : Mirrors m codec d k (step codec d k w (arrival d remote size now q)) := by
      refine hm.step hk ?_
      intro e he
      rw [hlane] at he
      exact Option.some.inj he ▸ hpresent
    have hrest := ih hm' hlisten (by
      rw [hdata]
      exact fun q' hq' => hqs q' (List.mem_cons_of_mem q hq')) (by
      rw [hdata, hpair]
      exact hadmitted.2)
    rw [hdata, hpair] at hrest
    refine ⟨⟨?_, hrest.1⟩, hrest.2⟩
    intro e he
    rw [hlane] at he
    obtain rfl := Option.some.inj he
    exact ⟨hpresent, hadmitted.1⟩

end Arrivals

section Tick
variable {m : Mode O U C ordered} {codec : LawfulCodec} {d : Side} {k : ℕ}
  {w : Lane O U C ordered W W}

def tick (d : Side) (now : Time) : Occurrence := ⟨d, .retransmitTimer .none now, 0⟩

omit [CongestionCtrl O] [CongestionCtrl U] [CongestionCtrl C] in
lemma laneEvent_tick (harmed : (w.session d).retransmitting = true)
    (hopen : (w.session d).closed = false) (now : Time) :
    laneEvent codec d k w (tick d now) = some (.onTick now) := by
  have hready : (w.session d).retransmitting = true ∧ ErrorCode.none.failed = false ∧
      (w.session d).closed = false := ⟨harmed, rfl, hopen⟩
  have hside : (tick d now).side = d := rfl
  rw [laneEvent, if_pos hside]
  change (slotCall codec.toPacketCodec k (w.session d) (.retransmitTimer .none now)).bind _ = _
  rw [slotCall, if_pos hready]
  rfl

def stored (w : Lane O U C ordered W W) : List (ℕ × List Byte) :=
  w.pair.indexed.map fun q => (q.1, q.2.encodedPacket)

omit [CongestionCtrl O] [CongestionCtrl U] in
lemma data_onTick {now : Time}
    (hdue : ∀ sp ∈ w.pair.sender.sentPackets.entries, sp.nextRetx ≤ now) :
    (w.pair.onTick now).data = w.pair.data ++ stored w := by
  have hall : w.pair.indexed.filter (fun q => decide (q.2.nextRetx ≤ now)) = w.pair.indexed := by
    refine List.filter_eq_self.mpr ?_
    intro q hq
    refine decide_eq_true (hdue q.2 ?_)
    rw [← indexed_packets]
    exact List.mem_map_of_mem hq
  simp only [Pair.onTick, hall, stored]

/-- The tick does to the pair what it does to the sessions and does not concern the other side. -/
lemma tick_lane {remote : Endpoint} (hm : Mirrors m codec d k w) (hk : k < kMaxChannels)
    (harmed : (w.session d).retransmitting = true) (hopen : (w.session d).closed = false)
    (hl : Listening remote (w.session d.other)) (now : Time) :
    (step codec d k w (tick d now)).pair = w.pair.onTick now ∧
      Mirrors m codec d k (step codec d k w (tick d now)) ∧
      Listening remote ((step codec d k w (tick d now)).session d.other) := by
  have hlane : laneEvent codec d k w (tick d now) = some (.onTick now) :=
    laneEvent_tick harmed hopen now
  refine ⟨?_, ?_, ?_⟩
  · simp only [SessionLane.step, hlane, follow, Pair.step]
  · refine hm.step hk ?_
    intro e he
    rw [hlane] at he
    obtain rfl := Option.some.inj he
    trivial
  · simp only [SessionLane.step, tick, Function.update_of_ne d.other_ne]
    exact hl

omit [CongestionCtrl O] [CongestionCtrl U] in
lemma stored_in_flight {now : Time}
    (hdue : ∀ sp ∈ w.pair.sender.sentPackets.entries, sp.nextRetx ≤ now) {q : ℕ × List Byte}
    (hq : q ∈ stored w) : ∃ position, w.pair.data.length ≤ position ∧
      (w.pair.onTick now).data[position]? = some q := by
  obtain ⟨i, hi⟩ := List.mem_iff_getElem?.mp hq
  refine ⟨w.pair.data.length + i, Nat.le_add_right _ _, ?_⟩
  rw [data_onTick hdue, List.getElem?_append_right (Nat.le_add_right _ _),
    Nat.add_sub_cancel_left, hi]

lemma encodes_of_stored (hm : Mirrors m codec d k w) (hk : k < kMaxChannels)
    (hresent : ∀ W ch, resent (m.wrap W ch) = ch.sentPackets.entries.map SentPacket.encodedPacket)
    {q : ℕ × List Byte} (hq : q ∈ stored w) :
    EncodesData codec.toPacketCodec k ((w.record d).sent k) q.2 := by
  obtain ⟨⟨n, sp⟩, hmem, rfl⟩ := List.mem_map.mp hq
  obtain ⟨ch, hch, htwins⟩ := hm.sends.channel
  have hentry : sp ∈ w.pair.sender.sentPackets.entries := by
    rw [← indexed_packets]
    exact List.mem_map_of_mem hmem
  have hstored : sp.encodedPacket ∈ resent (m.wrap W ch) := by
    rw [hresent, htwins.sender.sentPackets]
    exact List.mem_map_of_mem hentry
  exact ((hm.authored d).numbers k hk _ hch).stored _ hstored

omit [CongestionCtrl O] [CongestionCtrl U] [CongestionCtrl C] in
lemma slotPacket_of_encodes {sent : List (List Byte)} {bytes : List Byte}
    (h : EncodesData codec.toPacketCodec k sent bytes) :
    SlotPacket codec.toPacketCodec .data k bytes := by
  obtain ⟨packet, _, hd, htype, hslot, _, _⟩ := h
  obtain ⟨crc, hdec⟩ := codec.decode_encodePacket packet
  rw [hd]
  exact ⟨_, hdec, htype, hslot⟩

lemma sized_of_reachable {config : Side → SessionConfig} {cc : Side → O} {cc' : Side → U}
    {ch ch' : Channel C ordered W} {guard : Pair C ordered W W → ReliablePair.Event → Prop}
    (h : Runs.Reachable (step codec d k) (Admits guard codec d k) (start config cc cc' ch ch') w)
    (side : Side) :
    Sized codec.toPacketCodec (config side) (w.record side) (w.session side) := by
  refine h.invariant (P := fun w => ∀ side, Sized codec.toPacketCodec (config side) (w.record side)
    (w.session side)) (fun side => ⟨rfl, by simp [start]⟩) ?_ side
  intro w o hw _ side
  by_cases hside : side = o.side
  · subst hside
    simp only [SessionLane.step, Function.update_self]
    exact (hw o.side).step o.event
  · simp only [SessionLane.step, Function.update_of_ne hside]
    exact hw side

lemma stored_fits {config : Side → SessionConfig} (hm : Mirrors m codec d k w)
    (hk : k < kMaxChannels)
    (hresent : ∀ W ch, resent (m.wrap W ch) = ch.sentPackets.entries.map SentPacket.encodedPacket)
    (hsized : ∀ side, Sized codec.toPacketCodec (config side) (w.record side) (w.session side))
    (hfit : ∀ p, (codec.encodePacket p).length ≤ p.payload.length + codec.maxOverhead)
    (hbuffer : (config d).mtu ≤ max (config d.other).recvBufSize 2048) {q : ℕ × List Byte}
    (hq : q ∈ stored w) :
    SlotPacket codec.toPacketCodec .data k q.2 ∧
      q.2.length ≤ recvBufferSize (w.session d.other) := by
  have hencodes := encodes_of_stored hm hk hresent hq
  refine ⟨slotPacket_of_encodes hencodes, ?_⟩
  rw [recvBufferSize, (hsized d.other).configured]
  exact ((hsized d).datagram hfit hencodes).trans hbuffer

end Tick

omit [CongestionCtrl O] [CongestionCtrl U] in
/-- The arrival of all that is stored, in any order and with repetitions, hands over everything. -/
lemma stored_arrive {codec : LawfulCodec} {w : Lane O U C false W W}
    (h : UnorderedRecovery.Recoverable codec w.pair) (hW : W.size ∣ 65536) (hsmall : W.size ≤ 32)
    {now : Time} (hdue : ∀ sp ∈ w.pair.sender.sentPackets.entries, sp.nextRetx ≤ now)
    {qs : List (ℕ × List Byte)} (hqs : ∀ q, q ∈ qs ↔ q ∈ stored w)
    (hdefined : W.size = 32 → Runs.Admitted (Pair.step codec) ShiftDefined (w.pair.onTick now)
      ((qs.map (w.pair.onTick now).data.idxOf).map (.dataArrives · now))) :
    let arrivals : List ReliablePair.Event :=
      (qs.map (w.pair.onTick now).data.idxOf).map (.dataArrives · now)
    Runs.Admitted (Pair.step codec) Regular (w.pair.onTick now) arrivals ∧
      (delivered (arrivals.foldl (Pair.step codec) (w.pair.onTick now)).receiverIo.log).Perm
        w.pair.sent := by
  intro arrivals
  have hticked : UnorderedRecovery.Recoverable codec (w.pair.onTick now) :=
    h.step hW (e := .onTick now) ⟨trivial, trivial, trivial⟩
  have hin : ∀ q ∈ qs, (w.pair.onTick now).data[(w.pair.onTick now).data.idxOf q]? = some q ∧
      Retained (w.pair.onTick now) q.1 := by
    intro q hq
    obtain ⟨position, hposition, hget⟩ := stored_in_flight hdue ((hqs q).mp hq)
    exact ⟨getElem?_idxOf (List.mem_of_getElem? hget), retained_of_fresh now hposition hget⟩
  obtain ⟨hadmitted, hall⟩ := hticked.delivers_all hW hsmall now
    (qs.map (w.pair.onTick now).data.idxOf) (by
      intro position hposition
      obtain ⟨q, hq, rfl⟩ := List.mem_map.mp hposition
      exact ⟨q, hin q hq⟩) hdefined
  refine ⟨hadmitted, ?_⟩
  have hidle := arrivals_idle codec (w.pair.onTick now)
    (qs.map (w.pair.onTick now).data.idxOf) now
  have hperm := delivered_perm (hticked.run hW hadmitted).recording.collects (by
    intro n hn
    rw [hidle.sent] at hn
    rcases hticked.complete n hn with hhanded | hretained
    · exact handed_arrivals (w.pair.onTick now) _ now hhanded
    · obtain ⟨position, hfirst, bytes, hget⟩ := fresh_onTick now (by
        intro j sp hsp
        exact hdue sp (SlotTable.mem_entries_of_get hsp)) hretained
      rw [data_onTick hdue, List.getElem?_append_right hfirst] at hget
      have hq := (hqs _).mpr (List.mem_of_getElem? hget)
      exact hall _ (List.mem_map_of_mem hq) (n, bytes) (hin _ hq).1)
  rwa [hidle.sent] at hperm

/-- In every run of two sessions that is regular for an unordered channel with a window of at most
32 that divides the range of sequence numbers: when the retransmit timer of the sending side fires
after all deadlines and the datagrams of the stored packets arrive, in any order and with
repetitions, the other side has handed over exactly what was accepted. Datagrams of the configured
size fit into its receive buffer, and with a window of 32 none comes exactly 32 ahead of the latest
one. -/
theorem tick_delivers (codec : LawfulCodec)
    (hfit : ∀ p, (codec.encodePacket p).length ≤ p.payload.length + codec.maxOverhead)
    (config : Side → SessionConfig) (cc : Side → O) (cc' : Side → U) (d : Side)
    (hbuffer : (config d).mtu ≤ max (config d.other).recvBufSize 2048) (id : Byte)
    (ch ch' : Channel U false W) (hW : W.size ∣ 65536) (hsmall : W.size ≤ 32)
    (hch : (BasicSession.create (config d) (cc d) (cc' d)).channel? id = some (.unordered W ch))
    (hch' : (BasicSession.create (config d.other) (cc d.other) (cc' d.other)).channel? id =
      some (.unordered W ch')) (w : Lane O U U false W W)
    (h : Runs.Reachable (step codec d id.toNat) (Admits Regular codec d id.toNat)
      (start config cc cc' ch ch') w)
    (harmed : (w.session d).retransmitting = true) (hopen : (w.session d).closed = false)
    (remote : Endpoint) (hl : Listening remote (w.session d.other)) (now : Time)
    (hdue : ∀ c ∈ (w.session d).channel? id, Overdue now c)
    (qs : List (ℕ × List Byte)) (hqs : ∀ q, q ∈ qs ↔ q ∈ stored w)
    (hdefined : W.size = 32 → Runs.Admitted (Pair.step codec) ShiftDefined (w.pair.onTick now)
      ((qs.map (w.pair.onTick now).data.idxOf).map (.dataArrives · now))) :
    let events := tick d now :: qs.map (arrival d remote (recvBufferSize (w.session d.other)) now)
    Runs.Admitted (step codec d id.toNat) (Admits Regular codec d id.toNat) w events ∧
      (deliveredOn id.toNat ((events.foldl (step codec d id.toNat) w).session
        d.other).io.log).Perm ((w.record d).sent id.toNat) := by
  intro events
  obtain ⟨hk, _⟩ := channel?_some hch
  obtain ⟨hm, hpair⟩ := pair_reachable (m := unorderedMode) hch hch' h
  obtain ⟨c, hc, htwins⟩ := hm.sends.channel
  have hpassed : ∀ sp ∈ w.pair.sender.sentPackets.entries, sp.nextRetx ≤ now := by
    rw [← htwins.sender.sentPackets]
    exact hdue _ (channel?_slot hk hc rfl)
  obtain ⟨hw, hm', hl'⟩ := tick_lane hm hk harmed hopen hl now
  obtain ⟨hadmitted, hperm⟩ :=
    stored_arrive (recoverable_of_reachable hW hpair) hW hsmall hpassed hqs hdefined
  obtain ⟨hrun, hmirrors, hsame⟩ := arrivals_lane hm' hk hl' now qs (by
    intro q hq
    obtain ⟨position, _, hget⟩ := stored_in_flight hpassed ((hqs q).mp hq)
    rw [hw]
    exact ⟨List.mem_of_getElem? hget, stored_fits hm hk (fun _ _ => rfl) (sized_of_reachable h)
      hfit hbuffer ((hqs q).mp hq)⟩) (by
    rw [hw]
    exact hadmitted)
  rw [hw] at hsame
  refine ⟨⟨?_, hrun⟩, ?_⟩
  · intro e he
    rw [laneEvent_tick harmed hopen now] at he
    obtain rfl := Option.some.inj he
    exact ⟨trivial, trivial, trivial, trivial⟩
  · rw [List.foldl_cons, hmirrors.hears.delivered, hsame, hm.sends.sent]
    exact hperm

theorem tick_delivers_two_way :
    deliveredOn 1 (unorderedState.session .right).io.log = [[1#8]] ∧
    let events := tick .left 1000000000 :: (stored unorderedState).reverse.map
      (arrival .left ⟨1, 7#16⟩ (recvBufferSize (unorderedState.session .right)) 1000000000)
    Runs.Admitted (step DefaultCodec.defaultCodec .left 1)
      (Admits Regular DefaultCodec.defaultCodec .left 1) unorderedState events ∧
    (deliveredOn 1 ((events.foldl (step DefaultCodec.defaultCodec .left 1)
      unorderedState).session .right).io.log).Perm ((unorderedState.record .left).sent 1) := by
  refine ⟨by decide +kernel, ?_⟩
  refine tick_delivers DefaultCodec.defaultCodec defaultCodec_fits (fun _ => twoChannels)
    uncontrolled uncontrolled .left (by decide) 1 unorderedEnd unorderedEnd (by decide) (by decide)
    rfl rfl unorderedState unordered_reachable (by decide +kernel) (by decide +kernel) ⟨1, 7#16⟩
    ⟨by decide +kernel, by decide +kernel, by decide +kernel⟩ 1000000000 (by decide +kernel) _
    (fun q => List.mem_reverse) (fun heq => absurd heq (by decide))

omit [CongestionCtrl O] [CongestionCtrl U] in
lemma arrivals_idxOf {codec : LawfulCodec} {guard : Pair C ordered W W → ReliablePair.Event → Prop}
    (hguard : ∀ (s : Pair C ordered W W) i j now, s.data[i]? = s.data[j]? →
      guard s (.dataArrives i now) → guard s (.dataArrives j now))
    (p : Pair C ordered W W) (positions : List ℕ) (now : Time)
    (h : Runs.Admitted (Pair.step codec) guard p (positions.map (.dataArrives · now))) :
    Runs.Admitted (Pair.step codec) guard p
        (((positions.filterMap fun i => p.data[i]?).map p.data.idxOf).map (.dataArrives · now)) ∧
      (((positions.filterMap fun i => p.data[i]?).map p.data.idxOf).map
        (.dataArrives · now)).foldl (Pair.step codec) p =
        (positions.map (.dataArrives · now)).foldl (Pair.step codec) p := by
  induction positions generalizing p with
  | nil => exact ⟨trivial, rfl⟩
  | cons position positions ih =>
    have hdata : (p.step codec (.dataArrives position now)).data = p.data :=
      (dataArrives_idle p position now).data
    have hrest := ih (p.step codec (.dataArrives position now)) h.2
    rw [hdata] at hrest
    cases hget : p.data[position]? with
    | none =>
      have hstep : p.step codec (.dataArrives position now) = p := by
        simp only [Pair.step, hget]
      rw [hstep] at hrest
      rw [List.filterMap_cons_none hget]
      refine ⟨hrest.1, ?_⟩
      rw [hrest.2, List.map_cons, List.foldl_cons, hstep]
    | some q =>
      have hidx : p.data[p.data.idxOf q]? = some q := getElem?_idxOf (List.mem_of_getElem? hget)
      have hstep : p.step codec (.dataArrives (p.data.idxOf q) now) =
          p.step codec (.dataArrives position now) := by
        simp only [Pair.step, hidx, hget]
      rw [List.filterMap_cons_some hget, List.map_cons, List.map_cons]
      refine ⟨⟨hguard p _ _ now (hget.trans hidx.symm) h.1, ?_⟩, ?_⟩
      · rw [hstep]
        exact hrest.1
      · rw [List.foldl_cons, hstep, hrest.2, List.map_cons, List.foldl_cons]

omit [CongestionCtrl U] in
/-- Some of what is stored, in some order, makes an ordered receiver hand over everything. -/
lemma stored_suffice {codec : LawfulCodec} {id : Byte} {retxTimeout retxTimeout' : ℕ} {cc cc' : O}
    {w : Lane O U O true W W} (hW : W.size ∣ 65536)
    (h : Runs.Reachable (Pair.step codec) Orderly
      (Pair.start id retxTimeout retxTimeout' cc cc') w.pair) {now : Time}
    (hdue : ∀ sp ∈ w.pair.sender.sentPackets.entries, sp.nextRetx ≤ now) :
    ∃ qs : List (ℕ × List Byte), (∀ q ∈ qs, q ∈ stored w) ∧
      Runs.Admitted (Pair.step codec) Orderly (w.pair.onTick now)
        ((qs.map (w.pair.onTick now).data.idxOf).map (.dataArrives · now)) ∧
      delivered (((qs.map (w.pair.onTick now).data.idxOf).map (.dataArrives · now)).foldl
        (Pair.step codec) (w.pair.onTick now)).receiverIo.log = w.pair.sent := by
  obtain ⟨held, hrec⟩ := Recovery.recoverable_of_reachable hW h
  obtain ⟨held', hticked⟩ := hrec.step hW (e := .onTick now) trivial
  change Recovery.Recoverable codec (w.pair.onTick now) held' at hticked
  obtain ⟨positions, hfirst, _, hadmitted, hexpected⟩ := hticked.catches_up hW now
    (fun n hn => fresh_onTick now (fun j sp hsp => hdue sp (SlotTable.mem_entries_of_get hsp)) hn)
  have hguard : ∀ (s : Pair O true W W) i j now, s.data[i]? = s.data[j]? →
      Orderly s (.dataArrives i now) → Orderly s (.dataArrives j now) := by
    intro s i j now' hsame hi
    refine ⟨fun q hq => ?_, fun q hq => ?_⟩
    · rw [← hsame] at hq
      exact hi.1 q hq
    · rw [← hsame] at hq
      exact hi.2 q hq
  obtain ⟨hindexed, hrun⟩ := arrivals_idxOf hguard (w.pair.onTick now) positions now hadmitted
  refine ⟨_, ?_, hindexed, ?_⟩
  · intro q hq
    obtain ⟨position, hposition, hget⟩ := List.mem_filterMap.mp hq
    rw [data_onTick hdue, List.getElem?_append_right (hfirst position hposition)] at hget
    exact List.mem_of_getElem? hget
  · have hreached : Runs.Reachable (Pair.step codec) Orderly
        (Pair.start id retxTimeout retxTimeout' cc cc')
        ((positions.map (.dataArrives · now)).foldl (Pair.step codec) (w.pair.onTick now)) :=
      Runs.reachable_foldl (.step h (.onTick now) trivial) _ hadmitted
    obtain ⟨_, held'', ht, _⟩ := complete_of_reachable hreached
    have hidle := arrivals_idle codec (w.pair.onTick now) positions now
    rw [hrun, ht.reassembles.delivered, hexpected, hidle.sent]
    exact List.take_length

/-- In every run of two sessions that is orderly for an ordered channel whose window divides the
range of sequence numbers: when the retransmit timer of the sending side fires after all deadlines,
the arrival of some of the stored packets' datagrams hands over exactly what was accepted. Datagrams
of the configured size fit into the receive buffer of the other side. -/
theorem tick_recovers (codec : LawfulCodec)
    (hfit : ∀ p, (codec.encodePacket p).length ≤ p.payload.length + codec.maxOverhead)
    (config : Side → SessionConfig) (cc : Side → O) (cc' : Side → U) (d : Side)
    (hbuffer : (config d).mtu ≤ max (config d.other).recvBufSize 2048) (id : Byte)
    (ch ch' : Channel O true W) (hW : W.size ∣ 65536)
    (hch : (BasicSession.create (config d) (cc d) (cc' d)).channel? id = some (.ordered W ch))
    (hch' : (BasicSession.create (config d.other) (cc d.other) (cc' d.other)).channel? id =
      some (.ordered W ch')) (w : Lane O U O true W W)
    (h : Runs.Reachable (step codec d id.toNat) (Admits Orderly codec d id.toNat)
      (start config cc cc' ch ch') w)
    (harmed : (w.session d).retransmitting = true) (hopen : (w.session d).closed = false)
    (remote : Endpoint) (hl : Listening remote (w.session d.other)) (now : Time)
    (hdue : ∀ c ∈ (w.session d).channel? id, Overdue now c) :
    ∃ qs : List (ℕ × List Byte), (∀ q ∈ qs, q ∈ stored w) ∧
      let events := tick d now ::
        qs.map (arrival d remote (recvBufferSize (w.session d.other)) now)
      Runs.Admitted (step codec d id.toNat) (Admits Orderly codec d id.toNat) w events ∧
      deliveredOn id.toNat ((events.foldl (step codec d id.toNat) w).session d.other).io.log =
        (w.record d).sent id.toNat := by
  obtain ⟨hk, _⟩ := channel?_some hch
  obtain ⟨hm, hpair⟩ := pair_reachable (m := orderedMode) hch hch' h
  obtain ⟨c, hc, htwins⟩ := hm.sends.channel
  have hpassed : ∀ sp ∈ w.pair.sender.sentPackets.entries, sp.nextRetx ≤ now := by
    rw [← htwins.sender.sentPackets]
    exact hdue _ (channel?_slot hk hc rfl)
  obtain ⟨hw, hm', hl'⟩ := tick_lane hm hk harmed hopen hl now
  obtain ⟨qs, hqs, hadmitted, hdelivered⟩ := stored_suffice hW hpair hpassed
  obtain ⟨hrun, hmirrors, hsame⟩ := arrivals_lane hm' hk hl' now qs (by
    intro q hq
    obtain ⟨position, _, hget⟩ := stored_in_flight hpassed (hqs q hq)
    rw [hw]
    exact ⟨List.mem_of_getElem? hget, stored_fits hm hk (fun _ _ => rfl) (sized_of_reachable h)
      hfit hbuffer (hqs q hq)⟩) (by
    rw [hw]
    exact hadmitted)
  rw [hw] at hsame
  refine ⟨qs, hqs, ⟨?_, hrun⟩, ?_⟩
  · intro e he
    rw [laneEvent_tick harmed hopen now] at he
    obtain rfl := Option.some.inj he
    exact ⟨trivial, trivial⟩
  · rw [List.foldl_cons, hmirrors.hears.delivered, hsame, hm.sends.sent]
    exact hdelivered

theorem tick_recovers_two_way :
    deliveredOn 0 (orderedState.session .right).io.log = [[6#8]] ∧
    (orderedState.record .left).sent 0 = [[6#8], [7#8], [8#8]] ∧
    ∃ qs : List (ℕ × List Byte), (∀ q ∈ qs, q ∈ stored orderedState) ∧
      let events := tick .left 1000000000 :: qs.map
        (arrival .left ⟨1, 7#16⟩ (recvBufferSize (orderedState.session .right)) 1000000000)
      Runs.Admitted (step DefaultCodec.defaultCodec .left 0)
        (Admits Orderly DefaultCodec.defaultCodec .left 0) orderedState events ∧
      deliveredOn 0 ((events.foldl (step DefaultCodec.defaultCodec .left 0)
        orderedState).session .right).io.log = (orderedState.record .left).sent 0 := by
  refine ⟨by decide +kernel, by decide +kernel, ?_⟩
  exact tick_recovers DefaultCodec.defaultCodec defaultCodec_fits (fun _ => twoChannels)
    uncontrolled uncontrolled .left (by decide) 0 orderedEnd orderedEnd (by decide) rfl rfl
    orderedState ordered_reachable (by decide +kernel) (by decide +kernel) ⟨1, 7#16⟩
    ⟨by decide +kernel, by decide +kernel, by decide +kernel⟩ 1000000000 (by decide +kernel)

end ReliableUdp.SessionRecovery
