import ReliableUdp.SessionRefinement
import ReliableUdp.UnorderedRecovery

/-! What the application gave to a reliable channel of a session is handed over by the other
session, waits there for its turn or is still stored for the next retransmission. -/
namespace ReliableUdp.NothingLost
open Protocol ChannelCommon ReliableChannel OrderedReceiver ReliableSender ReliablePair Session
open SessionSteps SessionOutput Reception OrderedDelivery UnorderedDelivery AckTracking
open OrderedProgress UnorderedRecovery ChannelTwins SlotCalls SessionLane SessionRefinement
open Connection (Side Occurrence)

variable {O U : Type} {W : Window}

def StoredAt {C : Type} {ordered : Bool} (codec : LawfulCodec) (sent : List (List Byte))
    (c : Channel C ordered W) (n : ℕ) : Prop :=
  ∃ j sp, c.sentPackets.get j = some sp ∧ sp.sequenceNumber = wire n ∧
    Carries codec sent n sp.encodedPacket

lemma storedAt_of_retained {C : Type} {ordered : Bool} {codec : LawfulCodec}
    {p : Pair C ordered W W} (h : Sound codec p) {c : Channel C ordered W} (hc : Twins p.sender c)
    {n : ℕ} (hn : Retained p n) : StoredAt codec p.sent c n := by
  obtain ⟨j, sp, hsp, rfl⟩ := hn
  have hstored := h.stored j sp hsp
  exact ⟨j, sp, by rw [hc.sender.sentPackets]; exact hsp, hstored.seq, hstored.carries⟩

variable [CongestionCtrl O] [CongestionCtrl U]

/-- On an ordered channel a prefix of the payloads is handed over and each of the others is in the
receive buffer or stored. -/
theorem ordered_nothing_lost (codec : LawfulCodec) (config : Side → SessionConfig) (cc : Side → O)
    (cc' : Side → U) (d : Side) (id : Byte) (ch ch' : Channel O true W)
    (hch : (BasicSession.create (config d) (cc d) (cc' d)).channel? id = some (.ordered W ch))
    (hch' : (BasicSession.create (config d.other) (cc d.other) (cc' d.other)).channel? id =
      some (.ordered W ch')) (w : Lane O U O true W W)
    (h : Runs.Reachable (step codec d id.toNat) (Admits Orderly codec d id.toNat)
      (start config cc cc' ch ch') w) :
    ∃ c c', (w.session d).channel? id = some (.ordered W c) ∧
      (w.session d.other).channel? id = some (.ordered W c') ∧
      deliveredOn id.toNat (w.session d.other).io.log <+: (w.record d).sent id.toNat ∧
      ∀ n x, ((w.record d).sent id.toNat)[n]? = some x →
        n < (deliveredOn id.toNat (w.session d.other).io.log).length ∨
        c'.receiveBuffer.get (wire n).toNat = some ⟨wire n, x⟩ ∨
        StoredAt codec ((w.record d).sent id.toNat) c n := by
  obtain ⟨hk, _⟩ := channel?_some hch
  obtain ⟨hmirrors, hpair⟩ := pair_reachable (m := orderedMode) hch hch' h
  obtain ⟨hsound, held, ht, hcomplete⟩ := complete_of_reachable hpair
  obtain ⟨c, hc, htwins⟩ := hmirrors.sends.channel
  obtain ⟨c', hc', htrack⟩ := hmirrors.hears.channel
  have hdelivered : deliveredOn id.toNat (w.session d.other).io.log =
      w.pair.sent.take w.pair.expected := hmirrors.hears.delivered.trans ht.reassembles.delivered
  refine ⟨c, c', channel?_slot hk hc rfl, channel?_slot hk hc' rfl, ?_, ?_⟩
  · rw [hdelivered, hmirrors.sends.sent]
    exact List.take_prefix _ _
  · intro n x hx
    rw [hmirrors.sends.sent] at hx ⊢
    have hn := (List.getElem?_eq_some_iff.mp hx).1
    rcases hcomplete n hn with (hlt | hheld) | hretained
    · left
      rw [hdelivered, List.length_take]
      exact lt_min hlt hn
    · right
      left
      obtain ⟨y, hy⟩ := Option.isSome_iff_exists.mp hheld
      obtain rfl := Option.some.inj ((ht.reassembles.authentic n y hy).symm.trans hx)
      rw [htrack.receiveBuffer]
      exact ht.reassembles.holds.stored n y hy
    · exact Or.inr (Or.inr (storedAt_of_retained hsound htwins hretained))

/-- On an unordered channel each payload is handed over at most once and those that are not are
stored. -/
theorem unordered_nothing_lost (codec : LawfulCodec) (config : Side → SessionConfig) (cc : Side → O)
    (cc' : Side → U) (d : Side) (id : Byte) (ch ch' : Channel U false W) (hW : W.size ∣ 65536)
    (hch : (BasicSession.create (config d) (cc d) (cc' d)).channel? id = some (.unordered W ch))
    (hch' : (BasicSession.create (config d.other) (cc d.other) (cc' d.other)).channel? id =
      some (.unordered W ch')) (w : Lane O U U false W W)
    (h : Runs.Reachable (step codec d id.toNat) (Admits Regular codec d id.toNat)
      (start config cc cc' ch ch') w) :
    ∃ (c : Channel U false W) (handed : List ℕ),
      (w.session d).channel? id = some (.unordered W c) ∧ handed.Nodup ∧
      (deliveredOn id.toNat (w.session d.other).io.log).map some =
        handed.map (fun n => ((w.record d).sent id.toNat)[n]?) ∧
      ∀ n < ((w.record d).sent id.toNat).length,
        n ∈ handed ∨ StoredAt codec ((w.record d).sent id.toNat) c n := by
  obtain ⟨hk, _⟩ := channel?_some hch
  obtain ⟨hmirrors, hpair⟩ := pair_reachable (m := unorderedMode) hch hch' h
  have hrecoverable := recoverable_of_reachable hW hpair
  obtain ⟨c, hc, htwins⟩ := hmirrors.sends.channel
  refine ⟨c, w.pair.handed, channel?_slot hk hc rfl, hrecoverable.recording.collects.nodup, ?_, ?_⟩
  · rw [hmirrors.hears.delivered, hmirrors.sends.sent]
    exact hrecoverable.recording.collects.delivered
  · rw [hmirrors.sends.sent]
    intro n hn
    exact (hrecoverable.complete n hn).imp_right (storedAt_of_retained hrecoverable.sound htwins)

theorem ordered_nothing_lost_two_way :
    deliveredOn 0 (orderedState.session .right).io.log = [[6#8]] ∧
    ∃ c c', (orderedState.session .left).channel? 0 = some (.ordered (normalizeWindow 4) c) ∧
      (orderedState.session .right).channel? 0 = some (.ordered (normalizeWindow 4) c') ∧
      [[6#8]] <+: (orderedState.record .left).sent 0 ∧
      ∀ n x, ((orderedState.record .left).sent 0)[n]? = some x →
        n < 1 ∨ c'.receiveBuffer.get (wire n).toNat = some ⟨wire n, x⟩ ∨
        StoredAt DefaultCodec.defaultCodec ((orderedState.record .left).sent 0) c n := by
  have hdelivered : deliveredOn 0 (orderedState.session .right).io.log = [[6#8]] := by
    decide +kernel
  have h := ordered_nothing_lost DefaultCodec.defaultCodec (fun _ => twoChannels)
    uncontrolled uncontrolled .left 0 orderedEnd orderedEnd rfl rfl orderedState ordered_reachable
  refine ⟨hdelivered, ?_⟩
  rw [← hdelivered]
  exact h

def unorderedEnd : Channel Null false (normalizeWindow 4) :=
  .create unorderedOptions.reliableOptions ⟨⟩

def unorderedStart : Lane Null Null Null false (normalizeWindow 4) (normalizeWindow 4) :=
  start (fun _ => twoChannels) uncontrolled uncontrolled unorderedEnd unorderedEnd

def unorderedState : Lane Null Null Null false (normalizeWindow 4) (normalizeWindow 4) :=
  twoWayRun.foldl (SessionLane.step DefaultCodec.defaultCodec .left 1) unorderedStart

lemma unordered_reachable : Runs.Reachable (SessionLane.step DefaultCodec.defaultCodec .left 1)
    (Admits Regular DefaultCodec.defaultCodec .left 1) unorderedStart unorderedState :=
  Runs.reachable_foldl .start twoWayRun (by decide +kernel)

theorem unordered_nothing_lost_two_way :
    deliveredOn 1 (unorderedState.session .right).io.log = [[1#8]] ∧
    ∃ (c : Channel Null false (normalizeWindow 4)) (handed : List ℕ),
      (unorderedState.session .left).channel? 1 = some (.unordered (normalizeWindow 4) c) ∧
      handed.Nodup ∧
      [[1#8]].map some = handed.map (fun n => ((unorderedState.record .left).sent 1)[n]?) ∧
      ∀ n < ((unorderedState.record .left).sent 1).length, n ∈ handed ∨
        StoredAt DefaultCodec.defaultCodec ((unorderedState.record .left).sent 1) c n := by
  have hdelivered : deliveredOn 1 (unorderedState.session .right).io.log = [[1#8]] := by
    decide +kernel
  have h := unordered_nothing_lost DefaultCodec.defaultCodec (fun _ => twoChannels)
    uncontrolled uncontrolled .left 1 unorderedEnd unorderedEnd (by decide) rfl rfl unorderedState
    unordered_reachable
  refine ⟨hdelivered, ?_⟩
  rw [← hdelivered]
  exact h

lemma get_of_encoded {t : SlotTable SentPacket W.size}
    (h : t.entries.map SentPacket.encodedPacket = []) (j : ℕ) : t.get j = none := by
  cases hget : t.get j with
  | none => rfl
  | some sp =>
    have hmem := SlotTable.mem_entries_of_get hget
    rw [List.map_eq_nil_iff.mp h] at hmem
    cases hmem

lemma delivered_of_empty {C : Type} {p : Pair C true W W} {held : ℕ → Option (List Byte)}
    (h : Reassembles p held) (hcomplete : Complete p held)
    (hempty : ∀ j, p.sender.sentPackets.get j = none) : delivered p.receiverIo.log = p.sent := by
  have hexpected : p.sent.length ≤ p.expected := by
    by_contra hlt
    rcases hcomplete p.expected (not_le.mp hlt) with (hself | hheld) | ⟨j, sp, hsp, _⟩
    · exact absurd hself (lt_irrefl _)
    · rw [h.stopped] at hheld
      cases hheld
    · rw [hempty j] at hsp
      cases hsp
  rw [h.delivered, List.take_of_length_le hexpected]

/-- An ordered channel whose store is empty has handed over exactly what it accepted, in order. -/
theorem ordered_drained_delivers (codec : LawfulCodec) (config : Side → SessionConfig)
    (cc : Side → O) (cc' : Side → U) (d : Side) (id : Byte) (ch ch' : Channel O true W)
    (hch : (BasicSession.create (config d) (cc d) (cc' d)).channel? id = some (.ordered W ch))
    (hch' : (BasicSession.create (config d.other) (cc d.other) (cc' d.other)).channel? id =
      some (.ordered W ch')) (w : Lane O U O true W W)
    (h : Runs.Reachable (step codec d id.toNat) (Admits Orderly codec d id.toNat)
      (start config cc cc' ch ch') w)
    (hempty : ((w.session d).channel? id).map resent = some []) :
    deliveredOn id.toNat (w.session d.other).io.log = (w.record d).sent id.toNat := by
  obtain ⟨hk, _⟩ := channel?_some hch
  obtain ⟨hmirrors, hpair⟩ := pair_reachable (m := orderedMode) hch hch' h
  obtain ⟨_, held, ht, hcomplete⟩ := complete_of_reachable hpair
  obtain ⟨c, hc, htwins⟩ := hmirrors.sends.channel
  rw [channel?_slot hk hc rfl] at hempty
  have hstore := get_of_encoded (Option.some.inj hempty)
  rw [hmirrors.hears.delivered, hmirrors.sends.sent]
  refine delivered_of_empty ht.reassembles hcomplete ?_
  rw [← htwins.sender.sentPackets]
  exact hstore

/-- An unordered channel whose store is empty has handed over exactly what it accepted, in any
order. -/
theorem unordered_drained_delivers (codec : LawfulCodec) (config : Side → SessionConfig)
    (cc : Side → O) (cc' : Side → U) (d : Side) (id : Byte) (ch ch' : Channel U false W)
    (hW : W.size ∣ 65536)
    (hch : (BasicSession.create (config d) (cc d) (cc' d)).channel? id = some (.unordered W ch))
    (hch' : (BasicSession.create (config d.other) (cc d.other) (cc' d.other)).channel? id =
      some (.unordered W ch')) (w : Lane O U U false W W)
    (h : Runs.Reachable (step codec d id.toNat) (Admits Regular codec d id.toNat)
      (start config cc cc' ch ch') w)
    (hempty : ((w.session d).channel? id).map resent = some []) :
    (deliveredOn id.toNat (w.session d.other).io.log).Perm ((w.record d).sent id.toNat) := by
  obtain ⟨hk, _⟩ := channel?_some hch
  obtain ⟨hmirrors, hpair⟩ := pair_reachable (m := unorderedMode) hch hch' h
  have hrecoverable := recoverable_of_reachable hW hpair
  obtain ⟨c, hc, htwins⟩ := hmirrors.sends.channel
  rw [channel?_slot hk hc rfl] at hempty
  have hstore := get_of_encoded (Option.some.inj hempty)
  rw [hmirrors.hears.delivered, hmirrors.sends.sent]
  refine delivered_perm hrecoverable.recording.collects ?_
  intro n hn
  rcases hrecoverable.complete n hn with hhanded | ⟨j, sp, hsp, _⟩
  · exact hhanded
  · rw [← htwins.sender.sentPackets, hstore j] at hsp
    cases hsp

/-- The left side's second packet overtakes the first on either channel; both are acknowledged. -/
def drainedRun : List Occurrence :=
  [⟨.left, .start ⟨2, 7#16⟩ 0, 0⟩, ⟨.right, .start ⟨1, 7#16⟩ 0, 0⟩,
    ⟨.left, .asyncSend 0 [6#8] 0 1, 0⟩, ⟨.left, .asyncSend 1 [1#8] 1 1, 0⟩,
    ⟨.left, .asyncSend 0 [7#8] 2 1, 0⟩, ⟨.left, .asyncSend 1 [2#8] 3 1, 0⟩,
    ⟨.right, .onSocketRecv .none ⟨1, 7#16⟩ (Connection.message 0 1 [7#8]) 2, 1⟩,
    ⟨.right, .onSocketRecv .none ⟨1, 7#16⟩ (Connection.message 0 0 [6#8]) 2, 0⟩,
    ⟨.right, .onSocketRecv .none ⟨1, 7#16⟩ (Connection.message 1 1 [2#8]) 2, 1⟩,
    ⟨.right, .onSocketRecv .none ⟨1, 7#16⟩ (Connection.message 1 0 [1#8]) 2, 0⟩,
    ⟨.left, .onSocketRecv .none ⟨2, 7#16⟩ (DefaultCodec.defaultCodec.encodePacket
      { type := .ack, channel := 0, ack := 1, ackBits := 1 }) 3, 1⟩,
    ⟨.left, .onSocketRecv .none ⟨2, 7#16⟩ (DefaultCodec.defaultCodec.encodePacket
      { type := .ack, channel := 1, ack := 1, ackBits := 1 }) 3, 1⟩]

def orderedDrained : Lane Null Null Null true (normalizeWindow 4) (normalizeWindow 4) :=
  drainedRun.foldl (SessionLane.step DefaultCodec.defaultCodec .left 0) orderedStart

theorem ordered_drained_delivers_overtaken :
    deliveredOn 0 (orderedDrained.session .right).io.log = [[6#8], [7#8]] ∧
    deliveredOn 0 (orderedDrained.session .right).io.log = (orderedDrained.record .left).sent 0 := by
  have hreachable : Runs.Reachable (SessionLane.step DefaultCodec.defaultCodec .left 0)
      (Admits Orderly DefaultCodec.defaultCodec .left 0) orderedStart orderedDrained :=
    Runs.reachable_foldl .start drainedRun (by decide +kernel)
  exact ⟨by decide +kernel, ordered_drained_delivers DefaultCodec.defaultCodec (fun _ => twoChannels)
    uncontrolled uncontrolled .left 0 orderedEnd orderedEnd rfl rfl orderedDrained hreachable
    (by decide +kernel)⟩

def unorderedDrained : Lane Null Null Null false (normalizeWindow 4) (normalizeWindow 4) :=
  drainedRun.foldl (SessionLane.step DefaultCodec.defaultCodec .left 1) unorderedStart

theorem unordered_drained_delivers_overtaken :
    deliveredOn 1 (unorderedDrained.session .right).io.log = [[2#8], [1#8]] ∧
    (deliveredOn 1 (unorderedDrained.session .right).io.log).Perm
      ((unorderedDrained.record .left).sent 1) := by
  have hreachable : Runs.Reachable (SessionLane.step DefaultCodec.defaultCodec .left 1)
      (Admits Regular DefaultCodec.defaultCodec .left 1) unorderedStart unorderedDrained :=
    Runs.reachable_foldl .start drainedRun (by decide +kernel)
  exact ⟨by decide +kernel, unordered_drained_delivers DefaultCodec.defaultCodec
    (fun _ => twoChannels) uncontrolled uncontrolled .left 1 unorderedEnd unorderedEnd (by decide) rfl
    rfl unorderedDrained hreachable (by decide +kernel)⟩

end ReliableUdp.NothingLost
