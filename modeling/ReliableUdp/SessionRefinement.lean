import ReliableUdp.SlotOutput
import ReliableUdp.SessionLane
import ReliableUdp.OrderedProgress

/-! Two whole sessions refine the sender and receiver of one channel: whatever happens to them is a
run of the pair of one direction of one slot, and what they send on the slot is what the pair
sends. -/
namespace ReliableUdp.SessionRefinement
open Protocol ChannelCommon ReliableChannel OrderedReceiver ReliableSender ReliablePair Session
open SessionSteps SessionMoves SessionOutput ChannelTwins SlotCalls SlotOutput SessionLane
open Connection (Side Occurrence)

variable {O U C : Type} {ordered : Bool} {Ws Wr : Window}
variable [CongestionCtrl O] [CongestionCtrl U] [CongestionCtrl C]

section Sending
variable {m : Mode O U C ordered} {k : ℕ} {codec : LawfulCodec} {g : Record} {s : BasicSession O U}
  {p : Pair C ordered Ws Wr}

/-- Every Data packet of the slot that the session sent is one the pair sent. -/
def Spoken (codec : LawfulCodec) (k : ℕ) (s : BasicSession O U) (p : Pair C ordered Ws Wr) : Prop :=
  ∀ bytes ∈ transmitted s.io.log, SlotPacket codec.toPacketCodec .data k bytes →
    bytes ∈ transmitted p.senderIo.log

/-- Every acknowledgement of the slot that the session sent is one the pair sent. -/
def Answered (codec : LawfulCodec) (k : ℕ) (s : BasicSession O U) (p : Pair C ordered Ws Wr) :
    Prop :=
  ∀ bytes ∈ transmitted s.io.log, SlotPacket codec.toPacketCodec .ack k bytes →
    ∃ n, (n, bytes) ∈ p.acks

omit [CongestionCtrl O] [CongestionCtrl U] in
lemma transmitted_step (codec : LawfulCodec) (p : Pair C ordered Ws Wr) (e : ReliablePair.Event) :
    transmitted p.senderIo.log <+: transmitted (p.step codec e).senderIo.log := by
  have harrives : ∀ packet now, transmitted p.senderIo.log <+:
      transmitted (p.packetArrives packet now).senderIo.log := by
    intro packet now
    simp only [Pair.packetArrives, onRecv_transmitted]
    exact List.prefix_refl _
  cases e with
  | asyncSend payload handler now =>
    obtain ⟨_, datagrams, completions, hgains, _⟩ := asyncSend_twins (Twins.refl p.sender)
      codec.toPacketCodec payload handler now p.senderIo p.senderIo
    simp only [Pair.step, Pair.asyncSend, hgains.transmitted]
    exact List.prefix_append _ _
  | sendCompleted position ec now =>
    simp only [Pair.step, Pair.sendCompleted]
    split
    · rw [sendCompleted_transmitted]
    · exact List.prefix_refl _
  | onTick now =>
    simp only [Pair.step, Pair.onTick, onTick_transmitted]
    exact List.prefix_append _ _
  | flush =>
    simp only [Pair.step, Pair.flush, flush_transmitted]
    exact List.prefix_append _ _
  | ackArrives position now =>
    simp only [Pair.step]
    split
    · exact List.prefix_refl _
    · split
      · exact List.prefix_refl _
      · exact harrives _ now
  | packetArrives packet now => exact harrives packet now
  | dataArrives position now =>
    simp only [Pair.step]
    split
    · exact List.prefix_refl _
    · split <;> exact List.prefix_refl _
  | asyncRecv buf handler => exact List.prefix_refl _

theorem Spoken.step (h : Spoken codec k s p) (hs : Sends m k g s p)
    (hauthored : Authored codec.toPacketCodec g s) (hk : k < kMaxChannels) {o : Occurrence}
    {e : Option ReliablePair.Event}
    (he : (slotCall codec.toPacketCodec k s o.event).bind (senderEvent p o) = e) :
    Spoken codec k (s.step codec.toPacketCodec o.event) (follow codec p e) := by
  obtain ⟨side, event, n⟩ := o
  dsimp only at he ⊢
  obtain ⟨ch, hch, htwins⟩ := hs.channel
  have hkept : ∀ bytes ∈ transmitted p.senderIo.log,
      bytes ∈ transmitted (follow codec p e).senderIo.log := by
    intro bytes hbytes
    cases e with
    | none => exact hbytes
    | some e => exact (transmitted_step codec p e).subset hbytes
  intro bytes hbytes hslot
  by_cases hsend : ∃ payload handler now,
      slotCall codec.toPacketCodec k s event = some (.asyncSend payload handler now)
  · obtain ⟨payload, handler, now, hcall⟩ := hsend
    have hcalls := calls_of_slotCall hcall
    rw [hcall] at he
    cases hcalls with
    | asyncSend id _ _ _ hopen hid hfits =>
      obtain ⟨_, datagrams, completions, hgains, hgains'⟩ := asyncSend_twins htwins
        codec.toPacketCodec payload handler now p.senderIo s.io
      rw [step_asyncSend hk hch hopen hid hfits] at hbytes
      simp only [put, hgains'.transmitted, List.mem_append] at hbytes
      rcases hbytes with hold | hnew
      · exact hkept bytes (h bytes hold hslot)
      · subst he
        change bytes ∈ transmitted (p.asyncSend codec payload handler now).senderIo.log
        simp only [Pair.asyncSend, hgains.transmitted, List.mem_append]
        exact Or.inr hnew
  · push Not at hsend
    rcases step_data hauthored hch hsend bytes hbytes hslot with hold | hrepeated
    · exact hkept bytes (h bytes hold hslot)
    · subst he
      cases hcall : slotCall codec.toPacketCodec k s event with
      | none =>
        rw [hcall] at hrepeated
        cases hrepeated
      | some call =>
        rw [hcall] at hrepeated
        cases call with
        | onTick now =>
          change bytes ∈ transmitted (p.onTick now).senderIo.log
          simp only [repeats, dueAt, htwins.sender.sentPackets] at hrepeated
          simp only [Pair.onTick, onTick_transmitted, List.mem_append]
          exact Or.inr hrepeated
        | flush =>
          change bytes ∈ transmitted p.flush.senderIo.log
          simp only [repeats, htwins.sender.sentPackets] at hrepeated
          simp only [Pair.flush, flush_transmitted, List.mem_append]
          exact Or.inr hrepeated
        | _ => cases hrepeated

theorem Answered.step (h : Answered codec k s p) (hs : Hears m k s p)
    (hauthored : Authored codec.toPacketCodec g s) (hk : k < kMaxChannels) {o : Occurrence}
    {e : Option ReliablePair.Event}
    (he : (slotCall codec.toPacketCodec k s o.event).bind (receiverEvent p o) = e)
    (hpresent : ∀ e' ∈ e, Present p e') :
    Answered codec k (s.step codec.toPacketCodec o.event) (follow codec p e) := by
  obtain ⟨side, event, n⟩ := o
  dsimp only at he ⊢
  obtain ⟨ch, hch, htrack⟩ := hs.channel
  intro bytes hbytes hslot
  by_cases hdata : ∃ packet now,
      slotCall codec.toPacketCodec k s event = some (.onRecv packet now) ∧ packet.type = .data
  · obtain ⟨packet, now, hcall, htype⟩ := hdata
    have hcalls := calls_of_slotCall hcall
    rw [hcall] at he
    cases hcalls with
    | onRecv _ _ _ harrives hpacket =>
      simp only [Option.bind_some, receiverEvent, if_pos htype] at he
      subst he
      have hlt : p.data.idxOf (n, datagram event) < p.data.length := hpresent _ rfl
      have hget := getElem?_idxOf (List.idxOf_lt_length_iff.mp hlt)
      simp only [follow, Pair.step, hget, arriving_decode harrives]
      obtain ⟨_, _, replies, hlog, hreplies⟩ := step_onRecv hk hch harrives hpacket
      rw [hlog, transmitted_append, onRecv_transmitted, List.mem_append] at hbytes
      simp only [Pair.dataArrives]
      rcases hbytes with hold | hreply
      · obtain ⟨i, hi⟩ := h bytes hold hslot
        refine ⟨i, ?_⟩
        split_ifs
        all_goals first | exact hi | exact List.mem_append_left _ hi
      · obtain ⟨effect, heffect, hsome⟩ := List.mem_filterMap.mp hreply
        obtain ⟨ack, dst, hack, rfl⟩ := hreplies effect heffect
        obtain rfl := Option.some.inj hsome
        have hne : packet.type ≠ .ack := by rw [htype]; decide
        have hsame := (onRecv_tracking htrack hne now p.receiverIo s.io).tracking.buildAck
        rw [hack] at hsame
        rw [← hsame]
        simp only [Option.map_some, Option.getD_some, if_neg (codec.encodePacket_ne_nil ack)]
        exact ⟨_, List.mem_append_right _ (List.mem_singleton_self _)⟩
  · push Not at hdata
    have hnone : e = none := by
      rw [← he, Option.bind_eq_none_iff]
      intro call hcall
      cases call with
      | onRecv packet now => simp only [receiverEvent, if_neg (hdata packet now hcall)]
      | _ => rfl
    rw [hnone]
    have hold := (step_acks hauthored hdata bytes hbytes hslot).resolve_right
      List.not_mem_nil
    exact h bytes hold hslot

end Sending

section Refinement
variable {m : Mode O U C ordered} {codec : LawfulCodec} {d : Side} {k : ℕ}

/-- The sessions account for what they sent, and the pair has the sending half of slot `k` of side
`d` and the receiving half of slot `k` of the other side, with everything they sent. -/
structure Mirrors (m : Mode O U C ordered) (codec : LawfulCodec) (d : Side) (k : ℕ)
    (w : Lane O U C ordered Ws Wr) : Prop where
  authored : ∀ side, Authored codec.toPacketCodec (w.record side) (w.session side)
  sends : Sends m k (w.record d) (w.session d) w.pair
  hears : Hears m k (w.session d.other) w.pair
  spoken : Spoken codec k (w.session d) w.pair
  answered : Answered codec k (w.session d.other) w.pair

lemma Mirrors.ids {w : Lane O U C ordered Ws Wr} (h : Mirrors m codec d k w) (side : Side) :
    ∀ j < kMaxChannels, ∀ c, (w.session side).channels.get j = some c → (channelId c).toNat = j :=
  fun j hj c hc => ((h.authored side).numbers j hj c hc).id

theorem Mirrors.step {w : Lane O U C ordered Ws Wr} (h : Mirrors m codec d k w)
    (hk : k < kMaxChannels) {o : Occurrence}
    (hpresent : ∀ e ∈ laneEvent codec d k w o, Present w.pair e) :
    Mirrors m codec d k (step codec d k w o) := by
  have hauthored := (h.authored o.side).step o.event
  have hauthors : ∀ side, Authored codec.toPacketCodec
      ((SessionLane.step codec d k w o).record side)
      ((SessionLane.step codec d k w o).session side) := by
    intro side
    by_cases hside : side = o.side
    · subst hside
      simp only [SessionLane.step, Function.update_self]
      exact hauthored
    · simp only [SessionLane.step, Function.update_of_ne hside]
      exact h.authored side
  by_cases hside : o.side = d
  · subst hside
    have hlane : laneEvent codec o.side k w o =
        (slotCall codec.toPacketCodec k (w.session o.side) o.event).bind
          (senderEvent w.pair o) := by
      rw [laneEvent, if_pos rfl]
    have hframe : (follow codec w.pair (laneEvent codec o.side k w o)).receiver = w.pair.receiver ∧
        (follow codec w.pair (laneEvent codec o.side k w o)).receiverIo = w.pair.receiverIo ∧
        (follow codec w.pair (laneEvent codec o.side k w o)).acks = w.pair.acks := by
      cases he : laneEvent codec o.side k w o with
      | none => exact ⟨rfl, rfl, rfl⟩
      | some e =>
        rw [hlane] at he
        obtain ⟨call, _, hevent⟩ := Option.bind_eq_some_iff.mp he
        exact senderEvent_frame hevent
    refine ⟨hauthors, ?_, ?_, ?_, ?_⟩
    · simp only [SessionLane.step, Function.update_self]
      exact h.sends.step hk (h.ids o.side) hlane.symm hpresent
    · simp only [SessionLane.step, Function.update_of_ne o.side.other_ne]
      exact h.hears.of_frame hframe
    · simp only [SessionLane.step, Function.update_self]
      exact h.spoken.step h.sends (h.authored o.side) hk hlane.symm
    · simp only [SessionLane.step, Function.update_of_ne o.side.other_ne]
      intro bytes hbytes hslot
      rw [hframe.2.2]
      exact h.answered bytes hbytes hslot
  · have hother := Side.eq_other (Ne.symm hside)
    have hlane : laneEvent codec d k w o =
        (slotCall codec.toPacketCodec k (w.session o.side) o.event).bind
          (receiverEvent w.pair o) := by
      rw [laneEvent, if_neg hside]
    have hframe : (follow codec w.pair (laneEvent codec d k w o)).sender = w.pair.sender ∧
        (follow codec w.pair (laneEvent codec d k w o)).senderIo = w.pair.senderIo ∧
        (follow codec w.pair (laneEvent codec d k w o)).sent = w.pair.sent := by
      cases he : laneEvent codec d k w o with
      | none => exact ⟨rfl, rfl, rfl⟩
      | some e =>
        rw [hlane] at he
        obtain ⟨call, _, hevent⟩ := Option.bind_eq_some_iff.mp he
        exact receiverEvent_frame hevent
    have hhears : Hears m k (w.session o.side) w.pair := hother ▸ h.hears
    have hanswered : Answered codec k (w.session o.side) w.pair := hother ▸ h.answered
    refine ⟨hauthors, ?_, ?_, ?_, ?_⟩
    · simp only [SessionLane.step, Function.update_of_ne (Ne.symm hside)]
      exact h.sends.of_frame hframe
    · simp only [SessionLane.step, ← hother, Function.update_self]
      exact hhears.step hk (h.ids o.side) hlane.symm hpresent
    · simp only [SessionLane.step, Function.update_of_ne (Ne.symm hside)]
      intro bytes hbytes hslot
      rw [hframe.2.1]
      exact h.spoken bytes hbytes hslot
    · simp only [SessionLane.step, ← hother, Function.update_self]
      exact hanswered.step hhears (h.authored o.side) hk hlane.symm hpresent

/-- Two sessions as created, and the pair of two channels of theirs. -/
def start (config : Side → SessionConfig) (cc : Side → O) (cc' : Side → U)
    (ch : Channel C ordered Ws) (ch' : Channel C ordered Wr) : Lane O U C ordered Ws Wr :=
  { session := fun side => BasicSession.create (config side) (cc side) (cc' side)
    pair := Pair.start ch.id ch.retxTimeout ch'.retxTimeout ch.cc ch'.cc }

variable {config : Side → SessionConfig} {cc : Side → O} {cc' : Side → U}
  {ch : Channel C ordered Ws} {ch' : Channel C ordered Wr}

lemma mirrors_start (hk : k < kMaxChannels)
    (hch : (BasicSession.create (config d) (cc d) (cc' d)).channels.get k = some (m.wrap Ws ch))
    (hch' : (BasicSession.create (config d.other) (cc d.other) (cc' d.other)).channels.get k =
      some (m.wrap Wr ch')) : Mirrors m codec d k (start config cc cc' ch ch') := by
  have hauthored : ∀ side, Authored codec.toPacketCodec {}
      (BasicSession.create (config side) (cc side) (cc' side)) :=
    fun side => authored_create (config side) (cc side) (cc' side)
  have hid : ch.id.toNat = k := by
    have h := ((hauthored d).numbers k hk _ hch).id
    rwa [m.id] at h
  have hid' : ch'.id.toNat = k := by
    have h := ((hauthored d.other).numbers k hk _ hch').id
    rwa [m.id] at h
  have hfresh : Fresh ch := m.created _ _ _ k Ws ch hch
  have hfresh' : Fresh ch' := m.created _ _ _ k Wr ch' hch'
  refine ⟨hauthored, ⟨⟨ch, hch, ?_⟩, samePending_of_eq rfl, rfl⟩, ⟨⟨ch', hch', ?_⟩, rfl⟩,
    fun bytes hbytes => absurd hbytes List.not_mem_nil,
    fun bytes hbytes => absurd hbytes List.not_mem_nil⟩
  · have hsame : (start config cc cc' ch ch').pair.sender = ch := hfresh.symm
    rw [hsame]
    exact Twins.refl ch
  · unfold Fresh at hfresh'
    refine ⟨BitVec.eq_of_toNat_eq (hid'.trans hid.symm), ?_, ?_, ?_⟩
    all_goals
      rw [hfresh']
      rfl

/-- Whatever happens to the two sessions is a run of the pair on one direction of one channel. -/
theorem pair_reachable {guard : Pair C ordered Ws Wr → ReliablePair.Event → Prop} {id : Byte}
    (hch : (BasicSession.create (config d) (cc d) (cc' d)).channel? id = some (m.wrap Ws ch))
    (hch' : (BasicSession.create (config d.other) (cc d.other) (cc' d.other)).channel? id =
      some (m.wrap Wr ch')) {w : Lane O U C ordered Ws Wr}
    (h : Runs.Reachable (SessionLane.step codec d id.toNat) (Admits guard codec d id.toNat)
      (start config cc cc' ch ch') w) :
    Mirrors m codec d id.toNat w ∧ Runs.Reachable (Pair.step codec) guard
      (Pair.start ch.id ch.retxTimeout ch'.retxTimeout ch.cc ch'.cc) w.pair := by
  obtain ⟨hk, hget⟩ := channel?_some hch
  obtain ⟨_, hget'⟩ := channel?_some hch'
  refine h.invariant (P := fun w => Mirrors m codec d id.toNat w ∧
    Runs.Reachable (Pair.step codec) guard
      (Pair.start ch.id ch.retxTimeout ch'.retxTimeout ch.cc ch'.cc) w.pair)
    ⟨mirrors_start hk hget hget', .start⟩ ?_
  intro w o hw ho
  refine ⟨hw.1.step hk fun e he => (ho e he).1, ?_⟩
  cases hlane : laneEvent codec d id.toNat w o with
  | none =>
    simp only [SessionLane.step, hlane, follow]
    exact hw.2
  | some e =>
    simp only [SessionLane.step, hlane, follow]
    exact .step hw.2 e (ho e hlane).2

/-- What the pair has in common with the two sessions: the channels of the slot, what was accepted
and handed over, and the datagrams of the slot, which are all in flight. -/
structure Follows (m : Mode O U C ordered) (codec : LawfulCodec) (d : Side) (id : Byte)
    (w : Lane O U C ordered Ws Wr) : Prop where
  sender : ∃ c, (w.session d).channel? id = some (m.wrap Ws c) ∧ Twins w.pair.sender c
  receiver : ∃ c, (w.session d.other).channel? id = some (m.wrap Wr c) ∧
    SameTracking w.pair.receiver c
  sent : (w.record d).sent id.toNat = w.pair.sent
  delivered : Reception.deliveredOn id.toNat (w.session d.other).io.log =
    Protocol.delivered w.pair.receiverIo.log
  data : ∀ bytes ∈ transmitted (w.session d).io.log,
    SlotPacket codec.toPacketCodec .data id.toNat bytes → ∃ n, (n, bytes) ∈ w.pair.data
  acks : ∀ bytes ∈ transmitted (w.session d.other).io.log,
    SlotPacket codec.toPacketCodec .ack id.toNat bytes → ∃ n, (n, bytes) ∈ w.pair.acks

/-- Two sessions refine the pair of any reliable channel in any direction: next to every run of the
sessions goes a run of the pair under the same guard. -/
theorem sessions_refine_pair (codec : LawfulCodec) (m : Mode O U C ordered)
    (guard : Pair C ordered Ws Wr → ReliablePair.Event → Prop) (config : Side → SessionConfig)
    (cc : Side → O) (cc' : Side → U) (d : Side) (id : Byte) (ch : Channel C ordered Ws)
    (ch' : Channel C ordered Wr)
    (hch : (BasicSession.create (config d) (cc d) (cc' d)).channel? id = some (m.wrap Ws ch))
    (hch' : (BasicSession.create (config d.other) (cc d.other) (cc' d.other)).channel? id =
      some (m.wrap Wr ch')) (w : Lane O U C ordered Ws Wr)
    (h : Runs.Reachable (SessionLane.step codec d id.toNat) (Admits guard codec d id.toNat)
      (start config cc cc' ch ch') w) :
    Follows m codec d id w ∧ Runs.Reachable (Pair.step codec) guard
      (Pair.start ch.id ch.retxTimeout ch'.retxTimeout ch.cc ch'.cc) w.pair := by
  obtain ⟨hk, _⟩ := channel?_some hch
  obtain ⟨hmirrors, hpair⟩ := pair_reachable hch hch' h
  obtain ⟨c, hc, htwins⟩ := hmirrors.sends.channel
  obtain ⟨c', hc', htrack⟩ := hmirrors.hears.channel
  refine ⟨⟨⟨c, channel?_slot hk hc rfl, htwins⟩, ⟨c', channel?_slot hk hc' rfl, htrack⟩,
    hmirrors.sends.sent, hmirrors.hears.delivered, ?_, hmirrors.answered⟩, hpair⟩
  intro bytes hbytes hslot
  have hspoken := hmirrors.spoken bytes hbytes hslot
  rw [← (sound_of_reachable hpair).socket] at hspoken
  obtain ⟨⟨n, _⟩, hmem, rfl⟩ := List.mem_map.mp hspoken
  exact ⟨n, hmem⟩

end Refinement

def orderedOptions : ChannelConfig := { sendWindow := 4 }

def unorderedOptions : ChannelConfig := { id := 1, mode := .reliableUnordered, sendWindow := 4 }

def twoChannels : SessionConfig := { channels := [orderedOptions, unorderedOptions] }

def uncontrolled (_ : Side) : Null := ⟨⟩

def orderedEnd : Channel Null true (normalizeWindow 4) := .create orderedOptions.reliableOptions ⟨⟩

def orderedStart : Lane Null Null Null true (normalizeWindow 4) (normalizeWindow 4) :=
  start (fun _ => twoChannels) uncontrolled uncontrolled orderedEnd orderedEnd

/-- The left side sends on both channels and the right side on the ordered one. Of the left side's
packets the second gets lost on either channel; the third is acknowledged on the ordered one. -/
def twoWayRun : List Occurrence :=
  [⟨.left, .start ⟨2, 7#16⟩ 0, 0⟩, ⟨.right, .start ⟨1, 7#16⟩ 0, 0⟩,
    ⟨.left, .asyncSend 0 [6#8] 0 1, 0⟩, ⟨.left, .asyncSend 1 [1#8] 1 1, 0⟩,
    ⟨.left, .asyncSend 0 [7#8] 2 1, 0⟩, ⟨.left, .asyncSend 1 [2#8] 3 1, 0⟩,
    ⟨.left, .asyncSend 0 [8#8] 4 1, 0⟩, ⟨.right, .asyncSend 0 [5#8] 0 1, 0⟩,
    ⟨.right, .onSocketRecv .none ⟨1, 7#16⟩ (Connection.message 0 0 [6#8]) 2, 0⟩,
    ⟨.right, .onSocketRecv .none ⟨1, 7#16⟩ (Connection.message 1 0 [1#8]) 2, 0⟩,
    ⟨.right, .onSocketRecv .none ⟨1, 7#16⟩ (Connection.message 0 2 [8#8]) 2, 2⟩,
    ⟨.left, .onSocketRecv .none ⟨2, 7#16⟩ (DefaultCodec.defaultCodec.encodePacket
      { type := .ack, channel := 0, ack := 2, ackBits := 2 }) 3, 2⟩,
    ⟨.left, .onSocketRecv .none ⟨2, 7#16⟩ (Connection.message 0 0 [5#8]) 3, 0⟩,
    ⟨.left, .sendCompleted 0 .none 4, 0⟩]

def orderedState : Lane Null Null Null true (normalizeWindow 4) (normalizeWindow 4) :=
  twoWayRun.foldl (SessionLane.step DefaultCodec.defaultCodec .left 0) orderedStart

lemma ordered_reachable : Runs.Reachable (SessionLane.step DefaultCodec.defaultCodec .left 0)
    (Admits OrderedProgress.Orderly DefaultCodec.defaultCodec .left 0) orderedStart orderedState :=
  Runs.reachable_foldl .start twoWayRun (by decide +kernel)

theorem sessions_refine_pair_two_way :
    orderedState.pair.sent = [[6#8], [7#8], [8#8]] ∧ orderedState.pair.acks.length = 2 ∧
    Follows orderedMode DefaultCodec.defaultCodec .left 0 orderedState ∧
    Runs.Reachable (Pair.step DefaultCodec.defaultCodec) OrderedProgress.Orderly
      (Pair.start 0 200 200 ⟨⟩ ⟨⟩) orderedState.pair :=
  ⟨by decide +kernel, by decide +kernel,
    sessions_refine_pair DefaultCodec.defaultCodec orderedMode OrderedProgress.Orderly
      (fun _ => twoChannels) uncontrolled uncontrolled .left 0 orderedEnd orderedEnd rfl rfl
      orderedState ordered_reachable⟩

end ReliableUdp.SessionRefinement
