import ReliableUdp.SlotCalls
import ReliableUdp.ReliablePair

/-! Next to two whole sessions runs a `Pair` for one direction of one slot. Its channels stay those
of the sessions, whatever else goes on in the sessions, on the other slots and in the other
direction. -/
namespace ReliableUdp.SessionLane
open Protocol ChannelCommon ReliableChannel OrderedReceiver ReliableSender ReliablePair Session
open SessionSteps SessionMoves SessionOutput Reception ChannelTwins SlotCalls
open Connection (Side Occurrence)

variable {O U C : Type} {ordered : Bool} {Ws Wr : Window}

/-- Two sessions with their records and the pair that follows one direction of one slot. -/
structure Lane (O U C : Type) (ordered : Bool) (Ws Wr : Window) where
  session : Side → BasicSession O U
  record : Side → Record := fun _ => {}
  pair : Pair C ordered Ws Wr

/-- The event of the pair behind an event of the side that sends: `position` selects the completion
or the datagram of the index that the occurrence names. -/
def senderEvent (p : Pair C ordered Ws Wr) (o : Occurrence) : Call → Option ReliablePair.Event
  | .asyncSend payload handler now => some (.asyncSend payload handler now)
  | .sendCompleted sequenceNumber handler ec now =>
    some (.sendCompleted (p.senderIo.pending.idxOf (.data p.sender.id sequenceNumber handler)) ec
      now)
  | .onTick now => some (.onTick now)
  | .flush => some .flush
  | .onRecv packet now =>
    if packet.type = .ack then some (.ackArrives (p.acks.idxOf (o.index, datagram o.event)) now)
    else some (.packetArrives packet now)
  | .asyncRecv .. | .close _ => none

/-- The same for the side that receives, of which only arriving Data packets matter. -/
def receiverEvent (p : Pair C ordered Ws Wr) (o : Occurrence) : Call → Option ReliablePair.Event
  | .onRecv packet now =>
    if packet.type = .data then some (.dataArrives (p.data.idxOf (o.index, datagram o.event)) now)
    else none
  | _ => none

section Steps
variable [CongestionCtrl O] [CongestionCtrl U] [CongestionCtrl C]

/-- What an occurrence is for the pair that follows slot `k` from side `d` to the other side. -/
def laneEvent (codec : LawfulCodec) (d : Side) (k : ℕ) (w : Lane O U C ordered Ws Wr)
    (o : Occurrence) : Option ReliablePair.Event :=
  (slotCall codec.toPacketCodec k (w.session o.side) o.event).bind
    (if o.side = d then senderEvent w.pair o else receiverEvent w.pair o)

def follow (codec : LawfulCodec) (p : Pair C ordered Ws Wr) :
    Option ReliablePair.Event → Pair C ordered Ws Wr
  | none => p
  | some e => p.step codec e

def step (codec : LawfulCodec) (d : Side) (k : ℕ) (w : Lane O U C ordered Ws Wr) (o : Occurrence) :
    Lane O U C ordered Ws Wr :=
  let s := w.session o.side
  let s' := s.step codec.toPacketCodec o.event
  { session := Function.update w.session o.side s'
    record := Function.update w.record o.side ((w.record o.side).after s s' o.event)
    pair := follow codec w.pair (laneEvent codec d k w o) }

/-- The datagram of an arrival is in flight under the index named for it. -/
def Present (p : Pair C ordered Ws Wr) : ReliablePair.Event → Prop
  | .ackArrives position _ => position < p.acks.length
  | .dataArrives position _ => position < p.data.length
  | _ => True

instance (p : Pair C ordered Ws Wr) (e : ReliablePair.Event) : Decidable (Present p e) :=
  match e with
  | .ackArrives .. => inferInstanceAs (Decidable (_ < _))
  | .dataArrives .. => inferInstanceAs (Decidable (_ < _))
  | .asyncSend .. | .sendCompleted .. | .onTick .. | .flush | .packetArrives .. | .asyncRecv .. =>
    .isTrue trivial

/-- Data packets and acknowledgements of the lane that arrive were sent, and the pair admits the
event. Nothing is asked of anything else that arrives or happens. -/
def Admits (guard : Pair C ordered Ws Wr → ReliablePair.Event → Prop) (codec : LawfulCodec)
    (d : Side) (k : ℕ) (w : Lane O U C ordered Ws Wr) (o : Occurrence) : Prop :=
  ∀ e ∈ laneEvent codec d k w o, Present w.pair e ∧ guard w.pair e

instance (guard : Pair C ordered Ws Wr → ReliablePair.Event → Prop) [∀ p e, Decidable (guard p e)]
    (codec : LawfulCodec) (d : Side) (k : ℕ) (w : Lane O U C ordered Ws Wr) (o : Occurrence) :
    Decidable (Admits guard codec d k w o) :=
  inferInstanceAs (Decidable (∀ e ∈ laneEvent codec d k w o, _))

structure Sends (m : Mode O U C ordered) (k : ℕ) (g : Record) (s : BasicSession O U)
    (p : Pair C ordered Ws Wr) : Prop where
  channel : ∃ ch, s.channels.get k = some (m.wrap Ws ch) ∧ Twins p.sender ch
  pending : SamePending k p.senderIo s.io
  sent : g.sent k = p.sent

structure Hears (m : Mode O U C ordered) (k : ℕ) (s : BasicSession O U)
    (p : Pair C ordered Ws Wr) : Prop where
  channel : ∃ ch, s.channels.get k = some (m.wrap Wr ch) ∧ SameTracking p.receiver ch
  delivered : deliveredOn k s.io.log = delivered p.receiverIo.log

section Receiving
variable {m : Mode O U C ordered} {k : ℕ} {codec : LawfulCodec} {s : BasicSession O U}
  {p : Pair C ordered Ws Wr}

lemma reliableCall_tracking (codec : PacketCodec) (ch : Channel C ordered Wr) (io : Transport)
    {call : Call} (h : ∀ packet now, call = .onRecv packet now → packet.type ≠ .data) :
    SameTracking ch (reliableCall codec ch io call).1 := by
  cases call with
  | asyncSend payload handler now =>
    exact sameTracking_of_receiver (asyncSend_receiver ch _ payload handler now io)
  | sendCompleted sequenceNumber handler ec now =>
    exact sameTracking_of_receiver (sendCompleted_frame ch sequenceNumber handler ec now io).1
  | asyncRecv buf handler => exact ⟨rfl, rfl, rfl, rfl⟩
  | onTick now => exact sameTracking_of_receiver (onTick_frame ch now io).1
  | onRecv packet now =>
    exact sameTracking_of_receiver (onRecv_idle ch (h packet now rfl) now io).1
  | flush => exact SameTracking.refl ch
  | close reason => exact ⟨rfl, rfl, rfl, rfl⟩

/-- An event that brings no Data packet to the slot leaves the receiving half alone. -/
theorem Hears.idle (hs : Hears m k s p) (hk : k < kMaxChannels)
    (hids : ∀ j < kMaxChannels, ∀ c, s.channels.get j = some c → (channelId c).toNat = j)
    {e : Session.Event} (h : ∀ packet now,
      slotCall codec.toPacketCodec k s e = some (.onRecv packet now) → packet.type ≠ .data) :
    Hears m k (s.step codec.toPacketCodec e) p := by
  by_cases hdeaf : s.receiving = false ∧
      ∃ ec sender bytes now, e = .onSocketRecv ec sender bytes now
  · obtain ⟨hr, ec, sender, bytes, now, rfl⟩ := hdeaf
    have hsame : s.step codec.toPacketCodec (.onSocketRecv ec sender bytes now) = s := by
      simp [BasicSession.step, BasicSession.onSocketRecv, hr]
    rw [hsame]
    exact hs
  refine (step_keeps codec.toPacketCodec (P := fun t =>
    (∀ j < kMaxChannels, ∀ c, t.channels.get j = some c → (channelId c).toNat = j) ∧ Hears m k t p)
    ?_ ⟨hids, hs⟩).2
  rintro t t' ⟨htids, ht⟩ hmove
  obtain ⟨ch, hch, htrack⟩ := ht.channel
  cases hmove with
  | call j hj c hc call cause =>
    refine ⟨forall_put hj ?_ fun i hi _ => htids i hi, ?_⟩
    · rw [Connection.call_channelId]
      exact htids j hj c hc
    have hquiet : j = k → ∀ packet now, call = .onRecv packet now → packet.type ≠ .data := by
      rintro hjk packet now rfl
      cases cause with
      | onRecv ec bytes _ _ hopen hec hdec hfor _ _ =>
        have hr : s.receiving = true := by
          by_contra hr
          exact hdeaf ⟨by simpa using hr, _, _, _, _, rfl⟩
        refine h packet now ?_
        simp only [slotCall, arriving, hr, hopen, hec, true_and, if_true, hdec, if_pos hfor, hjk]
    by_cases hjk : j = k
    · subst hjk
      obtain rfl := Option.some.inj (hc.symm.trans hch)
      have hidle := call_idle codec.toPacketCodec (m.wrap Wr ch) t.io (hquiet rfl)
      refine ⟨⟨_, ?_,
        htrack.trans (reliableCall_tracking codec.toPacketCodec ch t.io
        (hquiet rfl))⟩, ?_⟩
      · rw [get_put_same, m.run]
      · exact (hidle.delivered j).trans ht.delivered
    · refine ⟨⟨ch, by rw [get_put_other hj hk hjk]; exact hch, htrack⟩, ?_⟩
      by_cases hdata : ∃ packet now, call = .onRecv packet now ∧ packet.type = .data
      · obtain ⟨packet, now, rfl, _⟩ := hdata
        exact (onRecv_other (htids j hj c hc) (Ne.symm hjk) packet now t.io).trans ht.delivered
      · push Not at hdata
        exact ((call_idle codec.toPacketCodec c t.io hdata).delivered k).trans ht.delivered
  | send packet completion hown hne =>
    have hlog : Quiet t.io (t.io.sendEncoded (codec.encodePacket packet) completion) :=
      ⟨_, rfl, rfl⟩
    exact ⟨htids, ⟨ch, hch, htrack⟩, (hlog.deliveredOn k).trans ht.delivered⟩
  | report effect hreport =>
    have hlog : Quiet t.io (t.io.emit [effect]) := by
      refine ⟨_, rfl, ?_⟩
      cases effect with
      | deliver => exact hreport.elim
      | _ => rfl
    exact ⟨htids, ⟨ch, hch, htrack⟩, (hlog.deliveredOn k).trans ht.delivered⟩
  | bookkeeping _ hbook =>
    refine ⟨by rw [hbook.channels]; exact htids,
      ⟨ch, by rw [hbook.channels]; exact hch, htrack⟩, ?_⟩
    exact ((Quiet.of_log hbook.log).deliveredOn k).trans ht.delivered

theorem Hears.arrival (hs : Hears m k s p) (hk : k < kMaxChannels)
    (hids : ∀ j < kMaxChannels, ∀ c, s.channels.get j = some c → (channelId c).toNat = j)
    {e : Session.Event} {packet : Packet} {now : Time}
    (h : arriving codec.toPacketCodec s e = some (packet, now)) (hpacket : packet.channel.toNat = k)
    (htype : packet.type = .data) (n : ℕ) :
    Hears m k (s.step codec.toPacketCodec e) (p.dataArrives codec n packet now) := by
  obtain ⟨ch, hch, htrack⟩ := hs.channel
  obtain ⟨hslot, _, replies, hlog, hreplies⟩ := step_onRecv hk hch h hpacket
  have hack : packet.type ≠ .ack := by rw [htype]; decide
  have harrival := onRecv_tracking htrack hack now p.receiverIo s.io
  obtain ⟨xs, hxs, hxs'⟩ := harrival.payloads
  refine ⟨⟨_, hslot, harrival.tracking⟩, ?_⟩
  have hid : ch.id.toNat = k := by
    have := hids k hk _ hch
    rwa [m.id] at this
  have hgrown : deliveredOn k (ch.onRecv packet now s.io).2.log = deliveredOn k s.io.log ++ xs := by
    obtain ⟨fresh, hgrows⟩ := onRecv_grows (m.wrap Wr ch) packet now s.io
    have hrun := m.run codec.toPacketCodec Wr ch s.io (.onRecv packet now)
    simp only [Call.run, reliableCall] at hrun
    rw [hrun, m.id] at hgrows
    have hon := hgrows.deliveredOn hxs' k
    rwa [if_pos hid] at hon
  have hsilent : deliveredOn k replies = [] := by
    rw [deliveredOn, List.filterMap_eq_nil_iff]
    intro effect he
    obtain ⟨ack, dst, _, rfl⟩ := hreplies effect he
    rfl
  rw [hlog, deliveredOn_append, hsilent, List.append_nil, hgrown, delivered_dataArrives, hxs,
    hs.delivered]

end Receiving
section Sending
variable {m : Mode O U C ordered} {k : ℕ} {codec : LawfulCodec} {g : Record} {s : BasicSession O U}
  {p : Pair C ordered Ws Wr}

lemma samePending_steps {a a' b b' : Transport} (h : SamePending k a b) (ha : SamePending k a a')
    (hb : SamePending k b b') : SamePending k a' b' := by
  intro ch sequenceNumber handler hk
  rw [hb ch sequenceNumber handler hk, h ch sequenceNumber handler hk,
    ha ch sequenceNumber handler hk]

lemma samePending_erased {a b a' b' : Transport} (h : SamePending k a b) {i j : ℕ}
    {completion : Completion} (hi : a.pending[i]? = some completion)
    (hj : b.pending[j]? = some completion) (ha : a'.pending = a.pending.eraseIdx i)
    (hb : b'.pending = b.pending.eraseIdx j) : SamePending k a' b' := by
  intro ch sequenceNumber handler hk
  obtain ⟨hi', hival⟩ := List.getElem?_eq_some_iff.mp hi
  obtain ⟨hj', hjval⟩ := List.getElem?_eq_some_iff.mp hj
  have hsame := h ch sequenceNumber handler hk
  rw [← (List.getElem_cons_eraseIdx_perm hi').count_eq,
    ← (List.getElem_cons_eraseIdx_perm hj').count_eq, hival, hjval, List.count_cons,
    List.count_cons] at hsame
  rw [ha, hb]
  exact Nat.add_right_cancel hsame

lemma getElem?_idxOf {α : Type} [BEq α] [LawfulBEq α] {xs : List α} {x : α} (h : x ∈ xs) :
    xs[xs.idxOf x]? = some x := by
  have hlt := List.idxOf_lt_length_of_mem h
  rw [List.getElem?_eq_getElem hlt, List.getElem_idxOf hlt]

lemma numberedBy_idle (codec : PacketCodec) {e : Session.Event}
    (h : slotCall codec k s e = none) : numberedBy s (s.step codec e) k e = [] := by
  cases e with
  | asyncSend ch payload handler now =>
    by_cases hch : ch.toNat = k
    · have hemit : ∃ effects,
          s.step codec (.asyncSend ch payload handler now) = s.emit effects := by
        simp only [slotCall] at h
        split_ifs at h with hready
        simp only [BasicSession.step, BasicSession.asyncSend]
        split_ifs with hclosed hlarge
        · exact ⟨_, rfl⟩
        · cases s.channel? ch with
          | none => exact ⟨_, rfl⟩
          | some c => exact ⟨_, rfl⟩
        · exact absurd ⟨by simpa using hclosed, hch, by omega⟩ hready
      obtain ⟨effects, hs⟩ := hemit
      rw [hs]
      exact numberedBy_emit s effects k _
    · simp only [numberedBy, if_neg hch]
      split <;> rfl
  | _ => rfl

lemma Sends.idle (hs : Sends m k g s p) (hk : k < kMaxChannels)
    (hids : ∀ j < kMaxChannels, ∀ c, s.channels.get j = some c → (channelId c).toNat = j)
    {e : Session.Event} (h : slotCall codec.toPacketCodec k s e = none) :
    Sends m k (g.after s (s.step codec.toPacketCodec e) e) (s.step codec.toPacketCodec e) p := by
  obtain ⟨ch, hch, htwins⟩ := hs.channel
  have hidle : Idle m k s (s.step codec.toPacketCodec e) := step_idle codec.toPacketCodec hk hids h
  obtain ⟨ch', hch', htwins'⟩ := hidle.channel Ws ch hch
  refine ⟨⟨ch', hch', htwins.trans htwins'⟩, hs.pending.trans hidle.pending, ?_⟩
  simp only [Record.after, numberedBy_idle codec.toPacketCodec h, List.append_nil, hs.sent]

lemma Sends.asyncSend (hs : Sends m k g s p) (hk : k < kMaxChannels) {id : Byte}
    {payload : List Byte} {handler : ℕ} {now : Time} (hopen : s.closed = false)
    (hid : id.toNat = k) (hfits : payload.length + codec.maxOverhead ≤ s.config.mtu) :
    Sends m k (g.after s (s.step codec.toPacketCodec (.asyncSend id payload handler now))
        (.asyncSend id payload handler now))
      (s.step codec.toPacketCodec (.asyncSend id payload handler now))
      (p.asyncSend codec payload handler now) := by
  obtain ⟨ch, hch, htwins⟩ := hs.channel
  have hstep : s.step codec.toPacketCodec (.asyncSend id payload handler now) = _ :=
    step_asyncSend hk hch hopen hid hfits
  obtain ⟨htwins', datagrams, completions, hgains, hgains'⟩ := asyncSend_twins htwins
    codec.toPacketCodec payload handler now p.senderIo s.io
  refine ⟨⟨_, ?_, htwins'⟩, ?_, ?_⟩
  · rw [hstep, get_put_same]
  · rw [hstep]
    intro ch' sequenceNumber handler' hk'
    simp only [put, Pair.asyncSend, hgains.pending, hgains'.pending, List.count_append,
      hs.pending ch' sequenceNumber handler' hk']
  · have hafter : (s.step codec.toPacketCodec (.asyncSend id payload handler now)).channel? id =
        some (m.wrap Ws (ch.asyncSend codec.toPacketCodec payload handler now s.io).1) := by
      rw [hstep]
      exact channel?_slot hk (get_put_same s k _) hid
    simp only [Record.after, numberedBy, channel?_slot hk hch hid, hafter, if_pos hid, m.nextSeq,
      numbered, Pair.asyncSend, hs.sent, htwins'.sender.nextSeq, htwins.sender.nextSeq]
    split_ifs
    · exact List.append_nil _
    · rfl

lemma pair_sendCompleted {i : ℕ} {id : Byte} {sequenceNumber : Seq} {handler : ℕ}
    (h : p.senderIo.pending[i]? = some (.data id sequenceNumber handler)) (ec : ErrorCode)
    (now : Time) : ∃ io, io.pending = p.senderIo.pending.eraseIdx i ∧
      p.sendCompleted i ec now =
        { p with
          sender := (p.sender.sendCompleted sequenceNumber handler ec now io).1
          senderIo := (p.sender.sendCompleted sequenceNumber handler ec now io).2 } := by
  refine ⟨{ p.senderIo with pending := p.senderIo.pending.eraseIdx i }, rfl, ?_⟩
  unfold Pair.sendCompleted
  rw [h]

lemma Sends.sendCompleted (hs : Sends m k g s p) (hk : k < kMaxChannels)
    (hids : ∀ j < kMaxChannels, ∀ c, s.channels.get j = some c → (channelId c).toNat = j)
    {id : Byte} {sequenceNumber : Seq} {position handler : ℕ} {ec : ErrorCode} {now : Time}
    (hget : s.io.pending[position]? = some (.data id sequenceNumber handler)) (hid : id.toNat = k) :
    Sends m k (g.after s (s.step codec.toPacketCodec (.sendCompleted position ec now))
        (.sendCompleted position ec now))
      (s.step codec.toPacketCodec (.sendCompleted position ec now))
      (p.sendCompleted (p.senderIo.pending.idxOf (.data p.sender.id sequenceNumber handler)) ec
        now) := by
  obtain ⟨ch, hch, htwins⟩ := hs.channel
  obtain ⟨io, hio, hstep⟩ := step_sendCompleted codec.toPacketCodec hk hch ec now hget hid
  have hsame : p.sender.id = id := by
    have hslot := hids k hk _ hch
    rw [m.id, htwins.sender.id] at hslot
    exact BitVec.eq_of_toNat_eq (hslot.trans hid.symm)
  have hmem : .data id sequenceNumber handler ∈ p.senderIo.pending := by
    rw [← List.count_pos_iff, ← hs.pending id sequenceNumber handler hid, List.count_pos_iff]
    exact List.mem_of_getElem? hget
  have hfound := getElem?_idxOf hmem
  obtain ⟨io', hio', hpair⟩ := pair_sendCompleted hfound ec now
  have herased : SamePending k io' io := samePending_erased hs.pending hfound hget hio' hio
  rw [hsame, hpair, hstep]
  refine ⟨⟨_, get_put_same s k _, sendCompleted_twins htwins sequenceNumber handler ec now io' io⟩,
    samePending_steps herased (sendCompleted_pending _ sequenceNumber handler ec now io')
      (sendCompleted_pending _ sequenceNumber handler ec now io), ?_⟩
  simp only [Record.after, numberedBy, List.append_nil, hs.sent]

lemma Sends.onTick (hs : Sends m k g s p) {ec : ErrorCode} {now : Time}
    (hready : s.retransmitting = true ∧ ec.failed = false ∧ s.closed = false) :
    Sends m k (g.after s (s.step codec.toPacketCodec (.retransmitTimer ec now))
        (.retransmitTimer ec now)) (s.step codec.toPacketCodec (.retransmitTimer ec now))
      (p.onTick now) := by
  obtain ⟨ch, hch, htwins⟩ := hs.channel
  obtain ⟨⟨io, hslot⟩, hpending⟩ := step_onTick codec.toPacketCodec hch hready
  refine ⟨⟨_, hslot, onTick_twins htwins now p.senderIo io⟩,
    samePending_steps hs.pending (onTick_pending p.sender now p.senderIo) hpending, ?_⟩
  simp only [Record.after, numberedBy, List.append_nil, hs.sent, Pair.onTick]

lemma Sends.flush (hs : Sends m k g s p) {handler : ℕ} (hopen : s.closed = false) :
    Sends m k (g.after s (s.step codec.toPacketCodec (.asyncFlush handler)) (.asyncFlush handler))
      (s.step codec.toPacketCodec (.asyncFlush handler)) p.flush := by
  obtain ⟨ch, hch, htwins⟩ := hs.channel
  have hidle : Idle m k s (s.step codec.toPacketCodec (.asyncFlush handler)) := step_flush hopen
  obtain ⟨ch', hch', htwins'⟩ := hidle.channel Ws ch hch
  refine ⟨⟨ch', hch', htwins.trans htwins'⟩,
    samePending_steps hs.pending (flush_pending p.sender p.senderIo) hidle.pending, ?_⟩
  simp only [Record.after, numberedBy, List.append_nil, hs.sent, Pair.flush]

lemma Sends.packetArrives (hs : Sends m k g s p) (hk : k < kMaxChannels) {e : Session.Event}
    {packet : Packet} {now : Time} (h : arriving codec.toPacketCodec s e = some (packet, now))
    (hpacket : packet.channel.toNat = k) :
    Sends m k (g.after s (s.step codec.toPacketCodec e) e) (s.step codec.toPacketCodec e)
      (p.packetArrives packet now) := by
  obtain ⟨ch, hch, htwins⟩ := hs.channel
  obtain ⟨hslot, hpending, _⟩ := step_onRecv hk hch h hpacket
  refine ⟨⟨_, hslot, onRecv_twins htwins packet now p.senderIo s.io⟩,
    samePending_steps hs.pending (onRecv_pending p.sender packet now p.senderIo) hpending, ?_⟩
  cases e with
  | onSocketRecv =>
    simp only [Record.after, numberedBy, List.append_nil, hs.sent, Pair.packetArrives]
  | _ => cases h

end Sending

section Following
variable {m : Mode O U C ordered} {k : ℕ} {codec : LawfulCodec} {g : Record} {s : BasicSession O U}
  {p : Pair C ordered Ws Wr}

/-- An event of the side that sends does to the pair what it does to the slot. -/
theorem Sends.step (hs : Sends m k g s p) (hk : k < kMaxChannels)
    (hids : ∀ j < kMaxChannels, ∀ c, s.channels.get j = some c → (channelId c).toNat = j)
    {o : Occurrence} {e : Option ReliablePair.Event}
    (he : (slotCall codec.toPacketCodec k s o.event).bind (senderEvent p o) = e)
    (hpresent : ∀ e' ∈ e, Present p e') :
    Sends m k (g.after s (s.step codec.toPacketCodec o.event) o.event)
      (s.step codec.toPacketCodec o.event) (follow codec p e) := by
  obtain ⟨side, event, n⟩ := o
  dsimp only at he ⊢
  subst he
  cases hcall : slotCall codec.toPacketCodec k s event with
  | none => exact hs.idle hk hids hcall
  | some call =>
    rw [hcall] at hpresent
    have hcalls := calls_of_slotCall hcall
    clear hcall
    cases hcalls with
    | asyncSend id payload handler now hopen hid hfits => exact hs.asyncSend hk hopen hid hfits
    | sendCompleted id sequenceNumber position handler ec now hget hid =>
      exact hs.sendCompleted hk hids hget hid
    | onTick ec now hready => exact hs.onTick hready
    | flush handler hopen => exact hs.flush hopen
    | onRecv _ packet now harrives hpacket =>
      have harrived := hs.packetArrives hk harrives hpacket
      simp only [Option.bind_some, senderEvent] at hpresent ⊢
      split_ifs at hpresent ⊢
      · have hlt : p.acks.idxOf (n, datagram event) < p.acks.length := hpresent _ rfl
        have hget := getElem?_idxOf (List.idxOf_lt_length_iff.mp hlt)
        simp only [follow, Pair.step, hget, arriving_decode harrives]
        exact harrived
      · exact harrived

lemma senderEvent_frame {o : Occurrence} {call : Call} {e : ReliablePair.Event}
    (h : senderEvent p o call = some e) :
    (p.step codec e).receiver = p.receiver ∧ (p.step codec e).receiverIo = p.receiverIo ∧
      (p.step codec e).acks = p.acks := by
  cases call with
  | asyncSend payload handler now =>
    obtain rfl := Option.some.inj h
    exact ⟨rfl, rfl, rfl⟩
  | sendCompleted sequenceNumber handler ec now =>
    obtain rfl := Option.some.inj h
    simp only [Pair.step, Pair.sendCompleted]
    split <;> exact ⟨rfl, rfl, rfl⟩
  | onTick now =>
    obtain rfl := Option.some.inj h
    exact ⟨rfl, rfl, rfl⟩
  | flush =>
    obtain rfl := Option.some.inj h
    exact ⟨rfl, rfl, rfl⟩
  | onRecv packet now =>
    simp only [senderEvent] at h
    split_ifs at h
    · obtain rfl := Option.some.inj h
      simp only [Pair.step]
      split
      · exact ⟨rfl, rfl, rfl⟩
      · split <;> exact ⟨rfl, rfl, rfl⟩
    · obtain rfl := Option.some.inj h
      exact ⟨rfl, rfl, rfl⟩
  | asyncRecv buf handler => cases h
  | close reason => cases h

lemma Hears.of_frame (hs : Hears m k s p) {p' : Pair C ordered Ws Wr}
    (h : p'.receiver = p.receiver ∧ p'.receiverIo = p.receiverIo ∧ p'.acks = p.acks) :
    Hears m k s p' :=
  ⟨by rw [h.1]; exact hs.channel, by rw [h.2.1]; exact hs.delivered⟩

lemma receiverEvent_frame {o : Occurrence} {call : Call} {e : ReliablePair.Event}
    (h : receiverEvent p o call = some e) :
    (p.step codec e).sender = p.sender ∧ (p.step codec e).senderIo = p.senderIo ∧
      (p.step codec e).sent = p.sent := by
  cases call with
  | onRecv packet now =>
    simp only [receiverEvent] at h
    split_ifs at h
    obtain rfl := Option.some.inj h
    simp only [Pair.step]
    split
    · exact ⟨rfl, rfl, rfl⟩
    · split <;> exact ⟨rfl, rfl, rfl⟩
  | _ => cases h

lemma Sends.of_frame (hs : Sends m k g s p) {p' : Pair C ordered Ws Wr}
    (h : p'.sender = p.sender ∧ p'.senderIo = p.senderIo ∧ p'.sent = p.sent) : Sends m k g s p' :=
  ⟨by rw [h.1]; exact hs.channel, by rw [h.2.1]; exact hs.pending, by rw [h.2.2]; exact hs.sent⟩

/-- An event of the side that receives does to the pair what it does to the slot. -/
theorem Hears.step (hs : Hears m k s p) (hk : k < kMaxChannels)
    (hids : ∀ j < kMaxChannels, ∀ c, s.channels.get j = some c → (channelId c).toNat = j)
    {o : Occurrence} {e : Option ReliablePair.Event}
    (he : (slotCall codec.toPacketCodec k s o.event).bind (receiverEvent p o) = e)
    (hpresent : ∀ e' ∈ e, Present p e') :
    Hears m k (s.step codec.toPacketCodec o.event) (follow codec p e) := by
  cases e with
  | none =>
    refine hs.idle hk hids ?_
    intro packet now hcall htype
    simp only [hcall, Option.bind_some, receiverEvent, if_pos htype] at he
    cases he
  | some e =>
    obtain ⟨side, event, n⟩ := o
    dsimp only at he ⊢
    obtain ⟨call, hcall, hevent⟩ := Option.bind_eq_some_iff.mp he
    have hcalls := calls_of_slotCall hcall
    cases hcalls with
    | onRecv _ packet now harrives hpacket =>
      simp only [receiverEvent] at hevent
      split_ifs at hevent with htype
      obtain rfl := Option.some.inj hevent
      have hlt : p.data.idxOf (n, datagram event) < p.data.length := hpresent _ rfl
      have hget := getElem?_idxOf (List.idxOf_lt_length_iff.mp hlt)
      simp only [follow, Pair.step, hget, arriving_decode harrives]
      exact hs.arrival hk hids harrives hpacket htype n
    | _ => cases hevent

end Following
end Steps

end ReliableUdp.SessionLane
