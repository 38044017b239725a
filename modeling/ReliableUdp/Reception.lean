import ReliableUdp.SessionOutput
import ReliableUdp.OrderedDelivery
import ReliableUdp.UnorderedDelivery

/-! What one channel of a session hands over when the Data packets that reach it carry the payloads
the peer numbered on that channel: the three delivery guarantees as one invariant. -/
namespace ReliableUdp.Reception
open Protocol ChannelCommon ReliableChannel OrderedReceiver ReliableSender Reassembly Session
open SessionSteps SessionMoves SessionOutput ReceiveAckTracker

def deliveredOn (k : ℕ) (log : List Effect) : List (List Byte) :=
  log.filterMap fun
    | .deliver ch payload => if ch.toNat = k then some payload else none
    | _ => none

@[simp] lemma deliveredOn_append (k : ℕ) (xs ys : List Effect) :
    deliveredOn k (xs ++ ys) = deliveredOn k xs ++ deliveredOn k ys := by simp [deliveredOn]

def OnlyOn (ch : Byte) (effects : List Effect) : Prop :=
  ∀ ch' payload, Effect.deliver ch' payload ∈ effects → ch' = ch

lemma deliveredOn_of_onlyOn {ch : Byte} {effects : List Effect} (h : OnlyOn ch effects) (k : ℕ) :
    deliveredOn k effects = if ch.toNat = k then delivered effects else [] := by
  induction effects with
  | nil => simp [deliveredOn, delivered]
  | cons effect effects ih =>
    have hrest := ih fun ch' payload hmem => h ch' payload (List.mem_cons_of_mem _ hmem)
    cases effect with
    | deliver ch' payload =>
      obtain rfl := h ch' payload List.mem_cons_self
      by_cases hk : ch'.toNat = k
      · simpa [deliveredOn, delivered, hk] using hrest
      · simpa [deliveredOn, delivered, hk] using hrest
    | _ => simpa [deliveredOn, delivered] using hrest

lemma deliveredOn_eq_nil {effects : List Effect} (h : delivered effects = []) (k : ℕ) :
    deliveredOn k effects = [] := by
  rw [delivered, List.filterMap_eq_nil_iff] at h
  rw [deliveredOn, List.filterMap_eq_nil_iff]
  intro effect he
  cases effect with
  | deliver ch payload => exact absurd (h _ he) (by simp)
  | _ => rfl

/-- The log grew by effects that hand over on one channel only. -/
structure Grows (ch : Byte) (fresh : List Effect) (io io' : Transport) : Prop where
  log : io'.log = io.log ++ fresh
  only : OnlyOn ch fresh

lemma Grows.refl (ch : Byte) (io : Transport) : Grows ch [] io io :=
  ⟨(List.append_nil _).symm, fun _ _ h => absurd h List.not_mem_nil⟩

lemma Grows.trans {ch : Byte} {xs ys : List Effect} {a b c : Transport} (h1 : Grows ch xs a b)
    (h2 : Grows ch ys b c) : Grows ch (xs ++ ys) a c := by
  refine ⟨by rw [h2.log, h1.log, List.append_assoc], ?_⟩
  intro ch' payload hmem
  exact (List.mem_append.mp hmem).elim (h1.only ch' payload) (h2.only ch' payload)

lemma Grows.deliveredOn {ch : Byte} {fresh : List Effect} {io io' : Transport}
    (h : Grows ch fresh io io') {xs : List (List Byte)}
    (hxs : delivered io'.log = delivered io.log ++ xs) (k : ℕ) :
    Reception.deliveredOn k io'.log =
      Reception.deliveredOn k io.log ++ if ch.toNat = k then xs else [] := by
  have hfresh : delivered fresh = xs := by
    rw [h.log, delivered_append] at hxs
    exact List.append_cancel_left hxs
  rw [h.log, deliveredOn_append, deliveredOn_of_onlyOn h.only, hfresh]

variable {O U : Type}

/-- An index the channel can tell apart by its sequence number: less than 32768 away from the next
expected, the highest or the last one. -/
def Expects (handed : List ℕ) (n : ℕ) : ChannelVar O U → Prop
  | .ordered _ _ => Close n handed.length
  | .unordered _ _ => ∀ M ∈ handed.max?, Close n M
  | .unreliable _ => ∀ L ∈ handed.getLast?, Close n L

instance (handed : List ℕ) (n : ℕ) (c : ChannelVar O U) : Decidable (Expects handed n c) :=
  match c with
  | .ordered _ _ => inferInstanceAs (Decidable (Close n handed.length))
  | .unordered _ _ => inferInstanceAs (Decidable (∀ M ∈ handed.max?, Close n M))
  | .unreliable _ => inferInstanceAs (Decidable (∀ L ∈ handed.getLast?, Close n L))

/-- The indices of the payloads handed over when index `n` arrives and `count` payloads follow. -/
def handedBy (handed : List ℕ) (n count : ℕ) : ChannelVar O U → List ℕ
  | .ordered _ _ => List.range' handed.length count
  | .unordered _ _ => List.replicate count n
  | .unreliable _ => List.replicate count n

/-- What the receiving half of a channel remembers after handing over the indices `handed`. -/
def Remembers (sent : List (List Byte)) (handed : List ℕ) : ChannelVar O U → Prop
  | .ordered _ ch => handed = List.range handed.length ∧ ∃ held,
      Holds ch.expectedRecvSeq ch.receiveBuffer handed.length held ∧
        ∀ n x, held n = some x → sent[n]? = some x
  | .unordered _ ch => handed.Nodup ∧ Marked ch.recvAckTracker handed.max? {n | n ∈ handed}
  | .unreliable ch => handed.Pairwise (· < ·) ∧ (handed = [] → ch.hasDelivered = false) ∧
      ∀ L ∈ handed.getLast?, ch.hasDelivered = true ∧ ch.lastSeq = wire L

/-- A channel of slot `k` with the log of its session: the payloads handed over are those of the
indices `handed` of the peer's list. -/
structure Receives (k : ℕ) (sent : List (List Byte)) (handed : List ℕ) (c : ChannelVar O U)
    (log : List Effect) : Prop where
  remembers : Remembers sent handed c
  delivered : (deliveredOn k log).map some = handed.map fun n => sent[n]?

lemma Remembers.mono {sent sent' : List (List Byte)} {handed : List ℕ} {c : ChannelVar O U}
    (h : Remembers sent handed c) (hp : sent <+: sent') : Remembers sent' handed c := by
  cases c with
  | unreliable ch => exact h
  | ordered W ch =>
    obtain ⟨hrange, held, hholds, hauth⟩ := h
    refine ⟨hrange, held, hholds, ?_⟩
    intro n x hx
    obtain ⟨rest, rfl⟩ := hp
    rw [List.getElem?_append_left (List.getElem?_eq_some_iff.mp (hauth n x hx)).1, hauth n x hx]
  | unordered W ch => exact h

lemma Receives.mono {k : ℕ} {sent sent' : List (List Byte)} {handed : List ℕ} {c : ChannelVar O U}
    {log : List Effect} (h : Receives k sent handed c log) (hp : sent <+: sent') :
    Receives k sent' handed c log := by
  refine ⟨h.remembers.mono hp, ?_⟩
  rw [h.delivered]
  apply List.map_congr_left
  intro n hn
  have hmem : sent[n]? ∈ (deliveredOn k log).map some := by
    rw [h.delivered]
    exact List.mem_map_of_mem hn
  obtain ⟨x, _, hx⟩ := List.mem_map.mp hmem
  obtain ⟨rest, rfl⟩ := hp
  rw [List.getElem?_append_left (List.getElem?_eq_some_iff.mp hx.symm).1]

def SameReceiving : ChannelVar O U → ChannelVar O U → Prop
  | .unreliable ch, .unreliable ch' =>
    ch'.hasDelivered = ch.hasDelivered ∧ ch'.lastSeq = ch.lastSeq
  | .ordered W ch, c' => ∃ ch', c' = .ordered W ch' ∧ ch'.expectedRecvSeq = ch.expectedRecvSeq ∧
      ch'.receiveBuffer = ch.receiveBuffer
  | .unordered W ch, c' => ∃ ch', c' = .unordered W ch' ∧ ch'.recvAckTracker = ch.recvAckTracker
  | _, _ => False

lemma Remembers.of_same {sent : List (List Byte)} {handed : List ℕ} {c c' : ChannelVar O U}
    (h : Remembers sent handed c) (hc : SameReceiving c c') : Remembers sent handed c' := by
  cases c with
  | unreliable ch =>
    cases c' with
    | unreliable ch' =>
      obtain ⟨hd, hl⟩ := hc
      obtain ⟨hsorted, hfresh, hlast⟩ := h
      refine ⟨hsorted, fun he => hd.trans (hfresh he), fun L hL => ?_⟩
      exact ⟨hd.trans (hlast L hL).1, hl.trans (hlast L hL).2⟩
    | ordered W ch' => exact hc.elim
    | unordered W ch' => exact hc.elim
  | ordered W ch =>
    obtain ⟨ch', rfl, he, hb⟩ := hc
    obtain ⟨hrange, held, hholds, hauth⟩ := h
    refine ⟨hrange, held, ?_, hauth⟩
    rw [he, hb]
    exact hholds
  | unordered W ch =>
    obtain ⟨ch', rfl, ht⟩ := hc
    refine ⟨h.1, ?_⟩
    rw [ht]
    exact h.2

/-- Operations other than the reception of a Data packet: the receiving half is the same and nothing
is handed over. -/
structure Idle (c c' : ChannelVar O U) (io io' : Transport) : Prop where
  receiving : SameReceiving c c'
  delivered : ∀ k, deliveredOn k io'.log = deliveredOn k io.log

lemma SameReceiving.refl (c : ChannelVar O U) : SameReceiving c c := by
  cases c with
  | unreliable ch => exact ⟨rfl, rfl⟩
  | ordered W ch => exact ⟨ch, rfl, rfl, rfl⟩
  | unordered W ch => exact ⟨ch, rfl, rfl⟩

lemma Receives.idle {k : ℕ} {sent : List (List Byte)} {handed : List ℕ} {c c' : ChannelVar O U}
    {io io' : Transport} (h : Receives k sent handed c io.log) (hc : Idle c c' io io') :
    Receives k sent handed c' io'.log :=
  ⟨h.remembers.of_same hc.receiving, by rw [hc.delivered]; exact h.delivered⟩

def Quiet (io io' : Transport) : Prop :=
  ∃ fresh, io'.log = io.log ++ fresh ∧ delivered fresh = []

lemma Quiet.deliveredOn {io io' : Transport} (h : Quiet io io') (k : ℕ) :
    Reception.deliveredOn k io'.log = Reception.deliveredOn k io.log := by
  obtain ⟨fresh, hlog, hfresh⟩ := h
  rw [hlog, deliveredOn_append, deliveredOn_eq_nil hfresh, List.append_nil]

lemma Quiet.of_log {io io' : Transport} (h : io'.log = io.log) : Quiet io io' :=
  ⟨[], by rw [h, List.append_nil], rfl⟩

lemma Quiet.trans {a b c : Transport} (h1 : Quiet a b) (h2 : Quiet b c) : Quiet a c := by
  obtain ⟨xs, hx, hxs⟩ := h1
  obtain ⟨ys, hy, hys⟩ := h2
  exact ⟨xs ++ ys, by rw [hy, hx, List.append_assoc], by rw [delivered_append, hxs, hys]; rfl⟩

lemma quiet_resendAll (io : Transport) (packets : List (List Byte)) :
    Quiet io (resendAll io packets) := by
  refine ⟨packets.map (.transmit io.remote), rfl, ?_⟩
  rw [delivered, List.filterMap_map, List.filterMap_eq_nil_iff]
  exact fun _ _ => rfl

lemma delivered_close (q : RecvQueue) (reason : ErrorCode) : delivered (q.close reason).2 = [] := by
  unfold RecvQueue.close
  cases q.pendingRecv <;> rfl

section Reliable
variable {C : Type} [CongestionCtrl C] {ordered : Bool} {W : Window}

lemma asyncSend_quiet (ch : Channel C ordered W) (codec : PacketCodec) (payload : List Byte)
    (handler : ℕ) (now : Time) (io : Transport) :
    Quiet io (ch.asyncSend codec payload handler now io).2 := by
  have h := asyncSend_cases ch codec payload handler now io
  generalize ch.asyncSend codec payload handler now io = r at h ⊢
  cases h with
  | refused => exact ⟨_, rfl, rfl⟩
  | unencodable => exact ⟨_, rfl, rfl⟩
  | collided => exact ⟨_, rfl, rfl⟩
  | stored => exact ⟨_, rfl, rfl⟩

lemma sendCompleted_quiet (ch : Channel C ordered W) (sequenceNumber : Seq) (handler : ℕ)
    (ec : ErrorCode) (now : Time) (io : Transport) :
    Quiet io (ch.sendCompleted sequenceNumber handler ec now io).2 := by
  unfold Channel.sendCompleted
  split_ifs <;> exact ⟨_, rfl, rfl⟩

lemma onTick_quiet (ch : Channel C ordered W) (now : Time) (io : Transport) :
    Quiet io (ch.onTick now io).2 := by
  refine SlotTable.sweep_invariant (P := fun acc : C × Transport => Quiet io acc.2) ?_ _ _
    (Quiet.of_log rfl)
  intro x acc hacc
  cases x with
  | none => exact hacc
  | some sp =>
    simp only [Channel.tickSlot]
    split_ifs
    · exact hacc
    · exact hacc.trans ⟨_, rfl, rfl⟩

lemma onRecv_idle (ch : Channel C ordered W) {packet : Packet} (h : packet.type ≠ .data)
    (now : Time) (io : Transport) :
    SameReceiver ch (ch.onRecv packet now io).1 ∧ Quiet io (ch.onRecv packet now io).2 := by
  unfold Channel.onRecv
  split_ifs with hack
  · exact ⟨(processAck_frame ch packet.ack packet.ackBits now io).1,
      .of_log (processAck_log ch packet.ack packet.ackBits now io)⟩
  · exact ⟨SameReceiver.refl ch, .of_log rfl⟩

end Reliable

section Calls

lemma idle_ordered {W : Window} {ch ch' : Channel O true W} {io io' : Transport}
    (h : SameReceiver ch ch') (hio : Quiet io io') :
    Idle (.ordered W ch : ChannelVar O U) (.ordered W ch') io io' :=
  ⟨⟨ch', rfl, h.expectedRecvSeq, h.receiveBuffer⟩, hio.deliveredOn⟩

lemma idle_unordered {W : Window} {ch ch' : Channel U false W} {io io' : Transport}
    (h : SameReceiver ch ch') (hio : Quiet io io') :
    Idle (.unordered W ch : ChannelVar O U) (.unordered W ch') io io' :=
  ⟨⟨ch', rfl, h.recvAckTracker⟩, hio.deliveredOn⟩

lemma unreliable_asyncSend_idle (ch : UnreliableChannel.Channel) (codec : PacketCodec)
    (payload : List Byte) (handler : ℕ) (io : Transport) :
    Idle (.unreliable ch : ChannelVar O U) (.unreliable (ch.asyncSend codec payload handler io).1)
      io (ch.asyncSend codec payload handler io).2 := by
  unfold UnreliableChannel.Channel.asyncSend
  dsimp only
  split_ifs
  · exact ⟨⟨rfl, rfl⟩, Quiet.deliveredOn ⟨_, rfl, rfl⟩⟩
  · exact ⟨⟨rfl, rfl⟩, Quiet.deliveredOn ⟨_, rfl, rfl⟩⟩

variable [CongestionCtrl O] [CongestionCtrl U]

/-- Every operation except the reception of a Data packet leaves the receiving half alone. -/
theorem call_idle (codec : PacketCodec) (c : ChannelVar O U) (io : Transport) {call : Call}
    (h : ∀ packet now, call = .onRecv packet now → packet.type ≠ .data) :
    Idle c (call.run codec c io).1 io (call.run codec c io).2 := by
  cases call with
  | asyncSend payload handler now =>
    cases c with
    | unreliable ch => exact unreliable_asyncSend_idle ch codec payload handler io
    | ordered W ch =>
      exact idle_ordered (asyncSend_receiver ch codec payload handler now io)
        (asyncSend_quiet ch codec payload handler now io)
    | unordered W ch =>
      exact idle_unordered (asyncSend_receiver ch codec payload handler now io)
        (asyncSend_quiet ch codec payload handler now io)
  | sendCompleted sequenceNumber handler ec now =>
    cases c with
    | unreliable ch => exact ⟨SameReceiving.refl _, fun _ => rfl⟩
    | ordered W ch =>
      exact idle_ordered (sendCompleted_frame ch sequenceNumber handler ec now io).1
        (sendCompleted_quiet ch sequenceNumber handler ec now io)
    | unordered W ch =>
      exact idle_unordered (sendCompleted_frame ch sequenceNumber handler ec now io).1
        (sendCompleted_quiet ch sequenceNumber handler ec now io)
  | asyncRecv buf handler =>
    have hio : Quiet io (c.asyncRecv buf handler io).2 :=
      ⟨_, by rw [(variant_asyncRecv c buf handler io).2]; rfl,
        delivered_recvQueue_asyncRecv c.recvQueue buf handler⟩
    cases c with
    | unreliable ch => exact ⟨⟨rfl, rfl⟩, hio.deliveredOn⟩
    | ordered W ch => exact ⟨⟨_, rfl, rfl, rfl⟩, hio.deliveredOn⟩
    | unordered W ch => exact ⟨⟨_, rfl, rfl⟩, hio.deliveredOn⟩
  | onTick now =>
    cases c with
    | unreliable ch => exact ⟨SameReceiving.refl _, fun _ => rfl⟩
    | ordered W ch => exact idle_ordered (onTick_frame ch now io).1 (onTick_quiet ch now io)
    | unordered W ch => exact idle_unordered (onTick_frame ch now io).1 (onTick_quiet ch now io)
  | onRecv packet now =>
    have htype := h packet now rfl
    cases c with
    | unreliable ch =>
      have hsame : ch.onRecv packet io = (ch, io) := by
        unfold UnreliableChannel.Channel.onRecv
        rw [if_pos htype]
      simp only [Call.run, ChannelVar.onRecv, hsame]
      exact ⟨SameReceiving.refl _, fun _ => rfl⟩
    | ordered W ch =>
      exact idle_ordered (onRecv_idle ch htype now io).1 (onRecv_idle ch htype now io).2
    | unordered W ch =>
      exact idle_unordered (onRecv_idle ch htype now io).1 (onRecv_idle ch htype now io).2
  | flush =>
    refine ⟨SameReceiving.refl c, Quiet.deliveredOn ?_⟩
    change Quiet io (c.flush io)
    rw [variant_flush]
    exact quiet_resendAll io (resent c)
  | close reason =>
    have hio : Quiet io (c.close reason io).2 :=
      ⟨_, by rw [(variant_close c reason io).2]; rfl, delivered_close c.recvQueue reason⟩
    cases c with
    | unreliable ch => exact ⟨⟨rfl, rfl⟩, hio.deliveredOn⟩
    | ordered W ch => exact ⟨⟨_, rfl, rfl, rfl⟩, hio.deliveredOn⟩
    | unordered W ch => exact ⟨⟨_, rfl, rfl⟩, hio.deliveredOn⟩

end Calls

section Arrival
variable {sent : List (List Byte)} {handed : List ℕ}

lemma onlyOn_deliver (q : RecvQueue) (ch : Byte) (payload : List Byte) :
    OnlyOn ch (.deliver ch payload :: (q.deliver payload).2) := by
  intro ch' payload' hmem
  rcases List.mem_cons.mp hmem with he | he
  · exact (Effect.deliver.inj he).1
  · have hnone := delivered_recvQueue_deliver q payload
    rw [delivered, List.filterMap_eq_nil_iff] at hnone
    exact absurd (hnone _ he) (by simp)

lemma deliver_grows {C : Type} {ordered : Bool} {W : Window} (ch : Channel C ordered W)
    (payload : List Byte) (io : Transport) : ∃ fresh, Grows ch.id fresh io (ch.deliver payload io).2 :=
  ⟨_, rfl, onlyOn_deliver ch.recvQueue ch.id payload⟩

lemma receiveOrdered_grows {C : Type} {ordered : Bool} {W : Window} (ch : Channel C ordered W)
    (packet : Packet) (io : Transport) :
    ∃ fresh, Grows ch.id fresh io (ch.receiveOrdered packet io).2 := by
  refine (receiveOrdered_invariant
    (P := fun ch' io' => ch'.id = ch.id ∧ ∃ fresh, Grows ch.id fresh io io')
    (fun _ _ _ _ h => h) ?_ packet ⟨rfl, [], Grows.refl _ _⟩).2
  rintro ch' payload io' ⟨hid, fresh, hgrows⟩
  obtain ⟨more, hmore⟩ := deliver_grows ch' payload io'
  exact ⟨hid, _, hgrows.trans (hid ▸ hmore)⟩

lemma receiveUnordered_grows {C : Type} {ordered : Bool} {W : Window} (ch : Channel C ordered W)
    (packet : Packet) (io : Transport) :
    ∃ fresh, Grows ch.id fresh io (ch.receiveUnordered packet io).2 := by
  unfold Channel.receiveUnordered
  split_ifs
  · exact ⟨[], Grows.refl _ _⟩
  · exact deliver_grows
      ({ ch with recvAckTracker := ch.recvAckTracker.markReceived packet.seq } : Channel C ordered W)
      packet.payload io

lemma ordered_arrival {C : Type} {W : Window} {ch : Channel C true W} {E n : ℕ}
    {held : ℕ → Option (List Byte)} {packet : Packet}
    (hholds : Holds ch.expectedRecvSeq ch.receiveBuffer E held)
    (hauth : ∀ j x, held j = some x → sent[j]? = some x) (hseq : packet.seq = wire n)
    (hx : sent[n]? = some packet.payload) (hn : Close n E) (io : Transport) :
    ∃ xs held', delivered (ch.receiveOrdered packet io).2.log = delivered io.log ++ xs ∧
      xs.map some = (List.range' E xs.length).map (fun j => sent[j]?) ∧
      Holds (ch.receiveOrdered packet io).1.expectedRecvSeq
        (ch.receiveOrdered packet io).1.receiveBuffer (E + xs.length) held' ∧
      ∀ j x, held' j = some x → sent[j]? = some x := by
  have hspec := receiveOrdered_spec ch io hholds hn packet hseq
  generalize ch.receiveOrdered packet io = r at hspec ⊢
  cases hspec with
  | outside => exact ⟨[], held, (List.append_nil _).symm, rfl, hholds, hauth⟩
  | occupied => exact ⟨[], held, (List.append_nil _).symm, rfl, hholds, hauth⟩
  | stored hin hfree m hm ch' io' hd hstop =>
    have hupdated : ∀ j x, Function.update held n (some packet.payload) j = some x →
        sent[j]? = some x := by
      intro j x hj
      by_cases hjn : j = n
      · rw [hjn, Function.update_self] at hj
        rw [hjn, hx, hj]
      · rw [Function.update_of_ne hjn] at hj
        exact hauth j x hj
    have hmap := map_run hupdated hd.full
    have hlength : (run (Function.update held n (some packet.payload)) E m).length = m := by
      have := congrArg List.length hmap
      simpa using this
    refine ⟨_, _, hd.delivered, by rw [hlength]; exact hmap, by rw [hlength]; exact hd.holds, ?_⟩
    intro j x hj
    exact hupdated j x (dropBelow_some.mp hj).2

lemma unordered_arrival {C : Type} {W : Window} {ch : Channel C false W} {n : ℕ} {packet : Packet}
    (hnodup : handed.Nodup) (hmarked : Marked ch.recvAckTracker handed.max? {n | n ∈ handed})
    (hseq : packet.seq = wire n) (hn : ∀ M ∈ handed.max?, Close n M) (io : Transport) :
    ch.receiveUnordered packet io = (ch, io) ∨
      delivered (ch.receiveUnordered packet io).2.log = delivered io.log ++ [packet.payload] ∧
        (handed ++ [n]).Nodup ∧ Marked (ch.receiveUnordered packet io).1.recvAckTracker
          (handed ++ [n]).max? {j | j ∈ handed ++ [n]} := by
  have hspec := UnorderedDelivery.receiveUnordered_spec ch io hmarked hn packet hseq
  generalize ch.receiveUnordered packet io = r at hspec ⊢
  cases hspec with
  | dropped => exact Or.inl rfl
  | delivered hnew hnear =>
    refine Or.inr ⟨delivered_deliver _ _ _, ?_, ?_⟩
    · exact hnodup.append (List.nodup_singleton n) (by simpa using hnew)
    · have hset : {j | j ∈ handed ++ [n]} = insert n {j | j ∈ handed} := by
        ext j
        simp [or_comm]
      rw [max?_concat, hset]
      exact hmarked.mark hn

lemma unreliable_arrival {ch : UnreliableChannel.Channel} {n : ℕ} {packet : Packet}
    (hsorted : handed.Pairwise (· < ·))
    (hlast : ∀ L ∈ handed.getLast?, ch.hasDelivered = true ∧ ch.lastSeq = wire L)
    (htype : packet.type = .data) (hseq : packet.seq = wire n)
    (hn : ∀ L ∈ handed.getLast?, Close n L) (io : Transport) :
    ch.onRecv packet io = (ch, io) ∨
      delivered (ch.onRecv packet io).2.log = delivered io.log ++ [packet.payload] ∧
        (handed ++ [n]).Pairwise (· < ·) ∧ (ch.onRecv packet io).1.hasDelivered = true ∧
        (ch.onRecv packet io).1.lastSeq = wire n := by
  rcases UnreliableChannel.onRecv_cases ch io htype with
    ⟨hsame, _, _⟩ | ⟨hnew, hd, hl, hdelivered⟩
  · exact Or.inl hsame
  · refine Or.inr ⟨hdelivered, ?_, hd, hl.trans hseq⟩
    rw [List.pairwise_append]
    refine ⟨hsorted, List.pairwise_singleton _ _, ?_⟩
    intro j hj m hm
    rw [List.mem_singleton.mp hm]
    cases hL : handed.getLast? with
    | none =>
      rw [List.getLast?_eq_none_iff.mp hL] at hj
      cases hj
    | some L =>
      obtain ⟨hhas, hseqL⟩ := hlast L hL
      have hstale := hnew hhas
      rw [hseqL, hseq, isStaleOrDuplicate, isNewerSequence_wire (hn L hL)] at hstale
      have hlt : L < n := by simpa using hstale
      obtain ⟨before, rfl⟩ := List.getLast?_eq_some_iff.mp hL
      rcases List.mem_append.mp hj with hj | hj
      · exact ((List.pairwise_append.mp hsorted).2.2 j hj L List.mem_cons_self).trans hlt
      · rwa [List.mem_singleton.mp hj]

variable [CongestionCtrl O] [CongestionCtrl U]

lemma onRecv_grows (c : ChannelVar O U) (packet : Packet) (now : Time) (io : Transport) :
    ∃ fresh, Grows (channelId c) fresh io (c.onRecv packet now io).2 := by
  have hreliable : ∀ {C : Type} [CongestionCtrl C] {ordered : Bool} {W : Window}
      (ch : Channel C ordered W), ∃ fresh, Grows ch.id fresh io (ch.onRecv packet now io).2 := by
    intro C _ ordered W ch
    unfold Channel.onRecv
    split_ifs
    · refine ⟨[], ?_, fun _ _ h => absurd h List.not_mem_nil⟩
      rw [processAck_log, List.append_nil]
    · exact ⟨[], Grows.refl _ _⟩
    · exact receiveOrdered_grows ch packet io
    · exact receiveUnordered_grows ch packet io
  cases c with
  | unreliable ch =>
    simp only [ChannelVar.onRecv]
    unfold UnreliableChannel.Channel.onRecv
    split_ifs
    · exact ⟨[], Grows.refl _ _⟩
    · exact ⟨[], Grows.refl _ _⟩
    · exact ⟨_, rfl, onlyOn_deliver ch.recvQueue ch.id packet.payload⟩
  | ordered W ch => exact hreliable ch
  | unordered W ch => exact hreliable ch

/-- What the arrival of a Data packet of index `n` hands over and what the channel remembers. -/
lemma Remembers.arrival {c : ChannelVar O U} (h : Remembers sent handed c) {packet : Packet} {n : ℕ}
    (htype : packet.type = .data) (hseq : packet.seq = wire n) (hx : sent[n]? = some packet.payload)
    (hn : Expects handed n c) (now : Time) (io : Transport) :
    ∃ xs, delivered (c.onRecv packet now io).2.log = delivered io.log ++ xs ∧
      xs.map some = (handedBy handed n xs.length c).map (fun j => sent[j]?) ∧
      Remembers sent (handed ++ handedBy handed n xs.length c) (c.onRecv packet now io).1 := by
  cases c with
  | unreliable ch =>
    obtain ⟨hsorted, hfresh, hlast⟩ := h
    rcases unreliable_arrival hsorted hlast htype hseq hn io with hsame | ⟨hd, hs, hhas, hl⟩
    · refine ⟨[], ?_, rfl, ?_⟩
      · simp only [ChannelVar.onRecv, hsame, List.append_nil]
      · simp only [ChannelVar.onRecv, hsame, handedBy, List.length_nil, List.replicate_zero,
          List.append_nil]
        exact ⟨hsorted, hfresh, hlast⟩
    · refine ⟨[packet.payload], hd, by simp [handedBy, hx], hs, ?_, ?_⟩
      · intro he
        simp [handedBy] at he
      · intro L hL
        have hLn : n = L := by simpa [handedBy] using hL
        exact ⟨hhas, hLn ▸ hl⟩
  | ordered W ch =>
    obtain ⟨hrange, held, hholds, hauth⟩ := h
    obtain ⟨xs, held', hd, hmap, hholds', hauth'⟩ := ordered_arrival hholds hauth hseq hx hn io
    simp only [ChannelVar.onRecv, onRecv_ordered ch htype]
    refine ⟨xs, hd, hmap, ?_, held', ?_, hauth'⟩
    · have happend := List.range'_append_1 (s := 0) (m := handed.length) (n := xs.length)
      rw [Nat.zero_add, ← List.range_eq_range', ← List.range_eq_range'] at happend
      simp only [handedBy, List.length_append, List.length_range']
      rw [← happend, ← hrange]
    · simpa [handedBy] using hholds'
  | unordered W ch =>
    obtain ⟨hnodup, hmarked⟩ := h
    have hrecv : ch.onRecv packet now io = ch.receiveUnordered packet io := by
      rw [Channel.onRecv, htype, if_neg (by decide), if_neg (by simp), if_neg (by simp)]
    simp only [ChannelVar.onRecv, hrecv]
    rcases unordered_arrival hnodup hmarked hseq hn io with hsame | ⟨hd, hnd, hm⟩
    · refine ⟨[], ?_, rfl, ?_⟩
      · rw [hsame, List.append_nil]
      · rw [hsame]
        simpa [handedBy] using (show Remembers sent handed (.unordered W ch : ChannelVar O U) from
          ⟨hnodup, hmarked⟩)
    · exact ⟨[packet.payload], hd, by simp [handedBy, hx], hnd, hm⟩

/-- The arrival of a Data packet that carries the payload of an index the channel can tell apart. -/
theorem Receives.arrival {k : ℕ} {c : ChannelVar O U} {io : Transport}
    (h : Receives k sent handed c io.log) (hid : (channelId c).toNat = k) {packet : Packet} {n : ℕ}
    (htype : packet.type = .data) (hseq : packet.seq = wire n) (hx : sent[n]? = some packet.payload)
    (hn : Expects handed n c) (now : Time) :
    Receives k sent (handed ++ handedBy handed n
        ((deliveredOn k (c.onRecv packet now io).2.log).length - (deliveredOn k io.log).length) c)
      (c.onRecv packet now io).1 (c.onRecv packet now io).2.log := by
  obtain ⟨xs, hd, hmap, hremembers⟩ := h.remembers.arrival htype hseq hx hn now io
  obtain ⟨fresh, hgrows⟩ := onRecv_grows c packet now io
  have hon := hgrows.deliveredOn hd k
  rw [if_pos hid] at hon
  have hcount : (deliveredOn k (c.onRecv packet now io).2.log).length -
      (deliveredOn k io.log).length = xs.length := by
    rw [hon, List.length_append]
    omega
  rw [hcount]
  exact ⟨hremembers, by rw [hon, List.map_append, List.map_append, h.delivered, hmap]⟩

lemma onRecv_other {j k : ℕ} {c : ChannelVar O U} (hid : (channelId c).toNat = k) (hne : j ≠ k)
    (packet : Packet) (now : Time) (io : Transport) :
    deliveredOn j (c.onRecv packet now io).2.log = deliveredOn j io.log := by
  obtain ⟨fresh, hgrows⟩ := onRecv_grows c packet now io
  rw [hgrows.log, deliveredOn_append, deliveredOn_of_onlyOn hgrows.only, hid,
    if_neg (Ne.symm hne), List.append_nil]

end Arrival

end ReliableUdp.Reception
