import ReliableUdp.ReliablePair
import ReliableUdp.DefaultCodec

/-! The unordered receiver: at most one delivery per index, and exactly which indices its
history of 32 entries lets through. -/
namespace ReliableUdp.UnorderedDelivery
open Protocol ChannelCommon ReliableChannel OrderedReceiver ReliableSender ReliablePair
open ReceiveAckTracker

variable {C : Type} {Ws Wr : Window}

/-- A nearby index is dropped when it was delivered or lies more than 32 below the highest. -/
lemma isDuplicateOrStaleUnordered_iff {ordered : Bool} {W : Window} {ch : Channel C ordered W}
    {M n : ℕ} {S : Set ℕ} (h : Tracks ch.recvAckTracker M S) (hn : Close n M) :
    ch.isDuplicateOrStaleUnordered (wire n) = true ↔ n ∈ S ∨ n + 32 < M := by
  obtain ⟨h1, h2⟩ := close_iff.mp hn
  have hack := h.isAcknowledged_iff hn
  unfold Channel.isDuplicateOrStaleUnordered
  simp only [h.hasReceived, Bool.true_eq_false, if_false]
  rw [h.latest, isNewerSequence_wire hn]
  rw [h.latest] at hack
  rcases lt_or_ge M n with hlt | hle
  · have hnot : n ∉ S := fun hmem => by
      have := h.greatest.2 hmem
      omega
    simp only [hlt, decide_true, if_true, Bool.false_eq_true, false_iff, not_or]
    exact ⟨hnot, by omega⟩
  · have hdist : (wire M - wire n).toNat = M - n := wire_sub_of_le hle (by omega)
    simp only [Nat.not_lt.mpr hle, decide_false, Bool.false_eq_true, if_false, hdist,
      Bool.or_eq_true, decide_eq_true_eq, hack, kAckHistorySize]
    by_cases hmem : n ∈ S
    · simp only [hmem, true_and, true_or, iff_true]
      omega
    · simp only [hmem, false_and, or_false, false_or]
      omega

inductive Received {W : Window} (ch : Channel C false W) (io : Transport) (top : Option ℕ)
    (S : Set ℕ) (n : ℕ) (x : List Byte) : Channel C false W × Transport → Prop
  | dropped (M : ℕ) (hM : top = some M) (hold : n ∈ S ∨ n + 32 < M) :
      Received ch io top S n x (ch, io)
  | delivered (hnew : n ∉ S) (hnear : ∀ M ∈ top, M ≤ n + 32) :
      Received ch io top S n x
        ({ ch with recvAckTracker := ch.recvAckTracker.markReceived (wire n) }.deliver x io)

theorem receiveUnordered_spec {W : Window} (ch : Channel C false W) (io : Transport)
    {top : Option ℕ} {S : Set ℕ} (h : Marked ch.recvAckTracker top S) {n : ℕ}
    (hn : ∀ M ∈ top, Close n M) (packet : Packet) (hseq : packet.seq = wire n) :
    Received ch io top S n packet.payload (ch.receiveUnordered packet io) := by
  unfold Channel.receiveUnordered
  rw [hseq]
  rcases h with ⟨rfl, rfl, hfresh⟩ | ⟨M, rfl, ht⟩
  · have hd : ch.isDuplicateOrStaleUnordered (wire n) = false := by
      simp [Channel.isDuplicateOrStaleUnordered, hfresh]
    rw [hd, if_neg (by simp)]
    exact .delivered (by simp) (by simp)
  · have hd := isDuplicateOrStaleUnordered_iff ht (hn M rfl)
    split_ifs with hdup
    · exact .dropped M rfl (hd.mp hdup)
    · rw [hd, not_or] at hdup
      refine .delivered hdup.1 ?_
      intro M' hM'
      have := Option.some.inj hM'
      omega

/-- The delivered payloads are those of the indices handed over, each at most once, and the
tracker remembers them. -/
structure Collects (s : Pair C false Ws Wr) : Prop where
  nodup : s.handed.Nodup
  delivered : (delivered s.receiverIo.log).map some = s.handed.map fun n => s.sent[n]?
  sent : ∀ n ∈ s.handed, n < s.sent.length
  packetsRecv : s.receiverIo.stats.packetsRecv = s.handed.length
  tracker : Marked s.receiver.recvAckTracker s.received.max? {n | n ∈ s.handed}

lemma collects_start (id : Byte) (retxTimeout retxTimeout' : ℕ) (cc cc' : C) :
    Collects (Pair.start id retxTimeout retxTimeout' cc cc' : Pair C false Ws Wr) :=
  ⟨List.nodup_nil, rfl, by simp [Pair.start], rfl, Or.inl ⟨rfl, by simp [Pair.start], rfl⟩⟩

lemma Collects.sender {s s' : Pair C false Ws Wr} (h : Collects s) (hs : SenderStep s s') :
    Collects s' := by
  refine ⟨?_, ?_, ?_, ?_, ?_⟩
  · rw [hs.handed]
    exact h.nodup
  · rw [hs.receiverIo, hs.handed, h.delivered]
    apply List.map_congr_left
    intro n hn
    have hlt := h.sent n hn
    rw [hs.getElem? (List.getElem?_eq_getElem hlt), List.getElem?_eq_getElem hlt]
  · intro n hn
    rw [hs.handed] at hn
    exact (h.sent n hn).trans_le hs.sent.length_le
  · rw [hs.receiverIo, hs.handed, h.packetsRecv]
  · rw [hs.receiver, hs.received, hs.handed]
    exact h.tracker

lemma Collects.asyncRecv {s : Pair C false Ws Wr} (h : Collects s) (buf handler : ℕ) :
    Collects (s.asyncRecv buf handler) :=
  ⟨h.nodup, by rw [delivered_asyncRecv]; exact h.delivered, h.sent, h.packetsRecv, h.tracker⟩

lemma Collects.kept {s s' : Pair C false Ws Wr} (h : Collects s) (hsent : s'.sent = s.sent)
    (hhanded : s'.handed = s.handed)
    (hdelivered : Protocol.delivered s'.receiverIo.log = Protocol.delivered s.receiverIo.log)
    (hrecv : s'.receiverIo.stats.packetsRecv = s.receiverIo.stats.packetsRecv)
    (htracker : Marked s'.receiver.recvAckTracker s'.received.max? {n | n ∈ s.handed}) :
    Collects s' := by
  refine ⟨?_, ?_, ?_, ?_, ?_⟩
  · rw [hhanded]
    exact h.nodup
  · rw [hdelivered, hhanded, hsent]
    exact h.delivered
  · rw [hhanded, hsent]
    exact h.sent
  · rw [hrecv, hhanded]
    exact h.packetsRecv
  · rw [hhanded]
    exact htracker

lemma Collects.extended {s s' : Pair C false Ws Wr} (h : Collects s) {n : ℕ} {x : List Byte}
    (hnew : n ∉ s.handed) (hx : s.sent[n]? = some x) (hsent : s'.sent = s.sent)
    (hhanded : s'.handed = s.handed ++ [n])
    (hdelivered : Protocol.delivered s'.receiverIo.log =
      Protocol.delivered s.receiverIo.log ++ [x])
    (hrecv : s'.receiverIo.stats.packetsRecv = s.receiverIo.stats.packetsRecv + 1)
    (htracker : Marked s'.receiver.recvAckTracker s'.received.max?
      (insert n {n | n ∈ s.handed})) : Collects s' := by
  refine ⟨?_, ?_, ?_, ?_, ?_⟩
  · rw [hhanded]
    exact h.nodup.append (List.nodup_singleton n) (by simpa using hnew)
  · rw [hdelivered, hhanded, hsent, List.map_append, List.map_append, h.delivered,
      List.map_singleton, List.map_singleton, hx]
  · intro k hk
    rw [hhanded, List.mem_append, List.mem_singleton] at hk
    rw [hsent]
    rcases hk with hk | rfl
    · exact h.sent k hk
    · exact (List.getElem?_eq_some_iff.mp hx).1
  · rw [hrecv, hhanded, h.packetsRecv, List.length_append, List.length_singleton]
  · have hset : {k | k ∈ s.handed ++ [n]} = insert n {k | k ∈ s.handed} := by
      ext k
      simp [or_comm]
    rw [hhanded, hset]
    exact htracker

section Controlled
variable [CongestionCtrl C]

inductive Arrived (s s' : Pair C false Ws Wr) (n : ℕ) (x : List Byte) : Prop
  | dropped (hold : n ∈ s.handed ∨ ∃ M ∈ s.received.max?, n + 32 < M)
      (hhanded : s'.handed = s.handed)
      (hdelivered : Protocol.delivered s'.receiverIo.log = Protocol.delivered s.receiverIo.log)
  | delivered (hnew : n ∉ s.handed) (hnear : ∀ M ∈ s.received.max?, M ≤ n + 32)
      (hhanded : s'.handed = s.handed ++ [n])
      (hdelivered : Protocol.delivered s'.receiverIo.log =
        Protocol.delivered s.receiverIo.log ++ [x])

theorem Collects.arrival {s : Pair C false Ws Wr} (h : Collects s) (codec : LawfulCodec) {n : ℕ}
    (hn : ∀ M ∈ s.received.max?, Close n M) {packet : Packet} (htype : packet.type = .data)
    (hseq : packet.seq = wire n) (hsent : s.sent[n]? = some packet.payload) (now : Time) :
    Collects (s.dataArrives codec n packet now) ∧
      Arrived s (s.dataArrives codec n packet now) n packet.payload := by
  have hrecv : s.receiver.onRecv packet now s.receiverIo =
      s.receiver.receiveUnordered packet s.receiverIo := by
    rw [Channel.onRecv, htype, if_neg (by decide), if_neg (by simp), if_neg (by simp)]
  have hlog := delivered_dataArrives codec s n packet now
  have hspec := receiveUnordered_spec s.receiver s.receiverIo h.tracker hn packet hseq
  rw [← hrecv] at hspec
  have hstats : (s.dataArrives codec n packet now).receiverIo.stats =
      (s.receiver.onRecv packet now s.receiverIo).2.stats := by
    unfold Pair.dataArrives
    dsimp only
    split_ifs <;> rfl
  have htop : (s.dataArrives codec n packet now).received.max? =
      some (s.received.max?.elim n (max · n)) := max?_concat s.received n
  have hreceiver : (s.dataArrives codec n packet now).receiver =
      (s.receiver.onRecv packet now s.receiverIo).1 := rfl
  have hhanded : (s.dataArrives codec n packet now).handed = s.handed ++ List.replicate
      ((Protocol.delivered (s.receiver.onRecv packet now s.receiverIo).2.log).length -
        (Protocol.delivered s.receiverIo.log).length) n := rfl
  generalize s.receiver.onRecv packet now s.receiverIo = r at hspec hlog hstats hreceiver hhanded
  cases hspec with
  | dropped M hM hold =>
    have hsame : (s.dataArrives codec n packet now).handed = s.handed := by simpa using hhanded
    refine ⟨h.kept rfl hsame hlog (by rw [hstats]) ?_,
      .dropped (hold.imp id fun hlt => ⟨M, hM, hlt⟩) hsame hlog⟩
    rw [hreceiver, htop, hM]
    obtain ⟨M', hM', ht⟩ := h.tracker.resolve_left (by simp [hM])
    have he : M' = M := Option.some.inj (hM'.symm.trans hM)
    subst he
    refine Or.inr ⟨M', ?_, ht⟩
    have hle : n ≤ M' := by
      rcases hold with hmem | hlt
      · exact ht.greatest.2 hmem
      · omega
    simp [hle]
  | delivered hnew hnear =>
    have hdel := delivered_deliver
      ({ s.receiver with recvAckTracker := s.receiver.recvAckTracker.markReceived (wire n) } :
        Channel C false Wr) packet.payload s.receiverIo
    have hone : (s.dataArrives codec n packet now).handed = s.handed ++ [n] := by
      rw [hhanded, hdel]
      simp
    refine ⟨h.extended hnew hsent rfl hone (hlog.trans hdel) ?_ ?_,
      .delivered hnew hnear hone (hlog.trans hdel)⟩
    · rw [hstats]
      rfl
    · rw [hreceiver, htop]
      exact h.tracker.mark hn

/-- Every arriving Data packet has an index less than 32768 away from the highest received. -/
def NearHighest (s : Pair C false Ws Wr) : Event → Prop
  | .dataArrives position _ => ∀ p ∈ s.data[position]?, ∀ M ∈ s.received.max?, Close p.1 M
  | _ => True

instance (s : Pair C false Ws Wr) (e : Event) : Decidable (NearHighest s e) :=
  match e with
  | .dataArrives position _ =>
    inferInstanceAs (Decidable (∀ p ∈ s.data[position]?, ∀ M ∈ s.received.max?, Close p.1 M))
  | .asyncSend .. | .sendCompleted .. | .onTick _ | .flush | .ackArrives .. | .packetArrives ..
  | .asyncRecv .. => .isTrue trivial

theorem collects_of_reachable {codec : LawfulCodec} {id : Byte} {retxTimeout retxTimeout' : ℕ}
    {cc cc' : C} {guard : Pair C false Ws Wr → Event → Prop}
    (hguard : ∀ s e, guard s e → NearHighest s e) {s : Pair C false Ws Wr}
    (h : Runs.Reachable (Pair.step codec) guard
      (Pair.start id retxTimeout retxTimeout' cc cc') s) : Collects s := by
  refine receiver_invariant h (collects_start id retxTimeout retxTimeout' cc cc')
    (fun s s' hs => hs.sender) ?_ (fun s buf handler hs => hs.asyncRecv buf handler)
  intro s position now n d packet hs hg hget htype hseq hsent
  have hn : ∀ M ∈ s.received.max?, Close n M := hguard _ _ hg (n, d) (by rw [hget]; rfl)
  exact (hs.arrival codec hn htype hseq hsent now).1

/-- Every index is delivered at most once, with the payload it was allocated to, and counted. -/
theorem delivered_at_most_once (codec : LawfulCodec) (id : Byte) (retxTimeout retxTimeout' : ℕ)
    (cc cc' : C) (s : Pair C false Ws Wr)
    (h : Runs.Reachable (Pair.step codec) NearHighest
      (Pair.start id retxTimeout retxTimeout' cc cc') s) :
    s.handed.Nodup ∧
      (delivered s.receiverIo.log).map some = s.handed.map (fun n => s.sent[n]?) ∧
      s.receiverIo.stats.packetsRecv = (delivered s.receiverIo.log).length := by
  have hs := collects_of_reachable (fun _ _ hg => hg) h
  refine ⟨hs.nodup, hs.delivered, ?_⟩
  have hlength := congrArg List.length hs.delivered
  rw [List.length_map, List.length_map] at hlength
  rw [hs.packetsRecv, hlength]

end Controlled

/-- The second packet arrives before the first and again after it. -/
def duplicatedRun : List Event :=
  [.asyncSend [7#8] 0 0, .asyncSend [9#8] 1 0, .dataArrives 1 1, .dataArrives 0 2, .dataArrives 1 3]

def duplicatedState : Pair Null false (normalizeWindow 4) (normalizeWindow 1) :=
  duplicatedRun.foldl (Pair.step DefaultCodec.defaultCodec) (Pair.start 0 200 200 ⟨⟩ ⟨⟩)

theorem delivered_at_most_once_duplicated :
    duplicatedState.handed = [1, 0] ∧ duplicatedState.received = [1, 0, 1] ∧
      duplicatedState.receiverIo.stats.packetsRecv =
        (delivered duplicatedState.receiverIo.log).length := by
  have hreach : Runs.Reachable (Pair.step DefaultCodec.defaultCodec) NearHighest
      (Pair.start 0 200 200 ⟨⟩ ⟨⟩) duplicatedState :=
    Runs.reachable_foldl .start duplicatedRun (by decide +kernel)
  exact ⟨by decide +kernel, by decide +kernel,
    (delivered_at_most_once DefaultCodec.defaultCodec 0 200 200 ⟨⟩ ⟨⟩ duplicatedState hreach).2.2⟩

/-- What a sender with the window of the receiver may have outstanding. -/
def Outstanding (s : Pair C false Ws Wr) : Event → Prop
  | .dataArrives position _ => ∀ p ∈ s.data[position]?, ∀ M ∈ s.received.max?,
      M ≤ p.1 + (Wr.size - 1) ∧ p.1 < M + 32768
  | _ => True

instance (s : Pair C false Ws Wr) (e : Event) : Decidable (Outstanding s e) :=
  match e with
  | .dataArrives position _ =>
    inferInstanceAs (Decidable (∀ p ∈ s.data[position]?, ∀ M ∈ s.received.max?,
      M ≤ p.1 + (Wr.size - 1) ∧ p.1 < M + 32768))
  | .asyncSend .. | .sendCompleted .. | .onTick _ | .flush | .ackArrives .. | .packetArrives ..
  | .asyncRecv .. => .isTrue trivial

lemma nearHighest_of_outstanding (s : Pair C false Ws Wr) (e : Event) (h : Outstanding s e) :
    NearHighest s e := by
  cases e with
  | dataArrives position now =>
    intro p hp M hM
    have hpos := Wr.pos
    have hmax := Wr.le_max
    have := h p hp M hM
    exact close_iff.mpr (by omega)
  | _ => trivial

/-- And no Data packet has arrived exactly 32 ahead of the latest one. -/
def Permitted (s : Pair C false Ws Wr) (e : Event) : Prop := Outstanding s e ∧ ShiftDefined s e

instance (s : Pair C false Ws Wr) (e : Event) : Decidable (Permitted s e) :=
  inferInstanceAs (Decidable (_ ∧ _))

section Controlled
variable [CongestionCtrl C]

/-- An index not delivered before is delivered by its arrival exactly when it is at most 32 below
the highest index received. -/
theorem fresh_delivered_iff (codec : LawfulCodec) (id : Byte) (retxTimeout retxTimeout' : ℕ)
    (cc cc' : C) (s : Pair C false Ws Wr)
    (h : Runs.Reachable (Pair.step codec) Permitted
      (Pair.start id retxTimeout retxTimeout' cc cc') s)
    (position : ℕ) (now : Time) (n : ℕ) (d x : List Byte)
    (hget : s.data[position]? = some (n, d)) (hx : s.sent[n]? = some x)
    (hout : Outstanding s (.dataArrives position now)) (hnew : n ∉ s.handed) :
    delivered (s.step codec (.dataArrives position now)).receiverIo.log =
        delivered s.receiverIo.log ++ [x] ↔
      ∀ M ∈ s.received.max?, M ≤ n + 32 := by
  have hsound := sound_of_reachable h
  have hs := collects_of_reachable (fun s e he => nearHighest_of_outstanding s e he.1) h
  have hn : ∀ M ∈ s.received.max?, Close n M :=
    nearHighest_of_outstanding s _ hout (n, d) (by rw [hget]; rfl)
  obtain ⟨packet, hdec, htype, hseq, hsent⟩ := hsound.data (n, d) (List.mem_of_getElem? hget)
  have hstep : s.step codec (.dataArrives position now) = s.dataArrives codec n packet now := by
    simp only [Pair.step, hget, hdec]
  have hpay : packet.payload = x := Option.some.inj (hsent.symm.trans hx)
  have harrived := (hs.arrival codec hn htype hseq hsent now).2
  rw [hstep]
  cases harrived with
  | dropped hold hhanded hdelivered =>
    obtain ⟨M, hM, hfar⟩ := hold.resolve_left hnew
    rw [hdelivered]
    constructor
    · intro heq
      simp at heq
    · intro hnear
      have := hnear M hM
      omega
  | delivered _ hnear hhanded hdelivered =>
    rw [hdelivered, hpay]
    exact iff_of_true rfl hnear

end Controlled

/-- With the default window 34 packets are sent and the last one arrives first. -/
def overtakenRun : List Event :=
  (List.range 34).map (fun i => .asyncSend [BitVec.ofNat 8 i] i 0) ++ [.dataArrives 33 1]

def overtakenState : Pair Null false (normalizeWindow 128) (normalizeWindow 128) :=
  overtakenRun.foldl (Pair.step DefaultCodec.defaultCodec) (Pair.start 0 200 200 ⟨⟩ ⟨⟩)

lemma overtaken_reachable : Runs.Reachable (Pair.step DefaultCodec.defaultCodec) Permitted
    (Pair.start 0 200 200 ⟨⟩ ⟨⟩) overtakenState :=
  Runs.reachable_foldl .start overtakenRun (by decide +kernel)

/-- The second packet, 32 below the highest, is still delivered. -/
theorem fresh_delivered_iff_overtaken :
    delivered (overtakenState.step DefaultCodec.defaultCodec (.dataArrives 1 2)).receiverIo.log =
      delivered overtakenState.receiverIo.log ++ [[1#8]] := by
  have hindex : (overtakenState.data[1]?).map Prod.fst = some 1 := by decide +kernel
  obtain ⟨⟨n, d⟩, hget, rfl⟩ := Option.map_eq_some_iff.mp hindex
  exact (fresh_delivered_iff DefaultCodec.defaultCodec 0 200 200 ⟨⟩ ⟨⟩ overtakenState
    overtaken_reachable 1 2 1 d [1#8] hget (by decide +kernel) (by decide +kernel)
    (by decide +kernel)).mpr (by decide +kernel)

/-- The first packet, 33 below the highest, was never delivered and is dropped. -/
theorem overtaken_index_dropped :
    Runs.Reachable (Pair.step DefaultCodec.defaultCodec) Outstanding
        (Pair.start 0 200 200 ⟨⟩ ⟨⟩) overtakenState ∧
      (overtakenState.data[0]?).map Prod.fst = some 0 ∧ overtakenState.sent[0]? = some [0#8] ∧
      Outstanding overtakenState (.dataArrives 0 2) ∧ 0 ∉ overtakenState.handed ∧
      delivered (overtakenState.step DefaultCodec.defaultCodec (.dataArrives 0 2)).receiverIo.log ≠
        delivered overtakenState.receiverIo.log ++ [[0#8]] :=
  ⟨overtaken_reachable.mono fun _ _ he => he.1, by decide +kernel, by decide +kernel,
    by decide +kernel, by decide +kernel, by decide +kernel⟩

end ReliableUdp.UnorderedDelivery
