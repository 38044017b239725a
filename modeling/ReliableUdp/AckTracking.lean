import ReliableUdp.OrderedDelivery
import ReliableUdp.UnorderedDelivery

/-! What the tracker of the receiver and the acknowledgements in flight cover: only indices the
receiver has delivered or buffered. -/
namespace ReliableUdp.AckTracking
open Protocol ChannelCommon ReliableChannel OrderedReceiver ReliableSender ReliablePair
open OrderedDelivery ReceiveAckTracker
open UnorderedDelivery (Collects collects_start)

variable {C : Type} {ordered : Bool} {Ws Wr W : Window}

/-- An acknowledgement datagram with latest index `l` that acknowledges only indices of `P`. -/
def Acknowledges (codec : LawfulCodec) (P : Set ℕ) (l : ℕ) (d : List Byte) : Prop :=
  ∃ packet S, codec.decode d = .ok packet ∧ packet.type = .ack ∧
    Tracks ⟨true, packet.ack, packet.ackBits⟩ l S ∧ S ⊆ P

lemma Acknowledges.mono {codec : LawfulCodec} {P P' : Set ℕ} {l : ℕ} {d : List Byte}
    (h : Acknowledges codec P l d) (hP : P ⊆ P') : Acknowledges codec P' l d := by
  obtain ⟨packet, S, hdec, htype, ht, hS⟩ := h
  exact ⟨packet, S, hdec, htype, ht, hS.trans hP⟩

/-- The tracker and every acknowledgement in flight cover only indices of `P`. -/
structure Covered (codec : LawfulCodec) (s : Pair C ordered Ws Wr) (P : Set ℕ) : Prop where
  tracker : s.receiver.recvAckTracker.hasReceived = true →
    ∃ S ⊆ P, Tracks s.receiver.recvAckTracker s.latest S
  acks : ∀ a ∈ s.acks, Acknowledges codec P a.1 a.2

lemma Covered.sender {codec : LawfulCodec} {s s' : Pair C ordered Ws Wr} {P : Set ℕ}
    (h : Covered codec s P) (hs : SenderStep s s') : Covered codec s' P := by
  refine ⟨?_, ?_⟩
  · rw [hs.receiver, hs.latest]
    exact h.tracker
  · rw [hs.acks]
    exact h.acks

lemma acknowledges_reply (codec : LawfulCodec) (ch : Channel C ordered W) {l : ℕ} {S P : Set ℕ}
    (ht : Tracks ch.recvAckTracker l S) (hS : S ⊆ P) {reply : Packet}
    (hreply : ch.buildAck = some reply) : Acknowledges codec P l (codec.encodePacket reply) := by
  unfold Channel.buildAck at hreply
  rw [ht.hasReceived] at hreply
  have he := Option.some.inj hreply
  obtain ⟨crc, hdec⟩ := codec.decode_encodePacket reply
  refine ⟨{ reply with crc := crc }, S, hdec, by rw [← he], ?_, hS⟩
  rw [← he]
  exact ⟨rfl, ht.greatest, ht.latest, ht.bits⟩

section Controlled
variable [CongestionCtrl C]

/-- An arrival keeps the cover when the tracker afterwards covers only what the receiver has. -/
lemma Covered.arrival {codec : LawfulCodec} {s : Pair C ordered Ws Wr} {P P' : Set ℕ}
    (h : Covered codec s P) (hP : P ⊆ P') {n : ℕ} {packet : Packet} {now : Time}
    (ht : (s.dataArrives codec n packet now).receiver.recvAckTracker.hasReceived = true →
      ∃ S ⊆ P', Tracks (s.dataArrives codec n packet now).receiver.recvAckTracker
        (s.dataArrives codec n packet now).latest S) :
    Covered codec (s.dataArrives codec n packet now) P' := by
  refine ⟨ht, ?_⟩
  intro a ha
  have hold : ∀ a ∈ s.acks, Acknowledges codec P' a.1 a.2 := fun a ha => (h.acks a ha).mono hP
  have hacks : a ∈ s.acks ∨ ∃ reply, (s.dataArrives codec n packet now).receiver.buildAck =
      some reply ∧ a = ((s.dataArrives codec n packet now).latest, codec.encodePacket reply) := by
    unfold Pair.dataArrives at ha ⊢
    dsimp only at ha ⊢
    cases hb : (s.receiver.onRecv packet now s.receiverIo).1.buildAck with
    | none =>
      simp only [hb, Option.map_none, Option.getD_none, if_true] at ha
      exact Or.inl ha
    | some reply =>
      simp only [hb, Option.map_some, Option.getD_some, codec.encodePacket_ne_nil, if_false,
        List.mem_append, List.mem_singleton] at ha
      exact ha.imp id fun he => ⟨reply, rfl, he⟩
  rcases hacks with hmem | ⟨reply, hreply, rfl⟩
  · exact hold a hmem
  · have hreceived : (s.dataArrives codec n packet now).receiver.recvAckTracker.hasReceived =
        true := by
      unfold Channel.buildAck at hreply
      split_ifs at hreply with hf
      simpa using hf
    obtain ⟨S, hS, htracks⟩ := ht hreceived
    exact acknowledges_reply codec _ htracks hS hreply

/-- The index recorded next to the tracker after an arrival whose tracker has `M` as its greatest
index: the arriving one or the one before. -/
lemma latest_dataArrives {codec : LawfulCodec} {s : Pair C ordered Ws Wr} {n M : ℕ}
    {packet : Packet} {now : Time} {S : Set ℕ} (hseq : packet.seq = wire n)
    (ht : Tracks (s.dataArrives codec n packet now).receiver.recvAckTracker M S)
    (hM : M = n ∨ (M = s.latest ∧ n < M + 65536 ∧ M < n + 65536)) :
    (s.dataArrives codec n packet now).latest = M := by
  have hl : (s.dataArrives codec n packet now).latest =
      if (s.dataArrives codec n packet now).receiver.recvAckTracker.latestSequence = packet.seq
        then n else s.latest := rfl
  rw [hl, ht.latest, hseq]
  rcases hM with rfl | ⟨rfl, h1, h2⟩
  · rw [if_pos rfl]
  · split_ifs with he
    · exact (wire_inj he h2 h1).symm
    · rfl

end Controlled

/-- The ordered receiver with its tracker: everything it has is at most the latest index marked,
which lies in the window or right before it. With the largest window every arrival is marked or
below the window. -/
structure Tracking (codec : LawfulCodec) (s : Pair C true Ws Wr)
    (held : ℕ → Option (List Byte)) : Prop where
  reassembles : Reassembles s held
  covered : Covered codec s {k | Has s.expected held k}
  bounded : ∀ k, Has s.expected held k →
    s.receiver.recvAckTracker.hasReceived = true ∧ k ≤ s.latest
  inWindow : s.receiver.recvAckTracker.hasReceived = true → s.latest < s.expected + Wr.size
  arrived : Wr.size = 32768 → s.received.max? =
    if s.receiver.recvAckTracker.hasReceived then some s.latest else none

lemma tracking_start (codec : LawfulCodec) (id : Byte) (retxTimeout retxTimeout' : ℕ) (cc cc' : C) :
    Tracking codec (Pair.start id retxTimeout retxTimeout' cc cc' : Pair C true Ws Wr)
      (fun _ => none) := by
  refine ⟨reassembles_start id retxTimeout retxTimeout' cc cc', ⟨?_, ?_⟩, ?_, ?_, fun _ => rfl⟩
  · intro h
    cases h
  · intro a ha
    cases ha
  · intro k hk
    rcases hk with hk | hk
    · cases hk
    · cases hk
  · intro h
    cases h

section Tracking
variable {codec : LawfulCodec} {s : Pair C true Ws Wr} {held : ℕ → Option (List Byte)}

lemma Tracking.expected_le (h : Tracking codec s held) : s.expected ≤ s.latest + 1 := by
  by_contra hlt
  have := (h.bounded (s.latest + 1) (Or.inl (by omega))).2
  omega

lemma Tracking.close_latest (h : Tracking codec s held)
    (hreceived : s.receiver.recvAckTracker.hasReceived = true) {n : ℕ}
    (hin : s.expected ≤ n ∧ n < s.expected + Wr.size)
    (hnear : ∀ M ∈ s.received.max?, Close n M) : Close n s.latest := by
  have hmax := Wr.le_max
  have hlow := h.expected_le
  have hhigh := h.inWindow hreceived
  by_cases hW : Wr.size = 32768
  · apply hnear
    rw [h.arrived hW, if_pos hreceived]
    rfl
  · exact close_iff.mpr (by omega)

lemma Tracking.sender (h : Tracking codec s held) {s' : Pair C true Ws Wr} (hs : SenderStep s s') :
    Tracking codec s' held := by
  refine ⟨h.reassembles.sender hs, ?_, ?_, ?_, ?_⟩
  · rw [hs.expected]
    exact h.covered.sender hs
  · rw [hs.receiver, hs.expected, hs.latest]
    exact h.bounded
  · rw [hs.receiver, hs.expected, hs.latest]
    exact h.inWindow
  · rw [hs.receiver, hs.received, hs.latest]
    exact h.arrived

lemma Tracking.asyncRecv (h : Tracking codec s held) (buf handler : ℕ) :
    Tracking codec (s.asyncRecv buf handler) held :=
  ⟨h.reassembles.asyncRecv buf handler, ⟨h.covered.tracker, h.covered.acks⟩, h.bounded, h.inWindow,
    h.arrived⟩

lemma has_of_occupied (h : Reassembles s held) {n : ℕ}
    (hin : s.expected ≤ n ∧ n < s.expected + Wr.size) {b : BufferedPacket}
    (hb : s.receiver.receiveBuffer.get (wire n).toNat = some b) (hown : b.sequenceNumber = wire n) :
    Has s.expected held n := by
  obtain ⟨m, hm, hseq, _⟩ := h.holds.only _ b hb
  have hmn : m = n := h.holds.index_eq hm hin (hseq.symm.trans hown)
  rw [hmn] at hm
  exact Or.inr (by rw [hm]; rfl)

variable [CongestionCtrl C]

lemma Tracking.marked (h : Tracking codec s held) {n : ℕ} {packet : Packet} {now : Time}
    (hseq : packet.seq = wire n) (hin : s.expected ≤ n ∧ n < s.expected + Wr.size)
    (hnear : ∀ M ∈ s.received.max?, Close n M)
    (htracker : (s.dataArrives codec n packet now).receiver.recvAckTracker =
      s.receiver.recvAckTracker.markReceived (wire n)) :
    (∃ S ⊆ insert n {k | Has s.expected held k},
      Tracks (s.dataArrives codec n packet now).receiver.recvAckTracker
        (s.dataArrives codec n packet now).latest S) ∧
    (s.dataArrives codec n packet now).latest =
      if s.receiver.recvAckTracker.hasReceived then max s.latest n else n := by
  cases hreceived : s.receiver.recvAckTracker.hasReceived with
  | false =>
    have ht := tracks_first hreceived n
    rw [← htracker] at ht
    have hl := latest_dataArrives hseq ht (Or.inl rfl)
    refine ⟨⟨{n}, by simp, by rw [hl]; exact ht⟩, by simpa using hl⟩
  | true =>
    have hclose := h.close_latest hreceived hin hnear
    obtain ⟨h1, h2⟩ := close_iff.mp hclose
    obtain ⟨S, hS, ht⟩ := h.covered.tracker hreceived
    have hmark := ht.mark hclose
    rw [← htracker] at hmark
    have hl := latest_dataArrives hseq hmark (by omega)
    exact ⟨⟨insert n S, Set.insert_subset_insert hS, by rw [hl]; exact hmark⟩, by simpa using hl⟩

lemma Tracking.unmarked (h : Tracking codec s held) {n : ℕ} {packet : Packet} {now : Time}
    (hseq : packet.seq = wire n) (hn : Close n s.expected)
    (htracker : (s.dataArrives codec n packet now).receiver.recvAckTracker =
      s.receiver.recvAckTracker)
    (hreceived : s.receiver.recvAckTracker.hasReceived = true) :
    (s.dataArrives codec n packet now).latest = s.latest := by
  obtain ⟨S, _, ht⟩ := h.covered.tracker hreceived
  obtain ⟨h1, h2⟩ := close_iff.mp hn
  have hlow := h.expected_le
  have hhigh := h.inWindow hreceived
  have hmax := Wr.le_max
  rw [← htracker] at ht
  exact latest_dataArrives hseq ht (by omega)

lemma Tracking.outside (h : Tracking codec s held) {n : ℕ} {packet : Packet} {now : Time}
    (hseq : packet.seq = wire n) (hn : Close n s.expected)
    (hre : Reassembles (s.dataArrives codec n packet now) held)
    (hout : ¬(s.expected ≤ n ∧ n < s.expected + Wr.size))
    (htracker : (s.dataArrives codec n packet now).receiver.recvAckTracker =
      s.receiver.recvAckTracker)
    (hexpected : (s.dataArrives codec n packet now).expected = s.expected) :
    Tracking codec (s.dataArrives codec n packet now) held := by
  have hlatest := h.unmarked hseq hn htracker
  refine ⟨hre, ?_, ?_, ?_, ?_⟩
  · refine h.covered.arrival (by rw [hexpected]) ?_
    intro hr
    rw [htracker] at hr ⊢
    rw [hlatest hr, hexpected]
    exact h.covered.tracker hr
  · intro k hk
    rw [hexpected] at hk
    obtain ⟨hr, hle⟩ := h.bounded k hk
    rw [htracker, hlatest hr]
    exact ⟨hr, hle⟩
  · intro hr
    rw [htracker] at hr
    rw [hlatest hr, hexpected]
    exact h.inWindow hr
  · intro hW
    have hlt : n < s.expected := by
      have := close_iff.mp hn
      omega
    obtain ⟨hr, hle⟩ := h.bounded n (Or.inl hlt)
    have htop : (s.dataArrives codec n packet now).received.max? = _ := max?_concat s.received n
    rw [htop, h.arrived hW, htracker, hlatest hr, if_pos hr]
    simp [hle]

lemma Tracking.occupied (h : Tracking codec s held) {n : ℕ} {packet : Packet} {now : Time}
    (hseq : packet.seq = wire n) (hnear : ∀ M ∈ s.received.max?, Close n M)
    (hre : Reassembles (s.dataArrives codec n packet now) held)
    (hin : s.expected ≤ n ∧ n < s.expected + Wr.size) (hhas : Has s.expected held n)
    (htracker : (s.dataArrives codec n packet now).receiver.recvAckTracker =
      s.receiver.recvAckTracker.markReceived (wire n))
    (hexpected : (s.dataArrives codec n packet now).expected = s.expected) :
    Tracking codec (s.dataArrives codec n packet now) held := by
  obtain ⟨hr, hle⟩ := h.bounded n hhas
  obtain ⟨⟨S, hS, ht⟩, hlatest⟩ := h.marked hseq hin hnear htracker
  rw [if_pos hr, max_eq_left hle] at hlatest
  refine ⟨hre, ?_, ?_, ?_, ?_⟩
  · refine h.covered.arrival (by rw [hexpected]) (fun _ => ⟨S, ?_, ht⟩)
    rw [hexpected]
    exact hS.trans (Set.insert_subset hhas subset_rfl)
  · intro k hk
    rw [hexpected] at hk
    rw [hlatest]
    exact ⟨ht.hasReceived, (h.bounded k hk).2⟩
  · intro _
    rw [hlatest, hexpected]
    exact h.inWindow hr
  · intro hW
    have htop : (s.dataArrives codec n packet now).received.max? = _ := max?_concat s.received n
    rw [htop, h.arrived hW, if_pos hr, if_pos ht.hasReceived, hlatest]
    simp [hle]

lemma Tracking.stored (h : Tracking codec s held) {held' : ℕ → Option (List Byte)} {n : ℕ}
    {packet : Packet} {now : Time} (hseq : packet.seq = wire n)
    (hnear : ∀ M ∈ s.received.max?, Close n M)
    (hre : Reassembles (s.dataArrives codec n packet now) held')
    (hin : s.expected ≤ n ∧ n < s.expected + Wr.size)
    (htracker : (s.dataArrives codec n packet now).receiver.recvAckTracker =
      s.receiver.recvAckTracker.markReceived (wire n))
    (hexpected : s.expected ≤ (s.dataArrives codec n packet now).expected)
    (hhas : ∀ k, Has (s.dataArrives codec n packet now).expected held' k ↔
      Has s.expected held k ∨ k = n) :
    Tracking codec (s.dataArrives codec n packet now) held' := by
  obtain ⟨⟨S, hS, ht⟩, hlatest⟩ := h.marked hseq hin hnear htracker
  have hset : {k | Has (s.dataArrives codec n packet now).expected held' k} =
      insert n {k | Has s.expected held k} := by
    ext k
    exact (hhas k).trans or_comm
  refine ⟨hre, ?_, ?_, ?_, ?_⟩
  · rw [hset]
    exact h.covered.arrival (Set.subset_insert _ _) (fun _ => ⟨S, hS, ht⟩)
  · intro k hk
    refine ⟨ht.hasReceived, ?_⟩
    rw [hlatest]
    rcases (hhas k).mp hk with hk | rfl
    · obtain ⟨hr, hle⟩ := h.bounded k hk
      rw [if_pos hr]
      exact le_max_of_le_left hle
    · split_ifs
      · exact le_max_right _ _
      · exact le_rfl
  · intro _
    rw [hlatest]
    split_ifs with hr
    · have := h.inWindow hr
      omega
    · omega
  · intro hW
    have htop : (s.dataArrives codec n packet now).received.max? = _ := max?_concat s.received n
    rw [htop, h.arrived hW, if_pos ht.hasReceived, hlatest]
    split_ifs <;> rfl

/-- An arrival that finds its slot free, or taken by a packet with the same number, keeps the
tracker covered. -/
theorem Tracking.arrival (h : Tracking codec s held) {n : ℕ} (hn : Close n s.expected)
    (hnear : ∀ M ∈ s.received.max?, Close n M)
    (hown : ∀ b ∈ s.receiver.receiveBuffer.get (wire n).toNat,
      s.expected ≤ n ∧ n < s.expected + Wr.size → b.sequenceNumber = wire n)
    {packet : Packet} (htype : packet.type = .data) (hseq : packet.seq = wire n)
    (hsent : s.sent[n]? = some packet.payload) (now : Time) :
    ∃ held', Tracking codec (s.dataArrives codec n packet now) held' ∧
      Arrived s (s.dataArrives codec n packet now) held held' n := by
  obtain ⟨held', hre, har⟩ := h.reassembles.arrival codec hn htype hseq hsent now
  refine ⟨held', ?_, har⟩
  cases har with
  | outside hout htracker hexpected hheld =>
    subst hheld
    exact h.outside hseq hn hre hout htracker hexpected
  | occupied hin b hb htracker hexpected hheld =>
    subst hheld
    have hhas := has_of_occupied h.reassembles hin hb (hown b hb hin)
    exact h.occupied hseq hnear hre hin hhas htracker hexpected
  | stored hin hfree htracker hexpected hhas =>
    exact h.stored hseq hnear hre hin htracker hexpected hhas

/-- Arriving indices are near the expected one and the highest received, and none in the window
finds its slot taken by another number. -/
def Unclashing (s : Pair C true Ws Wr) : Event → Prop
  | .dataArrives position _ => ∀ p ∈ s.data[position]?,
      Close p.1 s.expected ∧ (∀ M ∈ s.received.max?, Close p.1 M) ∧
        ∀ b ∈ s.receiver.receiveBuffer.get (wire p.1).toNat,
          s.expected ≤ p.1 ∧ p.1 < s.expected + Wr.size → b.sequenceNumber = wire p.1
  | _ => True

theorem Tracking.step (h : Tracking codec s held) (hsound : Sound codec s) {e : Event}
    (hg : Unclashing s e) :
    ∃ held', Tracking codec (s.step codec e) held' ∧
      ∀ k, Has s.expected held k → Has (s.step codec e).expected held' k := by
  have hstep := hsound.stepped e
  generalize s.step codec e = s' at hstep
  cases hstep with
  | sender _ _ hsame =>
    refine ⟨held, h.sender hsame, ?_⟩
    intro k hk
    rw [hsame.expected]
    exact hk
  | arrival position now n d packet hget htype hseq hsent =>
    obtain ⟨hn, hnear, hown⟩ := hg (n, d) hget
    obtain ⟨held', hs', har⟩ := h.arrival hn hnear hown htype hseq hsent now
    refine ⟨held', hs', ?_⟩
    intro k hk
    cases har with
    | outside _ _ hexpected hheld =>
      rw [hexpected, hheld]
      exact hk
    | occupied _ _ _ _ hexpected hheld =>
      rw [hexpected, hheld]
      exact hk
    | stored _ _ _ _ hhas => exact (hhas k).mpr (Or.inl hk)
  | asyncRecv buf handler => exact ⟨held, h.asyncRecv buf handler, fun _ hk => hk⟩

end Tracking

/-- Two indices of one window share a slot only if they are equal, when the window divides the
range of sequence numbers or neither index has wrapped. -/
lemma slot_injective {E m n : ℕ} (hm : E ≤ m ∧ m < E + W.size) (hn : E ≤ n ∧ n < E + W.size)
    (hslot : (wire m).toNat % W.size = (wire n).toNat % W.size)
    (h : W.size ∣ 65536 ∨ (m < 65536 ∧ n < 65536)) : m = n := by
  have hmod : m % W.size = n % W.size := by
    rw [wire_toNat, wire_toNat] at hslot
    rcases h with hdvd | ⟨h1, h2⟩
    · rwa [Nat.mod_mod_of_dvd _ hdvd, Nat.mod_mod_of_dvd _ hdvd] at hslot
    · rwa [Nat.mod_eq_of_lt h1, Nat.mod_eq_of_lt h2] at hslot
  rcases le_total m n with hle | hle
  · have hz := Nat.eq_zero_of_dvd_of_lt ((Nat.modEq_iff_dvd' hle).mp hmod) (by omega)
    omega
  · have hz := Nat.eq_zero_of_dvd_of_lt ((Nat.modEq_iff_dvd' hle).mp hmod.symm) (by omega)
    omega

structure Recording (codec : LawfulCodec) (s : Pair C false Ws Wr) : Prop where
  collects : Collects s
  covered : Covered codec s {n | n ∈ s.handed}
  latest : ∀ M ∈ s.received.max?, s.latest = M

lemma recording_start (codec : LawfulCodec) (id : Byte) (retxTimeout retxTimeout' : ℕ)
    (cc cc' : C) :
    Recording codec (Pair.start id retxTimeout retxTimeout' cc cc' : Pair C false Ws Wr) := by
  refine ⟨collects_start id retxTimeout retxTimeout' cc cc', ⟨?_, ?_⟩, ?_⟩
  · intro h
    cases h
  · intro a ha
    cases ha
  · intro M hM
    cases hM

section Recording
variable {codec : LawfulCodec} {s : Pair C false Ws Wr}

lemma Recording.sender (h : Recording codec s) {s' : Pair C false Ws Wr} (hs : SenderStep s s') :
    Recording codec s' := by
  refine ⟨h.collects.sender hs, ?_, ?_⟩
  · rw [hs.handed]
    exact h.covered.sender hs
  · rw [hs.received, hs.latest]
    exact h.latest

lemma Recording.asyncRecv (h : Recording codec s) (buf handler : ℕ) :
    Recording codec (s.asyncRecv buf handler) :=
  ⟨h.collects.asyncRecv buf handler, ⟨h.covered.tracker, h.covered.acks⟩, h.latest⟩

theorem Recording.arrival [CongestionCtrl C] (h : Recording codec s) {n : ℕ}
    (hn : ∀ M ∈ s.received.max?, Close n M) {packet : Packet} (htype : packet.type = .data)
    (hseq : packet.seq = wire n) (hsent : s.sent[n]? = some packet.payload) (now : Time) :
    Recording codec (s.dataArrives codec n packet now) := by
  obtain ⟨hcollects, harrived⟩ := h.collects.arrival codec hn htype hseq hsent now
  have htop : (s.dataArrives codec n packet now).received.max? =
      some (s.received.max?.elim n (max · n)) := max?_concat s.received n
  obtain ⟨M, hM, ht⟩ := hcollects.tracker.resolve_left (by simp [htop])
  have hlatest : (s.dataArrives codec n packet now).latest = M := by
    apply latest_dataArrives hseq ht
    rw [htop, Option.some.injEq] at hM
    cases hold : s.received.max? with
    | none =>
      rw [hold] at hM
      exact Or.inl hM.symm
    | some M' =>
      rw [hold, Option.elim_some] at hM
      have hl := h.latest M' hold
      have := close_iff.mp (hn M' hold)
      omega
  have hsub : {k | k ∈ s.handed} ⊆ {k | k ∈ (s.dataArrives codec n packet now).handed} := by
    intro k hk
    exact List.mem_append_left _ hk
  refine ⟨hcollects, h.covered.arrival hsub (fun _ => ⟨_, subset_rfl, by rw [hlatest]; exact ht⟩), ?_⟩
  intro M' hM'
  rw [hlatest]
  exact Option.some.inj (hM.symm.trans hM')

end Recording

section Controlled
variable [CongestionCtrl C]

lemma Covered.removed {codec : LawfulCodec} {s : Pair C ordered Ws Wr} {P : Set ℕ}
    (h : Covered codec s P) (hsound : Sound codec s) {position : ℕ} {now : Time}
    (hnear : ∀ a ∈ s.acks[position]?, ∀ p ∈ s.indexed, Close p.1 a.1) {k : ℕ} {sp : SentPacket}
    (hsp : s.sender.sentPackets.get k = some sp)
    (hremoved : (s.step codec (.ackArrives position now)).sender.sentPackets.get k = none) :
    s.owner (k % Ws.size) ∈ P := by
  cases hget : s.acks[position]? with
  | none =>
    simp only [Pair.step, hget] at hremoved
    rw [hsp] at hremoved
    cases hremoved
  | some a =>
    obtain ⟨l, d⟩ := a
    obtain ⟨packet, S, hdec, htype, ht, hS⟩ := h.acks (l, d) (List.mem_of_getElem? hget)
    have hclose := hnear (l, d) hget _ (mem_indexed_of_get hsp)
    simp only [Pair.step, hget, hdec, Pair.packetArrives, Channel.onRecv, htype, if_true,
      processAck_get, hsp, acked, (hsound.stored k sp hsp).seq] at hremoved
    split_ifs at hremoved with hack
    rw [Bool.not_eq_false] at hack
    exact hS ((ht.isAcknowledged_iff hclose).mp hack).1

end Controlled
end ReliableUdp.AckTracking
