import ReliableUdp.ArrivalOrder
import ReliableUdp.AckCoverage

/-! The ordered receive window against the acknowledgement tracker. The window accepts up to its
size from the expected index on, the tracker compares with the highest accepted index, which may be
one below the expected one. Only the last index of the largest window is half the range away. -/
namespace ReliableUdp.ReceiveTracking
open Protocol ChannelCommon ReliableChannel OrderedReceiver OrderedDelivery ReliableSender
  Reassembly ReceiveWindow ArrivalOrder AckCoverage Runs

structure TrackedRun (C : Type) (W : Window) where
  run : ReceiveRun C W
  highest : Option ℕ := none

section Definitions
variable {C : Type} {W : Window}

/-- The index of a Data packet that the window accepts. -/
def accepted (s : ReceiveRun C W) : Event → Option ℕ
  | .onRecv packet _ =>
    if packet.type = .data ∧ s.channel.isInOrderedReceiveWindow packet.seq = true then
      some (s.expected + (packet.seq - s.channel.expectedRecvSeq).toNat)
    else none
  | _ => none

namespace TrackedRun

def start (id : Byte) (retxTimeout : ℕ) (cc : C) : TrackedRun C W :=
  { run := ReceiveRun.start id retxTimeout cc }

def step [CongestionCtrl C] (codec : PacketCodec) (s : TrackedRun C W) (e : Event) :
    TrackedRun C W :=
  { run := s.run.step codec e
    highest :=
      match accepted s.run e with
      | none => s.highest
      | some n => some (s.highest.elim n (max · n)) }

end TrackedRun

/-- The tracker's latest number is that of the highest accepted index. -/
def Tracked (s : TrackedRun C W) : Prop :=
  ∀ n, s.highest = some n → s.run.channel.recvAckTracker.latestSequence = wire n

/-- The event does not accept the index half the range above the highest accepted one. -/
def InHalfRange (s : TrackedRun C W) (e : Event) : Prop :=
  ∀ n h, accepted s.run e = some n → s.highest = some h → n ≠ h + 32768

end Definitions

section Ranges
variable {C : Type} {W : Window} {s : TrackedRun C W} {held : ℕ → Option (List Byte)}

/-- Where the received and the accepted indices are, and whether the tracker has begun. -/
structure Ranges (s : TrackedRun C W) (held : ℕ → Option (List Byte)) : Prop where
  holds : Holds s.run.channel.expectedRecvSeq s.run.channel.receiveBuffer s.run.expected held
  idle : held s.run.expected = none
  bounded : ∀ k, Has s.run.expected held k → ∃ h, s.highest = some h ∧ k ≤ h
  inside : ∀ h, s.highest = some h → h < s.run.expected + W.size
  received : s.run.channel.recvAckTracker.hasReceived = s.highest.isSome

lemma ranges_start (id : Byte) (retxTimeout : ℕ) (cc : C) :
    Ranges (TrackedRun.start id retxTimeout cc : TrackedRun C W) (fun _ => none) := by
  refine ⟨holds_initial, rfl, ?_, ?_, rfl⟩
  · intro k hk
    rcases hk with hk | hk
    · cases hk
    · cases hk
  · intro h hh
    cases hh

lemma Ranges.of_same (h : Ranges s held) {t : TrackedRun C W}
    (hseq : t.run.channel.expectedRecvSeq = s.run.channel.expectedRecvSeq)
    (hbuffer : t.run.channel.receiveBuffer = s.run.channel.receiveBuffer)
    (htracker : t.run.channel.recvAckTracker = s.run.channel.recvAckTracker)
    (hexpected : t.run.expected = s.run.expected) (hhighest : t.highest = s.highest) :
    Ranges t held := by
  refine ⟨?_, ?_, ?_, ?_, ?_⟩
  · rw [hseq, hbuffer, hexpected]
    exact h.holds
  · rw [hexpected]
    exact h.idle
  · rw [hexpected, hhighest]
    exact h.bounded
  · rw [hexpected, hhighest]
    exact h.inside
  · rw [htracker, hhighest]
    exact h.received

lemma arrival_of_accepted {r : ReceiveRun C W} {e : Event} {n : ℕ} (h : accepted r e = some n) :
    ∃ packet now, e = .onRecv packet now := by
  cases e with
  | onRecv packet now => exact ⟨packet, now, rfl⟩
  | asyncSend payload handler now => cases h
  | sendCompleted position ec now => cases h
  | onTick now => cases h
  | flush => cases h
  | asyncRecv buf handler => cases h
  | close reason => cases h

lemma Ranges.index (h : Ranges s held) {packet : Packet} {now : Time} {n : ℕ}
    (haccept : accepted s.run (.onRecv packet now) = some n) :
    packet.type = .data ∧ packet.seq = wire n ∧ s.run.expected ≤ n ∧
      n < s.run.expected + W.size := by
  simp only [accepted] at haccept
  split_ifs at haccept with hcond
  obtain ⟨hdata, hin⟩ := hcond
  obtain ⟨m, hm, hm', hseq⟩ := exists_index s.run.expected packet.seq
  have hdelta : (packet.seq - s.run.channel.expectedRecvSeq).toNat = m - s.run.expected := by
    rw [hseq, h.holds.expected, wire_sub_of_le hm hm']
  have hn : n = m := by
    have := Option.some.inj haccept
    omega
  rw [hseq] at hin
  rw [hn]
  exact ⟨hdata, hseq, hm, (inWindow_iff_of_le _ h.holds.expected hm hm').mp hin⟩

lemma receiveOrdered_has {ch : Channel C true W} {E n : ℕ}
    (h : Holds ch.expectedRecvSeq ch.receiveBuffer E held) (hidle : held E = none) {packet : Packet}
    (hseq : packet.seq = wire n) (hn : E ≤ n) (hn' : n < E + W.size) (io : Transport) :
    ∃ m ≤ W.size, ∃ held', Holds (ch.receiveOrdered packet io).1.expectedRecvSeq
        (ch.receiveOrdered packet io).1.receiveBuffer (E + m) held' ∧ held' (E + m) = none ∧
      ∀ k, Has (E + m) held' k → Has E held k ∨ k = n := by
  have hmax := W.le_max
  have hspec := receiveOrdered_spec ch io h (close_iff.mpr (by omega) : Close n E) packet hseq
  generalize ch.receiveOrdered packet io = r at hspec ⊢
  cases hspec with
  | outside hout => exact absurd ⟨hn, hn'⟩ hout
  | occupied _ b hb => exact ⟨0, Nat.zero_le _, held, h, hidle, fun k hk => Or.inl hk⟩
  | stored _ hfree m hm ch' io' hd hstop =>
    refine ⟨m, hm, _, hd.holds, ?_, fun k hk => (has_drained hd.full k).mp hk⟩
    rw [dropBelow, if_neg (lt_irrefl _)]
    exact hstop

lemma hasReceived_markReceived (t : ReceiveAckTracker) (n : Seq) :
    (t.markReceived n).hasReceived = true := by
  unfold ReceiveAckTracker.markReceived
  cases hr : t.hasReceived with
  | false => rfl
  | true =>
    dsimp only
    split_ifs <;> simp [hr]

variable [CongestionCtrl C] (codec : PacketCodec)

lemma Ranges.accept (h : Ranges s held) {packet : Packet} {now : Time} {n : ℕ}
    (haccept : accepted s.run (.onRecv packet now) = some n) :
    (∃ held', Ranges (s.step codec (.onRecv packet now)) held') ∧
      (s.step codec (.onRecv packet now)).run.channel.recvAckTracker =
        s.run.channel.recvAckTracker.markReceived (wire n) := by
  obtain ⟨hdata, hseq, hlow, hhigh⟩ := h.index haccept
  have hmax := W.le_max
  have hin : s.run.channel.isInOrderedReceiveWindow packet.seq = true := by
    rw [hseq, inWindow_iff_of_le _ h.holds.expected hlow (by omega)]
    exact hhigh
  have hmarked := tracker_onRecv s.run.channel hdata now s.run.io
  have hmarks : marks s.run.channel packet.seq = true := hin
  rw [hmarks, if_pos rfl, hseq] at hmarked
  refine ⟨?_, hmarked⟩
  obtain ⟨m, hm, held', hholds, hidle, hhas⟩ :=
    receiveOrdered_has h.holds h.idle hseq hlow hhigh s.run.io
  rw [← onRecv_ordered s.run.channel hdata now s.run.io] at hholds
  have hmoved : ((s.run.channel.onRecv packet now s.run.io).1.expectedRecvSeq -
      s.run.channel.expectedRecvSeq).toNat = m := by
    rw [hholds.expected, h.holds.expected, wire_sub_of_le (by omega) (by omega)]
    omega
  have hexpected : (s.step codec (.onRecv packet now)).run.expected = s.run.expected + m := by
    simp only [TrackedRun.step, ReceiveRun.step, ReceiveRun.onRecv, hmoved]
  have hhighest : (s.step codec (.onRecv packet now)).highest =
      some (s.highest.elim n (max · n)) := by
    simp only [TrackedRun.step, haccept]
  refine ⟨held', ?_, ?_, ?_, ?_, ?_⟩
  · rw [hexpected]
    exact hholds
  · rw [hexpected]
    exact hidle
  · intro k hk
    rw [hexpected] at hk
    rw [hhighest]
    refine ⟨_, rfl, ?_⟩
    rcases hhas k hk with hold | rfl
    · obtain ⟨top, htop, hle⟩ := h.bounded k hold
      rw [htop]
      exact le_max_of_le_left hle
    · cases s.highest with
      | none => exact le_rfl
      | some top => exact le_max_right top k
  · intro top htop
    rw [hhighest] at htop
    obtain rfl := Option.some.inj htop
    rw [hexpected]
    cases hh : s.highest with
    | none =>
      simp only [Option.elim_none]
      omega
    | some top =>
      have := h.inside top hh
      simp only [Option.elim_some]
      omega
  · rw [hhighest]
    exact (congrArg ReceiveAckTracker.hasReceived hmarked).trans (hasReceived_markReceived _ _)

lemma onRecv_ignored {r : ReceiveRun C W} {packet : Packet} {now : Time}
    (hnone : accepted r (.onRecv packet now) = none) :
    (r.onRecv packet now).channel.expectedRecvSeq = r.channel.expectedRecvSeq ∧
      (r.onRecv packet now).channel.receiveBuffer = r.channel.receiveBuffer ∧
      (r.onRecv packet now).channel.recvAckTracker = r.channel.recvAckTracker := by
  simp only [ReceiveRun.onRecv]
  by_cases hdata : packet.type = .data
  · have hout : r.channel.isInOrderedReceiveWindow packet.seq = false := by
      simp only [accepted] at hnone
      split_ifs at hnone with hcond
      exact Bool.eq_false_iff.mpr fun hin => hcond ⟨hdata, hin⟩
    rw [onRecv_ordered r.channel hdata now r.io, Channel.receiveOrdered, if_pos hout]
    exact ⟨rfl, rfl, rfl⟩
  · unfold Channel.onRecv
    split_ifs
    · exact ⟨rfl, rfl, rfl⟩
    · exact ⟨rfl, rfl, rfl⟩

lemma Ranges.other (h : Ranges s held) {e : Event} (hnone : accepted s.run e = none) :
    Ranges (s.step codec e) held ∧
      (s.step codec e).run.channel.recvAckTracker = s.run.channel.recvAckTracker := by
  have hhighest : (s.step codec e).highest = s.highest := by
    simp only [TrackedRun.step, hnone]
  have hsame : (s.run.step codec e).channel.expectedRecvSeq = s.run.channel.expectedRecvSeq ∧
      (s.run.step codec e).channel.receiveBuffer = s.run.channel.receiveBuffer ∧
      (s.run.step codec e).channel.recvAckTracker = s.run.channel.recvAckTracker ∧
      (s.run.step codec e).expected = s.run.expected := by
    cases e with
    | asyncSend payload handler now =>
      have hsend := asyncSend_receiver s.run.channel codec payload handler now s.run.io
      exact ⟨hsend.expectedRecvSeq, hsend.receiveBuffer, hsend.recvAckTracker, rfl⟩
    | sendCompleted position ec now =>
      simp only [ReceiveRun.step, ReceiveRun.sendCompleted]
      split
      · rename_i sequenceNumber handler _
        have hdone := (sendCompleted_frame s.run.channel sequenceNumber handler ec now
          { s.run.io with pending := s.run.io.pending.eraseIdx position }).1
        exact ⟨hdone.expectedRecvSeq, hdone.receiveBuffer, hdone.recvAckTracker, rfl⟩
      · exact ⟨rfl, rfl, rfl, rfl⟩
    | onTick now => exact ⟨rfl, rfl, rfl, rfl⟩
    | flush => exact ⟨rfl, rfl, rfl, rfl⟩
    | onRecv packet now =>
      obtain ⟨hseq, hbuffer, htracker⟩ := onRecv_ignored hnone
      refine ⟨hseq, hbuffer, htracker, ?_⟩
      have hstay : (s.run.channel.onRecv packet now s.run.io).1.expectedRecvSeq =
        s.run.channel.expectedRecvSeq := hseq
      simp only [ReceiveRun.step, ReceiveRun.onRecv, hstay, BitVec.sub_self, BitVec.toNat_zero,
        Nat.add_zero]
    | asyncRecv buf handler => exact ⟨rfl, rfl, rfl, rfl⟩
    | close reason => exact ⟨rfl, rfl, rfl, rfl⟩
  obtain ⟨hseq, hbuffer, htracker, hexpected⟩ := hsame
  exact ⟨h.of_same hseq hbuffer htracker hexpected hhighest, htracker⟩

lemma Ranges.tracked_accept (h : Ranges s held) (ht : Tracked s) {packet : Packet} {now : Time}
    {n : ℕ} (haccept : accepted s.run (.onRecv packet now) = some n)
    (hhalf : ∀ top, s.highest = some top → n ≠ top + 32768) :
    Tracked (s.step codec (.onRecv packet now)) := by
  obtain ⟨_, _, hlow, hhigh⟩ := h.index haccept
  have hmax := W.le_max
  have htracker := (h.accept codec haccept).2
  have hreceived := h.received
  intro top htop
  simp only [TrackedRun.step, haccept] at htop
  obtain rfl := Option.some.inj htop
  rw [htracker]
  cases hh : s.highest with
  | none =>
    rw [hh] at hreceived
    have hfresh : s.run.channel.recvAckTracker.hasReceived = true →
        s.run.channel.recvAckTracker.latestSequence = wire n ∧ Close n n := by
      intro hr
      rw [hreceived] at hr
      cases hr
    have hlatest := (markReceived_latest n hfresh).2
    rw [hlatest, hreceived]
    rfl
  | some top =>
    rw [hh] at hreceived
    have hbelow : s.run.expected ≤ top + 1 := by
      by_contra hlt
      obtain ⟨top', htop', hle⟩ := h.bounded (top + 1) (Or.inl (by omega))
      rw [hh] at htop'
      obtain rfl := Option.some.inj htop'
      omega
    have hinside := h.inside top hh
    have hne := hhalf top hh
    have hclose : Close n top := close_iff.mpr (by omega)
    have hlatest := (markReceived_latest top fun _ => ⟨ht top hh, hclose⟩).2
    rw [hlatest, hreceived]
    rfl

lemma latest_markReceived_half {t : ReceiveAckTracker} (hr : t.hasReceived = true) {n : Seq}
    (hforward : (n - t.latestSequence).toNat = 32768) :
    (t.markReceived n).latestSequence = t.latestSequence := by
  unfold ReceiveAckTracker.markReceived
  rw [if_neg (by simp [hr])]
  dsimp only
  rw [hforward, if_neg (by omega), if_neg (by omega)]
  split_ifs <;> rfl

lemma Ranges.not_tracked_accept (h : Ranges s held) (ht : Tracked s) {packet : Packet}
    {now : Time} {top : ℕ}
    (haccept : accepted s.run (.onRecv packet now) = some (top + 32768))
    (hh : s.highest = some top) : ¬ Tracked (s.step codec (.onRecv packet now)) := by
  have htracker := (h.accept codec haccept).2
  have hreceived := h.received
  rw [hh] at hreceived
  have hlatest := ht top hh
  have hforward : (wire (top + 32768) - wire top).toNat = 32768 := by
    rw [wire_sub_of_le (by omega) (by omega)]
    omega
  have hsame := latest_markReceived_half (n := wire (top + 32768)) hreceived
    (by rw [hlatest, hforward])
  intro hall
  have hwrong := hall (max top (top + 32768))
    (by simp only [TrackedRun.step, haccept, hh, Option.elim_some])
  rw [htracker, hsame, hlatest, max_eq_right (by omega)] at hwrong
  have := wire_inj hwrong (by omega) (by omega)
  omega

/-- A state whose tracker is right, with what the buffer holds. -/
def Tracking (s : TrackedRun C W) : Prop := (∃ held, Ranges s held) ∧ Tracked s

omit [CongestionCtrl C] in
lemma tracking_start (id : Byte) (retxTimeout : ℕ) (cc : C) :
    Tracking (TrackedRun.start id retxTimeout cc : TrackedRun C W) := by
  refine ⟨⟨_, ranges_start id retxTimeout cc⟩, ?_⟩
  intro n hn
  cases hn

lemma Ranges.step (h : Ranges s held) (e : Event) : ∃ held', Ranges (s.step codec e) held' := by
  cases haccept : accepted s.run e with
  | none => exact ⟨held, (h.other codec haccept).1⟩
  | some n =>
    obtain ⟨packet, now, rfl⟩ := arrival_of_accepted haccept
    exact (h.accept codec haccept).1

lemma Tracking.step (h : Tracking s) {e : Event} (hhalf : InHalfRange s e) :
    Tracking (s.step codec e) := by
  obtain ⟨⟨held, hranges⟩, ht⟩ := h
  refine ⟨hranges.step codec e, ?_⟩
  cases haccept : accepted s.run e with
  | none =>
    have htracker := (hranges.other codec haccept).2
    intro n hn
    simp only [TrackedRun.step, haccept] at hn
    rw [htracker]
    exact ht n hn
  | some n =>
    obtain ⟨packet, now, rfl⟩ := arrival_of_accepted haccept
    exact hranges.tracked_accept codec ht haccept fun top => hhalf n top haccept

lemma Tracking.not_step (h : Tracking s) {e : Event} (hhalf : ¬ InHalfRange s e) :
    ¬ Tracked (s.step codec e) := by
  obtain ⟨⟨held, hranges⟩, ht⟩ := h
  simp only [InHalfRange, not_forall, not_not] at hhalf
  obtain ⟨n, top, haccept, htop, rfl⟩ := hhalf
  obtain ⟨packet, now, rfl⟩ := arrival_of_accepted haccept
  exact hranges.not_tracked_accept codec ht haccept htop

omit [CongestionCtrl C] in
lemma Ranges.inHalfRange (h : Ranges s held) (hW : W.size < 32768) (e : Event) :
    InHalfRange s e := by
  intro n top haccept htop
  obtain ⟨packet, now, rfl⟩ := arrival_of_accepted haccept
  have hhigh := (h.index haccept).2.2.2
  by_contra he
  obtain ⟨top', htop', hle⟩ := h.bounded (top + 1) (Or.inl (by omega))
  rw [htop] at htop'
  obtain rfl := Option.some.inj htop'
  omega

lemma Ranges.admitted (h : Ranges s held) (hW : W.size < 32768) (events : List Event) :
    Admitted (TrackedRun.step codec) InHalfRange s events := by
  induction events generalizing s held with
  | nil => trivial
  | cons e events ih =>
    obtain ⟨held', h'⟩ := h.step codec e
    exact ⟨h.inHalfRange hW e, ih h'⟩

end Ranges

/-- The tracker's latest number is that of the highest accepted index throughout a run exactly when
no packet is accepted half the range above the highest one, which only a window of 32768 allows. -/
theorem latest_is_highest {C : Type} [CongestionCtrl C] (W : Window) (codec : PacketCodec)
    (id : Byte) (retxTimeout : ℕ) (cc : C) (events : List Event) :
    let start : TrackedRun C W := TrackedRun.start id retxTimeout cc
    ((∀ before, before <+: events → Tracked (before.foldl (TrackedRun.step codec) start)) ↔
        Admitted (TrackedRun.step codec) InHalfRange start events) ∧
      (W.size < 32768 → Admitted (TrackedRun.step codec) InHalfRange start events) := by
  intro start
  have hstart : Tracking start := tracking_start id retxTimeout cc
  refine ⟨?_, fun hW => (ranges_start id retxTimeout cc).admitted codec hW events⟩
  exact forall_prefix_iff hstart (fun _ hs => hs.2) (fun _ _ hs hhalf => hs.step codec hhalf)
    (fun _ _ hs hhalf => hs.not_step codec hhalf) events

/-- After packet 0 the window of 32768 accepts packet 32768, which the tracker takes for an old
one. -/
theorem latest_is_not_highest :
    ¬ ∀ (W : Window) (events : List Event),
      Tracked (events.foldl (TrackedRun.step DefaultCodec.defaultCodec.toPacketCodec)
        (TrackedRun.start 0 200 ⟨⟩ : TrackedRun Null W)) := by
  intro hall
  have hlatest := hall (normalizeWindow 32768) [.onRecv { type := .data, seq := 0 } 0,
    .onRecv { type := .data, seq := 32768 } 0] 32768 (by decide +kernel)
  exact absurd hlatest (by decide +kernel)

end ReliableUdp.ReceiveTracking
