import ReliableUdp.ReliableChannel
import ReliableUdp.Reassembly

/-! The ordered receive path refines reassembly with unbounded indices: 16-bit numbers and
slots modulo the window stand for the held indices between the next expected one and the
end of the window. -/
namespace ReliableUdp.OrderedReceiver
open Protocol ChannelCommon ReliableChannel Reassembly

variable {C : Type} {ordered : Bool} {W : Window}

/-- An expected sequence number and a receive buffer stand for the next expected index `E`
and the entries held from there on. -/
structure Holds (expected : Seq) (buffer : SlotTable BufferedPacket W.size) (E : ℕ)
    (held : ℕ → Option (List Byte)) : Prop where
  expected : expected = wire E
  window : ∀ n x, held n = some x → E ≤ n ∧ n < E + W.size
  stored : ∀ n x, held n = some x → buffer.get (wire n).toNat = some ⟨wire n, x⟩
  only : ∀ k b, buffer.get k = some b → ∃ n, held n = some b.payload ∧
    b.sequenceNumber = wire n ∧ (wire n).toNat % W.size = k % W.size

lemma holds_initial :
    Holds 0 (SlotTable.empty BufferedPacket W.size) 0 (fun _ => none) := by
  refine ⟨rfl, by simp, by simp, ?_⟩
  intro k b h
  simp at h

section Holds
variable {expected : Seq} {buffer : SlotTable BufferedPacket W.size} {E : ℕ}
  {held : ℕ → Option (List Byte)}

lemma Holds.index_eq (h : Holds expected buffer E held) {n m : ℕ} {x : List Byte}
    (hn : held n = some x) (hm : E ≤ m ∧ m < E + W.size) (he : wire n = wire m) : n = m := by
  have hw := h.window n x hn
  have hmax := W.le_max
  exact wire_inj he (by omega) (by omega)

lemma Holds.ready_iff (h : Holds expected buffer E held) (x : List Byte) :
    held E = some x ↔ buffer.get expected.toNat = some ⟨expected, x⟩ := by
  rw [h.expected]
  constructor
  · exact h.stored E x
  · intro hg
    obtain ⟨n, hn, hseq, _⟩ := h.only _ _ hg
    have hpos := W.pos
    have hnE : n = E := h.index_eq hn (by omega) hseq.symm
    exact hnE ▸ hn

lemma Holds.advance (h : Holds expected buffer E held) {x : List Byte} (hx : held E = some x) :
    Holds (expected + 1) (buffer.set expected.toNat none) (E + 1) (dropBelow (E + 1) held) := by
  have hE := h.stored E x hx
  refine ⟨?_, ?_, ?_, ?_⟩
  · rw [wire_succ, ← h.expected]
  · intro n y hn
    obtain ⟨hle, hn⟩ := dropBelow_some.mp hn
    have := h.window n y hn
    omega
  · intro n y hn
    obtain ⟨hle, hn⟩ := dropBelow_some.mp hn
    have hs := h.stored n y hn
    have hne : expected.toNat % W.size ≠ (wire n).toNat % W.size := by
      intro heq
      rw [h.expected] at heq
      rw [← SlotTable.get_congr _ heq, hE] at hs
      simp only [Option.some.injEq, BufferedPacket.mk.injEq] at hs
      have hpos := W.pos
      have : n = E := h.index_eq hn (by omega) hs.1.symm
      omega
    rw [SlotTable.get_set_other _ hne]
    exact hs
  · intro k b hk
    rw [SlotTable.get_set _ W.pos] at hk
    split_ifs at hk with hslot
    obtain ⟨n, hn, hseq, hmod⟩ := h.only k b hk
    refine ⟨n, dropBelow_some.mpr ⟨?_, hn⟩, hseq, hmod⟩
    have hne : n ≠ E := by
      intro heq
      apply hslot
      rw [h.expected, ← hmod, heq]
    have := (h.window n _ hn).1
    omega

lemma Holds.insert (h : Holds expected buffer E held) {n : ℕ} (hn : E ≤ n ∧ n < E + W.size)
    (hfree : buffer.get (wire n).toNat = none) (x : List Byte) :
    Holds expected (buffer.set (wire n).toNat (some ⟨wire n, x⟩)) E
      (Function.update held n (some x)) := by
  have hslot : ∀ m y, held m = some y → (wire n).toNat % W.size ≠ (wire m).toNat % W.size := by
    intro m y hm
    exact SlotTable.mod_ne_of_get hfree (h.stored m y hm)
  refine ⟨h.expected, ?_, ?_, ?_⟩
  · intro m y hm
    by_cases hmn : m = n
    · subst hmn
      exact hn
    · rw [Function.update_of_ne hmn] at hm
      exact h.window m y hm
  · intro m y hm
    by_cases hmn : m = n
    · subst hmn
      rw [Function.update_self] at hm
      rw [SlotTable.get_set_same _ W.pos rfl]
      simpa using hm
    · rw [Function.update_of_ne hmn] at hm
      rw [SlotTable.get_set_other _ (hslot m y hm)]
      exact h.stored m y hm
  · intro k b hk
    rw [SlotTable.get_set _ W.pos] at hk
    split_ifs at hk with hkn
    · simp only [Option.some.injEq] at hk
      subst hk
      exact ⟨n, by simp, rfl, hkn⟩
    · obtain ⟨m, hm, hseq, hmod⟩ := h.only k b hk
      have hmn : m ≠ n := by
        intro heq
        subst heq
        exact hkn hmod
      exact ⟨m, by rw [Function.update_of_ne hmn]; exact hm, hseq, hmod⟩

lemma Holds.buffer_eq (h : Holds expected buffer E held) {expected' : Seq}
    {buffer' : SlotTable BufferedPacket W.size} (h' : Holds expected' buffer' E held) :
    buffer = buffer' := by
  have hsub : ∀ {seq seq' : Seq} {t t' : SlotTable BufferedPacket W.size},
      Holds seq t E held → Holds seq' t' E held → ∀ k b, t.get k = some b → t'.get k = some b := by
    intro seq seq' t t' ht ht' k b hb
    obtain ⟨n, hn, hseq, hslot⟩ := ht.only k b hb
    rw [← SlotTable.get_congr _ hslot, ht'.stored n _ hn, ← hseq]
  apply SlotTable.eq_of_get
  intro k
  apply Option.ext
  intro b
  exact ⟨hsub h h' k b, hsub h' h k b⟩

end Holds

structure SameSender (ch ch' : Channel C ordered W) : Prop where
  id : ch'.id = ch.id
  retxTimeout : ch'.retxTimeout = ch.retxTimeout
  nextSeq : ch'.nextSeq = ch.nextSeq
  sentPackets : ch'.sentPackets = ch.sentPackets
  inFlightCount : ch'.inFlightCount = ch.inFlightCount
  cc : ch'.cc = ch.cc

lemma SameSender.refl (ch : Channel C ordered W) : SameSender ch ch :=
  ⟨rfl, rfl, rfl, rfl, rfl, rfl⟩

structure Drained (ch ch' : Channel C ordered W) (io io' : Transport) (E m : ℕ)
    (held : ℕ → Option (List Byte)) : Prop where
  holds : Holds ch'.expectedRecvSeq ch'.receiveBuffer (E + m) (dropBelow (E + m) held)
  full : ∀ i < m, (held (E + i)).isSome
  delivered : delivered io'.log = delivered io.log ++ run held E m
  packetsRecv : io'.stats.packetsRecv = io.stats.packetsRecv + m
  pending : io'.pending = io.pending
  tracker : ch'.recvAckTracker = ch.recvAckTracker
  sender : SameSender ch ch'

lemma delivered_deliver (ch : Channel C ordered W) (payload : List Byte) (io : Transport) :
    delivered (ch.deliver payload io).2.log = delivered io.log ++ [payload] := by
  have h := delivered_recvQueue_deliver ch.recvQueue payload
  simp only [Channel.deliver, Channel.recordRecv, Transport.emit_log, delivered_append]
  rw [show ∀ xs, delivered (.deliver ch.id payload :: xs) = payload :: delivered xs from
    fun _ => rfl, h]

lemma drained_zero (ch : Channel C ordered W) (io : Transport) {E : ℕ}
    {held : ℕ → Option (List Byte)} (h : Holds ch.expectedRecvSeq ch.receiveBuffer E held) :
    Drained ch ch io io E 0 held := by
  have hd : dropBelow E held = held := by
    funext n
    unfold dropBelow
    split_ifs with hn
    · cases hx : held n with
      | none => rfl
      | some x =>
        have := (h.window n x hx).1
        omega
    · rfl
  exact ⟨by simpa [hd] using h, by simp, by simp [run], rfl, rfl, rfl, SameSender.refl ch⟩

def drainRound (ch : Channel C ordered W) (payload : List Byte) (io : Transport) :
    Channel C ordered W :=
  { (ch.deliver payload io).1 with
    receiveBuffer := ch.receiveBuffer.set ch.expectedRecvSeq.toNat none
    expectedRecvSeq := ch.expectedRecvSeq + 1 }

theorem drainReadyPackets_invariant {P : Channel C ordered W → Transport → Prop}
    (hround : ∀ ch payload io, P ch io → P (drainRound ch payload io) (ch.deliver payload io).2)
    (fuel : ℕ) {ch : Channel C ordered W} {io : Transport} (h : P ch io) :
    P (Channel.drainReadyPackets fuel ch io).1 (Channel.drainReadyPackets fuel ch io).2 := by
  induction fuel generalizing ch io with
  | zero => exact h
  | succ fuel ih =>
    unfold Channel.drainReadyPackets
    cases ch.receiveBuffer.get ch.expectedRecvSeq.toNat with
    | none => exact h
    | some b =>
      dsimp only
      split_ifs
      · exact h
      · exact ih (hround ch b.payload io h)

/-- Ordered reception keeps what marking, buffering and the rounds of the drain keep. -/
theorem receiveOrdered_invariant {P : Channel C ordered W → Transport → Prop}
    (hstore : ∀ ch tracker buffer io, P ch io →
      P { ch with recvAckTracker := tracker, receiveBuffer := buffer } io)
    (hround : ∀ ch payload io, P ch io → P (drainRound ch payload io) (ch.deliver payload io).2)
    (packet : Packet) {ch : Channel C ordered W} {io : Transport} (h : P ch io) :
    P (ch.receiveOrdered packet io).1 (ch.receiveOrdered packet io).2 := by
  unfold Channel.receiveOrdered
  split_ifs
  · exact h
  · dsimp only
    cases ch.receiveBuffer.get packet.seq.toNat with
    | some b => exact hstore ch (ch.recvAckTracker.markReceived packet.seq) ch.receiveBuffer io h
    | none => exact drainReadyPackets_invariant hround _ (hstore ch _ _ io h)

lemma Drained.cons {ch ch' : Channel C ordered W} {io io' : Transport} {E m : ℕ}
    {held : ℕ → Option (List Byte)} {x : List Byte} (hx : held E = some x)
    (h : Drained (drainRound ch x io) ch' (ch.deliver x io).2 io' (E + 1) m
      (dropBelow (E + 1) held)) : Drained ch ch' io io' E (m + 1) held := by
  have hassoc : E + 1 + m = E + (m + 1) := by omega
  refine ⟨?_, ?_, ?_, ?_, h.pending, h.tracker, ?_⟩
  · have hh := h.holds
    rwa [dropBelow_dropBelow (by omega), hassoc] at hh
  · intro i hi
    cases i with
    | zero => simp [hx]
    | succ i =>
      have hf := h.full i (by omega)
      obtain ⟨y, hy⟩ := Option.isSome_iff_exists.mp hf
      rw [show E + (i + 1) = E + 1 + i by omega, (dropBelow_some.mp hy).2]
      rfl
  · have hrun : run (dropBelow (E + 1) held) (E + 1) m = run held (E + 1) m := by
      apply run_congr
      intro i hi
      rw [dropBelow, if_neg (by omega)]
    rw [h.delivered, delivered_deliver, hrun]
    simp [run, hx]
  · rw [h.packetsRecv]
    simp only [Channel.deliver, Channel.recordRecv, Transport.emit_stats]
    omega
  · exact ⟨h.sender.id, h.sender.retxTimeout, h.sender.nextSeq, h.sender.sentPackets,
      h.sender.inFlightCount, h.sender.cc⟩

/-- The drain loop delivers the held run that starts at the expected index, and stops before its
end only when it runs out of rounds. -/
theorem drain_spec (fuel : ℕ) (ch : Channel C ordered W) (io : Transport) (E : ℕ)
    (held : ℕ → Option (List Byte)) (h : Holds ch.expectedRecvSeq ch.receiveBuffer E held) :
    ∃ m ≤ fuel, Drained ch (Channel.drainReadyPackets fuel ch io).1 io
        (Channel.drainReadyPackets fuel ch io).2 E m held ∧
      (m < fuel → held (E + m) = none) := by
  induction fuel generalizing ch io E held with
  | zero => exact ⟨0, le_rfl, drained_zero ch io h, by simp⟩
  | succ fuel ih =>
    have hidle : (∀ x, ch.receiveBuffer.get ch.expectedRecvSeq.toNat ≠
        some ⟨ch.expectedRecvSeq, x⟩) → held (E + 0) = none := by
      intro hno
      cases hx : held E with
      | none => rfl
      | some x => exact absurd ((h.ready_iff x).mp hx) (hno x)
    unfold Channel.drainReadyPackets
    cases hg : ch.receiveBuffer.get ch.expectedRecvSeq.toNat with
    | none => exact ⟨0, by omega, drained_zero ch io h, fun _ => hidle (by simp [hg])⟩
    | some b =>
      by_cases hb : b.sequenceNumber = ch.expectedRecvSeq
      · have hx : held E = some b.payload := by
          rw [h.ready_iff, hg, ← hb]
        simp only [hb, ne_eq, not_true_eq_false, if_false]
        obtain ⟨m, hm, hd, hstop⟩ := ih (drainRound ch b.payload io) (ch.deliver b.payload io).2
          (E + 1) (dropBelow (E + 1) held) (h.advance hx)
        refine ⟨m + 1, by omega, hd.cons hx, fun hlt => ?_⟩
        have hnone := hstop (by omega)
        rw [dropBelow, if_neg (by omega)] at hnone
        rwa [show E + (m + 1) = E + 1 + m by omega]
      · simp only [ne_eq, hb, not_false_eq_true, if_true]
        refine ⟨0, by omega, drained_zero ch io h, fun _ => hidle ?_⟩
        intro x hx
        rw [hg, Option.some.injEq] at hx
        exact hb (by rw [hx])

/-- With as many rounds as slots the drain stops only where nothing is held. -/
theorem drain_complete (ch : Channel C ordered W) (io : Transport) (E : ℕ)
    (held : ℕ → Option (List Byte)) (h : Holds ch.expectedRecvSeq ch.receiveBuffer E held) :
    ∃ m ≤ W.size, Drained ch (Channel.drainReadyPackets W.size ch io).1 io
        (Channel.drainReadyPackets W.size ch io).2 E m held ∧ held (E + m) = none := by
  obtain ⟨m, hm, hd, hstop⟩ := drain_spec W.size ch io E held h
  refine ⟨m, hm, hd, ?_⟩
  rcases hm.lt_or_eq with hlt | heq
  · exact hstop hlt
  · cases hx : held (E + m) with
    | none => rfl
    | some x =>
      have := h.window _ x hx
      omega

lemma inWindow_iff (ch : Channel C ordered W) {E n : ℕ} (he : ch.expectedRecvSeq = wire E)
    (hn : Close n E) :
    ch.isInOrderedReceiveWindow (wire n) = true ↔ E ≤ n ∧ n < E + W.size := by
  obtain ⟨h1, h2⟩ := close_iff.mp hn
  have hpos := W.pos
  have hmax := W.le_max
  unfold Channel.isInOrderedReceiveWindow
  rw [he]
  rcases le_or_gt E n with hle | hlt
  · rw [wire_sub_of_le hle (by omega)]
    simp only [decide_eq_true_eq]
    omega
  · rw [wire_sub_of_lt hlt (by omega)]
    simp only [decide_eq_true_eq]
    omega

/-- What the ordered receive path does with a nearby index. -/
inductive Received (ch : Channel C ordered W) (io : Transport) (E : ℕ)
    (held : ℕ → Option (List Byte)) (n : ℕ) (x : List Byte) :
    Channel C ordered W × Transport → Prop
  | outside (h : ¬(E ≤ n ∧ n < E + W.size)) : Received ch io E held n x (ch, io)
  | occupied (hin : E ≤ n ∧ n < E + W.size) (b : BufferedPacket)
      (hb : ch.receiveBuffer.get (wire n).toNat = some b) :
      Received ch io E held n x
        ({ ch with recvAckTracker := ch.recvAckTracker.markReceived (wire n) }, io)
  | stored (hin : E ≤ n ∧ n < E + W.size) (hfree : ch.receiveBuffer.get (wire n).toNat = none)
      (m : ℕ) (hm : m ≤ W.size) (ch' : Channel C ordered W) (io' : Transport)
      (hd : Drained { ch with recvAckTracker := ch.recvAckTracker.markReceived (wire n) } ch' io io'
        E m (Function.update held n (some x)))
      (hstop : Function.update held n (some x) (E + m) = none) :
      Received ch io E held n x (ch', io')

theorem receiveOrdered_spec (ch : Channel C ordered W) (io : Transport) {E n : ℕ}
    {held : ℕ → Option (List Byte)} (h : Holds ch.expectedRecvSeq ch.receiveBuffer E held)
    (hn : Close n E) (packet : Packet) (hseq : packet.seq = wire n) :
    Received ch io E held n packet.payload (ch.receiveOrdered packet io) := by
  have hw := inWindow_iff ch h.expected hn
  unfold Channel.receiveOrdered
  rw [hseq]
  by_cases hin : E ≤ n ∧ n < E + W.size
  · rw [hw.mpr hin]
    simp only [Bool.true_eq_false, if_false]
    cases hg : ch.receiveBuffer.get (wire n).toNat with
    | some b => exact .occupied hin b hg
    | none =>
      have hins := h.insert hin hg packet.payload
      obtain ⟨m, hm, hd, hstop⟩ := drain_complete
        { ch with
          recvAckTracker := ch.recvAckTracker.markReceived (wire n)
          receiveBuffer := ch.receiveBuffer.set (wire n).toNat (some ⟨wire n, packet.payload⟩) }
        io E _ hins
      refine .stored hin hg m hm _ _ ⟨hd.holds, hd.full, hd.delivered, hd.packetsRecv, hd.pending,
        hd.tracker, ?_⟩ hstop
      exact ⟨hd.sender.id, hd.sender.retxTimeout, hd.sender.nextSeq, hd.sender.sentPackets,
        hd.sender.inFlightCount, hd.sender.cc⟩
  · have hf : ch.isInOrderedReceiveWindow (wire n) = false := by
      rw [Bool.eq_false_iff]
      exact fun ht => hin (hw.mp ht)
    rw [hf, if_pos rfl]
    exact .outside hin

end ReliableUdp.OrderedReceiver
