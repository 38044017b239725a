import ReliableUdp.Protocol
import ReliableUdp.BitHistory

/-! Receive queue, sequence comparison and acknowledgement tracking shared by all channels. -/
namespace ReliableUdp.ChannelCommon
open SerialNumber Protocol BitHistory

/-- A parked receive: the size of the caller's buffer and its handler. -/
structure PendingRecv where
  buf : ℕ
  handler : ℕ
  deriving DecidableEq, Repr

structure RecvQueue where
  queuedMessages : List (List Byte) := []
  pendingRecv : Option PendingRecv := none
  closed : Bool := false
  closeReason : ErrorCode := .none
  deriving DecidableEq, Repr

/-- Copy the leading bytes that fit and call the handler with their number. -/
def completeRecv (pendingRecv : PendingRecv) (message : List Byte) : Effect :=
  .recvDone pendingRecv.handler .none (message.take pendingRecv.buf)

namespace RecvQueue

def asyncRecv (q : RecvQueue) (buf handler : ℕ) : RecvQueue × List Effect :=
  match q.queuedMessages with
  | [] =>
    if q.closed then (q, [.recvDone handler q.closeReason []])
    else
      match q.pendingRecv with
      | some _ => (q, [.recvDone handler (makeErrorCode .channelClosed) []])
      | none => ({ q with pendingRecv := some ⟨buf, handler⟩ }, [])
  | message :: rest =>
    ({ q with queuedMessages := rest }, [completeRecv ⟨buf, handler⟩ message])

/-- `deliverOrQueue`. -/
def deliver (q : RecvQueue) (payload : List Byte) : RecvQueue × List Effect :=
  match q.pendingRecv with
  | none => ({ q with queuedMessages := q.queuedMessages ++ [payload] }, [])
  | some recv => ({ q with pendingRecv := none }, [completeRecv recv payload])

def close (q : RecvQueue) (reason : ErrorCode) : RecvQueue × List Effect :=
  match q.pendingRecv with
  | none => ({ q with closed := true, closeReason := reason }, [])
  | some recv =>
    ({ q with closed := true, closeReason := reason, pendingRecv := none },
      [.recvDone recv.handler reason []])

end RecvQueue

lemma delivered_recvQueue_asyncRecv (q : RecvQueue) (buf handler : ℕ) :
    delivered (q.asyncRecv buf handler).2 = [] := by
  unfold RecvQueue.asyncRecv
  cases q.queuedMessages with
  | cons message rest => rfl
  | nil =>
    dsimp only
    split_ifs
    · rfl
    · cases q.pendingRecv <;> rfl

lemma delivered_recvQueue_deliver (q : RecvQueue) (payload : List Byte) :
    delivered (q.deliver payload).2 = [] := by
  unfold RecvQueue.deliver
  cases q.pendingRecv <;> rfl

def isNewerSequence (sequenceNumber previousSequenceNumber : Seq) : Bool :=
  let delta := (sequenceNumber - previousSequenceNumber).toNat
  decide (delta ≠ 0 ∧ delta < 32768)

def isStaleOrDuplicate (sequenceNumber previousSequenceNumber : Seq) : Bool :=
  !isNewerSequence sequenceNumber previousSequenceNumber

structure ReceiveAckTracker where
  hasReceived : Bool := false
  latestSequence : Seq := 0
  ackBits : AckBits := 0
  deriving DecidableEq, Repr

/-- A shift of the 32-bit field by 32, undefined in C++, yields zero here; `ShiftDefined` excludes
it. -/
def ReceiveAckTracker.markReceived (t : ReceiveAckTracker) (sequenceNumber : Seq) :
    ReceiveAckTracker :=
  if t.hasReceived = false then
    { hasReceived := true, latestSequence := sequenceNumber, ackBits := 0 }
  else
    let forwardDelta := (sequenceNumber - t.latestSequence).toNat
    if forwardDelta = 0 then t
    else if forwardDelta < 32768 then
      { t with
        ackBits :=
          if forwardDelta ≤ 32 then
            (t.ackBits <<< forwardDelta) ||| (1#32 <<< (forwardDelta - 1))
          else 0
        latestSequence := sequenceNumber }
    else
      let backDelta := (t.latestSequence - sequenceNumber).toNat
      if 1 ≤ backDelta ∧ backDelta ≤ 32 then
        { t with ackBits := t.ackBits ||| (1#32 <<< (backDelta - 1)) }
      else t

/-- `markReceived` does not shift the field by 32: the number is not exactly 32 ahead of the latest
one. -/
def ReceiveAckTracker.ShiftDefined (t : ReceiveAckTracker) (sequenceNumber : Seq) : Prop :=
  t.hasReceived = true → sequenceNumber - t.latestSequence ≠ 32

instance (t : ReceiveAckTracker) (sequenceNumber : Seq) :
    Decidable (t.ShiftDefined sequenceNumber) :=
  inferInstanceAs (Decidable (_ → _))

def isAcknowledged (sequenceNumber ack : Seq) (ackBits : AckBits) : Bool :=
  if sequenceNumber = ack then true
  else
    let backDelta := (ack - sequenceNumber).toNat
    if backDelta = 0 ∨ backDelta > 32 ∨ backDelta ≥ 32768 then false
    else decide ((ackBits &&& (1#32 <<< (backDelta - 1))) ≠ 0)

lemma isNewerSequence_wire {n m : ℕ} (h : Close n m) :
    isNewerSequence (wire n) (wire m) = decide (m < n) := by
  obtain ⟨h1, h2⟩ := close_iff.mp h
  unfold isNewerSequence
  rcases lt_trichotomy n m with hlt | rfl | hgt
  · rw [wire_sub_of_lt hlt (by omega)]
    simp only [decide_eq_decide]
    omega
  · simp
  · rw [wire_sub_of_le hgt.le (by omega)]
    simp only [decide_eq_decide]
    omega

lemma isAcknowledged_iff (s ack : Seq) (bits : AckBits) :
    isAcknowledged s ack bits = true ↔
      s = ack ∨ (1 ≤ (ack - s).toNat ∧ (ack - s).toNat ≤ 32 ∧
        bits.getLsbD ((ack - s).toNat - 1) = true) := by
  unfold isAcknowledged
  by_cases he : s = ack
  · simp [he]
  · simp only [he, if_false, false_or]
    by_cases hr : 1 ≤ (ack - s).toNat ∧ (ack - s).toNat ≤ 32
    · have hcond : ¬((ack - s).toNat = 0 ∨ (ack - s).toNat > 32 ∨ (ack - s).toNat ≥ 32768) := by
        omega
      rw [if_neg hcond, decide_eq_true_eq]
      simp only [hr.1, hr.2, true_and]
      exact and_one_shift_ne_zero bits hr.1 hr.2
    · have hcond : (ack - s).toNat = 0 ∨ (ack - s).toNat > 32 ∨ (ack - s).toNat ≥ 32768 := by
        omega
      simp only [hcond, if_true, Bool.false_eq_true, false_iff]
      rintro ⟨h1, h2, _⟩
      exact hr ⟨h1, h2⟩

namespace ReceiveAckTracker

/-- The tracker after marking the set `S`, whose greatest index is `M`. -/
structure Tracks (t : ReceiveAckTracker) (M : ℕ) (S : Set ℕ) : Prop where
  hasReceived : t.hasReceived = true
  greatest : IsGreatest S M
  latest : t.latestSequence = wire M
  bits : Summarises t.ackBits M S

lemma tracks_first {t : ReceiveAckTracker} (h : t.hasReceived = false) (n : ℕ) :
    Tracks (t.markReceived (wire n)) n {n} := by
  unfold markReceived
  rw [if_pos h]
  exact ⟨rfl, isGreatest_singleton, rfl, Summarises.single n⟩

/-- Marking an index less than 32768 away from the greatest marked one adds it to the set. -/
theorem Tracks.mark {t : ReceiveAckTracker} {M n : ℕ} {S : Set ℕ} (h : Tracks t M S)
    (hn : Close n M) : Tracks (t.markReceived (wire n)) (max M n) (insert n S) := by
  obtain ⟨h1, h2⟩ := close_iff.mp hn
  have hgreatest : IsGreatest (insert n S) (max M n) := by
    rw [max_comm]
    exact h.greatest.insert n
  unfold markReceived
  simp only [h.hasReceived, Bool.true_eq_false, if_false, h.latest]
  rcases lt_trichotomy n M with hlt | rfl | hgt
  · have hf : (wire n - wire M).toNat = 65536 - (M - n) := wire_sub_of_lt hlt (by omega)
    have hb : (wire M - wire n).toNat = M - n := wire_sub_of_le hlt.le (by omega)
    rw [hf, hb, if_neg (by omega), if_neg (by omega)]
    rw [max_eq_left hlt.le] at hgreatest ⊢
    split_ifs with hback
    · refine ⟨rfl, hgreatest, rfl, ?_⟩
      have hr := h.bits.record (d := M - n) (by omega) (by omega)
      rwa [show M - (M - n) = n by omega] at hr
    · exact ⟨h.hasReceived, hgreatest, h.latest, h.bits.ignore (Or.inr (Or.inl (by omega)))⟩
  · rw [max_self] at hgreatest ⊢
    simp only [BitVec.sub_self, BitVec.toNat_ofNat, Nat.zero_mod, if_true]
    exact ⟨h.hasReceived, hgreatest, h.latest, h.bits.ignore (Or.inl h.greatest.1)⟩
  · have hf : (wire n - wire M).toNat = n - M := wire_sub_of_le hgt.le (by omega)
    rw [hf, if_neg (by omega), if_pos (by omega)]
    rw [max_eq_right hgt.le] at hgreatest ⊢
    have he : M + (n - M) = n := by omega
    split_ifs with hsmall
    · have ha := h.bits.advance h.greatest (d := n - M) (by omega)
      rw [he] at ha
      exact ⟨rfl, hgreatest, rfl, ha⟩
    · have hr := h.bits.restart h.greatest (d := n - M) (by omega)
      rw [he] at hr
      exact ⟨rfl, hgreatest, rfl, hr⟩

lemma Tracks.shiftDefined {t : ReceiveAckTracker} {M n : ℕ} {S : Set ℕ} (h : Tracks t M S)
    (hn : Close n M) (hgap : n ≠ M + 32) : t.ShiftDefined (wire n) := by
  obtain ⟨h1, h2⟩ := close_iff.mp hn
  intro _ he
  have hdelta : (wire n - wire M).toNat = 32 := by
    rw [← h.latest, he]
    rfl
  rcases lt_or_ge n M with hlt | hge
  · rw [wire_sub_of_lt hlt (by omega)] at hdelta
    omega
  · rw [wire_sub_of_le hge (by omega)] at hdelta
    omega

/-- The tracker acknowledges exactly the marked indices at most 32 below the greatest. -/
theorem Tracks.isAcknowledged_iff {t : ReceiveAckTracker} {M n : ℕ} {S : Set ℕ}
    (h : Tracks t M S) (hn : Close n M) :
    isAcknowledged (wire n) t.latestSequence t.ackBits = true ↔ n ∈ S ∧ M ≤ n + 32 := by
  obtain ⟨h1, h2⟩ := close_iff.mp hn
  rw [ChannelCommon.isAcknowledged_iff, h.latest]
  constructor
  · rintro (he | ⟨hpos, hle, hbit⟩)
    · have : n = M := wire_inj he (by omega) (by omega)
      subst this
      exact ⟨h.greatest.1, by omega⟩
    · rcases le_or_gt n M with hnM | hMn
      · have hd : (wire M - wire n).toNat = M - n := wire_sub_of_le hnM (by omega)
        rw [hd] at hpos hle hbit
        have hmem := ((h.bits (M - n - 1) (by omega)).mp hbit).2
        rw [show M - (M - n - 1 + 1) = n by omega] at hmem
        exact ⟨hmem, by omega⟩
      · rw [wire_sub_of_lt hMn (by omega)] at hle
        omega
  · rintro ⟨hmem, hle⟩
    have hnM : n ≤ M := h.greatest.2 hmem
    have hd : (wire M - wire n).toNat = M - n := wire_sub_of_le hnM (by omega)
    rcases hnM.eq_or_lt with rfl | hlt
    · exact Or.inl rfl
    · rw [hd]
      refine Or.inr ⟨by omega, by omega, (h.bits (M - n - 1) (by omega)).mpr ⟨by omega, ?_⟩⟩
      rwa [show M - (M - n - 1 + 1) = n by omega]

/-- The tracker after marking the set `S` with its greatest element, if anything was marked. -/
def Marked (t : ReceiveAckTracker) (top : Option ℕ) (S : Set ℕ) : Prop :=
  (top = none ∧ S = ∅ ∧ t.hasReceived = false) ∨ ∃ M, top = some M ∧ Tracks t M S

lemma Marked.mark {t : ReceiveAckTracker} {top : Option ℕ} {n : ℕ} {S : Set ℕ}
    (h : Marked t top S) (hn : ∀ M ∈ top, Close n M) :
    Marked (t.markReceived (wire n)) (some (top.elim n (max · n))) (insert n S) := by
  rcases h with ⟨rfl, rfl, hfresh⟩ | ⟨M, rfl, ht⟩
  · exact Or.inr ⟨n, rfl, by simpa using tracks_first hfresh n⟩
  · exact Or.inr ⟨max M n, rfl, ht.mark (hn M rfl)⟩

end ReceiveAckTracker

lemma max?_concat (xs : List ℕ) (n : ℕ) :
    (xs ++ [n]).max? = some (xs.max?.elim n (max · n)) := by
  cases xs with
  | nil => rfl
  | cons x xs =>
    rw [List.cons_append, List.max?_cons', List.max?_cons', List.foldl_append]
    rfl

end ReliableUdp.ChannelCommon
