import ReliableUdp.ChannelCommon

/-! The acknowledgement tracker against the whole history of marks: what it reports, that
order and repetition do not matter, and when the shifts of its bit field stay inside the
field. -/
namespace ReliableUdp.AckHistory
open SerialNumber Protocol BitHistory ChannelCommon ReceiveAckTracker

def track (history : List Seq) : ReceiveAckTracker := history.foldl markReceived {}

lemma track_concat (history : List Seq) (s : Seq) :
    track (history ++ [s]) = (track history).markReceived s := by
  simp [track]

/-- Every index is less than 32768 away from the greatest one before it. -/
def Nearby (history : List ℕ) : Prop :=
  ∀ before n, before ++ [n] <+: history → ∀ M ∈ before.max?, Close n M

lemma Nearby.of_prefix {before history : List ℕ} (h : Nearby history) (hp : before <+: history) :
    Nearby before :=
  fun pre n hpre => h pre n (hpre.trans hp)

lemma nearby_of_span {history : List ℕ} (h : ∀ a ∈ history, ∀ b ∈ history, a < b + 32768) :
    Nearby history := by
  intro before n hp M hM
  have hn : n ∈ history := hp.subset (by simp)
  have hmem : M ∈ history := by
    apply hp.subset
    rw [List.mem_append]
    exact Or.inl (List.max?_mem hM)
  exact close_iff.mpr ⟨h n hn M hmem, h M hmem n hn⟩

/-- The tracker after a nearby history holds its greatest index and its set of indices. -/
theorem marked_track {history : List ℕ} (h : Nearby history) :
    Marked (track (history.map wire)) history.max? {n | n ∈ history} := by
  induction history using List.reverseRecOn with
  | nil => exact Or.inl ⟨rfl, by simp, rfl⟩
  | append_singleton before n ih =>
    have hbefore := ih (h.of_prefix (List.prefix_append before [n]))
    have hmark := hbefore.mark (h before n (List.prefix_refl _))
    have hset : {m | m ∈ before ++ [n]} = insert n {m | m ∈ before} := by
      ext m
      simp [or_comm]
    rw [List.map_append, List.map_singleton, track_concat, max?_concat, hset]
    exact hmark

lemma tracks_unique {t t' : ReceiveAckTracker} {M : ℕ} {S : Set ℕ} (h : Tracks t M S)
    (h' : Tracks t' M S) : t = t' := by
  have hbits : t.ackBits = t'.ackBits := by
    apply BitVec.eq_of_getLsbD_eq
    intro k hk
    rw [Bool.eq_iff_iff, h.bits k hk, h'.bits k hk]
  have hlatest : t.latestSequence = t'.latestSequence := h.latest.trans h'.latest.symm
  have hreceived : t.hasReceived = t'.hasReceived := h.hasReceived.trans h'.hasReceived.symm
  cases t
  cases t'
  simp only at hbits hlatest hreceived
  rw [hbits, hlatest, hreceived]

lemma track_congr {history history' : List ℕ} (h : Nearby history) (h' : Nearby history')
    (hset : ∀ n, n ∈ history' ↔ n ∈ history) :
    track (history'.map wire) = track (history.map wire) := by
  have hS : {n | n ∈ history'} = {n | n ∈ history} := Set.ext hset
  have hm := marked_track h
  have hm' := marked_track h'
  rw [hS] at hm'
  rcases hm with ⟨htop, _, _⟩ | ⟨M, _, ht⟩
  · rw [List.max?_eq_none_iff] at htop
    subst htop
    have hempty : history' = [] := List.eq_nil_iff_forall_not_mem.mpr fun n hn => by
      simpa using (hset n).mp hn
    rw [hempty]
  · rcases hm' with ⟨_, hnone, _⟩ | ⟨M', _, ht'⟩
    · rw [hnone] at ht
      exact absurd ht.greatest.1 (Set.notMem_empty M)
    · have hM : M' = M := ht'.greatest.unique ht.greatest
      rw [hM] at ht'
      exact tracks_unique ht' ht

/-- The tracker reports the greatest index and exactly the marked indices at most 32 below it,
whatever the order and repetition of the marks. -/
theorem track_exact (history : List ℕ) (h : Nearby history) :
    (∀ M ∈ history.max?,
      (track (history.map wire)).latestSequence.toNat = M % 65536 ∧
      ∀ n, Close n M →
        (isAcknowledged (wire n) (track (history.map wire)).latestSequence
            (track (history.map wire)).ackBits = true ↔
          n ∈ history ∧ M ≤ n + 32 ∧ n ≤ M)) ∧
    ∀ history' : List ℕ, (∀ a ∈ history, ∀ b ∈ history, a < b + 32768) →
      (∀ n, n ∈ history' ↔ n ∈ history) →
      track (history'.map wire) = track (history.map wire) := by
  constructor
  · intro M hM
    rcases marked_track h with ⟨htop, _, _⟩ | ⟨M', htop, ht⟩
    · rw [htop] at hM
      cases hM
    · have hMM' : M' = M := by
        rw [htop] at hM
        exact Option.some.inj hM
      rw [hMM'] at ht
      refine ⟨by rw [ht.latest, wire_toNat], fun n hn => ?_⟩
      rw [ht.isAcknowledged_iff hn]
      constructor
      · rintro ⟨hmem, hle⟩
        exact ⟨hmem, hle, ht.greatest.2 hmem⟩
      · rintro ⟨hmem, hle, _⟩
        exact ⟨hmem, hle⟩
  · intro history' hspan hset
    have hspan' : ∀ a ∈ history', ∀ b ∈ history', a < b + 32768 := by
      intro a ha b hb
      exact hspan a ((hset a).mp ha) b ((hset b).mp hb)
    exact track_congr h (nearby_of_span hspan') hset

/-- The numbers 65534, 1, 0 and 65534 again, across the wraparound. -/
theorem track_exact_wraparound :
    (track ([65534, 65537, 65536, 65534].map wire)).latestSequence.toNat = 1 ∧
      isAcknowledged (wire 65536) (track ([65534, 65537, 65536, 65534].map wire)).latestSequence
        (track ([65534, 65537, 65536, 65534].map wire)).ackBits = true ∧
      track ([65536, 65534, 65537].map wire) =
        track ([65534, 65537, 65536, 65534].map wire) := by
  have hspan : ∀ a ∈ [65534, 65537, 65536, 65534], ∀ b ∈ [65534, 65537, 65536, 65534],
      a < b + 32768 := by decide
  have hexact := track_exact [65534, 65537, 65536, 65534] (nearby_of_span hspan)
  have hlatest := hexact.1 65537 rfl
  refine ⟨hlatest.1, (hlatest.2 65536 (by decide)).mpr (by decide), ?_⟩
  refine hexact.2 _ hspan fun n => ?_
  simp
  omega

section Shifts

/-- A reading of the left shift of the bit field that also fixes amounts of 32 and more. -/
abbrev Shift := AckBits → ℕ → AckBits

/-- All bits leave the field. -/
def shiftOut : Shift := fun x n => x <<< n

/-- The amount is taken modulo 32, as x86 and AArch64 execute it. -/
def shiftModulo : Shift := fun x n => x <<< (n % 32)

/-- `markReceived` under a reading of the shifts, with the amounts of the shifts it evaluates. -/
def markReceivedWith (shl : Shift) (t : ReceiveAckTracker) (sequenceNumber : Seq) :
    ReceiveAckTracker × List ℕ :=
  if t.hasReceived = false then
    ({ hasReceived := true, latestSequence := sequenceNumber, ackBits := 0 }, [])
  else
    let forwardDelta := (sequenceNumber - t.latestSequence).toNat
    if forwardDelta = 0 then (t, [])
    else if forwardDelta < 32768 then
      if forwardDelta ≤ 32 then
        ({ t with
          ackBits := shl t.ackBits forwardDelta ||| shl 1 (forwardDelta - 1)
          latestSequence := sequenceNumber }, [forwardDelta, forwardDelta - 1])
      else ({ t with ackBits := 0, latestSequence := sequenceNumber }, [])
    else
      let backDelta := (t.latestSequence - sequenceNumber).toNat
      if 1 ≤ backDelta ∧ backDelta ≤ 32 then
        ({ t with ackBits := t.ackBits ||| shl 1 (backDelta - 1) }, [backDelta - 1])
      else (t, [])

/-- `isAcknowledged` under a reading of the shifts, with the amounts of the shifts it
evaluates. -/
def isAcknowledgedWith (shl : Shift) (sequenceNumber ack : Seq) (ackBits : AckBits) :
    Bool × List ℕ :=
  if sequenceNumber = ack then (true, [])
  else
    let backDelta := (ack - sequenceNumber).toNat
    if backDelta = 0 ∨ backDelta > 32 ∨ backDelta ≥ 32768 then (false, [])
    else (decide ((ackBits &&& shl 1 (backDelta - 1)) ≠ 0), [backDelta - 1])

def trackWith (shl : Shift) (history : List Seq) : ReceiveAckTracker :=
  history.foldl (fun t s => (markReceivedWith shl t s).1) {}

lemma trackWith_concat (shl : Shift) (history : List Seq) (s : Seq) :
    trackWith shl (history ++ [s]) = (markReceivedWith shl (trackWith shl history) s).1 := by
  simp [trackWith]

def readings : List Shift := [shiftOut, shiftModulo]

/-- No shift of the history or of a query leaves the field, the readings agree, and neither
reports a number that was never marked. A tracker is asked only once it has received. -/
structure ShiftsDefined (history : List Seq) : Prop where
  marks : ∀ shl ∈ readings, ∀ before s, before ++ [s] <+: history →
    ∀ n ∈ (markReceivedWith shl (trackWith shl before) s).2, n < 32
  queries : ∀ shl ∈ readings, ∀ s ack ackBits, ∀ n ∈ (isAcknowledgedWith shl s ack ackBits).2,
    n < 32
  agree : trackWith shiftModulo history = trackWith shiftOut history
  reports : ∀ shl ∈ readings, (trackWith shl history).hasReceived = true →
    ∀ s, (isAcknowledgedWith shl s (trackWith shl history).latestSequence
      (trackWith shl history).ackBits).1 = true → s ∈ history

def newest (history : List Seq) : Option Seq :=
  history.foldl (fun latest s => some (latest.elim s fun l => if isNewerSequence s l then s else l))
    none

lemma newest_concat (history : List Seq) (s : Seq) :
    newest (history ++ [s]) =
      some ((newest history).elim s fun l => if isNewerSequence s l then s else l) := by
  simp [newest]

/-- No number comes exactly 32 ahead of the newest one before it. -/
def AvoidsGap32 (history : List Seq) : Prop :=
  ∀ before s, before ++ [s] <+: history → ∀ latest ∈ newest before, s - latest ≠ 32

lemma markReceivedWith_shiftOut (t : ReceiveAckTracker) (s : Seq) :
    (markReceivedWith shiftOut t s).1 = t.markReceived s := by
  unfold markReceivedWith markReceived shiftOut
  dsimp only
  split_ifs <;> rfl

lemma trackWith_shiftOut (history : List Seq) : trackWith shiftOut history = track history := by
  unfold trackWith track
  congr 1
  funext t s
  exact markReceivedWith_shiftOut t s

lemma shiftModulo_eq {n : ℕ} (x : AckBits) (h : n < 32) : shiftModulo x n = x <<< n := by
  unfold shiftModulo
  rw [Nat.mod_eq_of_lt h]

lemma isAcknowledgedWith_lt (shl : Shift) (s ack : Seq) (ackBits : AckBits) :
    ∀ n ∈ (isAcknowledgedWith shl s ack ackBits).2, n < 32 := by
  intro n hn
  unfold isAcknowledgedWith at hn
  dsimp only at hn
  split_ifs at hn with he hr
  · cases hn
  · cases hn
  · rw [List.mem_singleton] at hn
    omega

lemma isAcknowledgedWith_eq {shl : Shift} (hshl : shl ∈ readings) (s ack : Seq)
    (ackBits : AckBits) : (isAcknowledgedWith shl s ack ackBits).1 = isAcknowledged s ack ackBits := by
  have hone : ∀ n < 32, shl 1 n = 1#32 <<< n := by
    intro n hn
    rcases List.mem_pair.mp hshl with rfl | rfl
    · rfl
    · exact shiftModulo_eq 1 hn
  unfold isAcknowledgedWith isAcknowledged
  dsimp only
  split_ifs with he hr
  · rfl
  · rfl
  · rw [hone _ (by omega)]

lemma markReceivedWith_latest (shl : Shift) {t : ReceiveAckTracker} (ht : t.hasReceived = true)
    (s : Seq) : (markReceivedWith shl t s).1.hasReceived = true ∧
      (markReceivedWith shl t s).1.latestSequence =
        if isNewerSequence s t.latestSequence then s else t.latestSequence := by
  unfold markReceivedWith isNewerSequence
  simp only [ht, Bool.true_eq_false, if_false, decide_eq_true_eq]
  generalize (s - t.latestSequence).toNat = forwardDelta
  generalize (t.latestSequence - s).toNat = backDelta
  by_cases hzero : forwardDelta = 0
  · simp [hzero, ht]
  · by_cases hnew : forwardDelta < 32768
    · simp only [hzero, hnew, ne_eq, not_false_eq_true, and_self, if_true, if_false]
      split_ifs <;> exact ⟨rfl, rfl⟩
    · simp only [hzero, hnew, and_false, if_false]
      split_ifs
      · exact ⟨rfl, rfl⟩
      · exact ⟨ht, rfl⟩

lemma markReceivedWith_first (shl : Shift) {t : ReceiveAckTracker} (ht : t.hasReceived = false)
    (s : Seq) : markReceivedWith shl t s = (⟨true, s, 0⟩, []) := by
  unfold markReceivedWith
  rw [if_pos ht]

lemma newest_trackWith (shl : Shift) (history : List Seq) :
    newest history = if (trackWith shl history).hasReceived = true
      then some (trackWith shl history).latestSequence else none := by
  induction history using List.reverseRecOn with
  | nil => rfl
  | append_singleton before s ih =>
    rw [newest_concat, trackWith_concat, ih]
    cases ht : (trackWith shl before).hasReceived with
    | false => simp [markReceivedWith_first shl ht s]
    | true =>
      have hmark := markReceivedWith_latest shl ht s
      rw [hmark.1, hmark.2]
      simp

lemma markReceivedWith_lt_iff (shl : Shift) (history : List Seq) (s : Seq) :
    (∀ n ∈ (markReceivedWith shl (trackWith shl history) s).2, n < 32) ↔
      ∀ latest ∈ newest history, s - latest ≠ 32 := by
  rw [newest_trackWith shl history]
  generalize trackWith shl history = t
  cases ht : t.hasReceived with
  | false => simp [markReceivedWith_first shl ht s]
  | true =>
    have hgap : s - t.latestSequence = 32 ↔ (s - t.latestSequence).toNat = 32 :=
      ⟨fun h => by rw [h]; rfl, fun h => BitVec.eq_of_toNat_eq h⟩
    simp only [if_true, Option.mem_some_iff, forall_eq', ne_eq, hgap]
    unfold markReceivedWith
    simp only [ht, Bool.true_eq_false, if_false]
    generalize (s - t.latestSequence).toNat = forwardDelta
    generalize (t.latestSequence - s).toNat = backDelta
    split_ifs with hzero hnew hsmall hback
    · simp [hzero]
    · simp
      omega
    · simp
      omega
    · simp
      omega
    · simp
      omega

/-- Where no shift leaves the field, every reading that is right inside the field marks alike. -/
theorem markReceivedWith_of_shiftDefined {shl : Shift} (hshl : ∀ x n, n < 32 → shl x n = x <<< n)
    {t : ReceiveAckTracker} {s : Seq} (h : t.ShiftDefined s) :
    (markReceivedWith shl t s).1 = t.markReceived s := by
  have hgap : t.hasReceived ≠ false → (s - t.latestSequence).toNat ≠ 32 := by
    intro ht he
    exact h (by simpa using ht) (BitVec.eq_of_toNat_eq he)
  unfold markReceivedWith markReceived
  dsimp only
  split_ifs with hfirst hzero hnew hsmall hback
  · rfl
  · rfl
  · have hdelta := hgap hfirst
    rw [hshl _ _ (by omega), hshl _ _ (by omega)]
    rfl
  · rfl
  · rw [hshl _ _ (by omega)]
    rfl
  · rfl

lemma AvoidsGap32.of_prefix {before history : List Seq} (h : AvoidsGap32 history)
    (hp : before <+: history) : AvoidsGap32 before :=
  fun pre s hpre => h pre s (hpre.trans hp)

/-- A history without the gap leaves one tracker in every reading that is right inside the field. -/
lemma trackWith_agree {shl : Shift} (hshl : ∀ x n, n < 32 → shl x n = x <<< n)
    {history : List Seq} (h : AvoidsGap32 history) : trackWith shl history = track history := by
  induction history using List.reverseRecOn with
  | nil => rfl
  | append_singleton before s ih =>
    have hbefore := ih (h.of_prefix (List.prefix_append before [s]))
    have hdefined : (track before).ShiftDefined s := by
      intro hreceived
      have hnewest := newest_trackWith shl before
      rw [hbefore, if_pos hreceived] at hnewest
      exact h before s (List.prefix_refl _) _ hnewest
    rw [trackWith_concat, track_concat, hbefore, markReceivedWith_of_shiftDefined hshl hdefined]

/-- The tracker stands for marked numbers only. -/
structure Reports (t : ReceiveAckTracker) (history : List Seq) : Prop where
  latest : t.latestSequence ∈ history
  bits : ∀ k < 32, t.ackBits.getLsbD k = true →
    t.latestSequence - BitVec.ofNat 16 (k + 1) ∈ history

lemma Reports.mark {t : ReceiveAckTracker} {history : List Seq} (h : Reports t history)
    (ht : t.hasReceived = true) (s : Seq) : Reports (t.markReceived s) (history ++ [s]) := by
  have hold : ∀ x ∈ history, x ∈ history ++ [s] := fun x hx => List.mem_append_left _ hx
  unfold markReceived
  simp only [ht, Bool.true_eq_false, if_false]
  split_ifs with hzero hnew hsmall hback
  · exact ⟨hold _ h.latest, fun k hk hbit => hold _ (h.bits k hk hbit)⟩
  · refine ⟨by simp, fun k hk hbit => ?_⟩
    dsimp only at hbit ⊢
    rw [getLsbD_advance _ (by omega) hk] at hbit
    apply hold
    rcases hbit with hkd | ⟨hdk, hbit⟩
    · rw [hkd, BitVec.ofNat_toNat, BitVec.setWidth_eq]
      have he : s - (s - t.latestSequence) = t.latestSequence := by bv_omega
      rw [he]
      exact h.latest
    · have hmem := h.bits _ (by omega) hbit
      have he : s - BitVec.ofNat 16 (k + 1) = t.latestSequence -
          BitVec.ofNat 16 (k - (s - t.latestSequence).toNat + 1) := by bv_omega
      rwa [he]
  · refine ⟨by simp, fun k hk hbit => ?_⟩
    simp at hbit
  · refine ⟨hold _ h.latest, fun k hk hbit => ?_⟩
    dsimp only at hbit ⊢
    rw [getLsbD_record _ (by omega) hk] at hbit
    rcases hbit with hkd | hbit
    · rw [hkd, BitVec.ofNat_toNat, BitVec.setWidth_eq]
      have he : t.latestSequence - (t.latestSequence - s) = s := by bv_omega
      rw [he]
      simp
    · exact hold _ (h.bits k hk hbit)
  · exact ⟨hold _ h.latest, fun k hk hbit => hold _ (h.bits k hk hbit)⟩

lemma reports_track (history : List Seq) (h : (track history).hasReceived = true) :
    Reports (track history) history := by
  induction history using List.reverseRecOn with
  | nil => cases h
  | append_singleton before s ih =>
    rw [track_concat]
    cases ht : (track before).hasReceived with
    | true => exact (ih ht).mark ht s
    | false =>
      unfold markReceived
      rw [if_pos ht]
      exact ⟨by simp, fun k hk hbit => by simp at hbit⟩

lemma Reports.of_isAcknowledged {t : ReceiveAckTracker} {history : List Seq}
    (h : Reports t history) {s : Seq}
    (hack : isAcknowledged s t.latestSequence t.ackBits = true) : s ∈ history := by
  rcases (isAcknowledged_iff s t.latestSequence t.ackBits).mp hack with he | ⟨h1, h2, hbit⟩
  · rw [he]
    exact h.latest
  · have hmem := h.bits _ (by omega) hbit
    rw [Nat.sub_add_cancel h1, BitVec.ofNat_toNat, BitVec.setWidth_eq] at hmem
    have he : t.latestSequence - (t.latestSequence - s) = s := by bv_omega
    rwa [he] at hmem

/-- Every shift stays inside the field exactly in the histories without a gap of 32. -/
theorem shiftsDefined_iff (history : List Seq) : ShiftsDefined history ↔ AvoidsGap32 history := by
  constructor
  · intro h before s hp
    exact (markReceivedWith_lt_iff shiftOut before s).mp
      (h.marks shiftOut (by simp [readings]) before s hp)
  · intro h
    have hsame : ∀ shl ∈ readings, trackWith shl history = track history := by
      intro shl hshl
      rcases List.mem_pair.mp hshl with rfl | rfl
      · exact trackWith_shiftOut history
      · exact trackWith_agree (fun x _ hn => shiftModulo_eq x hn) h
    have hagree : trackWith shiftModulo history = trackWith shiftOut history :=
      (hsame shiftModulo (by simp [readings])).trans (trackWith_shiftOut history).symm
    refine ⟨?_, ?_, hagree, ?_⟩
    · intro shl _ before s hp
      exact (markReceivedWith_lt_iff shl before s).mpr (h before s hp)
    · intro shl _ s ack ackBits
      exact isAcknowledgedWith_lt shl s ack ackBits
    · intro shl hshl hreceived s hack
      rw [hsame shl hshl] at hreceived hack
      rw [isAcknowledgedWith_eq hshl] at hack
      exact (reports_track history hreceived).of_isAcknowledged hack

/-- After 1, 0 and 33 the field is shifted by 32. Taken modulo 32, the bit of 0 stays where it
is and acknowledges 32, which was never marked. -/
theorem shift_by_32 :
    ¬ ShiftsDefined [1, 0, 33] ∧
      (markReceivedWith shiftModulo (trackWith shiftModulo [1, 0]) 33).2 = [32, 31] ∧
      (isAcknowledgedWith shiftModulo 32 (trackWith shiftModulo [1, 0, 33]).latestSequence
        (trackWith shiftModulo [1, 0, 33]).ackBits).1 = true := by
  refine ⟨fun h => ?_, by decide, by decide⟩
  have hmem := h.reports shiftModulo (by simp [readings]) (by decide) 32 (by decide)
  revert hmem
  decide

end Shifts

end ReliableUdp.AckHistory
