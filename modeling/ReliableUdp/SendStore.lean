import ReliableUdp.SenderHistory
import ReliableUdp.DefaultCodec

/-! What the retransmission store keeps in every run: its count and slots, the bytes it resends,
and, as long as no failed send takes a packet away, every number between the acknowledged ones
and the next. -/
namespace ReliableUdp.SendStore
open Protocol DefaultCodec ChannelCommon ReliableChannel ReliableSender Runs SenderRun
  SenderHistory

section Store
variable {C : Type} [CongestionCtrl C] {ordered : Bool} {W : Window}

structure StoreInvariant (s : SendRun C ordered W) : Prop where
  count : s.channel.inFlightCount = s.channel.sentPackets.occupied
  bounded : s.channel.inFlightCount ≤ W.size
  ackDecrements : ∀ ack ackBits, (ackedBy s.channel ack ackBits).length ≤ s.channel.inFlightCount
  eraseDecrement : ∀ k sp, s.channel.sentPackets.get k = some sp → 0 < s.channel.inFlightCount
  slots : ∀ i < W.size, ∀ sp, s.channel.sentPackets.get i = some sp →
    sp.sequenceNumber.toNat % W.size = i
  errorLocal : ∀ sequenceNumber handler ec now io k sp,
    s.channel.sentPackets.get k = some sp → sp.sequenceNumber ≠ sequenceNumber →
    (s.channel.sendCompleted sequenceNumber handler ec now io).1.sentPackets.get k = some sp
  firstSent : ∀ i < W.size, ∀ sp, s.channel.sentPackets.get i = some sp →
    (s.owner i, sp.encodedPacket) ∈ datagrams s.trace
  sameBytes : ∀ i < W.size, ∀ sp, s.channel.sentPackets.get i = some sp →
    ∀ d, (s.owner i, d) ∈ datagrams s.trace → d = sp.encodedPacket
  identical : ∀ n d d', (n, d) ∈ datagrams s.trace → (n, d') ∈ datagrams s.trace → d = d'
  socket : (datagrams s.trace).map Prod.snd = transmitted s.io.log

variable {T : ℕ} {s : SendRun C ordered W}

lemma sent_of_tracked {allocated n k : ℕ} {trace : List Mark} {sp : SentPacket}
    (h : Tracked W T allocated trace n k sp) : (n, sp.encodedPacket) ∈ datagrams trace := by
  have hpos : 0 < ((datagrams trace).map Prod.fst).count n := by
    rw [h.sent]
    omega
  obtain ⟨p, hp, rfl⟩ := List.mem_map.mp (List.count_pos_iff.mp hpos)
  have hbytes := h.bytes p.2 hp
  rw [← hbytes]
  exact hp

theorem storeInvariant_of_sound (h : Sound T s) : StoreInvariant s := by
  have hack : ∀ ack ackBits, (ackedBy s.channel ack ackBits).length ≤ s.channel.inFlightCount := by
    intro ack ackBits
    rw [h.count]
    exact List.length_filter_le _ _
  have howner : ∀ i < W.size, ∀ sp, s.channel.sentPackets.get i = some sp →
      Tracked W T s.allocated s.trace (s.owner i) i sp := by
    intro i hi sp hsp
    have ht := h.stored i sp hsp
    rwa [Nat.mod_eq_of_lt hi] at ht
  refine ⟨h.count, ?_, hack, ?_, ?_, ?_, ?_, ?_, h.identical, h.socket⟩
  · rw [h.count]
    exact SlotTable.occupied_le _
  · intro k sp hk
    rw [h.count]
    exact List.length_pos_of_mem (SlotTable.mem_entries_of_get hk)
  · intro i hi sp hsp
    have ht := howner i hi sp hsp
    rw [ht.seq, ht.slot, Nat.mod_eq_of_lt hi]
  · intro sequenceNumber handler ec now io k sp hk hne
    rcases sendCompleted_get s.channel sequenceNumber handler ec now io k with
      hsame | ⟨_, _, sp', hsp', hseq⟩
    · rw [hsame, hk]
    · rw [hk] at hsp'
      rw [Option.some.inj hsp'] at hne
      exact absurd hseq hne
  · intro i hi sp hsp
    exact sent_of_tracked (howner i hi sp hsp)
  · intro i hi sp hsp d hd
    exact (howner i hi sp hsp).bytes d hd

/-- The store invariant holds in every reachable state, whatever the codec, the controller and
the order of calls, completions and acknowledgements. -/
theorem store_invariant (codec : PacketCodec) (id : Byte) (retxTimeout : ℕ) (cc : C)
    (h : Reachable (SendRun.step codec) (fun _ _ => True) (SendRun.start id retxTimeout cc) s) :
    StoreInvariant s :=
  storeInvariant_of_sound (sound_of_reachable h)

end Store

/-- Window one: the slot of number 0 is reused by number 1 before the error of the first send
arrives. -/
def lateError : List Event :=
  [.asyncSend [7] 1 0, .flush, .onRecv { type := .ack, ack := 0 } 10, .asyncSend [8] 2 20,
    .sendCompleted 0 (.system 5) 30]

def runNull (W : Window) (events : List Event) : SendRun Null true W :=
  events.foldl (SendRun.step defaultCodec.toPacketCodec) (SendRun.start 0 200 {})

theorem store_invariant_lateError :
    StoreInvariant (runNull (normalizeWindow 1) lateError) ∧
      ((runNull (normalizeWindow 1) lateError).channel.sentPackets.get 0).map
        SentPacket.sequenceNumber = some 1 := by
  have hreach : Reachable (SendRun.step defaultCodec.toPacketCodec) (fun _ _ => True)
      (SendRun.start 0 200 {}) (runNull (normalizeWindow 1) lateError) :=
    reachable_foldl .start lateError (by decide)
  exact ⟨store_invariant _ _ _ _ hreach, by decide +kernel⟩

section Holes
variable {C : Type} {ordered : Bool} {W : Window} {T : ℕ} {s : SendRun C ordered W}

/-- Every number taken so far is stored or was acknowledged. -/
def NoHole (s : SendRun C ordered W) : Prop :=
  ∀ n < s.allocated,
    (∃ k sp, s.channel.sentPackets.get k = some sp ∧ s.owner (k % W.size) = n) ∨
      n ∈ acknowledged s.trace

/-- The number of the send whose completion is at a position of the socket's queue. -/
def completedNumber (s : SendRun C ordered W) (position : ℕ) : Option Seq :=
  match s.io.pending[position]? with
  | some (.data _ sequenceNumber _) => some sequenceNumber
  | _ => none

lemma pending_of_completedNumber {position : ℕ} {sequenceNumber : Seq}
    (h : sequenceNumber ∈ completedNumber s position) :
    ∃ channel handler, s.io.pending[position]? = some (.data channel sequenceNumber handler) := by
  unfold completedNumber at h
  cases hp : s.io.pending[position]? with
  | none => simp [hp] at h
  | some completion =>
    cases completion with
    | data channel number handler =>
      simp only [hp, Option.mem_some] at h
      exact ⟨channel, handler, by rw [h]⟩
    | _ => simp [hp] at h

/-- A send error arrives only once no stored packet has its number. -/
def ErrorsAfterRemoval (s : SendRun C ordered W) : Event → Prop
  | .sendCompleted position ec _ => ec.failed = true →
      ∀ sequenceNumber ∈ completedNumber s position,
        ∀ sp ∈ s.channel.sentPackets.entries, sp.sequenceNumber ≠ sequenceNumber
  | _ => True

instance (s : SendRun C ordered W) (e : Event) : Decidable (ErrorsAfterRemoval s e) :=
  match e with
  | .sendCompleted position ec _ =>
    inferInstanceAs (Decidable (ec.failed = true → ∀ sequenceNumber ∈ completedNumber s position,
      ∀ sp ∈ s.channel.sentPackets.entries, sp.sequenceNumber ≠ sequenceNumber))
  | .asyncSend _ _ _ => .isTrue trivial
  | .onTick _ => .isTrue trivial
  | .flush => .isTrue trivial
  | .onRecv _ _ => .isTrue trivial

/-- A number that left the store without an acknowledgement. -/
def Lost (n : ℕ) (s : SendRun C ordered W) : Prop :=
  n < s.allocated ∧ n ∈ dropped s.trace ∧ n ∉ acknowledged s.trace

lemma Lost.not_noHole {n : ℕ} (h : Lost n s) (hs : Sound T s) : ¬ NoHole s := by
  intro hno
  rcases hno n h.1 with ⟨k, sp, hk, ho⟩ | hack
  · obtain ⟨t, ht, _⟩ := (hs.stored k sp hk).due
    rw [ho, hs.gone n h.2.1] at ht
    cases ht
  · exact h.2.2 hack

lemma Lost.removed {n : ℕ} (h : Lost n s) (hs : Sound T s) (after : SlotTable SentPacket W.size)
    (cause : Cause) :
    n ∉ (Mark.removed cause (emptied s.channel.sentPackets after s.owner)).acknowledged := by
  have hout : n ∉ emptied s.channel.sentPackets after s.owner := by
    intro hin
    obtain ⟨k, sp, hk, _, ho⟩ := (mem_emptied W.pos).mp hin
    obtain ⟨t, ht, _⟩ := (hs.stored k sp hk).due
    rw [ho, hs.gone n h.2.1] at ht
    cases ht
  cases cause with
  | acknowledged => exact hout
  | sendFailed => simp [Mark.acknowledged]

end Holes

section Holes
variable {C : Type} [CongestionCtrl C] {ordered : Bool} {W : Window} {T : ℕ}
  {codec : PacketCodec} {s : SendRun C ordered W}

/-- Some send of the list was completed without going to the socket. -/
def refusals (effects : List Effect) : Bool :=
  effects.any fun
    | .sendDone _ _ => true
    | _ => false

/-- No `asyncSend` ends at once with SendWindowFull or BadPacket. -/
def Accepted (codec : PacketCodec) (s : SendRun C ordered W) : Event → Prop
  | .asyncSend payload handler now =>
    refusals ((s.asyncSend codec payload handler now).io.log.drop s.io.log.length) = false
  | _ => True

instance (codec : PacketCodec) (s : SendRun C ordered W) (e : Event) :
    Decidable (Accepted codec s e) :=
  match e with
  | .asyncSend payload handler now => inferInstanceAs (Decidable
      (refusals ((s.asyncSend codec payload handler now).io.log.drop s.io.log.length) = false))
  | .sendCompleted _ _ _ => .isTrue trivial
  | .onTick _ => .isTrue trivial
  | .flush => .isTrue trivial
  | .onRecv _ _ => .isTrue trivial

theorem Lost.step {n : ℕ} (h : Lost n s) (hs : Sound T s) (e : Event) :
    Lost n (s.step codec e) := by
  obtain ⟨hlt, hdropped, hack⟩ := h
  cases e with
  | asyncSend payload handler now =>
    have hc := sent_cases codec s payload handler now
    simp only [SendRun.step]
    generalize s.asyncSend codec payload handler now = s' at hc ⊢
    cases hc with
    | refused cc => exact ⟨hlt, hdropped, hack⟩
    | wasted cc e he => exact ⟨Nat.lt_succ_of_lt hlt, hdropped, hack⟩
    | stored cc hfree stats hstats d hd =>
      refine ⟨Nat.lt_succ_of_lt hlt, ?_, ?_⟩
      · simpa [Mark.dropped] using hdropped
      · simpa [Mark.acknowledged] using hack
  | sendCompleted position ec now =>
    simp only [SendRun.step, SendRun.sendCompleted]
    split
    · refine ⟨hlt, ?_, ?_⟩
      · simp [hdropped]
      · rw [acknowledged_concat, List.mem_append, not_or]
        exact ⟨hack, Lost.removed ⟨hlt, hdropped, hack⟩ hs _ _⟩
    · exact ⟨hlt, hdropped, hack⟩
  | onTick now =>
    refine ⟨hlt, ?_, ?_⟩
    · simpa [SendRun.step, SendRun.onTick, Mark.dropped] using hdropped
    · simpa [SendRun.step, SendRun.onTick, Mark.acknowledged] using hack
  | flush =>
    refine ⟨hlt, ?_, ?_⟩
    · simpa [SendRun.step, SendRun.flush, Mark.dropped] using hdropped
    · simpa [SendRun.step, SendRun.flush, Mark.acknowledged] using hack
  | onRecv packet now =>
    refine ⟨hlt, ?_, ?_⟩
    · simp [SendRun.step, SendRun.onRecv, hdropped]
    · simp only [SendRun.step, SendRun.onRecv]
      rw [acknowledged_concat, List.mem_append, not_or]
      exact ⟨hack, Lost.removed ⟨hlt, hdropped, hack⟩ hs _ _⟩

omit [CongestionCtrl C] in
/-- A step that takes no number keeps the numbers covered when every slot it empties goes to the
acknowledged ones. -/
lemma NoHole.of_slots (h : NoHole s) {ch : Channel C ordered W} {io : Transport} {m : Mark}
    (hslots : ∀ k sp, s.channel.sentPackets.get k = some sp →
      (∃ sp', ch.sentPackets.get k = some sp') ∨ s.owner (k % W.size) ∈ m.acknowledged) :
    NoHole { s with channel := ch, io := io, trace := s.trace ++ [m] } := by
  intro n hn
  rw [acknowledged_concat, List.mem_append]
  rcases h n hn with ⟨k, sp, hk, ho⟩ | hack
  · rcases hslots k sp hk with ⟨sp', hsp'⟩ | hnew
    · exact Or.inl ⟨k, sp', hsp', ho⟩
    · exact Or.inr (Or.inr (ho ▸ hnew))
  · exact Or.inr (Or.inl hack)

lemma NoHole.asyncSend (h : NoHole s) {payload : List Byte} {handler : ℕ} {now : Time}
    (ha : Accepted codec s (.asyncSend payload handler now)) :
    NoHole (s.asyncSend codec payload handler now) := by
  have hc := sent_cases codec s payload handler now
  simp only [Accepted] at ha
  generalize s.asyncSend codec payload handler now = s' at hc ha ⊢
  cases hc with
  | refused cc => simp [refusals] at ha
  | wasted cc e he => simp [refusals] at ha
  | stored cc hfree stats hstats d hd =>
    intro n hn
    rcases Nat.lt_succ_iff_lt_or_eq.mp hn with hlt | rfl
    · rcases h n hlt with ⟨k, sp, hk, ho⟩ | hack
      · have hother : s.channel.nextSeq.toNat % W.size ≠ k % W.size :=
          SlotTable.mod_ne_of_get hfree hk
        refine Or.inl ⟨k, sp, ?_, ?_⟩
        · exact (SlotTable.get_set_other _ hother _).trans hk
        · exact (Function.update_of_ne hother.symm _ _).trans ho
      · exact Or.inr (by simp [hack])
    · refine Or.inl ⟨s.channel.nextSeq.toNat, _, SlotTable.get_set_same _ W.pos rfl _, ?_⟩
      exact Function.update_self _ _ _

lemma NoHole.sendCompleted (h : NoHole s) {position : ℕ} {ec : ErrorCode} {now : Time}
    (he : ErrorsAfterRemoval s (.sendCompleted position ec now)) :
    NoHole (s.sendCompleted position ec now) := by
  simp only [ErrorsAfterRemoval, completedNumber] at he
  unfold SendRun.sendCompleted
  dsimp only
  split
  · rename_i channel sequenceNumber handler hpending
    refine h.of_slots fun k sp hk => ?_
    rcases sendCompleted_get s.channel sequenceNumber handler ec now
      { s.io with pending := s.io.pending.eraseIdx position } k with
      hsame | ⟨hfailed, _, sp', hsp', hseq⟩
    · exact Or.inl ⟨sp, hsame.trans hk⟩
    · rw [hpending] at he
      exact absurd hseq (he hfailed sequenceNumber rfl sp' (SlotTable.mem_entries_of_get hsp'))
  · exact h

theorem NoHole.step (h : NoHole s) (e : Event) (ha : Accepted codec s e)
    (he : ErrorsAfterRemoval s e) : NoHole (s.step codec e) := by
  cases e with
  | asyncSend payload handler now => exact h.asyncSend ha
  | sendCompleted position ec now => exact h.sendCompleted he
  | onTick now =>
    refine h.of_slots fun k sp hk => Or.inl ?_
    rw [onTick_get, hk]
    simp only [ticked]
    split_ifs
    · exact ⟨_, rfl⟩
    · exact ⟨_, rfl⟩
  | flush => exact h.of_slots fun k sp hk => Or.inl ⟨sp, hk⟩
  | onRecv packet now =>
    refine h.of_slots fun k sp hk => ?_
    cases hg : (s.channel.onRecv packet now s.io).1.sentPackets.get k with
    | some sp' => exact Or.inl ⟨sp', rfl⟩
    | none => exact Or.inr ((mem_emptied W.pos).mpr ⟨k, sp, hk, hg, rfl⟩)

omit [CongestionCtrl C] in
lemma acknowledged_subset (trace : List Mark) : acknowledged trace ⊆ dropped trace := by
  intro n hn
  obtain ⟨m, hm, hmn⟩ := List.mem_flatMap.mp hn
  refine List.mem_flatMap.mpr ⟨m, hm, ?_⟩
  cases m with
  | removed cause indices =>
    cases cause with
    | acknowledged => exact hmn
    | sendFailed => cases hmn
  | _ => cases hmn

lemma sendCompleted_erases {ch : Channel C ordered W} {k : ℕ} {sp : SentPacket}
    (hk : ch.sentPackets.get k = some sp) (hslot : sp.sequenceNumber.toNat % W.size = k % W.size)
    {ec : ErrorCode} (hec : ec.failed = true) (handler : ℕ) (now : Time) (io : Transport) :
    (ch.sendCompleted sp.sequenceNumber handler ec now io).1.sentPackets.get k = none := by
  have hget : ch.sentPackets.get sp.sequenceNumber.toNat = some sp := by
    rw [SlotTable.get_congr _ hslot, hk]
  simp only [Channel.sendCompleted, hec, if_true, eraseSentPacket_of_get hget]
  exact SlotTable.get_set_same _ W.pos hslot _

theorem lost_of_error (hs : Sound T s) {e : Event} (he : ¬ ErrorsAfterRemoval s e) :
    ∃ n, Lost n (s.step codec e) := by
  cases e with
  | sendCompleted position ec now =>
    simp only [ErrorsAfterRemoval, not_forall, not_not, exists_prop] at he
    obtain ⟨hec, sequenceNumber, hseq, sp, hsp, rfl⟩ := he
    obtain ⟨k, hk⟩ := SlotTable.exists_get_of_mem_entries hsp
    have ht := hs.stored k sp hk
    have hslot : sp.sequenceNumber.toNat % W.size = k % W.size := by
      rw [ht.seq]
      exact ht.slot
    obtain ⟨channel, handler, hpending⟩ := pending_of_completedNumber hseq
    refine ⟨s.owner (k % W.size), ?_⟩
    simp only [SendRun.step, SendRun.sendCompleted, hpending]
    refine ⟨ht.lt, ?_, ?_⟩
    · rw [dropped_concat]
      exact List.mem_append_right _ ((mem_emptied W.pos).mpr
        ⟨k, sp, hk, sendCompleted_erases hk hslot hec _ _ _, rfl⟩)
    · simp only [acknowledged_concat, Mark.acknowledged, List.append_nil]
      intro hack
      obtain ⟨t, hlast, _⟩ := ht.due
      rw [hs.gone _ (acknowledged_subset _ hack)] at hlast
      cases hlast
  | _ => exact absurd trivial he

lemma noHole_or_lost (codec : PacketCodec) (id : Byte) (retxTimeout : ℕ) (cc : C)
    (events : List Event) {s : SendRun C ordered W} (hs : s = SendRun.start id retxTimeout cc)
    (h : Admitted (SendRun.step codec) (Accepted codec) s events) :
    (Admitted (SendRun.step codec) ErrorsAfterRemoval s events ∧
        NoHole (events.foldl (SendRun.step codec) s)) ∨
      (¬ Admitted (SendRun.step codec) ErrorsAfterRemoval s events ∧
        ∃ n, Lost n (events.foldl (SendRun.step codec) s)) := by
  induction events using List.reverseRecOn with
  | nil =>
    refine Or.inl ⟨trivial, fun n hn => ?_⟩
    rw [hs] at hn
    exact absurd hn (Nat.not_lt_zero n)
  | append_singleton events e ih =>
    rw [admitted_concat] at h ⊢
    have hsound : Sound retxTimeout (events.foldl (SendRun.step codec) s) := by
      have hreach := reachable_foldl .start events h.1
      rw [hs] at hreach ⊢
      exact sound_of_reachable hreach
    rw [List.foldl_concat]
    rcases ih h.1 with ⟨hcond, hno⟩ | ⟨hcond, n, hlost⟩
    · by_cases he : ErrorsAfterRemoval (events.foldl (SendRun.step codec) s) e
      · exact Or.inl ⟨⟨hcond, he⟩, hno.step e h.2 he⟩
      · exact Or.inr ⟨fun hc => he hc.2, lost_of_error hsound he⟩
    · exact Or.inr ⟨fun hc => hcond hc.1, n, hlost.step hsound e⟩

/-- A run that is never refused leaves no hole exactly when every send error in it arrives after
its packet has left the store. -/
theorem noHole_iff (codec : PacketCodec) (id : Byte) (retxTimeout : ℕ) (cc : C)
    (events : List Event)
    (h : Admitted (SendRun.step codec) (Accepted codec)
      (SendRun.start id retxTimeout cc : SendRun C ordered W) events) :
    NoHole (events.foldl (SendRun.step codec)
        (SendRun.start id retxTimeout cc : SendRun C ordered W)) ↔
      Admitted (SendRun.step codec) ErrorsAfterRemoval
        (SendRun.start id retxTimeout cc : SendRun C ordered W) events := by
  rcases noHole_or_lost codec id retxTimeout cc events rfl h with ⟨hcond, hno⟩ | ⟨hcond, n, hlost⟩
  · exact ⟨fun _ => hcond, fun _ => hno⟩
  · have hs := sound_of_reachable (reachable_foldl .start events h)
    exact ⟨fun hno => absurd hno (hlost.not_noHole hs), fun hc => absurd hc hcond⟩

end Holes

/-- The error of a send that was acknowledged before removes nothing. -/
theorem noHole_iff_acknowledged :
    NoHole (runNull (normalizeWindow 4) [.asyncSend [7] 1 0, .asyncSend [8] 2 5,
      .onRecv { type := .ack, ack := 0 } 10, .sendCompleted 0 (.system 5) 20]) := by
  have hnumber : completedNumber (runNull (normalizeWindow 4) [.asyncSend [7] 1 0,
      .asyncSend [8] 2 5, .onRecv { type := .ack, ack := 0 } 10]) 0 = some 0 := by decide +kernel
  have hstored : (runNull (normalizeWindow 4) [.asyncSend [7] 1 0, .asyncSend [8] 2 5,
      .onRecv { type := .ack, ack := 0 } 10]).channel.sentPackets.entries.map
        SentPacket.sequenceNumber = [1] := by decide +kernel
  simp only [runNull, List.foldl_cons, List.foldl_nil] at hnumber hstored
  refine (noHole_iff _ _ _ _ _ (by decide +kernel)).mpr ⟨trivial, trivial, trivial, ?_, trivial⟩
  intro _ sequenceNumber hsequence sp hsp heq
  have hmem := List.mem_map_of_mem (f := SentPacket.sequenceNumber) hsp
  rw [hstored, List.mem_singleton] at hmem
  rw [hnumber, Option.mem_some, ← heq, hmem] at hsequence
  cases hsequence

/-- One message, one socket error: number 0 is taken, gone and was never acknowledged, with no
completion outstanding. -/
theorem send_error_leaves_hole :
    Admitted (SendRun.step defaultCodec.toPacketCodec) (Accepted defaultCodec.toPacketCodec)
        (SendRun.start 0 200 {} : SendRun Null true (normalizeWindow 4))
        [.asyncSend [7] 1 0, .sendCompleted 0 (.system 5) 20] ∧
      (runNull (normalizeWindow 4)
        [.asyncSend [7] 1 0, .sendCompleted 0 (.system 5) 20]).io.pending = [] ∧
      ¬ NoHole (runNull (normalizeWindow 4)
        [.asyncSend [7] 1 0, .sendCompleted 0 (.system 5) 20]) := by
  refine ⟨by decide +kernel, by decide +kernel, fun hno => ?_⟩
  have hempty : (runNull (normalizeWindow 4) [.asyncSend [7] 1 0,
      .sendCompleted 0 (.system 5) 20]).channel.sentPackets.entries = [] := by decide +kernel
  rcases hno 0 (by decide +kernel) with ⟨k, sp, hk, _⟩ | hack
  · have hmem := SlotTable.mem_entries_of_get hk
    rw [hempty] at hmem
    cases hmem
  · revert hack
    decide +kernel

end ReliableUdp.SendStore
