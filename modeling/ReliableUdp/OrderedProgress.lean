import ReliableUdp.AckTracking

/-! The ordered receiver waits for an index that is still to be allocated or that the sender
still stores, as long as no `asyncSend` takes a number whose slot is occupied. -/
namespace ReliableUdp.OrderedProgress
open Protocol ChannelCommon ReliableChannel OrderedReceiver ReliableSender ReliablePair
open OrderedDelivery AckTracking

variable {C : Type} {Ws Wr W : Window}

/-- The sender can retransmit the packet of index `n`. -/
def Retained {ordered : Bool} (s : Pair C ordered Ws Wr) (n : ℕ) : Prop :=
  ∃ k sp, s.sender.sentPackets.get k = some sp ∧ s.owner (k % Ws.size) = n

lemma Retained.of_store {ordered : Bool} {s s' : Pair C ordered W W} {n : ℕ} (h : Retained s n)
    (howner : s'.owner = s.owner)
    (hstore : ∀ k sp, s.sender.sentPackets.get k = some sp →
      (s'.sender.sentPackets.get k).isSome) : Retained s' n := by
  obtain ⟨k, sp, hsp, hn⟩ := h
  obtain ⟨sp', hsp'⟩ := Option.isSome_iff_exists.mp (hstore k sp hsp)
  exact ⟨k, sp', hsp', by rw [howner]; exact hn⟩

section Controlled
variable [CongestionCtrl C]

/-- The sender's part: an `asyncSend` that goes past the in-flight check finds its slot free, the
socket reports no send error, and acknowledgements come from the receiver. -/
def Supplied {ordered : Bool} (s : Pair C ordered W W) : Event → Prop
  | .asyncSend _ _ now => s.sender.inFlightCount < (s.sender.effectiveSendWindow now).1 →
      s.sender.sentPackets.get s.sender.nextSeq.toNat = none
  | .sendCompleted _ ec _ => ec.failed = false
  | .ackArrives position _ => ∀ a ∈ s.acks[position]?, ∀ p ∈ s.indexed, Close p.1 a.1
  | .packetArrives packet _ => packet.type ≠ .ack
  | _ => True

instance {ordered : Bool} (s : Pair C ordered W W) (e : Event) : Decidable (Supplied s e) :=
  match e with
  | .asyncSend _ _ now =>
    inferInstanceAs (Decidable (s.sender.inFlightCount < (s.sender.effectiveSendWindow now).1 →
      s.sender.sentPackets.get s.sender.nextSeq.toNat = none))
  | .sendCompleted _ ec _ => inferInstanceAs (Decidable (ec.failed = false))
  | .ackArrives position _ =>
    inferInstanceAs (Decidable (∀ a ∈ s.acks[position]?, ∀ p ∈ s.indexed, Close p.1 a.1))
  | .packetArrives packet _ => inferInstanceAs (Decidable (packet.type ≠ .ack))
  | .dataArrives .. | .onTick _ | .flush | .asyncRecv .. => .isTrue trivial

/-- An `asyncSend` that goes past the in-flight check finds its slot free, the socket reports no
send error, acknowledgements come from the receiver, numbers and slots are unambiguous, and nothing
is marked exactly 32 ahead of the latest index. -/
def Orderly (s : Pair C true W W) : Event → Prop
  | .asyncSend _ _ now => s.sender.inFlightCount < (s.sender.effectiveSendWindow now).1 →
      s.sender.sentPackets.get s.sender.nextSeq.toNat = none
  | .sendCompleted _ ec _ => ec.failed = false
  | .ackArrives position _ => ∀ a ∈ s.acks[position]?, ∀ p ∈ s.indexed, Close p.1 a.1
  | .packetArrives packet _ => packet.type ≠ .ack
  | .dataArrives position now => Unclashing s (.dataArrives position now) ∧
      ShiftDefined s (.dataArrives position now)
  | .onTick _ | .flush | .asyncRecv .. => True

instance (s : Pair C true W W) (e : Event) : Decidable (Orderly s e) :=
  match e with
  | .asyncSend _ _ now =>
    inferInstanceAs (Decidable (s.sender.inFlightCount < (s.sender.effectiveSendWindow now).1 →
      s.sender.sentPackets.get s.sender.nextSeq.toNat = none))
  | .sendCompleted _ ec _ => inferInstanceAs (Decidable (ec.failed = false))
  | .ackArrives position _ =>
    inferInstanceAs (Decidable (∀ a ∈ s.acks[position]?, ∀ p ∈ s.indexed, Close p.1 a.1))
  | .packetArrives packet _ => inferInstanceAs (Decidable (packet.type ≠ .ack))
  | .dataArrives position now =>
    inferInstanceAs (Decidable ((∀ p ∈ s.data[position]?,
      Close p.1 s.expected ∧ (∀ M ∈ s.received.max?, Close p.1 M) ∧
        ∀ b ∈ s.receiver.receiveBuffer.get (wire p.1).toNat,
          s.expected ≤ p.1 ∧ p.1 < s.expected + W.size → b.sequenceNumber = wire p.1) ∧
      ShiftDefined s (.dataArrives position now)))
  | .onTick _ | .flush | .asyncRecv .. => .isTrue trivial

lemma supplied_of_orderly {s : Pair C true W W} {e : Event} (h : Orderly s e) : Supplied s e := by
  cases e with
  | asyncSend payload handler now => exact h
  | sendCompleted position ec now => exact h
  | ackArrives position now => exact h
  | packetArrives packet now => exact h
  | _ => trivial

lemma unclashing_of_orderly {s : Pair C true W W} {e : Event} (h : Orderly s e) :
    Unclashing s e := by
  cases e with
  | dataArrives position now => exact h.1
  | _ => trivial

/-- Every allocated index is with the receiver or retained by the sender. -/
def Complete (s : Pair C true W W) (held : ℕ → Option (List Byte)) : Prop :=
  ∀ n < s.sent.length, Has s.expected held n ∨ Retained s n

lemma retained_asyncSend (codec : LawfulCodec) {ordered : Bool} {s : Pair C ordered W W}
    {payload : List Byte} {handler : ℕ} {now : Time}
    (hg : Supplied s (.asyncSend payload handler now)) {n : ℕ}
    (hn : n < (s.asyncSend codec payload handler now).sent.length) :
    n < s.sent.length ∧ (Retained s n → Retained (s.asyncSend codec payload handler now) n) ∨
      Retained (s.asyncSend codec payload handler now) n := by
  have hc := pairSending_cases codec s payload handler now
  generalize s.asyncSend codec payload handler now = s' at hc hn ⊢
  cases hc with
  | refused cc hfull => exact Or.inl ⟨hn, fun h => h⟩
  | collided cc hroom old hold =>
    rw [hg hroom] at hold
    cases hold
  | stored cc hroom hfree stats d hd =>
    simp only [List.length_append, List.length_singleton] at hn
    rcases Nat.lt_succ_iff_lt_or_eq.mp hn with hlt | rfl
    · refine Or.inl ⟨hlt, ?_⟩
      rintro ⟨k, sp, hsp, hk⟩
      have hslot : s.sender.nextSeq.toNat % W.size ≠ k % W.size := by
        intro heq
        rw [SlotTable.get_congr _ heq, hsp] at hfree
        cases hfree
      refine ⟨k, sp, ?_, ?_⟩
      · dsimp only
        rw [SlotTable.get_set_other _ hslot, hsp]
      · dsimp only
        rw [Function.update_of_ne (Ne.symm hslot)]
        exact hk
    · refine Or.inr ⟨s.sender.nextSeq.toNat, freshPacket s.sender d now, ?_, ?_⟩
      · exact SlotTable.get_set_same _ W.pos rfl _
      · exact Function.update_self _ _ _

lemma retained_step {codec : LawfulCodec} {ordered : Bool} {s : Pair C ordered W W} {P : Set ℕ}
    (hsound : Sound codec s) (h : Covered codec s P) {e : Event} (hg : Supplied s e)
    (hsend : ∀ payload handler now, e ≠ .asyncSend payload handler now) {n : ℕ}
    (hn : Retained s n) : n ∈ P ∨ Retained (s.step codec e) n := by
  cases e with
  | asyncSend payload handler now => exact absurd rfl (hsend payload handler now)
  | sendCompleted position ec now =>
    refine Or.inr (hn.of_store ?_ ?_)
    · simp only [Pair.step, Pair.sendCompleted]
      split <;> rfl
    · intro k sp hsp
      simp only [Pair.step, Pair.sendCompleted]
      split
      · rename_i id sequenceNumber handler _
        rcases sendCompleted_get s.sender sequenceNumber handler ec now
          { s.senderIo with pending := s.senderIo.pending.eraseIdx position } k with he | ⟨hf, _⟩
        · dsimp only
          rw [he, hsp]
          rfl
        · rw [show ec.failed = false from hg] at hf
          cases hf
      · rw [hsp]
        rfl
  | onTick now =>
    refine Or.inr (hn.of_store rfl ?_)
    intro k sp hsp
    have hget := onTick_get s.sender now s.senderIo k
    rw [hsp] at hget
    simp only [Pair.step, Pair.onTick, hget, ticked]
    split_ifs <;> rfl
  | flush => exact Or.inr hn
  | ackArrives position now =>
    obtain ⟨k, sp, hsp, hk⟩ := hn
    cases hget : (s.step codec (.ackArrives position now)).sender.sentPackets.get k with
    | none =>
      have hmem := h.removed hsound hg hsp hget
      rw [hk] at hmem
      exact Or.inl hmem
    | some sp' =>
      refine Or.inr ⟨k, sp', hget, ?_⟩
      rw [← hk]
      simp only [Pair.step]
      split
      · rfl
      · split <;> rfl
  | packetArrives packet now =>
    refine Or.inr (hn.of_store rfl ?_)
    intro k sp hsp
    have hrecv := onRecv_receiveOnly s.sender hg now s.senderIo
    simp only [Pair.step, Pair.packetArrives]
    rw [hrecv.sender.sentPackets, hsp]
    rfl
  | dataArrives position now =>
    refine Or.inr (hn.of_store ?_ ?_)
    · simp only [Pair.step]
      split
      · rfl
      · split <;> rfl
    · intro k sp hsp
      have hsender : (s.step codec (.dataArrives position now)).sender = s.sender := by
        simp only [Pair.step]
        split
        · rfl
        · split <;> rfl
      rw [hsender, hsp]
      rfl
  | asyncRecv buf handler => exact Or.inr hn

lemma sent_step {codec : LawfulCodec} {ordered : Bool} {s : Pair C ordered W W} {e : Event}
    (hsend : ∀ payload handler now, e ≠ .asyncSend payload handler now) :
    (s.step codec e).sent = s.sent := by
  cases e with
  | asyncSend payload handler now => exact absurd rfl (hsend payload handler now)
  | sendCompleted position ec now =>
    simp only [Pair.step, Pair.sendCompleted]
    split <;> rfl
  | onTick now => rfl
  | flush => rfl
  | ackArrives position now =>
    simp only [Pair.step]
    split
    · rfl
    · split <;> rfl
  | packetArrives packet now => rfl
  | dataArrives position now =>
    simp only [Pair.step]
    split
    · rfl
    · split <;> rfl
  | asyncRecv buf handler => rfl

/-- Every allocated index stays possessed or retained when the acknowledgements cover only what is
possessed. -/
lemma possessed_or_retained_step {codec : LawfulCodec} {ordered : Bool} {s : Pair C ordered W W}
    {P P' : Set ℕ} (h : ∀ n < s.sent.length, n ∈ P ∨ Retained s n) (hsound : Sound codec s)
    (hcovered : Covered codec s P) {e : Event} (hg : Supplied s e) (hP : P ⊆ P') :
    ∀ n < (s.step codec e).sent.length, n ∈ P' ∨ Retained (s.step codec e) n := by
  intro n hn
  by_cases hsend : ∃ payload handler now, e = .asyncSend payload handler now
  · obtain ⟨payload, handler, now, rfl⟩ := hsend
    rcases retained_asyncSend codec hg hn with ⟨hlt, hkeep⟩ | hnew
    · exact (h n hlt).imp (@hP n) hkeep
    · exact Or.inr hnew
  · have hother : ∀ payload handler now, e ≠ .asyncSend payload handler now := by
      intro payload handler now he
      exact hsend ⟨payload, handler, now, he⟩
    rw [sent_step hother] at hn
    rcases h n hn with hold | hkept
    · exact Or.inl (hP hold)
    · exact (retained_step hsound hcovered hg hother hkept).imp (@hP n) id

theorem Complete.step {codec : LawfulCodec} {s : Pair C true W W}
    {held held' : ℕ → Option (List Byte)} (h : Complete s held) (hsound : Sound codec s)
    (ht : Tracking codec s held) {e : Event} (hg : Orderly s e)
    (hhas : ∀ k, Has s.expected held k → Has (s.step codec e).expected held' k) :
    Complete (s.step codec e) held' :=
  possessed_or_retained_step (P := {k | Has s.expected held k}) h hsound ht.covered
    (supplied_of_orderly hg) hhas

theorem complete_of_reachable {codec : LawfulCodec} {id : Byte} {retxTimeout retxTimeout' : ℕ}
    {cc cc' : C} {s : Pair C true W W}
    (h : Runs.Reachable (Pair.step codec) Orderly
      (Pair.start id retxTimeout retxTimeout' cc cc') s) :
    Sound codec s ∧ ∃ held, Tracking codec s held ∧ Complete s held := by
  refine h.invariant (P := fun s => Sound codec s ∧ ∃ held, Tracking codec s held ∧ Complete s held)
    ⟨sound_start codec id retxTimeout retxTimeout' cc cc', _,
      tracking_start codec id retxTimeout retxTimeout' cc cc', ?_⟩ ?_
  · intro n hn
    cases hn
  · intro s e hs hg
    obtain ⟨hsound, held, ht, hcomplete⟩ := hs
    obtain ⟨held', ht', hhas⟩ := ht.step hsound (unclashing_of_orderly hg)
    exact ⟨hsound.step e, held', ht', hcomplete.step hsound ht hg hhas⟩

/-- In every orderly run the expected index is the next one to be allocated or that of a stored
packet, and an `asyncSend` that ends with `SendWindowFull` takes no number. -/
theorem expected_retained (codec : LawfulCodec) (id : Byte) (retxTimeout retxTimeout' : ℕ)
    (cc cc' : C) (s : Pair C true W W)
    (h : Runs.Reachable (Pair.step codec) Orderly
      (Pair.start id retxTimeout retxTimeout' cc cc') s) :
    (s.expected = s.sent.length ∨ ∃ k sp, s.sender.sentPackets.get k = some sp ∧
      Stored codec W s.sent s.expected k sp) ∧
    ∀ payload handler now, Orderly s (.asyncSend payload handler now) →
      (s.asyncSend codec payload handler now).senderIo.log =
        s.senderIo.log ++ [.sendDone handler (makeErrorCode .sendWindowFull)] →
      (s.asyncSend codec payload handler now).sender.nextSeq = s.sender.nextSeq ∧
        (s.asyncSend codec payload handler now).sent = s.sent := by
  obtain ⟨hsound, held, ht, hcomplete⟩ := complete_of_reachable h
  refine ⟨?_, ?_⟩
  · rcases ht.reassembles.progress.eq_or_lt with heq | hlt
    · exact Or.inl heq
    · refine Or.inr ?_
      have hhas : ¬Has s.expected held s.expected := by
        unfold Has
        rw [ht.reassembles.stopped]
        simp
      obtain ⟨k, sp, hsp, hk⟩ := (hcomplete s.expected hlt).resolve_left hhas
      exact ⟨k, sp, hsp, hk ▸ hsound.stored k sp hsp⟩
  · intro payload handler now hg hlog
    have hc := pairSending_cases codec s payload handler now
    generalize s.asyncSend codec payload handler now = s' at hc hlog ⊢
    cases hc with
    | refused cc hfull => exact ⟨rfl, rfl⟩
    | collided cc hroom old hold =>
      rw [hg hroom] at hold
      cases hold
    | stored cc hroom hfree stats d hd => simp [Transport.sendEncoded] at hlog

end Controlled

/-- Window two: the second packet overtakes the first and is acknowledged. -/
def overtakingRun : List Event :=
  [.asyncSend [7#8] 0 0, .asyncSend [8#8] 1 0, .dataArrives 1 1, .ackArrives 0 2]

def overtakingState : Pair Null true (normalizeWindow 2) (normalizeWindow 2) :=
  overtakingRun.foldl (Pair.step DefaultCodec.defaultCodec) (Pair.start 0 200 200 ⟨⟩ ⟨⟩)

theorem expected_retained_overtaking :
    overtakingState.expected = 0 ∧ overtakingState.sent.length = 2 ∧
      ∃ k sp, overtakingState.sender.sentPackets.get k = some sp ∧
        Stored DefaultCodec.defaultCodec (normalizeWindow 2) overtakingState.sent 0 k sp := by
  have hreach : Runs.Reachable (Pair.step DefaultCodec.defaultCodec) Orderly
      (Pair.start 0 200 200 ⟨⟩ ⟨⟩) overtakingState :=
    Runs.reachable_foldl .start overtakingRun (by decide +kernel)
  have hexpected : overtakingState.expected = 0 := by decide +kernel
  have hlength : overtakingState.sent.length = 2 := by decide +kernel
  have hretained := (expected_retained DefaultCodec.defaultCodec 0 200 200 ⟨⟩ ⟨⟩ overtakingState
    hreach).1.resolve_left (by omega)
  rw [hexpected] at hretained
  exact ⟨hexpected, hlength, hretained⟩

/-- The socket reports no send error and acknowledgements come from the receiver. -/
def Faultless (_ : Pair Null true W W) : Event → Prop
  | .sendCompleted _ ec _ => ec.failed = false
  | .packetArrives packet _ => packet.type ≠ .ack
  | _ => True

/-- A third send passes the in-flight check, takes number 2 and finds the slot of the first packet;
then the first packet arrives. -/
def stuckState : Pair Null true (normalizeWindow 2) (normalizeWindow 2) :=
  [Event.asyncSend [9#8] 2 3, .dataArrives 0 4].foldl (Pair.step DefaultCodec.defaultCodec)
    overtakingState

/-- The receiver waits for number 2, which was consumed by a send that ended with
`SendWindowFull`: it is not the next number and no stored packet has it. -/
theorem expected_index_lost :
    Runs.Reachable (Pair.step DefaultCodec.defaultCodec) Faultless (Pair.start 0 200 200 ⟨⟩ ⟨⟩)
        stuckState ∧
      stuckState.receiver.expectedRecvSeq = 2 ∧ stuckState.expected = 2 ∧
      stuckState.sent.length = 3 ∧ stuckState.sender.nextSeq = 3 ∧
      Effect.sendDone 2 (makeErrorCode .sendWindowFull) ∈ stuckState.senderIo.log ∧
      ∀ sp ∈ stuckState.sender.sentPackets.entries, sp.sequenceNumber ≠ 2 := by
  refine ⟨?_, by decide +kernel, by decide +kernel, by decide +kernel, by decide +kernel,
    by decide +kernel, by decide +kernel⟩
  have hstart : Runs.Reachable (Pair.step DefaultCodec.defaultCodec) Faultless
      (Pair.start 0 200 200 ⟨⟩ ⟨⟩) overtakingState :=
    Runs.reachable_foldl .start overtakingRun ⟨trivial, trivial, trivial, trivial, trivial⟩
  exact Runs.reachable_foldl hstart _ ⟨trivial, trivial, trivial⟩

end ReliableUdp.OrderedProgress
