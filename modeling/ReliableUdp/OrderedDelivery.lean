import ReliableUdp.ReliablePair
import ReliableUdp.DefaultCodec

/-! The ordered receiver hands over a prefix of the allocated payloads, whatever the network
does with the datagrams and whatever windows the two sides use. -/
namespace ReliableUdp.OrderedDelivery
open Protocol ChannelCommon ReliableChannel OrderedReceiver ReliableSender ReliablePair Reassembly

variable {C : Type} {Ws Wr : Window}

/-- The receiver has delivered the indices below `expected` and buffers those in `held`. -/
structure Reassembles (s : Pair C true Ws Wr) (held : ℕ → Option (List Byte)) : Prop where
  holds : Holds s.receiver.expectedRecvSeq s.receiver.receiveBuffer s.expected held
  authentic : ∀ n x, held n = some x → s.sent[n]? = some x
  progress : s.expected ≤ s.sent.length
  delivered : delivered s.receiverIo.log = s.sent.take s.expected
  handed : s.handed = List.range s.expected
  stopped : held s.expected = none

lemma reassembles_start (id : Byte) (retxTimeout retxTimeout' : ℕ) (cc cc' : C) :
    Reassembles (Pair.start id retxTimeout retxTimeout' cc cc' : Pair C true Ws Wr)
      (fun _ => none) :=
  ⟨holds_initial, by simp, Nat.zero_le _, rfl, rfl, rfl⟩

lemma Reassembles.sender {s s' : Pair C true Ws Wr} {held : ℕ → Option (List Byte)}
    (h : Reassembles s held) (hs : SenderStep s s') : Reassembles s' held := by
  refine ⟨?_, ?_, ?_, ?_, ?_, ?_⟩
  · rw [hs.receiver, hs.expected]
    exact h.holds
  · intro n x hx
    exact hs.getElem? (h.authentic n x hx)
  · rw [hs.expected]
    exact h.progress.trans hs.sent.length_le
  · obtain ⟨rest, hrest⟩ := hs.sent
    rw [hs.receiverIo, hs.expected, h.delivered, ← hrest, List.take_append_of_le_length h.progress]
  · rw [hs.handed, hs.expected, h.handed]
  · rw [hs.expected]
    exact h.stopped

lemma Reassembles.asyncRecv {s : Pair C true Ws Wr} {held : ℕ → Option (List Byte)}
    (h : Reassembles s held) (buf handler : ℕ) : Reassembles (s.asyncRecv buf handler) held :=
  ⟨h.holds, h.authentic, h.progress, by rw [delivered_asyncRecv]; exact h.delivered, h.handed,
    h.stopped⟩

/-- The index was delivered or is buffered. -/
def Has (E : ℕ) (held : ℕ → Option (List Byte)) (k : ℕ) : Prop := k < E ∨ (held k).isSome

lemma has_drained {E m n : ℕ} {held : ℕ → Option (List Byte)} {x : List Byte}
    (hfull : ∀ i < m, (Function.update held n (some x) (E + i)).isSome) (k : ℕ) :
    Has (E + m) (dropBelow (E + m) (Function.update held n (some x))) k ↔ Has E held k ∨ k = n := by
  have hupd : (Function.update held n (some x) k).isSome ↔ (held k).isSome ∨ k = n := by
    by_cases hk : k = n
    · subst hk
      simp
    · simp [hk]
  have hmid : E ≤ k → k < E + m → (Function.update held n (some x) k).isSome := by
    intro hle hlt
    have := hfull (k - E) (by omega)
    rwa [show E + (k - E) = k by omega] at this
  unfold Has dropBelow
  by_cases hE : k < E
  · simp only [hE, true_or, iff_true]
    exact Or.inl (by omega)
  · by_cases hm : k < E + m
    · have := hupd.mp (hmid (by omega) hm)
      simp only [hm, true_or, hE, false_or, true_iff]
      exact this
    · simp only [hm, hE, if_false, false_or]
      exact hupd

section Controlled
variable [CongestionCtrl C]

/-- The three outcomes of an arrival of index `n`. -/
inductive Arrived (s s' : Pair C true Ws Wr) (held held' : ℕ → Option (List Byte)) (n : ℕ) : Prop
  | outside (hout : ¬(s.expected ≤ n ∧ n < s.expected + Wr.size))
      (htracker : s'.receiver.recvAckTracker = s.receiver.recvAckTracker)
      (hexpected : s'.expected = s.expected) (hheld : held' = held)
  | occupied (hin : s.expected ≤ n ∧ n < s.expected + Wr.size) (b : BufferedPacket)
      (hb : s.receiver.receiveBuffer.get (wire n).toNat = some b)
      (htracker : s'.receiver.recvAckTracker = s.receiver.recvAckTracker.markReceived (wire n))
      (hexpected : s'.expected = s.expected) (hheld : held' = held)
  | stored (hin : s.expected ≤ n ∧ n < s.expected + Wr.size)
      (hfree : s.receiver.receiveBuffer.get (wire n).toNat = none)
      (htracker : s'.receiver.recvAckTracker = s.receiver.recvAckTracker.markReceived (wire n))
      (hexpected : s.expected ≤ s'.expected)
      (hhas : ∀ k, Has s'.expected held' k ↔ Has s.expected held k ∨ k = n)

lemma Reassembles.unmoved {s : Pair C true Ws Wr} {held : ℕ → Option (List Byte)}
    (h : Reassembles s held) (codec : LawfulCodec) (n : ℕ) (packet : Packet) (now : Time)
    (hexpected : (s.receiver.onRecv packet now s.receiverIo).1.expectedRecvSeq =
      s.receiver.expectedRecvSeq)
    (hbuffer : (s.receiver.onRecv packet now s.receiverIo).1.receiveBuffer =
      s.receiver.receiveBuffer)
    (hlog : (s.receiver.onRecv packet now s.receiverIo).2 = s.receiverIo) :
    Reassembles (s.dataArrives codec n packet now) held ∧
      (s.dataArrives codec n packet now).expected = s.expected := by
  have hE : (s.dataArrives codec n packet now).expected = s.expected := by
    simp [Pair.dataArrives, hexpected]
  refine ⟨⟨?_, h.authentic, by rw [hE]; exact h.progress, ?_, ?_, by rw [hE]; exact h.stopped⟩, hE⟩
  · rw [hE]
    simp only [Pair.dataArrives, hexpected, hbuffer]
    exact h.holds
  · rw [delivered_dataArrives, hE, hlog]
    exact h.delivered
  · rw [hE]
    simp [Pair.dataArrives, hexpected, h.handed]

lemma Reassembles.drained {s : Pair C true Ws Wr} {held : ℕ → Option (List Byte)}
    (h : Reassembles s held) (codec : LawfulCodec) {n : ℕ} {packet : Packet} {now : Time}
    (hsent : s.sent[n]? = some packet.payload) {m : ℕ} (hm : m ≤ Wr.size) {ch : Channel C true Wr}
    {r : Channel C true Wr × Transport} (hr : s.receiver.onRecv packet now s.receiverIo = r)
    (hd : Drained ch r.1 s.receiverIo r.2 s.expected m
      (Function.update held n (some packet.payload)))
    (hstop : Function.update held n (some packet.payload) (s.expected + m) = none) :
    Reassembles (s.dataArrives codec n packet now)
        (dropBelow (s.expected + m) (Function.update held n (some packet.payload))) ∧
      (s.dataArrives codec n packet now).expected = s.expected + m := by
  have hmax := Wr.le_max
  have hmoved : (r.1.expectedRecvSeq - s.receiver.expectedRecvSeq).toNat = m := by
    rw [hd.holds.expected, h.holds.expected, wire_sub_of_le (by omega) (by omega)]
    omega
  have hE : (s.dataArrives codec n packet now).expected = s.expected + m := by
    simp [Pair.dataArrives, hr, hmoved]
  have hauth : ∀ k x, Function.update held n (some packet.payload) k = some x →
      s.sent[k]? = some x := by
    intro k x hk
    by_cases hkn : k = n
    · subst hkn
      rw [Function.update_self] at hk
      rw [hsent, hk]
    · rw [Function.update_of_ne hkn] at hk
      exact h.authentic k x hk
  have hlength : s.expected + m ≤ s.sent.length := by
    by_contra hlong
    have hprogress := h.progress
    obtain ⟨x, hx⟩ := Option.isSome_iff_exists.mp
      (hd.full (s.sent.length - s.expected) (by omega))
    have hget := hauth _ x hx
    rw [Nat.add_sub_cancel' hprogress, List.getElem?_eq_none le_rfl] at hget
    cases hget
  refine ⟨⟨?_, ?_, by rw [hE]; exact hlength, ?_, ?_, ?_⟩, hE⟩
  · rw [hE]
    simp only [Pair.dataArrives, hr]
    exact hd.holds
  · intro k x hk
    exact hauth k x (dropBelow_some.mp hk).2
  · rw [delivered_dataArrives, hE, hr, hd.delivered, h.delivered]
    exact take_append_run hauth hd.full
  · have hrange := List.range'_append_1 (s := 0) (m := s.expected) (n := m)
    rw [hE]
    simp only [Pair.dataArrives, hr, hmoved, h.handed, if_true]
    rw [List.range_eq_range', List.range_eq_range', ← hrange, Nat.zero_add]
  · rw [hE, dropBelow, if_neg (lt_irrefl _)]
    exact hstop

theorem Reassembles.arrival {s : Pair C true Ws Wr} {held : ℕ → Option (List Byte)}
    (h : Reassembles s held) (codec : LawfulCodec) {n : ℕ} (hn : Close n s.expected)
    {packet : Packet} (htype : packet.type = .data) (hseq : packet.seq = wire n)
    (hsent : s.sent[n]? = some packet.payload) (now : Time) :
    ∃ held', Reassembles (s.dataArrives codec n packet now) held' ∧
      Arrived s (s.dataArrives codec n packet now) held held' n := by
  have hrecv := onRecv_ordered s.receiver htype now s.receiverIo
  have hspec := receiveOrdered_spec s.receiver s.receiverIo h.holds hn packet hseq
  rw [← hrecv] at hspec
  generalize hr : s.receiver.onRecv packet now s.receiverIo = r at hspec
  cases hspec with
  | outside hout =>
    obtain ⟨hre, hE⟩ := h.unmoved codec n packet now (by rw [hr]) (by rw [hr]) (by rw [hr])
    exact ⟨held, hre, .outside hout (by simp [Pair.dataArrives, hr]) hE rfl⟩
  | occupied hin b hb =>
    obtain ⟨hre, hE⟩ := h.unmoved codec n packet now (by rw [hr]) (by rw [hr]) (by rw [hr])
    exact ⟨held, hre, .occupied hin b hb (by simp [Pair.dataArrives, hr]) hE rfl⟩
  | stored hin hfree m hm ch' io' hd hstop =>
    obtain ⟨hre, hE⟩ := h.drained codec hsent hm hr hd hstop
    refine ⟨_, hre, .stored hin hfree ?_ (by omega) ?_⟩
    · simp only [Pair.dataArrives, hr]
      exact hd.tracker
    · rw [hE]
      exact has_drained hd.full

/-- Every arriving Data packet has an index less than 32768 away from the expected one. -/
def NearExpected (s : Pair C true Ws Wr) : Event → Prop
  | .dataArrives position _ => ∀ p ∈ s.data[position]?, Close p.1 s.expected
  | _ => True

instance (s : Pair C true Ws Wr) (e : Event) : Decidable (NearExpected s e) :=
  match e with
  | .dataArrives position _ =>
    inferInstanceAs (Decidable (∀ p ∈ s.data[position]?, Close p.1 s.expected))
  | .asyncSend .. | .sendCompleted .. | .onTick _ | .flush | .ackArrives .. | .packetArrives ..
  | .asyncRecv .. => .isTrue trivial

theorem reassembles_of_reachable {codec : LawfulCodec} {id : Byte} {retxTimeout retxTimeout' : ℕ}
    {cc cc' : C} {guard : Pair C true Ws Wr → Event → Prop}
    (hguard : ∀ s e, guard s e → NearExpected s e) {s : Pair C true Ws Wr}
    (h : Runs.Reachable (Pair.step codec) guard
      (Pair.start id retxTimeout retxTimeout' cc cc') s) : ∃ held, Reassembles s held := by
  refine receiver_invariant h (P := fun s => ∃ held, Reassembles s held)
    ⟨_, reassembles_start id retxTimeout retxTimeout' cc cc'⟩ ?_ ?_ ?_
  · intro s s' hs hsame
    obtain ⟨held, hs⟩ := hs
    exact ⟨held, hs.sender hsame⟩
  · intro s position now n d packet hs hg hget htype hseq hsent
    obtain ⟨held, hs⟩ := hs
    have hn : Close n s.expected := hguard _ _ hg (n, d) (by rw [hget]; rfl)
    obtain ⟨held', hs', _⟩ := hs.arrival codec hn htype hseq hsent now
    exact ⟨held', hs'⟩
  · intro s buf handler hs
    obtain ⟨held, hs⟩ := hs
    exact ⟨held, hs.asyncRecv buf handler⟩

/-- The payloads handed to the receive queue are those of the indices below the expected one, in
order, in every reachable state. -/
theorem delivered_eq_take (codec : LawfulCodec) (id : Byte) (retxTimeout retxTimeout' : ℕ)
    (cc cc' : C) (s : Pair C true Ws Wr)
    (h : Runs.Reachable (Pair.step codec) NearExpected
      (Pair.start id retxTimeout retxTimeout' cc cc') s) :
    s.sender.nextSeq = wire s.sent.length ∧ s.receiver.expectedRecvSeq = wire s.expected ∧
      s.expected ≤ s.sent.length ∧ delivered s.receiverIo.log = s.sent.take s.expected := by
  obtain ⟨held, hs⟩ := reassembles_of_reachable (fun _ _ hg => hg) h
  exact ⟨(sound_of_reachable h).next, hs.holds.expected, hs.progress, hs.delivered⟩

def reversedRun : List Event :=
  [.asyncSend [7#8] 0 0, .asyncSend [9#8] 1 0, .dataArrives 1 1, .onTick 200000000, .dataArrives 2 2,
    .dataArrives 0 3]

/-- The receiver has the smaller window. -/
def reversedState : Pair Null true (normalizeWindow 4) (normalizeWindow 2) :=
  reversedRun.foldl (Pair.step DefaultCodec.defaultCodec) (Pair.start 0 200 200 ⟨⟩ ⟨⟩)

theorem delivered_eq_take_reversed :
    reversedState.expected = 2 ∧ reversedState.sent = [[7#8], [9#8]] ∧
      delivered reversedState.receiverIo.log = reversedState.sent.take reversedState.expected := by
  have hreach : Runs.Reachable (Pair.step DefaultCodec.defaultCodec) NearExpected
      (Pair.start 0 200 200 ⟨⟩ ⟨⟩) reversedState :=
    Runs.reachable_foldl .start reversedRun (by decide +kernel)
  exact ⟨by decide +kernel, by decide +kernel,
    (delivered_eq_take DefaultCodec.defaultCodec 0 200 200 ⟨⟩ ⟨⟩ reversedState hreach).2.2.2⟩

end Controlled
end ReliableUdp.OrderedDelivery
