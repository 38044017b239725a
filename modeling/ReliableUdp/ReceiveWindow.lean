import ReliableUdp.ReliablePair
import ReliableUdp.DefaultCodec

/-! The receive window against the slots of the receive buffer. The slot of an index is its 16-bit
number modulo the window, so two indices of one window share a slot when the window does not
divide 65536 and lies across the wraparound. -/
namespace ReliableUdp.ReceiveWindow
open Protocol ChannelCommon ReliableChannel OrderedReceiver ReliableSender ReliablePair Reassembly
  Runs

/-- The indices from `E` on that fit a window have different slots. -/
def DistinctSlots (W : Window) (E : ℕ) : Prop :=
  ∀ n m, E ≤ n → n < E + W.size → E ≤ m → m < E + W.size →
    (wire n).toNat % W.size = (wire m).toNat % W.size → n = m

/-- The window divides the range of numbers, or starts far enough below the wraparound. -/
def SlotsFit (W : Window) (E : ℕ) : Prop := W.size ∣ 65536 ∨ E % 65536 + W.size ≤ 65536

instance (W : Window) (E : ℕ) : Decidable (SlotsFit W E) := inferInstanceAs (Decidable (_ ∨ _))

lemma eq_of_add_mod_eq {W e i j : ℕ} (hi : i < W) (hj : j < W) (h : (e + i) % W = (e + j) % W) :
    i = j := by
  have hmod : i ≡ j [MOD W] := Nat.ModEq.add_left_cancel' e h
  rwa [Nat.ModEq, Nat.mod_eq_of_lt hi, Nat.mod_eq_of_lt hj] at hmod

lemma distinctSlots_of_fit {W : Window} {E : ℕ} (h : SlotsFit W E) : DistinctSlots W E := by
  intro n m hn hn' hm hm' he
  obtain ⟨i, rfl⟩ := Nat.exists_eq_add_of_le hn
  obtain ⟨j, rfl⟩ := Nat.exists_eq_add_of_le hm
  have hi : i < W.size := by omega
  have hj : j < W.size := by omega
  rw [wire_toNat, wire_toNat] at he
  rcases h with hdvd | hbelow
  · rw [Nat.mod_mod_of_dvd _ hdvd, Nat.mod_mod_of_dvd _ hdvd] at he
    rw [eq_of_add_mod_eq hi hj he]
  · have hlow : ∀ k < W.size, (E + k) % 65536 = E % 65536 + k := by omega
    rw [hlow i hi, hlow j hj] at he
    rw [eq_of_add_mod_eq hi hj he]

lemma exists_clash {W : Window} {E : ℕ} (h : ¬ SlotsFit W E) :
    ∃ n m, E ≤ n ∧ n < m ∧ m < E + W.size ∧
      (wire n).toNat % W.size = (wire m).toNat % W.size := by
  simp only [SlotsFit, not_or, not_le] at h
  obtain ⟨hdvd, hcross⟩ := h
  have hmax := W.le_max
  have hr : 65536 % W.size ≠ 0 := fun hz => hdvd (Nat.dvd_of_mod_eq_zero hz)
  have hlt : 65536 % W.size < W.size := Nat.mod_lt _ W.pos
  have hdiv := Nat.div_add_mod 65536 W.size
  have hlow : E % 65536 < 65536 := Nat.mod_lt _ (by omega)
  generalize 65536 % W.size = r at hr hlt hdiv
  have hslot : ∀ l k, l + k = r → (65536 - k) % W.size = l % W.size := by
    intro l k hlk
    have he : 65536 - k = l + W.size * (65536 / W.size) := by omega
    rw [he, Nat.add_mul_mod_self_left]
  by_cases hle : r ≤ 65536 - E % 65536
  · refine ⟨E + (65536 - E % 65536) - r, E + (65536 - E % 65536), by omega, by omega, by omega, ?_⟩
    have hn : (E + (65536 - E % 65536) - r) % 65536 = 65536 - r := by omega
    have hm : (E + (65536 - E % 65536)) % 65536 = 0 := by omega
    rw [wire_toNat, wire_toNat, hn, hm]
    exact hslot 0 r (by omega)
  · refine ⟨E, E + r, le_rfl, by omega, by omega, ?_⟩
    have hn : E % 65536 = 65536 - (65536 - E % 65536) := by omega
    have hm : (E + r) % 65536 = r - (65536 - E % 65536) := by omega
    rw [wire_toNat, wire_toNat, hm, hn]
    have := hslot (r - (65536 - E % 65536)) (65536 - E % 65536) (by omega)
    rw [this]
    congr 1
    omega

theorem distinctSlots_iff (W : Window) (E : ℕ) : DistinctSlots W E ↔ SlotsFit W E := by
  constructor
  · intro h
    by_contra hfit
    obtain ⟨n, m, hn, hnm, hm, he⟩ := exists_clash hfit
    have := h n m hn (by omega) (by omega) hm he
    omega
  · exact distinctSlots_of_fit

section Receiver
variable {C : Type} {ordered : Bool} {W : Window}

lemma exists_index (E : ℕ) (seq : Seq) : ∃ n, E ≤ n ∧ n < E + 65536 ∧ seq = wire n := by
  refine ⟨E + (seq - wire E).toNat, by omega, by have := (seq - wire E).isLt; omega, ?_⟩
  apply BitVec.eq_of_toNat_eq
  rw [wire_toNat]
  have hE := wire_toNat E
  bv_omega

lemma inWindow_iff_of_le (ch : Channel C ordered W) {E n : ℕ} (he : ch.expectedRecvSeq = wire E)
    (hn : E ≤ n) (hn' : n < E + 65536) :
    ch.isInOrderedReceiveWindow (wire n) = true ↔ n < E + W.size := by
  have hpos := W.pos
  have hmax := W.le_max
  unfold Channel.isInOrderedReceiveWindow
  rw [he, wire_sub_of_le hn hn']
  simp only [decide_eq_true_eq]
  omega

/-- The ordered receive path with any packet at all: it is ignored or has an index in the
window. -/
theorem receiveOrdered_cases (ch : Channel C ordered W) (io : Transport) {E : ℕ}
    {held : ℕ → Option (List Byte)} (h : Holds ch.expectedRecvSeq ch.receiveBuffer E held)
    (packet : Packet) :
    ch.receiveOrdered packet io = (ch, io) ∨
      ∃ n, E ≤ n ∧ n < E + W.size ∧ packet.seq = wire n ∧
        Received ch io E held n packet.payload (ch.receiveOrdered packet io) := by
  obtain ⟨n, hn, hn', hseq⟩ := exists_index E packet.seq
  by_cases hin : n < E + W.size
  · have hmax := W.le_max
    have hclose : Close n E := close_iff.mpr ⟨by omega, by omega⟩
    exact Or.inr ⟨n, hn, hin, hseq, receiveOrdered_spec ch io h hclose packet hseq⟩
  · left
    have hout : ch.isInOrderedReceiveWindow packet.seq = false := by
      rw [Bool.eq_false_iff, hseq]
      exact fun ht => hin ((inWindow_iff_of_le ch h.expected hn hn').mp ht)
    rw [Channel.receiveOrdered, if_pos hout]

/-- The buffer holds packets of the window only, and none at the expected index. -/
def Waits (ch : Channel C ordered W) (E : ℕ) : Prop :=
  ∃ held, Holds ch.expectedRecvSeq ch.receiveBuffer E held ∧ held E = none

/-- Any packet leaves the receiver waiting at an index at most a window further. -/
theorem Waits.receiveOrdered {ch : Channel C ordered W} {E : ℕ} (h : Waits ch E) (packet : Packet)
    (io : Transport) : ∃ m ≤ W.size, Waits (ch.receiveOrdered packet io).1 (E + m) := by
  obtain ⟨held, hholds, hnone⟩ := h
  rcases receiveOrdered_cases ch io hholds packet with hsame | ⟨n, _, _, _, hr⟩
  · rw [hsame]
    exact ⟨0, Nat.zero_le _, held, hholds, hnone⟩
  · generalize ch.receiveOrdered packet io = r at hr ⊢
    cases hr with
    | outside hout => exact ⟨0, Nat.zero_le _, held, hholds, hnone⟩
    | occupied hin b hb => exact ⟨0, Nat.zero_le _, held, hholds, hnone⟩
    | stored hin hfree m hm ch' io' hd hstop =>
      refine ⟨m, hm, _, hd.holds, ?_⟩
      rw [dropBelow, if_neg (lt_irrefl _)]
      exact hstop

lemma Waits.moved {ch ch' : Channel C ordered W} {E m : ℕ} (h : Waits ch E) (h' : Waits ch' (E + m))
    (hm : m ≤ W.size) : (ch'.expectedRecvSeq - ch.expectedRecvSeq).toNat = m := by
  obtain ⟨_, hholds, _⟩ := h
  obtain ⟨_, hholds', _⟩ := h'
  have hmax := W.le_max
  rw [hholds.expected, hholds'.expected, wire_sub_of_le (by omega) (by omega)]
  omega

/-- An index whose slot is taken by another one of the window is held itself when slots are
distinct. -/
lemma slot_free {ch : Channel C ordered W} {E n : ℕ} (h : Waits ch E) (hfit : SlotsFit W E)
    (hn : E ≤ n) (hn' : n < E + W.size)
    (hnew : ∀ b ∈ ch.receiveBuffer.entries, b.sequenceNumber ≠ wire n) :
    ch.receiveBuffer.get (wire n).toNat = none := by
  obtain ⟨held, hholds, _⟩ := h
  cases hg : ch.receiveBuffer.get (wire n).toNat with
  | none => rfl
  | some b =>
    obtain ⟨m, hm, hseq, hslot⟩ := hholds.only _ b hg
    obtain ⟨hmE, hmW⟩ := hholds.window m _ hm
    have hnm := distinctSlots_of_fit hfit m n hmE hmW hn hn' hslot
    rw [hnm] at hseq
    exact absurd hseq (hnew b (SlotTable.mem_entries_of_get hg))

end Receiver

section Pair
variable {C : Type} [CongestionCtrl C] {W : Window}

/-- Whatever the network delivers, the receiver waits at its expected index. -/
theorem waits_of_reachable {codec : LawfulCodec} {id : Byte} {retxTimeout retxTimeout' : ℕ}
    {cc cc' : C} {guard : Pair C true W W → Event → Prop} {s : Pair C true W W}
    (h : Reachable (Pair.step codec) guard (Pair.start id retxTimeout retxTimeout' cc cc') s) :
    Waits s.receiver s.expected := by
  refine receiver_invariant h (P := fun s => Waits s.receiver s.expected)
    ⟨_, holds_initial, rfl⟩ ?_ ?_ ?_
  · intro s s' hs hsame
    rw [hsame.receiver, hsame.expected]
    exact hs
  · intro s position now n d packet hs _ _ htype _ _
    have hrecv := onRecv_ordered s.receiver htype now s.receiverIo
    obtain ⟨m, hm, hs'⟩ := hs.receiveOrdered packet s.receiverIo
    have hmoved := hs.moved hs' hm
    simp only [Pair.dataArrives, hrecv, hmoved]
    exact hs'
  · intro s buf handler hs
    exact hs

/-- The index was handed over or is in the buffer. -/
def Accepted (s : Pair C true W W) (n : ℕ) : Prop :=
  n < s.expected ∨ ∃ b ∈ s.receiver.receiveBuffer.entries, b.sequenceNumber = wire n

/-- The packet finds its slot empty, is marked and stored there. -/
def Stores (ch : Channel C true W) (io : Transport) (packet : Packet) : Prop :=
  ch.receiveBuffer.get packet.seq.toNat = none ∧
  ch.receiveOrdered packet io = Channel.drainReadyPackets W.size { ch with
    recvAckTracker := ch.recvAckTracker.markReceived packet.seq
    receiveBuffer := ch.receiveBuffer.set packet.seq.toNat
      (some ⟨packet.seq, packet.payload⟩) } io

/-- Every packet in flight whose number is that of a new index of the receive window is stored
when it arrives. -/
def StoresNew (codec : LawfulCodec) (s : Pair C true W W) : Prop :=
  ∀ k d packet n, (k, d) ∈ s.data → codec.decode d = .ok packet → packet.seq = wire n →
    s.expected ≤ n → n < s.expected + W.size → ¬ Accepted s n →
    Stores s.receiver s.receiverIo packet

omit [CongestionCtrl C] in
theorem storesNew_of_fit (codec : LawfulCodec) {s : Pair C true W W}
    (h : Waits s.receiver s.expected) (hfit : SlotsFit W s.expected) : StoresNew codec s := by
  intro _ _ packet n _ _ hseq hn hn' hnew
  have hfree : s.receiver.receiveBuffer.get (wire n).toNat = none :=
    slot_free h hfit hn hn' fun b hb he => hnew (Or.inr ⟨b, hb, he⟩)
  have hin : s.receiver.isInOrderedReceiveWindow (wire n) = true := by
    obtain ⟨_, hholds, _⟩ := h
    have hmax := W.le_max
    exact (inWindow_iff_of_le s.receiver hholds.expected hn (by omega)).mpr hn'
  rw [Stores, hseq]
  constructor
  · exact hfree
  · simp only [Channel.receiveOrdered, hseq, hin, Bool.true_eq_false, if_false, hfree]

end Pair

section Clash
variable {C : Type} [CongestionCtrl C] {W : Window} {codec : LawfulCodec} {id : Byte}
  {retxTimeout retxTimeout' : ℕ} {cc cc' : C} {s : Pair C true W W} {N E : ℕ}

/-- A reachable state with `N` numbers taken, copies of all their packets in flight, nothing in
the sender's store and an empty buffer at index `E`. -/
structure Primed (codec : LawfulCodec) (id : Byte) (retxTimeout retxTimeout' : ℕ) (cc cc' : C)
    (s : Pair C true W W) (N E : ℕ) : Prop where
  reachable : Reachable (Pair.step codec) (fun _ _ => True)
    (Pair.start id retxTimeout retxTimeout' cc cc') s
  sent : s.sent.length = N
  store : ∀ k, s.sender.sentPackets.get k = none
  idle : s.sender.inFlightCount = 0
  copies : ∀ n < N, ∃ d, (n, d) ∈ s.data
  expected : s.expected = E
  empty : ∀ k, s.receiver.receiveBuffer.get k = none

lemma primed_start (codec : LawfulCodec) (id : Byte) (retxTimeout retxTimeout' : ℕ) (cc cc' : C) :
    Primed codec id retxTimeout retxTimeout' cc cc'
      (Pair.start id retxTimeout retxTimeout' cc cc' : Pair C true W W) 0 0 :=
  ⟨.start, rfl, by simp [Pair.start], rfl, by simp, rfl, by simp [Pair.start]⟩

omit [CongestionCtrl C] in
lemma flush_pending (ch : Channel C true W) (io : Transport) :
    io.pending <+: (ch.flush io).pending := by
  rw [flush_eq]
  exact List.prefix_append _ _

lemma asyncSend_stored (codec : LawfulCodec) (hstore : ∀ k, s.sender.sentPackets.get k = none)
    (hidle : s.sender.inFlightCount = 0) (payload : List Byte) (handler : ℕ) (now : Time) :
    ∃ d, (s.asyncSend codec payload handler now).sender.sentPackets =
        s.sender.sentPackets.set s.sender.nextSeq.toNat (some (freshPacket s.sender d now)) ∧
      (s.asyncSend codec payload handler now).sender.inFlightCount = 1 ∧
      (s.asyncSend codec payload handler now).senderIo.pending =
        s.senderIo.pending ++ [.data s.sender.id s.sender.nextSeq handler] ∧
      (s.asyncSend codec payload handler now).sent = s.sent ++ [payload] ∧
      (s.asyncSend codec payload handler now).data = s.data ++ [(s.sent.length, d)] := by
  have hc := pairSending_cases codec s payload handler now
  generalize s.asyncSend codec payload handler now = s' at hc ⊢
  cases hc with
  | refused cc hfull =>
    rw [hidle] at hfull
    have hpos : 0 < (s.sender.effectiveSendWindow now).1 := lt_max_of_lt_left (by omega)
    omega
  | collided cc hroom old hold =>
    rw [hstore] at hold
    cases hold
  | stored cc hroom hfree stats d hd =>
    exact ⟨d, rfl, by simp [hidle], rfl, rfl, rfl⟩

lemma sendCompleted_failed {position : ℕ} {channel : Byte} {sequenceNumber : Seq} {handler : ℕ}
    (hget : s.senderIo.pending[position]? = some (.data channel sequenceNumber handler))
    {e : ErrorCode} (he : e.failed = true) (now : Time) :
    ∃ io cc, s.sendCompleted position e now =
      { s with sender := { s.sender.eraseSentPacket sequenceNumber with cc := cc }, senderIo := io } := by
  unfold Pair.sendCompleted
  rw [hget]
  simp only [Channel.sendCompleted, he, if_true]
  exact ⟨_, _, rfl⟩

lemma Primed.send (h : Primed codec id retxTimeout retxTimeout' cc cc' s N E) :
    ∃ s' : Pair C true W W, Primed codec id retxTimeout retxTimeout' cc cc' s' (N + 1) E := by
  obtain ⟨d, hset, hone, hpending, hsent, hdata⟩ := asyncSend_stored codec h.store h.idle [] 0 0
  have hframe := asyncSend_senderStep codec s [] 0 0
  have hreach := ((h.reachable.step (.asyncSend [] 0 0) trivial).step .flush trivial).step
    (.sendCompleted s.senderIo.pending.length (.system 5) 0) trivial
  simp only [Pair.step] at hreach
  generalize s.asyncSend codec [] 0 0 = s₁ at hset hone hpending hsent hdata hframe hreach
  have hcompletion : s₁.flush.senderIo.pending[s.senderIo.pending.length]? =
      some (.data s.sender.id s.sender.nextSeq 0) := by
    obtain ⟨rest, hrest⟩ := flush_pending s₁.sender s₁.senderIo
    simp only [Pair.flush]
    rw [← hrest, hpending, List.append_assoc, List.getElem?_append_right le_rfl]
    simp
  have hget : s₁.sender.sentPackets.get (freshPacket s.sender d 0).sequenceNumber.toNat =
      some (freshPacket s.sender d 0) := by
    rw [hset]
    exact SlotTable.get_set_same _ W.pos rfl _
  have herase : s₁.sender.eraseSentPacket s.sender.nextSeq = _ := eraseSentPacket_of_get hget
  obtain ⟨io, cc₁, hfailed⟩ := sendCompleted_failed (e := .system 5) hcompletion rfl 0
  rw [hfailed, show s₁.flush.sender = s₁.sender from rfl, herase] at hreach
  refine ⟨_, hreach, ?_, ?_, ?_, ?_, hframe.expected.trans h.expected, ?_⟩
  · simp [Pair.flush, hsent, h.sent]
  · intro k
    simp only [hset]
    rw [SlotTable.get_set _ W.pos]
    split_ifs with hslot
    · rfl
    · exact (SlotTable.get_set_other _ hslot _).trans (h.store k)
  · simp [hone]
  · intro n hn
    simp only [Pair.flush, hdata]
    rcases Nat.lt_succ_iff_lt_or_eq.mp hn with hlt | rfl
    · obtain ⟨d', hd'⟩ := h.copies n hlt
      exact ⟨d', by simp [hd']⟩
    · exact ⟨d, by simp [h.sent]⟩
  · intro k
    simp only [Pair.flush, hframe.receiver, h.empty]

lemma run_length_of_single {n m : ℕ} {x : List Byte}
    (hfull : ∀ i < m, (Function.update (fun _ => none) n (some x) (E + i)).isSome)
    (hstop : Function.update (fun _ => none) n (some x) (E + m) = none) :
    m = if n = E then 1 else 0 := by
  have hone : ∀ i < m, E + i = n := by
    intro i hi
    by_contra hne
    have := hfull i hi
    rw [Function.update_of_ne hne] at this
    cases this
  have hend : E + m ≠ n := by
    rintro rfl
    rw [Function.update_self] at hstop
    cases hstop
  split_ifs with he
  · by_contra hm
    have := hone 1 (by omega)
    omega
  · by_contra hm
    have := hone 0 (by omega)
    omega

/-- A copy of any index of the window arrives at the empty buffer: the expected one is handed
over, any other one is kept. -/
lemma Primed.arrive (h : Primed codec id retxTimeout retxTimeout' cc cc' s N E) {n : ℕ}
    (hn : E ≤ n) (hn' : n < E + W.size) (hN : n < N) :
    ∃ (s' : Pair C true W W) (m : ℕ) (x : List Byte),
      Reachable (Pair.step codec) (fun _ _ => True)
        (Pair.start id retxTimeout retxTimeout' cc cc') s' ∧
      s'.sender = s.sender ∧ s'.sent = s.sent ∧ s'.data = s.data ∧ s'.expected = E + m ∧
      m = (if n = E then 1 else 0) ∧
      Holds s'.receiver.expectedRecvSeq s'.receiver.receiveBuffer (E + m)
        (dropBelow (E + m) (Function.update (fun _ => none) n (some x))) := by
  obtain ⟨d, hd⟩ := h.copies n hN
  obtain ⟨position, hget⟩ := List.getElem?_of_mem hd
  obtain ⟨packet, hdecode, htype, hseq, _⟩ := (sound_of_reachable h.reachable).data (n, d) hd
  have hreach := h.reachable.step (.dataArrives position 0) trivial
  simp only [Pair.step, hget, hdecode] at hreach
  have hwaits := waits_of_reachable h.reachable
  rw [h.expected] at hwaits
  have hholds : Holds s.receiver.expectedRecvSeq s.receiver.receiveBuffer E (fun _ => none) := by
    obtain ⟨_, hw, _⟩ := hwaits
    refine ⟨hw.expected, by simp, by simp, ?_⟩
    intro k b hb
    rw [h.empty] at hb
    cases hb
  have hmax := W.le_max
  have hspec := receiveOrdered_spec s.receiver s.receiverIo hholds
    (close_iff.mpr ⟨by omega, by omega⟩ : Close n E) packet hseq
  have hrecv := onRecv_ordered s.receiver htype 0 s.receiverIo
  rw [← hrecv] at hspec
  generalize hr : s.receiver.onRecv packet 0 s.receiverIo = r at hspec
  cases hspec with
  | outside hout => exact absurd ⟨hn, hn'⟩ hout
  | occupied hin b hb =>
    rw [h.empty] at hb
    cases hb
  | stored hin hfree m hm ch' io' hdrained hstop =>
    have hmoved : (ch'.expectedRecvSeq - s.receiver.expectedRecvSeq).toNat = m := by
      rw [hdrained.holds.expected, hholds.expected, wire_sub_of_le (by omega) (by omega)]
      omega
    refine ⟨_, m, packet.payload, hreach, rfl, rfl, rfl, ?_, ?_, ?_⟩
    · simp only [Pair.dataArrives, hr, hmoved, h.expected]
    · exact run_length_of_single hdrained.full hstop
    · simp only [Pair.dataArrives, hr]
      exact hdrained.holds

lemma Primed.receive (h : Primed codec id retxTimeout retxTimeout' cc cc' s N E) (hE : E < N) :
    ∃ s' : Pair C true W W, Primed codec id retxTimeout retxTimeout' cc cc' s' N (E + 1) := by
  have hpos := W.pos
  obtain ⟨s', m, x, hreach, hsender, hsent, hdata, hexpected, hm, hholds⟩ :=
    h.arrive le_rfl (by omega) hE
  rw [if_pos rfl] at hm
  subst hm
  refine ⟨s', hreach, by rw [hsent, h.sent], by rw [hsender]; exact h.store,
    by rw [hsender]; exact h.idle, by rw [hdata]; exact h.copies, hexpected, ?_⟩
  intro k
  cases hk : s'.receiver.receiveBuffer.get k with
  | none => rfl
  | some b =>
    obtain ⟨n, hn, _⟩ := hholds.only k b hk
    obtain ⟨hle, hn⟩ := dropBelow_some.mp hn
    rw [Function.update_of_ne (by omega)] at hn
    cases hn

lemma exists_primed (codec : LawfulCodec) (id : Byte) (retxTimeout retxTimeout' : ℕ) (cc cc' : C)
    (N E : ℕ) (hE : E ≤ N) :
    ∃ s : Pair C true W W, Primed codec id retxTimeout retxTimeout' cc cc' s N E := by
  induction E with
  | zero =>
    induction N with
    | zero => exact ⟨_, primed_start codec id retxTimeout retxTimeout' cc cc'⟩
    | succ N ih =>
      obtain ⟨s, hs⟩ := ih (Nat.zero_le N)
      exact hs.send
  | succ E ih =>
    obtain ⟨s, hs⟩ := ih (by omega)
    exact hs.receive (by omega)

/-- A new packet of the window in flight that is marked as received and thrown away when it
arrives, because another one of the window has its slot. -/
structure Discards (codec : LawfulCodec) (s : Pair C true W W) (n : ℕ) : Prop where
  low : s.expected ≤ n
  high : n < s.expected + W.size
  fresh : ¬ Accepted s n
  arrival : ∃ d packet, (n, d) ∈ s.data ∧ codec.decode d = .ok packet ∧ packet.seq = wire n ∧
    s.receiver.receiveBuffer.get packet.seq.toNat ≠ none ∧
    s.receiver.receiveOrdered packet s.receiverIo =
      ({ s.receiver with recvAckTracker := s.receiver.recvAckTracker.markReceived packet.seq },
        s.receiverIo)

omit [CongestionCtrl C] in
lemma Discards.not_storesNew {n : ℕ} (h : Discards codec s n) : ¬ StoresNew codec s := by
  intro hs
  obtain ⟨d, packet, hd, hdecode, hseq, htaken, _⟩ := h.arrival
  exact htaken (hs n d packet n hd hdecode hseq h.low h.high h.fresh).1

/-- With only `m` in the buffer, a smaller index of the window with its slot is discarded. -/
lemma discards_of_held (hreach : Reachable (Pair.step codec) (fun _ _ => True)
      (Pair.start id retxTimeout retxTimeout' cc cc') s) {n m : ℕ} {x : List Byte}
    (hholds : Holds s.receiver.expectedRecvSeq s.receiver.receiveBuffer s.expected
      (dropBelow s.expected (Function.update (fun _ => none) m (some x))))
    (hn : s.expected ≤ n) (hnm : n < m) (hm : m < s.expected + W.size)
    (hslot : (wire n).toNat % W.size = (wire m).toNat % W.size) (hcopy : ∃ d, (n, d) ∈ s.data) :
    Discards codec s n := by
  obtain ⟨d, hd⟩ := hcopy
  obtain ⟨packet, hdecode, htype, hseq, _⟩ := (sound_of_reachable hreach).data (n, d) hd
  have hmax := W.le_max
  have hheld : dropBelow s.expected (Function.update (fun _ => none) m (some x)) m = some x :=
    dropBelow_some.mpr ⟨by omega, Function.update_self ..⟩
  have htaken : s.receiver.receiveBuffer.get (wire n).toNat = some ⟨wire m, x⟩ := by
    rw [SlotTable.get_congr _ hslot]
    exact hholds.stored m x hheld
  have hin : s.receiver.isInOrderedReceiveWindow (wire n) = true :=
    (inWindow_iff_of_le s.receiver hholds.expected hn (by omega)).mpr (by omega)
  refine ⟨hn, by omega, ?_, d, packet, hd, hdecode, hseq, ?_, ?_⟩
  · rintro (hlt | ⟨b, hb, hb'⟩)
    · omega
    · obtain ⟨k, hk⟩ := SlotTable.exists_get_of_mem_entries hb
      obtain ⟨j, hj, hj', _⟩ := hholds.only k b hk
      have hjn : j = n := hholds.index_eq hj ⟨hn, by omega⟩ (hj'.symm.trans hb')
      obtain ⟨_, hj⟩ := dropBelow_some.mp hj
      rw [Function.update_of_ne (by omega)] at hj
      cases hj
  · rw [hseq, htaken]
    exact Option.some_ne_none _
  · simp only [Channel.receiveOrdered, hseq, hin, Bool.true_eq_false, if_false, htaken]

/-- Of two indices of a window with one slot, the smaller is discarded in some run. -/
theorem exists_discards (codec : LawfulCodec) (id : Byte) (retxTimeout retxTimeout' : ℕ)
    (cc cc' : C) {n m : ℕ} (hn : E ≤ n) (hnm : n < m) (hm : m < E + W.size)
    (hslot : (wire n).toNat % W.size = (wire m).toNat % W.size) :
    ∃ s : Pair C true W W, Reachable (Pair.step codec) (fun _ _ => True)
      (Pair.start id retxTimeout retxTimeout' cc cc') s ∧ s.expected = E ∧ Discards codec s n := by
  obtain ⟨s, hs⟩ := exists_primed (W := W) codec id retxTimeout retxTimeout' cc cc' (m + 1) E
    (by omega)
  obtain ⟨s', k, x, hreach, _, _, hdata, hexpected, hk, hholds⟩ :=
    hs.arrive (n := m) (by omega) hm (by omega)
  rw [if_neg (by omega)] at hk
  rw [hk, Nat.add_zero] at hexpected hholds
  refine ⟨s', hreach, hexpected, ?_⟩
  rw [← hexpected] at hholds hn hm
  refine discards_of_held hreach hholds hn hnm hm hslot ?_
  rw [hdata]
  exact hs.copies n (by omega)

end Clash

/-- The receiver that expects index `E` stores every new packet of its window, in every run that
gets there, exactly when the window divides 65536 or ends before the wraparound; exactly then the
numbers of the window have distinct slots. -/
theorem stores_iff {C : Type} [CongestionCtrl C] (W : Window) (codec : LawfulCodec) (id : Byte)
    (retxTimeout retxTimeout' : ℕ) (cc cc' : C) (E : ℕ) :
    ((∀ s : Pair C true W W, Reachable (Pair.step codec) (fun _ _ => True)
        (Pair.start id retxTimeout retxTimeout' cc cc') s → s.expected = E → StoresNew codec s) ↔
      W.size ∣ 65536 ∨ E % 65536 + W.size ≤ 65536) ∧
    (DistinctSlots W E ↔ W.size ∣ 65536 ∨ E % 65536 + W.size ≤ 65536) := by
  refine ⟨⟨?_, ?_⟩, distinctSlots_iff W E⟩
  · intro hstores
    by_contra hfit
    obtain ⟨n, m, hn, hnm, hm, hslot⟩ := exists_clash (W := W) (E := E) hfit
    obtain ⟨s, hreach, hexpected, hs⟩ :=
      exists_discards codec id retxTimeout retxTimeout' cc cc' hn hnm hm hslot
    exact hs.not_storesNew (hstores s hreach hexpected)
  · rintro hfit s hreach rfl
    exact storesNew_of_fit codec (waits_of_reachable hreach) hfit

/-- Window 3 around the wraparound: 65536 is in the buffer, 65535 arrives and is lost. -/
theorem wraparound_packet_lost :
    ∃ s : Pair Null true (normalizeWindow 3) (normalizeWindow 3),
      Reachable (Pair.step DefaultCodec.defaultCodec) (fun _ _ => True)
        (Pair.start 0 200 200 ⟨⟩ ⟨⟩) s ∧
      s.expected = 65534 ∧ Discards DefaultCodec.defaultCodec s 65535 ∧
      ¬ StoresNew DefaultCodec.defaultCodec s := by
  obtain ⟨s, hreach, hexpected, hs⟩ := exists_discards (C := Null) (W := normalizeWindow 3)
    (E := 65534) (n := 65535) (m := 65536) DefaultCodec.defaultCodec 0 200 200 ⟨⟩ ⟨⟩ (by decide)
    (by decide) (by decide) (by decide)
  exact ⟨s, hreach, hexpected, hs, hs.not_storesNew⟩

end ReliableUdp.ReceiveWindow
