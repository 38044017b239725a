import ReliableUdp.ReceiveWindow

/-! Ordered reception does not depend on the order of arrivals. Whatever the order and the
repetitions, the receiver ends with what was buffered overlaid by what arrived, less the run
without gap that it handed over. -/
namespace ReliableUdp.ArrivalOrder
open Protocol ChannelCommon ReliableChannel OrderedReceiver ReliableSender Reassembly ReceiveWindow
  Runs

/-- An ordered channel with its transport; `expected` is the index behind `expectedRecvSeq_`. -/
structure ReceiveRun (C : Type) (W : Window) where
  channel : Channel C true W
  io : Transport := {}
  expected : ℕ := 0

/-- Positions select a pending completion of the socket. -/
inductive Event
  | asyncSend (payload : List Byte) (handler : ℕ) (now : Time)
  | sendCompleted (position : ℕ) (ec : ErrorCode) (now : Time)
  | onTick (now : Time)
  | flush
  | onRecv (packet : Packet) (now : Time)
  | asyncRecv (buf handler : ℕ)
  | close (reason : ErrorCode)
  deriving DecidableEq, Repr

namespace ReceiveRun

variable {C : Type} [CongestionCtrl C] {W : Window}

omit [CongestionCtrl C] in
def start (id : Byte) (retxTimeout : ℕ) (cc : C) : ReceiveRun C W :=
  { channel := { id := id, retxTimeout := retxTimeout, cc := cc } }

def sendCompleted (s : ReceiveRun C W) (position : ℕ) (ec : ErrorCode) (now : Time) :
    ReceiveRun C W :=
  let io := { s.io with pending := s.io.pending.eraseIdx position }
  match s.io.pending[position]? with
  | some (.data _ sequenceNumber handler) =>
    let r := s.channel.sendCompleted sequenceNumber handler ec now io
    { s with channel := r.1, io := r.2 }
  | _ => { s with io := io }

def onRecv (s : ReceiveRun C W) (packet : Packet) (now : Time) : ReceiveRun C W :=
  let r := s.channel.onRecv packet now s.io
  { channel := r.1
    io := r.2
    expected := s.expected + (r.1.expectedRecvSeq - s.channel.expectedRecvSeq).toNat }

def step (codec : PacketCodec) (s : ReceiveRun C W) : Event → ReceiveRun C W
  | .asyncSend payload handler now =>
    let r := s.channel.asyncSend codec payload handler now s.io
    { s with channel := r.1, io := r.2 }
  | .sendCompleted position ec now => s.sendCompleted position ec now
  | .onTick now =>
    let r := s.channel.onTick now s.io
    { s with channel := r.1, io := r.2 }
  | .flush => { s with io := s.channel.flush s.io }
  | .onRecv packet now => s.onRecv packet now
  | .asyncRecv buf handler =>
    let r := s.channel.asyncRecv buf handler s.io
    { s with channel := r.1, io := r.2 }
  | .close reason =>
    let r := s.channel.close reason s.io
    { s with channel := r.1, io := r.2 }

end ReceiveRun

section Waiting
variable {C : Type} [CongestionCtrl C] {W : Window}

omit [CongestionCtrl C] in
lemma Waits.of_same {ch ch' : Channel C true W} {E : ℕ} (h : Waits ch E)
    (hexpected : ch'.expectedRecvSeq = ch.expectedRecvSeq)
    (hbuffer : ch'.receiveBuffer = ch.receiveBuffer) : Waits ch' E := by
  obtain ⟨held, hholds, hnone⟩ := h
  rw [← hexpected, ← hbuffer] at hholds
  exact ⟨held, hholds, hnone⟩

lemma waits_onRecv {s : ReceiveRun C W} (h : Waits s.channel s.expected) (packet : Packet)
    (now : Time) : Waits (s.onRecv packet now).channel (s.onRecv packet now).expected := by
  by_cases hdata : packet.type = .data
  · have hrecv := onRecv_ordered s.channel hdata now s.io
    obtain ⟨m, hm, h'⟩ := h.receiveOrdered packet s.io
    have hmoved := h.moved h' hm
    simp only [ReceiveRun.onRecv, hrecv, hmoved]
    exact h'
  · have hsame : (s.channel.onRecv packet now s.io).1.expectedRecvSeq = s.channel.expectedRecvSeq ∧
        (s.channel.onRecv packet now s.io).1.receiveBuffer = s.channel.receiveBuffer := by
      unfold Channel.onRecv
      split_ifs
      · exact ⟨rfl, rfl⟩
      · exact ⟨rfl, rfl⟩
    simp only [ReceiveRun.onRecv, hsame.1, BitVec.sub_self, BitVec.toNat_zero, Nat.add_zero]
    exact Waits.of_same h hsame.1 hsame.2

/-- Whatever happens to the channel, its buffer waits at the expected index. -/
theorem waits_of_reachable {codec : PacketCodec} {id : Byte} {retxTimeout : ℕ} {cc : C}
    {s : ReceiveRun C W} (h : Reachable (ReceiveRun.step codec) (fun _ _ => True)
      (ReceiveRun.start id retxTimeout cc) s) : Waits s.channel s.expected := by
  refine h.invariant (P := fun s => Waits s.channel s.expected) ⟨_, holds_initial, rfl⟩ ?_
  intro s e hs _
  cases e with
  | asyncSend payload handler now =>
    have hsame := asyncSend_receiver s.channel codec payload handler now s.io
    exact Waits.of_same hs hsame.expectedRecvSeq hsame.receiveBuffer
  | sendCompleted position ec now =>
    simp only [ReceiveRun.step, ReceiveRun.sendCompleted]
    split
    · rename_i sequenceNumber handler _
      have hsame := (sendCompleted_frame s.channel sequenceNumber handler ec now
        { s.io with pending := s.io.pending.eraseIdx position }).1
      exact Waits.of_same hs hsame.expectedRecvSeq hsame.receiveBuffer
    · exact hs
  | onTick now =>
    have hsame := (onTick_frame s.channel now s.io).1
    exact Waits.of_same hs hsame.expectedRecvSeq hsame.receiveBuffer
  | flush => exact hs
  | onRecv packet now => exact waits_onRecv hs packet now
  | asyncRecv buf handler => exact Waits.of_same hs rfl rfl
  | close reason => exact Waits.of_same hs rfl rfl

end Waiting

section Bytes
variable {C : Type} {ordered : Bool} {W : Window}

def bytes (payloads : List (List Byte)) : ℕ := (payloads.map List.length).sum

lemma bytes_append (xs ys : List (List Byte)) : bytes (xs ++ ys) = bytes xs + bytes ys := by
  simp [bytes]

lemma receiveOrdered_bytes (ch : Channel C ordered W) (packet : Packet) (io : Transport) :
    (ch.receiveOrdered packet io).2.stats.bytesRecv + bytes (delivered io.log) =
      io.stats.bytesRecv + bytes (delivered (ch.receiveOrdered packet io).2.log) := by
  apply receiveOrdered_invariant (P := fun _ io' =>
    io'.stats.bytesRecv + bytes (delivered io.log) =
      io.stats.bytesRecv + bytes (delivered io'.log))
  · exact fun _ _ _ _ h => h
  · intro ch' payload io' h
    have hone : (ch'.deliver payload io').2.stats.bytesRecv =
        io'.stats.bytesRecv + bytes [payload] := by
      simp [Channel.deliver, Channel.recordRecv, bytes]
    rw [delivered_deliver, bytes_append, hone]
    omega
  · rfl

end Bytes

section Arrivals
variable {C : Type} {W : Window} {E : ℕ} {content : ℕ → List Byte}

/-- A Data packet that arrives with an index of the window and the content of that index. -/
structure Arrival (W : Window) (E : ℕ) (content : ℕ → List Byte) where
  index : ℕ
  packet : Packet
  now : Time
  low : E ≤ index
  high : index < E + W.size
  type : packet.type = .data
  seq : packet.seq = wire index
  payload : packet.payload = content index

def buffered (ch : Channel C true W) (E n : ℕ) : Option (List Byte) :=
  if E ≤ n ∧ n < E + W.size then
    ((ch.receiveBuffer.get (wire n).toNat).filter fun b => b.sequenceNumber == wire n).map
      BufferedPacket.payload
  else none

lemma Holds.eq_buffered {ch : Channel C true W} {held : ℕ → Option (List Byte)}
    (h : Holds ch.expectedRecvSeq ch.receiveBuffer E held) : held = buffered ch E := by
  funext n
  apply Option.ext
  intro x
  unfold buffered
  constructor
  · intro hx
    rw [if_pos (h.window n x hx), h.stored n x hx]
    simp
  · intro hx
    split_ifs at hx with hin
    simp only [Option.map_eq_some_iff, Option.filter_eq_some_iff, beq_iff_eq] at hx
    obtain ⟨b, ⟨hb, hseq⟩, rfl⟩ := hx
    obtain ⟨m, hm, hm', _⟩ := h.only _ b hb
    have hmn : m = n := h.index_eq hm hin (hm'.symm.trans hseq)
    exact hmn ▸ hm

/-- The receiver after some arrivals, against where it started: `m` payloads of the pool were
handed over and the others are in the buffer. -/
structure Reached (ch : Channel C true W) (io : Transport) (E m : ℕ)
    (pool : ℕ → Option (List Byte)) (r : Channel C true W × Transport) : Prop where
  holds : Holds r.1.expectedRecvSeq r.1.receiveBuffer (E + m) (dropBelow (E + m) pool)
  ends : RunEnds pool E m
  handedOver : delivered r.2.log = delivered io.log ++ run pool E m
  packetsRecv : r.2.stats.packetsRecv = io.stats.packetsRecv + m
  bytesRecv : r.2.stats.bytesRecv + bytes (delivered io.log) =
    io.stats.bytesRecv + bytes (delivered r.2.log)

lemma run_le {pool : ℕ → Option (List Byte)} {m : ℕ}
    (hpool : ∀ n x, pool n = some x → E ≤ n ∧ n < E + W.size) (h : RunEnds pool E m) :
    m ≤ W.size := by
  by_contra hlt
  obtain ⟨x, hx⟩ := Option.isSome_iff_exists.mp (h.full W.size (by omega))
  have := hpool _ x hx
  omega

lemma receiveOrdered_passed {ch : Channel C true W} {m n : ℕ} (he : ch.expectedRecvSeq = wire (E + m))
    (hm : m ≤ W.size) (hn : E ≤ n) (hn' : n < E + m) {packet : Packet} (hseq : packet.seq = wire n)
    (io : Transport) : ch.receiveOrdered packet io = (ch, io) := by
  have hmax := W.le_max
  have hwrap : wire n = wire (n + 65536) := by
    apply BitVec.eq_of_toNat_eq
    rw [wire_toNat, wire_toNat]
    omega
  have hout : ch.isInOrderedReceiveWindow packet.seq = false := by
    rw [Bool.eq_false_iff, hseq, hwrap, ne_eq,
      inWindow_iff_of_le ch he (by omega) (by omega)]
    omega
  rw [Channel.receiveOrdered, if_pos hout]

theorem Reached.receive {ch : Channel C true W} {io : Transport} {m : ℕ}
    {pool : ℕ → Option (List Byte)} {r : Channel C true W × Transport}
    (h : Reached ch io E m pool r) (hfit : SlotsFit W E)
    (hpool : ∀ n x, pool n = some x → E ≤ n ∧ n < E + W.size) {n : ℕ} (hn : E ≤ n)
    (hn' : n < E + W.size) {packet : Packet} (hseq : packet.seq = wire n) :
    ∃ k, Reached ch io E k
      (if pool n = none then Function.update pool n (some packet.payload) else pool)
      (r.1.receiveOrdered packet r.2) := by
  have hbytes := receiveOrdered_bytes r.1 packet r.2
  have hbefore := h.bytesRecv
  have hm := run_le hpool h.ends
  have hmax := W.le_max
  rcases lt_or_ge n (E + m) with hpassed | hahead
  · rw [receiveOrdered_passed h.holds.expected hm hn hpassed hseq]
    have hsome : pool n ≠ none := by
      obtain ⟨i, rfl⟩ := Nat.exists_eq_add_of_le hn
      exact Option.isSome_iff_ne_none.mp (h.ends.full i (by omega))
    rw [if_neg hsome]
    exact ⟨m, h⟩
  · have hspec := receiveOrdered_spec r.1 r.2 h.holds
      (close_iff.mpr ⟨by omega, by omega⟩ : Close n (E + m)) packet hseq
    generalize r.1.receiveOrdered packet r.2 = r' at hspec hbytes ⊢
    cases hspec with
    | outside hout => exact absurd ⟨hahead, by omega⟩ hout
    | occupied hin b hb =>
      obtain ⟨j, hj, _, hslot⟩ := h.holds.only _ b hb
      obtain ⟨_, hj⟩ := dropBelow_some.mp hj
      obtain ⟨hjE, hjW⟩ := hpool j _ hj
      have hjn := distinctSlots_of_fit hfit j n hjE hjW hn hn' hslot
      rw [hjn] at hj
      rw [if_neg (by simp [hj])]
      exact ⟨m, h.holds, h.ends, h.handedOver, h.packetsRecv, h.bytesRecv⟩
    | stored hin hfree k hk ch' io' hd hstop =>
      have hnone : pool n = none := by
        cases hx : pool n with
        | none => rfl
        | some x =>
          have hs := h.holds.stored n x (dropBelow_some.mpr ⟨hahead, hx⟩)
          rw [hfree] at hs
          cases hs
      rw [if_pos hnone]
      refine ⟨m + k, ?_, h.ends.extend hahead ⟨hd.full, hstop⟩, ?_, ?_, ?_⟩
      · have hholds := hd.holds
        rw [dropBelow_update (by omega), Nat.add_assoc] at hholds
        exact hholds
      · rw [hd.delivered, h.handedOver, List.append_assoc, run_extend hahead]
      · rw [hd.packetsRecv, h.packetsRecv, Nat.add_assoc]
      · dsimp only at hbytes ⊢
        omega

def pool (ch : Channel C true W) (arrivals : List (Arrival W E content)) :
    ℕ → Option (List Byte) :=
  overlay (buffered ch E) (arrivals.map Arrival.index) content

lemma pool_concat (ch : Channel C true W) (arrivals : List (Arrival W E content))
    (a : Arrival W E content) :
    pool ch (arrivals ++ [a]) =
      if pool ch arrivals a.index = none
      then Function.update (pool ch arrivals) a.index (some (content a.index))
      else pool ch arrivals := by
  rw [pool, List.map_append, List.map_singleton, overlay_concat]
  rfl

lemma pool_window {ch : Channel C true W} {arrivals : List (Arrival W E content)} (n : ℕ)
    (x : List Byte) (h : pool ch arrivals n = some x) : E ≤ n ∧ n < E + W.size := by
  by_contra hout
  have hheld : buffered ch E n = none := by rw [buffered, if_neg hout]
  have harrived : n ∉ arrivals.map Arrival.index := by
    intro hmem
    obtain ⟨a, _, rfl⟩ := List.mem_map.mp hmem
    exact hout ⟨a.low, a.high⟩
  rw [pool, overlay, hheld, if_neg harrived] at h
  cases h

variable [CongestionCtrl C]

def receiveAll (s : ReceiveRun C W) (arrivals : List (Arrival W E content)) : ReceiveRun C W :=
  arrivals.foldl (fun s a => s.onRecv a.packet a.now) s

theorem reached_receiveAll {s : ReceiveRun C W} (h : Waits s.channel E) (hfit : SlotsFit W E)
    (arrivals : List (Arrival W E content)) :
    ∃ m, Reached s.channel s.io E m (pool s.channel arrivals)
      ((receiveAll s arrivals).channel, (receiveAll s arrivals).io) := by
  induction arrivals using List.reverseRecOn with
  | nil =>
    obtain ⟨held, hholds, hnone⟩ := h
    have hpool : pool s.channel ([] : List (Arrival W E content)) = held := by
      rw [pool, List.map_nil, overlay_nil, Holds.eq_buffered hholds]
    rw [hpool]
    have hzero := drained_zero s.channel s.io hholds
    exact ⟨0, hzero.holds, ⟨hzero.full, hnone⟩, hzero.delivered, hzero.packetsRecv, rfl⟩
  | append_singleton arrivals a ih =>
    obtain ⟨m, hm⟩ := ih
    obtain ⟨k, hk⟩ := hm.receive hfit pool_window a.low a.high a.seq
    rw [a.payload, ← pool_concat, ← onRecv_ordered _ a.type a.now] at hk
    refine ⟨k, ?_⟩
    simp only [receiveAll, List.foldl_append, List.foldl_cons, List.foldl_nil]
    exact hk

end Arrivals

/-- Two lists of arrivals with the same set of indices leave the receiver with the same expected
number, buffer, deliveries and counters: those of the longest run without gap that the buffered
and the arrived packets make. -/
theorem arrival_order_irrelevant {C : Type} [CongestionCtrl C] (W : Window) (codec : PacketCodec)
    (id : Byte) (retxTimeout : ℕ) (cc : C) (s : ReceiveRun C W)
    (h : Reachable (ReceiveRun.step codec) (fun _ _ => True) (ReceiveRun.start id retxTimeout cc) s)
    (hfit : W.size ∣ 65536 ∨ s.expected % 65536 + W.size ≤ 65536) (content : ℕ → List Byte)
    (xs ys : List (Arrival W s.expected content))
    (hsame : ∀ n, n ∈ xs.map Arrival.index ↔ n ∈ ys.map Arrival.index) :
    (receiveAll s xs).channel.expectedRecvSeq = (receiveAll s ys).channel.expectedRecvSeq ∧
    (receiveAll s xs).channel.receiveBuffer = (receiveAll s ys).channel.receiveBuffer ∧
    delivered (receiveAll s xs).io.log = delivered (receiveAll s ys).io.log ∧
    (receiveAll s xs).io.stats.packetsRecv = (receiveAll s ys).io.stats.packetsRecv ∧
    (receiveAll s xs).io.stats.bytesRecv = (receiveAll s ys).io.stats.bytesRecv ∧
    ∃ m, RunEnds (pool s.channel xs) s.expected m ∧
      delivered (receiveAll s xs).io.log =
        delivered s.io.log ++ run (pool s.channel xs) s.expected m := by
  obtain ⟨m, hx⟩ := reached_receiveAll (waits_of_reachable h) hfit xs
  obtain ⟨k, hy⟩ := reached_receiveAll (waits_of_reachable h) hfit ys
  have hpool : pool s.channel ys = pool s.channel xs :=
    overlay_congr _ (fun n => (hsame n).symm) content
  rw [hpool] at hy
  obtain rfl := hx.ends.unique hy.ends
  have hdelivered : delivered (receiveAll s xs).io.log = delivered (receiveAll s ys).io.log :=
    hx.handedOver.trans hy.handedOver.symm
  refine ⟨hx.holds.expected.trans hy.holds.expected.symm, hx.holds.buffer_eq hy.holds, hdelivered,
    hx.packetsRecv.trans hy.packetsRecv.symm, ?_, m, hx.ends, hx.handedOver⟩
  have hbx := hx.bytesRecv
  have hby := hy.bytesRecv
  simp only [hdelivered] at hbx
  dsimp only at hbx hby
  omega

/-- Index 2 is in the buffer of a receiver with window 3. -/
def gapState : ReceiveRun Null (normalizeWindow 3) :=
  [Event.onRecv { type := .data, seq := 2, payload := [9#8] } 0].foldl
    (ReceiveRun.step DefaultCodec.defaultCodec.toPacketCodec) (ReceiveRun.start 0 200 ⟨⟩)

def gapContent (n : ℕ) : List Byte := if n = 0 then [7#8] else [8#8]

def first : Arrival (normalizeWindow 3) gapState.expected gapContent where
  index := 0
  packet := { type := .data, seq := 0, payload := [7#8] }
  now := 1
  low := by decide +kernel
  high := by decide +kernel
  type := rfl
  seq := rfl
  payload := rfl

def second : Arrival (normalizeWindow 3) gapState.expected gapContent where
  index := 1
  packet := { type := .data, seq := 1, payload := [8#8] }
  now := 2
  low := by decide +kernel
  high := by decide +kernel
  type := rfl
  seq := rfl
  payload := rfl

theorem arrival_order_irrelevant_gap :
    delivered (receiveAll gapState [first, second]).io.log = [[7#8], [8#8], [9#8]] ∧
      delivered (receiveAll gapState [first, second]).io.log =
        delivered (receiveAll gapState [second, second, first, second]).io.log := by
  have hreach : Reachable (ReceiveRun.step DefaultCodec.defaultCodec.toPacketCodec) (fun _ _ => True)
      (ReceiveRun.start 0 200 ⟨⟩) gapState :=
    reachable_foldl .start [Event.onRecv { type := .data, seq := 2, payload := [9#8] } 0]
      ⟨trivial, trivial⟩
  have h := arrival_order_irrelevant (normalizeWindow 3) DefaultCodec.defaultCodec.toPacketCodec 0
    200 ⟨⟩ gapState hreach (Or.inr (by decide +kernel)) gapContent [first, second]
    [second, second, first, second] (by simp [first, second])
  exact ⟨by decide +kernel, h.2.2.1⟩

end ReliableUdp.ArrivalOrder
