import ReliableUdp.ControllerCalls
import ReliableUdp.SendStore
import ReliableUdp.TokenBucket

/-! The leaky bucket behind a reliable channel. Its tokens are refilled and never spent, so the
channel has a constant window of unacknowledged packets. The rate of first transmissions is bounded
only where the places in that window come free slowly enough. -/
namespace ReliableUdp.Admission
open Protocol ReliableChannel ReliableSender Runs SenderRun SenderHistory SendStore ControllerCalls
  TokenBucket

/-- `double` values are rationals, rates are in packets per second. -/
structure LeakyBucket where
  rate : ℚ
  peakRate : ℚ
  burst : ℚ
  tokens : ℚ
  lastTick : Time
  deriving DecidableEq

def seconds (t : Time) : ℚ := t / 1000000000

namespace LeakyBucket

def create (rate burst : ℚ) (now : Time) : LeakyBucket :=
  { rate := rate, peakRate := rate, burst := burst, tokens := burst, lastTick := now }

def refill (c : LeakyBucket) (now : Time) : LeakyBucket :=
  let elapsed := seconds now - seconds c.lastTick
  { c with tokens := min c.burst (c.tokens + c.rate * elapsed), lastTick := now }

def onAck (c : LeakyBucket) (now : Time) : LeakyBucket :=
  let c := c.refill now
  { c with rate := min c.peakRate (c.rate * (101 / 100)) }

def onLoss (c : LeakyBucket) : LeakyBucket := { c with rate := max (c.rate * (1 / 2)) 10 }

def sendWindow (c : LeakyBucket) (now : Time) : ℕ × LeakyBucket :=
  let c := c.refill now
  ((max 0 c.tokens).floor.toNat, c)

end LeakyBucket

instance : CongestionCtrl LeakyBucket where
  onAck c now _ _ := c.onAck now
  onLoss c _ _ := c.onLoss
  sendWindow := LeakyBucket.sendWindow

section Places
variable {C : Type} {ordered : Bool} {W : Window}

def sendTimes (trace : List Mark) : List Time :=
  trace.filterMap fun
    | .stored _ now _ => some now
    | _ => none

lemma sendTimes_append (xs ys : List Mark) : sendTimes (xs ++ ys) = sendTimes xs ++ sendTimes ys :=
  List.filterMap_append ..

/-- The time of the packet that an event sends first. -/
def sending [CongestionCtrl C] (codec : PacketCodec) (s : SendRun C ordered W) : Event → List Time
  | .asyncSend payload _ now => if Accepts s.channel codec payload now then [now] else []
  | _ => []

def Holds (ch : Channel C ordered W) (sequenceNumber : Seq) : Prop :=
  (ch.sentPackets.get sequenceNumber.toNat).map SentPacket.sequenceNumber = some sequenceNumber

instance (ch : Channel C ordered W) (sequenceNumber : Seq) : Decidable (Holds ch sequenceNumber) :=
  inferInstanceAs (Decidable (_ = _))

/-- How many stored packets an event removes: those an Ack names and the one whose send failed. -/
def released (s : SendRun C ordered W) : Event → ℕ
  | .sendCompleted position ec _ =>
    match completedNumber s position with
    | some sequenceNumber => if ec.failed = true ∧ Holds s.channel sequenceNumber then 1 else 0
    | none => 0
  | .onRecv packet _ =>
    if packet.type = .ack then (ackedBy s.channel packet.ack packet.ackBits).length else 0
  | _ => 0

lemma eraseSentPacket_inFlightCount {ch : Channel C ordered W} {sequenceNumber : Seq}
    (h : Holds ch sequenceNumber → 0 < ch.inFlightCount) :
    (ch.eraseSentPacket sequenceNumber).inFlightCount +
      (if Holds ch sequenceNumber then 1 else 0) = ch.inFlightCount := by
  unfold Channel.eraseSentPacket
  cases hget : ch.sentPackets.get sequenceNumber.toNat with
  | none =>
    have hnot : ¬ Holds ch sequenceNumber := by simp [Holds, hget]
    rw [if_neg hnot]
    rfl
  | some sp =>
    have hiff : Holds ch sequenceNumber ↔ sp.sequenceNumber = sequenceNumber := by
      simp [Holds, hget]
    rw [hiff] at h
    simp only [hiff]
    by_cases heq : sp.sequenceNumber = sequenceNumber
    · have hpos := h heq
      simp only [heq, ne_eq, not_true_eq_false, if_false, if_true]
      omega
    · simp only [heq, ne_eq, not_false_eq_true, if_true, if_false, Nat.add_zero]

variable [CongestionCtrl C]

lemma sendTimes_step (codec : PacketCodec) (s : SendRun C ordered W) (e : Event) :
    sendTimes (s.step codec e).trace = sendTimes s.trace ++ sending codec s e := by
  cases e with
  | asyncSend payload handler now =>
    have h := asyncSend_cases s.channel codec payload handler now s.io
    simp only [SendRun.step, SendRun.asyncSend, sending]
    generalize s.channel.asyncSend codec payload handler now s.io = r at h ⊢
    cases h with
    | refused cc hfull =>
      rw [if_neg fun ha => absurd ha.1 (not_lt.mpr hfull)]
      simp [transmitted]
    | unencodable cc hroom hempty =>
      rw [if_neg fun ha => ha.2.1 hempty]
      simp [transmitted]
    | collided cc hroom old hold =>
      rw [if_neg fun ha => absurd ha.2.2 (by simp [hold])]
      simp [transmitted]
    | stored cc hroom hfree stats d hd hne =>
      rw [hd] at hne
      rw [if_pos ⟨hroom, hne, hfree⟩, sendTimes_append]
      simp [transmitted, Transport.sendEncoded, sendTimes]
  | sendCompleted position ec now =>
    simp only [SendRun.step, SendRun.sendCompleted, sending, List.append_nil]
    split
    · simp [sendTimes]
    · rfl
  | onTick now => simp [SendRun.step, SendRun.onTick, sending, sendTimes]
  | flush => simp [SendRun.step, SendRun.flush, sending, sendTimes]
  | onRecv packet now => simp [SendRun.step, SendRun.onRecv, sending, sendTimes]

lemma asyncSend_balance (codec : PacketCodec) (s : SendRun C ordered W) (payload : List Byte)
    (handler : ℕ) (now : Time) :
    (s.step codec (.asyncSend payload handler now)).channel.inFlightCount =
      s.channel.inFlightCount + (sending codec s (.asyncSend payload handler now)).length := by
  have h := asyncSend_cases s.channel codec payload handler now s.io
  simp only [SendRun.step, SendRun.asyncSend, sending]
  generalize s.channel.asyncSend codec payload handler now s.io = r at h ⊢
  cases h with
  | refused cc hfull =>
    rw [if_neg fun ha => absurd ha.1 (not_lt.mpr hfull)]
    rfl
  | unencodable cc hroom hempty =>
    rw [if_neg fun ha => ha.2.1 hempty]
    rfl
  | collided cc hroom old hold =>
    rw [if_neg fun ha => absurd ha.2.2 (by simp [hold])]
    rfl
  | stored cc hroom hfree stats d hd hne =>
    rw [hd] at hne
    rw [if_pos ⟨hroom, hne, hfree⟩]
    rfl

lemma sendCompleted_balance {T : ℕ} (codec : PacketCodec) {s : SendRun C ordered W}
    (h : Sound T s) (position : ℕ) (ec : ErrorCode) (now : Time) :
    (s.step codec (.sendCompleted position ec now)).channel.inFlightCount +
      released s (.sendCompleted position ec now) = s.channel.inFlightCount := by
  cases hpending : s.io.pending[position]? with
  | none => simp only [SendRun.step, SendRun.sendCompleted, released, completedNumber, hpending,
      Nat.add_zero]
  | some completion =>
    cases completion with
    | data channel sequenceNumber handler =>
      simp only [SendRun.step, SendRun.sendCompleted, released, completedNumber, hpending,
        Channel.sendCompleted]
      cases hec : ec.failed with
      | false => simp only [Bool.false_eq_true, if_false, false_and, Nat.add_zero]
      | true =>
        simp only [if_true, true_and]
        refine eraseSentPacket_inFlightCount fun hholds => ?_
        obtain ⟨sp, hsp, _⟩ := Option.map_eq_some_iff.mp hholds
        exact (storeInvariant_of_sound h).eraseDecrement _ sp hsp
    | _ => simp only [SendRun.step, SendRun.sendCompleted, released, completedNumber, hpending,
        Nat.add_zero]

/-- Places in the window: an event fills one for every packet it sends first and empties the
released ones. -/
theorem balance_step {T : ℕ} (codec : PacketCodec) {s : SendRun C ordered W} (h : Sound T s)
    (e : Event) : (s.step codec e).channel.inFlightCount + released s e =
      s.channel.inFlightCount + (sending codec s e).length := by
  cases e with
  | asyncSend payload handler now => exact asyncSend_balance codec s payload handler now
  | sendCompleted position ec now => exact sendCompleted_balance codec h position ec now
  | onTick now => rfl
  | flush => rfl
  | onRecv packet now =>
    simp only [SendRun.step, SendRun.onRecv, released, sending, List.length_nil, Nat.add_zero]
    split_ifs with hack
    · have hle := (storeInvariant_of_sound h).ackDecrements packet.ack packet.ackBits
      rw [Channel.onRecv, if_pos hack, processAck_inFlightCount]
      omega
    · exact (onRecv_receiveOnly s.channel hack now s.io).sender.inFlightCount

end Places

/-- The window of a channel whose bucket is full. -/
def constantWindow (W : Window) (burst : ℚ) : ℕ := max 1 (min W.size burst.floor.toNat)

/-- The send finds a place in the constant window, a free slot and a packet that encodes. -/
def Fits {ordered : Bool} {W : Window} (codec : PacketCodec) (ch : Channel LeakyBucket ordered W)
    (payload : List Byte) : Prop :=
  ch.inFlightCount < constantWindow W ch.cc.burst ∧
    codec.encodePacket (ch.dataPacket payload) ≠ [] ∧
    ch.sentPackets.get ch.nextSeq.toNat = none

instance {ordered : Bool} {W : Window} (codec : PacketCodec) (ch : Channel LeakyBucket ordered W)
    (payload : List Byte) : Decidable (Fits codec ch payload) :=
  inferInstanceAs (Decidable (_ ∧ _ ∧ _))

/-- A send that fits: its time, the packets in flight then and those released before. -/
structure Opening where
  time : Time
  inFlight : ℕ
  freed : ℕ
  deriving DecidableEq

/-- A run of the sending half under a clock, with the sends that fit so far and the number of
packets released so far. -/
structure TimedRun (ordered : Bool) (W : Window) where
  run : SendRun LeakyBucket ordered W
  clock : Time
  freed : ℕ := 0
  openings : List Opening := []

namespace TimedRun
variable {ordered : Bool} {W : Window}

def opening (codec : PacketCodec) (s : TimedRun ordered W) : Event → List Opening
  | .asyncSend payload _ now =>
    if Fits codec s.run.channel payload then
      [{ time := now, inFlight := s.run.channel.inFlightCount, freed := s.freed }]
    else []
  | _ => []

def step (codec : PacketCodec) (s : TimedRun ordered W) (e : Event) : TimedRun ordered W :=
  { run := s.run.step codec e
    clock := (reading e).getD s.clock
    freed := s.freed + released s.run e
    openings := s.openings ++ s.opening codec e }

def start (rate burst : ℚ) (id : Byte) (retxTimeout : ℕ) (now : Time) : TimedRun ordered W :=
  { run := SendRun.start id retxTimeout (LeakyBucket.create rate burst now), clock := now }

end TimedRun

def ClockAdvances {ordered : Bool} {W : Window} (s : TimedRun ordered W) (e : Event) : Prop :=
  s.clock ≤ (reading e).getD s.clock

instance {ordered : Bool} {W : Window} (s : TimedRun ordered W) (e : Event) :
    Decidable (ClockAdvances s e) :=
  inferInstanceAs (Decidable (_ ≤ _))

section Bucket
variable {ordered : Bool} {W : Window} {s : TimedRun ordered W} {burst : ℚ}

/-- The bucket is full and was last filled in the past. -/
structure Full (burst : ℚ) (c : LeakyBucket) (now : Time) : Prop where
  limit : c.burst = burst
  tokens : c.tokens = burst
  rate : 0 ≤ c.rate
  peakRate : 0 ≤ c.peakRate
  past : c.lastTick ≤ now

lemma Full.later {burst : ℚ} {c : LeakyBucket} {now later : Time} (h : Full burst c now)
    (hle : now ≤ later) : Full burst c later :=
  ⟨h.limit, h.tokens, h.rate, h.peakRate, h.past.trans hle⟩

lemma Full.refill {burst : ℚ} {c : LeakyBucket} {now : Time} (h : Full burst c now) :
    Full burst (c.refill now) now := by
  have helapsed : 0 ≤ seconds now - seconds c.lastTick := by
    have hpast : (c.lastTick : ℚ) ≤ now := by exact_mod_cast h.past
    rw [seconds, seconds, ← sub_div]
    exact div_nonneg (sub_nonneg.mpr hpast) (by norm_num)
  refine ⟨h.limit, ?_, h.rate, h.peakRate, le_rfl⟩
  rw [LeakyBucket.refill, h.limit, h.tokens]
  exact min_eq_left (le_add_of_nonneg_right (mul_nonneg h.rate helapsed))

lemma Full.onAck {burst : ℚ} {c : LeakyBucket} {now : Time} (h : Full burst c now) :
    Full burst (c.onAck now) now := by
  have hr := h.refill
  exact ⟨hr.limit, hr.tokens, le_min hr.peakRate (mul_nonneg hr.rate (by norm_num)), hr.peakRate,
    hr.past⟩

lemma Full.onLoss {burst : ℚ} {c : LeakyBucket} {now : Time} (h : Full burst c now) :
    Full burst c.onLoss now :=
  ⟨h.limit, h.tokens, le_max_of_le_right (by norm_num), h.peakRate, h.past⟩

lemma kept_full (burst : ℚ) (now : Time) :
    Kept (fun c : LeakyBucket => Full burst c now) now :=
  { onLoss := fun _ _ h => h.onLoss
    sendWindow := fun _ h => h.refill
    onAck := fun _ _ _ h => h.onAck }

lemma full_step (codec : PacketCodec) {burst : ℚ} (h : Full burst s.run.channel.cc s.clock)
    {e : Event} (he : ClockAdvances s e) :
    Full burst (s.step codec e).run.channel.cc (s.step codec e).clock := by
  refine Kept.step (P := fun c => Full burst c ((reading e).getD s.clock)) codec (h.later he) ?_
  intro now hnow
  rw [hnow]
  exact kept_full burst now

lemma floor_toNat_le (hburst : 0 ≤ burst) : (burst.floor.toNat : ℚ) ≤ burst := by
  have hfloor : (0 : ℤ) ≤ burst.floor := Rat.le_floor_iff.mpr (by exact_mod_cast hburst)
  have hcast : ((burst.floor.toNat : ℤ) : ℚ) = (burst.floor : ℚ) := by
    rw [Int.toNat_of_nonneg hfloor]
  calc (burst.floor.toNat : ℚ) = ((burst.floor.toNat : ℤ) : ℚ) := by norm_cast
    _ = burst.floor := hcast
    _ ≤ burst := Rat.floor_le burst

lemma constantWindow_le (W : Window) (hburst : 1 ≤ burst) :
    (constantWindow W burst : ℚ) ≤ burst := by
  rw [constantWindow, Nat.cast_max, Nat.cast_min, Nat.cast_one]
  exact max_le hburst ((min_le_right _ _).trans (floor_toNat_le (zero_le_one.trans hburst)))

lemma Full.sendWindow {c : LeakyBucket} {now : Time} (h : Full burst c now) (hburst : 0 ≤ burst) :
    (c.sendWindow now).1 = burst.floor.toNat := by
  simp only [LeakyBucket.sendWindow, h.refill.tokens, max_eq_right hburst]

/-- The channel accepts the sends that fit the constant window. -/
theorem accepts_iff_fits {codec : PacketCodec} {ch : Channel LeakyBucket ordered W}
    {payload : List Byte} {now : Time} (h : Full burst ch.cc now) (hburst : 0 ≤ burst) :
    Accepts ch codec payload now ↔ Fits codec ch payload := by
  have hwindow : (ch.effectiveSendWindow now).1 = constantWindow W ch.cc.burst := by
    rw [constantWindow, h.limit, ← h.sendWindow hburst]
    rfl
  rw [Accepts, Fits, hwindow]

end Bucket

section Bound
variable {ordered : Bool} {W : Window} {rate burst : ℚ} {start : Time} {T : ℕ}
  {s : TimedRun ordered W} {e : Event} {codec : PacketCodec}

/-- At most `burst + rate * d` packets are first sent in any `d` seconds. -/
def WithinRate (rate burst : ℚ) (trace : List Mark) : Prop :=
  Bucket.Bounded { rate := rate, burst := burst } ((sendTimes trace).map seconds)

/-- If packets were released between an earlier send and one that comes now, their number exceeds
the burst by no more than what the rate allows and the places that were taken or are still free. -/
def Spaced (rate burst : ℚ) (s : TimedRun ordered W) (now : Time) (o : Opening) : Prop :=
  o.freed < s.freed →
    ((s.freed - o.freed : ℕ) : ℚ) + (s.run.channel.inFlightCount + 1) ≤
      burst + rate * (seconds now - seconds o.time) + o.inFlight

instance (rate burst : ℚ) (s : TimedRun ordered W) (now : Time) (o : Opening) :
    Decidable (Spaced rate burst s now o) :=
  inferInstanceAs (Decidable (_ → _))

/-- A send that fits is spaced from every earlier one. -/
def Sparing (codec : PacketCodec) (rate burst : ℚ) (s : TimedRun ordered W) : Event → Prop
  | .asyncSend payload _ now =>
    Fits codec s.run.channel payload → ∀ o ∈ s.openings, Spaced rate burst s now o
  | _ => True

instance (codec : PacketCodec) (rate burst : ℚ) (s : TimedRun ordered W) (e : Event) :
    Decidable (Sparing codec rate burst s e) :=
  match e with
  | .asyncSend payload _ now => inferInstanceAs (Decidable
      (Fits codec s.run.channel payload → ∀ o ∈ s.openings, Spaced rate burst s now o))
  | .sendCompleted _ _ _ => .isTrue trivial
  | .onTick _ => .isTrue trivial
  | .flush => .isTrue trivial
  | .onRecv _ _ => .isTrue trivial

lemma seconds_le {a b : Time} (h : a ≤ b) : seconds a ≤ seconds b := by
  have hcast : (a : ℚ) ≤ b := by exact_mod_cast h
  exact div_le_div_of_nonneg_right hcast (by norm_num)

/-- The openings in order of time, each with the places taken and emptied before it. -/
structure Books (openings : List Opening) (inFlight freed : ℕ) (clock : Time) : Prop where
  place : ∀ i (o : Opening), openings[i]? = some o → o.inFlight + o.freed = i
  before : ∀ o ∈ openings, o.freed ≤ freed
  balance : inFlight + freed = openings.length
  sorted : (openings.map Opening.time).Pairwise (· ≤ ·)
  past : ∀ o ∈ openings, o.time ≤ clock

lemma books_nil (clock : Time) : Books [] 0 0 clock :=
  { place := by simp
    before := by simp
    balance := rfl
    sorted := List.Pairwise.nil
    past := by simp }

lemma Books.release {openings : List Opening} {inFlight inFlight' freed released : ℕ}
    {clock clock' : Time} (h : Books openings inFlight freed clock) (hclock : clock ≤ clock')
    (hreleased : inFlight' + released = inFlight) :
    Books openings inFlight' (freed + released) clock' := by
  refine ⟨h.place, ?_, ?_, h.sorted, fun o ho => (h.past o ho).trans hclock⟩
  · exact fun o ho => (h.before o ho).trans (Nat.le_add_right _ _)
  · have hbefore := h.balance
    omega

lemma Books.concat {openings : List Opening} {inFlight freed : ℕ} {clock clock' : Time}
    (h : Books openings inFlight freed clock) (hclock : clock ≤ clock') :
    Books (openings ++ [{ time := clock', inFlight := inFlight, freed := freed }])
      (inFlight + 1) freed clock' := by
  have hbefore := h.balance
  refine ⟨?_, ?_, ?_, ?_, ?_⟩
  · intro i o ho
    rw [List.getElem?_append] at ho
    split_ifs at ho with hlt
    · exact h.place i o ho
    · obtain ⟨hi, rfl⟩ := List.getElem?_eq_some_iff.mp ho
      rw [List.length_singleton] at hi
      simp only [List.getElem_singleton]
      omega
  · intro o ho
    rcases List.mem_append.mp ho with hold | hnew
    · exact h.before o hold
    · rw [List.mem_singleton.mp hnew]
  · rw [List.length_append, List.length_singleton]
    omega
  · rw [List.map_append, List.pairwise_append]
    refine ⟨h.sorted, List.pairwise_singleton _ _, ?_⟩
    intro t ht t' ht'
    obtain ⟨o, ho, rfl⟩ := List.mem_map.mp ht
    rw [List.map_singleton, List.mem_singleton] at ht'
    rw [ht']
    exact (h.past o ho).trans hclock
  · intro o ho
    rcases List.mem_append.mp ho with hold | hnew
    · exact (h.past o hold).trans hclock
    · rw [List.mem_singleton.mp hnew]

/-- The sends that fit are the first transmissions, and every packet sent is in flight or
released. -/
structure Ledger (T : ℕ) (burst : ℚ) (s : TimedRun ordered W) : Prop where
  sound : Sound T s.run
  full : Full burst s.run.channel.cc s.clock
  times : s.openings.map Opening.time = sendTimes s.run.trace
  books : Books s.openings s.run.channel.inFlightCount s.freed s.clock

lemma ledger_start (hrate : 0 ≤ rate) (id : Byte) :
    Ledger T burst (TimedRun.start rate burst id T start : TimedRun ordered W) :=
  { sound := sound_start id T _
    full := ⟨rfl, rfl, hrate, hrate, le_rfl⟩
    times := rfl
    books := books_nil start }

lemma Ledger.opening_times (h : Ledger T burst s) (hburst : 0 ≤ burst) (he : ClockAdvances s e) :
    (s.opening codec e).map Opening.time = sending codec s.run e := by
  cases e with
  | asyncSend payload handler now =>
    have hclock : s.clock ≤ now := he
    simp only [TimedRun.opening, sending, accepts_iff_fits (h.full.later hclock) hburst]
    split_ifs <;> rfl
  | sendCompleted position ec now => rfl
  | onTick now => rfl
  | flush => rfl
  | onRecv packet now => rfl

lemma opening_cases (codec : PacketCodec) (s : TimedRun ordered W) (e : Event) :
    s.opening codec e = [] ∨ s.opening codec e = [{
      time := (s.step codec e).clock
      inFlight := s.run.channel.inFlightCount
      freed := s.freed }] := by
  cases e with
  | asyncSend payload handler now =>
    simp only [TimedRun.opening]
    split_ifs
    · exact Or.inr rfl
    · exact Or.inl rfl
  | sendCompleted position ec now => exact Or.inl rfl
  | onTick now => exact Or.inl rfl
  | flush => exact Or.inl rfl
  | onRecv packet now => exact Or.inl rfl

theorem Ledger.step (h : Ledger T burst s) (hburst : 0 ≤ burst) (he : ClockAdvances s e) :
    Ledger T burst (s.step codec e) := by
  have htimes : (s.opening codec e).map Opening.time = sending codec s.run e :=
    h.opening_times hburst he
  have hbalance := balance_step codec h.sound e
  rw [← htimes, List.length_map] at hbalance
  refine ⟨h.sound.step codec e, full_step codec h.full he, ?_, ?_⟩
  · simp only [TimedRun.step, List.map_append, h.times, htimes, sendTimes_step]
  · have hopenings : (s.step codec e).openings = s.openings ++ s.opening codec e := rfl
    rcases opening_cases codec s e with hnone | hone
    · rw [hnone, List.length_nil, Nat.add_zero] at hbalance
      rw [hopenings, hnone, List.append_nil]
      exact h.books.release he hbalance
    · rw [hone, List.length_singleton] at hbalance
      rw [hopenings, hone]
      exact (h.books.concat he).release le_rfl hbalance

theorem ledger_of_reachable (hrate : 0 ≤ rate) (hburst : 0 ≤ burst) {id : Byte}
    (h : Reachable (TimedRun.step codec) ClockAdvances (TimedRun.start rate burst id T start) s) :
    Ledger T burst s :=
  h.invariant (ledger_start hrate id) fun _ _ hs he => hs.step hburst he

/-- The sends from an earlier one to the next: as many as were released in between and the growth
of the number in flight. -/
lemma Ledger.sends_since (h : Ledger T burst s) {i : ℕ} {o : Opening}
    (hi : s.openings[i]? = some o) :
    ((s.openings.length - i : ℕ) : ℚ) + o.inFlight =
      ((s.freed - o.freed : ℕ) : ℚ) + s.run.channel.inFlightCount := by
  have hplace := h.books.place i o hi
  have hfreed := h.books.before o (List.mem_of_getElem? hi)
  have hbalance := h.books.balance
  have hlt : i < s.openings.length := (List.getElem?_eq_some_iff.mp hi).1
  have hcount : s.openings.length - i + o.inFlight =
      s.freed - o.freed + s.run.channel.inFlightCount := by omega
  exact_mod_cast hcount

/-- Where nothing was released since, the places of the constant window are within the burst. -/
lemma Ledger.spaced_iff (h : Ledger T burst s) (hrate : 0 ≤ rate) (hburst : 1 ≤ burst)
    {payload : List Byte} (hfits : Fits codec s.run.channel payload) {now : Time}
    (hnow : s.clock ≤ now) {i : ℕ} {o : Opening} (hi : s.openings[i]? = some o) :
    Spaced rate burst s now o ↔ ((s.openings.length - i : ℕ) : ℚ) + 1 ≤
      burst + rate * (seconds now - seconds o.time) := by
  have hsince := h.sends_since hi
  have ho := List.mem_of_getElem? hi
  have hgained : 0 ≤ rate * (seconds now - seconds o.time) :=
    mul_nonneg hrate (sub_nonneg.mpr (seconds_le ((h.books.past o ho).trans hnow)))
  constructor
  · intro hspaced
    rcases (h.books.before o ho).lt_or_eq with hlt | heq
    · have hroom := hspaced hlt
      linarith
    · have hwindow : ((s.run.channel.inFlightCount + 1 : ℕ) : ℚ) ≤ constantWindow W burst := by
        have hplaces := hfits.1
        rw [h.full.limit] at hplaces
        exact_mod_cast hplaces
      have hlimit := hwindow.trans (constantWindow_le W hburst)
      have hpositive : (0 : ℚ) ≤ o.inFlight := Nat.cast_nonneg _
      rw [heq, Nat.sub_self] at hsince
      push_cast at hsince hlimit
      linarith
  · intro hall _
    linarith

/-- One event: it keeps the bound exactly when it is spaced. -/
theorem within_rate_step (h : Ledger T burst s) (hrate : 0 ≤ rate) (hburst : 1 ≤ burst)
    (he : ClockAdvances s e) : WithinRate rate burst (s.step codec e).run.trace ↔
      WithinRate rate burst s.run.trace ∧ Sparing codec rate burst s e := by
  have htimes : sendTimes (s.step codec e).run.trace =
      sendTimes s.run.trace ++ sending codec s.run e := sendTimes_step codec s.run e
  have hsame : sending codec s.run e = [] → Sparing codec rate burst s e →
      (WithinRate rate burst (s.step codec e).run.trace ↔
        WithinRate rate burst s.run.trace ∧ Sparing codec rate burst s e) := by
    intro hnone hsparing
    rw [WithinRate, htimes, hnone, List.append_nil, and_iff_left hsparing, WithinRate]
  cases e with
  | asyncSend payload handler now =>
    have hclock : s.clock ≤ now := he
    have hiff : Accepts s.run.channel codec payload now ↔ Fits codec s.run.channel payload :=
      accepts_iff_fits (h.full.later hclock) (zero_le_one.trans hburst)
    by_cases hfits : Fits codec s.run.channel payload
    · have hsending : sending codec s.run (.asyncSend payload handler now) = [now] :=
        if_pos (hiff.mpr hfits)
      have hsorted : ((sendTimes s.run.trace).map seconds).Pairwise (· ≤ ·) := by
        rw [← h.times]
        exact h.books.sorted.map seconds fun _ _ => seconds_le
      have hpast : ∀ x ∈ (sendTimes s.run.trace).map seconds, x ≤ seconds now := by
        intro x hx
        rw [← h.times] at hx
        obtain ⟨t, ht, rfl⟩ := List.mem_map.mp hx
        obtain ⟨o, ho, rfl⟩ := List.mem_map.mp ht
        exact seconds_le ((h.books.past o ho).trans hclock)
      rw [WithinRate, htimes, hsending, List.map_append, List.map_singleton,
        bounded_concat_iff hrate hburst hsorted hpast]
      refine and_congr_right fun _ => ?_
      simp only [Sparing, hfits, true_imp_iff]
      rw [← h.times]
      simp only [List.length_map, List.getElem?_map, Option.map_eq_some_iff]
      constructor
      · intro hall o ho
        obtain ⟨i, hi⟩ := List.mem_iff_getElem?.mp ho
        exact (h.spaced_iff hrate hburst hfits hclock hi).mpr
          (hall i _ ⟨o.time, ⟨o, hi, rfl⟩, rfl⟩)
      · rintro hall i x ⟨t, ⟨o, hi, rfl⟩, rfl⟩
        exact (h.spaced_iff hrate hburst hfits hclock hi).mp (hall o (List.mem_of_getElem? hi))
    · exact hsame (if_neg fun ha => hfits (hiff.mp ha)) fun ha => absurd ha hfits
  | sendCompleted position ec now => exact hsame rfl trivial
  | onTick now => exact hsame rfl trivial
  | flush => exact hsame rfl trivial
  | onRecv packet now => exact hsame rfl trivial

/-- First transmissions stay within the configured rate and burst exactly in the runs where every
send that fits the constant window is spaced from the earlier ones by the releases in between: the
controller itself never takes a token. -/
theorem within_rate_iff (hrate : 0 < rate) (hburst : 1 ≤ burst) (W : Window) (ordered : Bool)
    (codec : PacketCodec) (id : Byte) (retxTimeout : ℕ) (start : Time) (events : List Event)
    (h : Admitted (TimedRun.step codec) ClockAdvances
      (TimedRun.start rate burst id retxTimeout start : TimedRun ordered W) events) :
    let initial : TimedRun ordered W := TimedRun.start rate burst id retxTimeout start
    WithinRate rate burst (events.foldl (TimedRun.step codec) initial).run.trace ↔
      Admitted (TimedRun.step codec) (Sparing codec rate burst) initial events := by
  intro initial
  induction events using List.reverseRecOn with
  | nil =>
    refine ⟨fun _ => trivial, fun _ => ?_⟩
    exact bounded_nil hrate.le (zero_le_one.trans hburst)
  | append_singleton events e ih =>
    obtain ⟨hbefore, he⟩ := (admitted_concat _ _ _).mp h
    have hledger := ledger_of_reachable hrate.le (zero_le_one.trans hburst)
      (reachable_foldl .start events hbefore)
    rw [admitted_concat, List.foldl_concat, ← ih hbefore]
    exact within_rate_step hledger hrate.le hburst he

/-- Two packets a millisecond apart, with one token and a thousand packets per second: the Ack of
the first releases its place in between. -/
theorem within_rate_paced :
    let initial : TimedRun true (normalizeWindow 8) := TimedRun.start 1000 1 0 200 0
    WithinRate 1000 1 ([Event.asyncSend [7] 1 0, .onRecv { type := .ack, ack := 0 } 5,
      .asyncSend [7] 2 1000000].foldl
        (TimedRun.step DefaultCodec.defaultCodec.toPacketCodec) initial).run.trace := by
  intro initial
  exact (within_rate_iff (by norm_num) le_rfl (normalizeWindow 8) true _ 0 200 0 _
    (by decide +kernel)).mpr (by decide +kernel)

/-- With one token and a thousand packets per second a second packet follows at once when the first
one is acknowledged. -/
theorem burst_exceeded :
    let events : List Event := [.asyncSend [7] 1 0, .onRecv { type := .ack, ack := 0 } 0,
      .asyncSend [7] 2 0]
    let initial : TimedRun true (normalizeWindow 8) := TimedRun.start 1000 1 0 200 0
    Admitted (TimedRun.step DefaultCodec.defaultCodec.toPacketCodec) ClockAdvances initial events ∧
      ¬ WithinRate 1000 1 (events.foldl
        (TimedRun.step DefaultCodec.defaultCodec.toPacketCodec) initial).run.trace := by
  intro events initial
  refine ⟨by decide +kernel, fun hbounded => ?_⟩
  have htimes : sendTimes (events.foldl
      (TimedRun.step DefaultCodec.defaultCodec.toPacketCodec) initial).run.trace = [0, 0] := by
    decide +kernel
  have htwo := hbounded 0 0 le_rfl
  rw [htimes] at htwo
  norm_num [seconds] at htwo

end Bound

end ReliableUdp.Admission
