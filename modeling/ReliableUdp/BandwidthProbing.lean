import ReliableUdp.ControllerCalls
import ReliableUdp.RoundTripSampling

/-! The minimum round-trip time of `BbrLite` against the packets it was measured on. `processAck`
reports zero for a packet that a tick resent, and the minimum takes it for a measurement. -/
namespace ReliableUdp.BandwidthProbing
open Protocol ReliableChannel ReliableSender Runs SenderRun SenderHistory RoundTripSampling
  ControllerCalls

inductive Phase
  | startup
  | drain
  | probeBw
  | probeRtt
  deriving DecidableEq, Repr

def kStartupGain : ℚ := 2
def kDrainGain : ℚ := 3 / 4
def kProbeBwGain : ℚ := 5 / 4
def kSteadyGain : ℚ := 1
def kProbeRttInterval : ℕ := 200

/-- `Micros::max()`. -/
def maxMicros : ℕ := 2 ^ 63 - 1

def maxSize : ℕ := 2 ^ 64 - 1

/-- `rtProp` is in microseconds, `double` values are rationals. -/
structure BbrLite where
  phase : Phase := .startup
  btlBw : ℚ := 0
  rtProp : ℕ := maxMicros
  rtPropStamp : Time := 0
  inflightCap : ℕ := maxSize
  ackCount : ℕ := 0
  paceGain : ℚ := kStartupGain
  deriving DecidableEq

namespace BbrLite

def rtPropExpired (b : BbrLite) (now : Time) : Bool := decide (now - b.rtPropStamp > 10000000000)

def advancePhase (b : BbrLite) : BbrLite :=
  match b.phase with
  | .startup => if b.btlBw > 0 then { b with phase := .drain, paceGain := kDrainGain } else b
  | .drain => { b with phase := .probeBw, paceGain := kProbeBwGain, inflightCap := maxSize }
  | .probeBw =>
    if b.ackCount % kProbeRttInterval = 0 then
      { b with phase := .probeRtt, inflightCap := 4, paceGain := kSteadyGain }
    else b
  | .probeRtt => { b with phase := .probeBw, paceGain := kProbeBwGain, inflightCap := maxSize }

def onAck (b : BbrLite) (now : Time) (rttUs : ℕ) : BbrLite :=
  let b :=
    if rttUs < b.rtProp ∨ b.rtPropExpired now then { b with rtProp := rttUs, rtPropStamp := now }
    else b
  let b := if rttUs > 0 then { b with btlBw := max b.btlBw (1000000 / rttUs) } else b
  advancePhase { b with ackCount := (b.ackCount + 1) % 2 ^ 64 }

def onLoss (b : BbrLite) : BbrLite := { b with inflightCap := max 4 (b.inflightCap / 2) }

def sendWindow (b : BbrLite) : ℕ :=
  let rtPropSecs : ℚ := b.rtProp / 1000000
  let bdp := b.btlBw * rtPropSecs
  min ((bdp * b.paceGain).floor.toNat + 4) b.inflightCap

end BbrLite

instance : CongestionCtrl BbrLite where
  onAck b now _ rttUs := b.onAck now rttUs
  onLoss b _ _ := b.onLoss
  sendWindow b _ := (b.sendWindow, b)

lemma advancePhase_rtProp (b : BbrLite) : b.advancePhase.rtProp = b.rtProp := by
  unfold BbrLite.advancePhase
  cases b.phase with
  | startup => dsimp only; split_ifs <;> rfl
  | drain => rfl
  | probeBw => dsimp only; split_ifs <;> rfl
  | probeRtt => rfl

lemma onAck_rtProp (b : BbrLite) (now : Time) (rttUs : ℕ) :
    (b.onAck now rttUs).rtProp =
      if rttUs < b.rtProp ∨ b.rtPropExpired now then rttUs else b.rtProp := by
  unfold BbrLite.onAck
  rw [advancePhase_rtProp]
  dsimp only
  split_ifs <;> rfl

/-- A report that leaves the minimum alone: equal to it, or not below it while it is fresh. -/
def BbrLite.Ignores (b : BbrLite) (now : Time) (rttUs : ℕ) : Prop :=
  rttUs = b.rtProp ∨ b.rtProp ≤ rttUs ∧ b.rtPropExpired now = false

instance (b : BbrLite) (now : Time) (rttUs : ℕ) : Decidable (b.Ignores now rttUs) :=
  inferInstanceAs (Decidable (_ ∨ _))

lemma onAck_rtProp_eq_iff (b : BbrLite) (now : Time) (rttUs : ℕ) :
    (b.onAck now rttUs).rtProp = b.rtProp ↔ b.Ignores now rttUs := by
  rw [onAck_rtProp]
  unfold BbrLite.Ignores
  cases b.rtPropExpired now with
  | true => simp
  | false =>
    simp only [Bool.false_eq_true, or_false, and_true]
    split_ifs with hlt
    · omega
    · omega

/-- An `onAck` call: the packet and whether it was ever resent, with the controller before the
call. -/
structure Report where
  index : ℕ
  resent : Bool
  sendTime : Time
  now : Time
  rttUs : ℕ
  before : BbrLite
  deriving DecidableEq

section Reports
variable {ordered : Bool} {W : Window}

def reportsFrom (trace : List Mark) (now : Time) : BbrLite → List (ℕ × SentPacket) → List Report
  | _, [] => []
  | b, p :: ps =>
    { index := p.1
      resent := decide (p.1 ∈ resends trace ∨ p.1 ∈ flushes trace)
      sendTime := p.2.sendTime
      now := now
      rttUs := rttUs now p.2
      before := b } :: reportsFrom trace now (b.onAck now (rttUs now p.2)) ps

def reports (s : SendRun BbrLite ordered W) : Event → List Report
  | .onRecv packet now =>
    if packet.type = .ack then
      reportsFrom s.trace now s.channel.cc (confirmed s packet.ack packet.ackBits)
    else []
  | _ => []

/-- A run with all calls of `onAck`. -/
structure ReportedRun (ordered : Bool) (W : Window) where
  run : SendRun BbrLite ordered W
  reported : List Report := []

namespace ReportedRun

def start (id : Byte) (retxTimeout : ℕ) (created : Time) : ReportedRun ordered W :=
  { run := SendRun.start id retxTimeout { rtPropStamp := created } }

def step (codec : PacketCodec) (s : ReportedRun ordered W) (e : Event) : ReportedRun ordered W :=
  { run := s.run.step codec e, reported := s.reported ++ reports s.run e }

end ReportedRun

/-- The time in microseconds from the first transmission to the acknowledgement. -/
def Report.roundTrip (r : Report) : ℕ := (r.now - r.sendTime) / 1000

/-- The minimum is the initial value or was measured on a packet that was sent once, and no report
of a resent packet changed it. -/
def MinimumIsReal (s : ReportedRun ordered W) : Prop :=
  (s.run.channel.cc.rtProp = maxMicros ∨
      ∃ r ∈ s.reported, r.resent = false ∧ s.run.channel.cc.rtProp = r.roundTrip) ∧
    ∀ r ∈ s.reported, r.resent = true → (r.before.onAck r.now r.rttUs).rtProp = r.before.rtProp

/-- What an event reports of resent packets leaves the minimum alone. -/
def Harmless (s : ReportedRun ordered W) (e : Event) : Prop :=
  ∀ r ∈ reports s.run e, r.resent = true → r.before.Ignores r.now r.rttUs

/-- The reports of one acknowledgement move the minimum to a round trip of a packet sent once. -/
lemma reportsFrom_rtProp {trace : List Mark} {now : Time} {b : BbrLite} {ps : List (ℕ × SentPacket)}
    (honce : ∀ p ∈ ps, p.1 ∉ resends trace → p.2.retxCount = 0)
    (h : ∀ r ∈ reportsFrom trace now b ps, r.resent = true → r.before.Ignores r.now r.rttUs) :
    (ps.foldl (fun b p => b.onAck now (rttUs now p.2)) b).rtProp = b.rtProp ∨
      ∃ r ∈ reportsFrom trace now b ps, r.resent = false ∧
        (ps.foldl (fun b p => b.onAck now (rttUs now p.2)) b).rtProp = r.roundTrip := by
  induction ps generalizing b with
  | nil => exact Or.inl rfl
  | cons p ps ih =>
    have hrest := ih (b := b.onAck now (rttUs now p.2))
      (fun q hq => honce q (List.mem_cons_of_mem p hq))
      (fun r hr => h r (List.mem_cons_of_mem _ hr))
    rw [List.foldl_cons]
    rcases hrest with hsame | ⟨r, hr, hsent, hvalue⟩
    · by_cases hchanged : (b.onAck now (rttUs now p.2)).rtProp = b.rtProp
      · exact Or.inl (hsame.trans hchanged)
      · have hsent : ¬ (p.1 ∈ resends trace ∨ p.1 ∈ flushes trace) := by
          intro hresent
          have hignored := h _ List.mem_cons_self (decide_eq_true hresent)
          exact hchanged ((onAck_rtProp_eq_iff _ _ _).mpr hignored)
        have hmeasured : rttUs now p.2 = (now - p.2.sendTime) / 1000 :=
          if_pos (honce p List.mem_cons_self fun hr => hsent (Or.inl hr))
        refine Or.inr ⟨_, List.mem_cons_self, decide_eq_false hsent, ?_⟩
        rw [hsame, Report.roundTrip, ← hmeasured]
        rw [onAck_rtProp] at hchanged ⊢
        split_ifs at hchanged ⊢
        · rfl
        · exact absurd rfl hchanged
    · exact Or.inr ⟨r, List.mem_cons_of_mem _ hr, hsent, hvalue⟩

variable {s : SendRun BbrLite ordered W} {codec : PacketCodec} {T : ℕ}

lemma rtProp_other {e : Event} (he : ∀ packet now, e = .onRecv packet now → packet.type ≠ .ack) :
    (s.step codec e).channel.cc.rtProp = s.channel.cc.rtProp := by
  have hkept : ∀ now, KeptBySending (fun b : BbrLite => b.rtProp = s.channel.cc.rtProp) now :=
    fun now => { onLoss := fun _ _ h => h, sendWindow := fun _ h => h }
  have hsending : (∀ packet now, e ≠ .onRecv packet now) →
      (s.step codec e).channel.cc.rtProp = s.channel.cc.rtProp := fun hne =>
    KeptBySending.step (P := fun b : BbrLite => b.rtProp = s.channel.cc.rtProp) codec rfl hne
      fun now _ => hkept now
  cases e with
  | onRecv packet now =>
    simp only [SendRun.step, SendRun.onRecv, onRecv_cc, if_neg (he packet now rfl)]
  | asyncSend payload handler now => exact hsending (by simp)
  | sendCompleted position ec now => exact hsending (by simp)
  | onTick now => exact hsending (by simp)
  | flush => rfl

lemma cc_ack {packet : Packet} {now : Time} (hack : packet.type = .ack) :
    (s.step codec (.onRecv packet now)).channel.cc =
      (confirmed s packet.ack packet.ackBits).foldl (fun b p => b.onAck now (rttUs now p.2))
        s.channel.cc := by
  simp only [SendRun.step, SendRun.onRecv, onRecv_cc, if_pos hack]
  rw [← confirmed_packets, List.foldl_map]
  rfl

lemma retxCount_of_confirmed (h : Sound T s) {ack : Seq} {ackBits : AckBits} {p : ℕ × SentPacket}
    (hp : p ∈ confirmed s ack ackBits) (honce : p.1 ∉ resends s.trace) : p.2.retxCount = 0 := by
  obtain ⟨k, hk, ho⟩ := (mem_indexed W.pos).mp (List.mem_of_mem_filter hp)
  have htracked := h.stored k p.2 hk
  rw [ho] at htracked
  rw [retxCount_eq_zero_iff htracked, List.count_eq_zero_of_not_mem honce]
  exact dvd_zero _

lemma rtProp_step (codec : PacketCodec) (h : Sound T s) {e : Event}
    (hharmless : ∀ r ∈ reports s e, r.resent = true → r.before.Ignores r.now r.rttUs) :
    (s.step codec e).channel.cc.rtProp = s.channel.cc.rtProp ∨
      ∃ r ∈ reports s e, r.resent = false ∧
        (s.step codec e).channel.cc.rtProp = r.roundTrip := by
  by_cases hack : ∃ packet now, e = .onRecv packet now ∧ packet.type = .ack
  · obtain ⟨packet, now, rfl, hack⟩ := hack
    simp only [reports, if_pos hack] at hharmless ⊢
    rw [cc_ack hack]
    exact reportsFrom_rtProp (fun p hp => retxCount_of_confirmed h hp) hharmless
  · exact Or.inl (rtProp_other fun packet now he ht => hack ⟨packet, now, he, ht⟩)

end Reports

section Minimum
variable {ordered : Bool} {W : Window} {s : ReportedRun ordered W} {T : ℕ}

structure Explained (T : ℕ) (s : ReportedRun ordered W) : Prop where
  real : MinimumIsReal s
  sound : Sound T s.run

lemma explained_start (id : Byte) (T : ℕ) (created : Time) :
    Explained T (ReportedRun.start id T created : ReportedRun ordered W) := by
  refine ⟨⟨Or.inl rfl, ?_⟩, sound_start id T _⟩
  intro r hr
  cases hr

lemma Explained.step (codec : PacketCodec) (h : Explained T s) {e : Event} (he : Harmless s e) :
    Explained T (s.step codec e) := by
  obtain ⟨⟨hvalue, hresent⟩, hsound⟩ := h
  refine ⟨⟨?_, ?_⟩, hsound.step codec e⟩
  · rcases rtProp_step codec hsound he with hsame | ⟨r, hr, honce, hmeasured⟩
    · simp only [ReportedRun.step, hsame]
      rcases hvalue with hinitial | ⟨r, hr, honce, hmeasured⟩
      · exact Or.inl hinitial
      · exact Or.inr ⟨r, List.mem_append_left _ hr, honce, hmeasured⟩
    · exact Or.inr ⟨r, List.mem_append_right _ hr, honce, hmeasured⟩
  · intro r hr hagain
    rcases List.mem_append.mp hr with hr | hr
    · exact hresent r hr hagain
    · exact (onAck_rtProp_eq_iff _ _ _).mpr (he r hr hagain)

lemma not_real_step (codec : PacketCodec) {e : Event} (he : ¬ Harmless s e) :
    ¬ MinimumIsReal (s.step codec e) := by
  rintro ⟨_, hresent⟩
  apply he
  intro r hr hagain
  rw [← onAck_rtProp_eq_iff]
  exact hresent r (List.mem_append_right _ hr) hagain

/-- The minimum is real throughout a run exactly when every acknowledgement of a resent packet
passes a value that leaves it alone: equal to it, or not below it while it is fresh. The value of
a packet that a tick resent less than 2^32 times is zero. -/
theorem minimum_is_real_iff (ordered : Bool) (W : Window) (codec : PacketCodec) (id : Byte)
    (retxTimeout : ℕ) (created : Time) (events : List Event) :
    let initial : ReportedRun ordered W := ReportedRun.start id retxTimeout created
    (∀ before, before <+: events →
        MinimumIsReal (before.foldl (ReportedRun.step codec) initial)) ↔
      Admitted (ReportedRun.step codec) Harmless initial events := by
  intro initial
  have hstart : Explained retxTimeout initial := explained_start id retxTimeout created
  exact forall_prefix_iff hstart (fun _ hs => hs.real) (fun _ _ hs he => hs.step codec he)
    (fun _ _ _ he => not_real_step codec he) events

/-- The acknowledgement of a packet that a tick resent sets the minimum to zero. -/
theorem minimum_is_zero :
    let initial : ReportedRun true (normalizeWindow 8) := ReportedRun.start 0 200 0
    let events : List Event := [.asyncSend [7] 1 0, .onTick (milliseconds 200),
      .onRecv { type := .ack, ack := 0 } (milliseconds 201)]
    let final := events.foldl (ReportedRun.step DefaultCodec.defaultCodec.toPacketCodec) initial
    final.run.channel.cc.rtProp = 0 ∧ ¬ MinimumIsReal final := by
  intro initial events final
  have hzero : final.run.channel.cc.rtProp = 0 := by decide +kernel
  have hresent : ∀ r ∈ final.reported, r.resent = true := by decide +kernel
  refine ⟨hzero, ?_⟩
  rintro ⟨hinitial | ⟨r, hr, honce, _⟩, _⟩
  · rw [hzero] at hinitial
    cases hinitial
  · rw [hresent r hr] at honce
    cases honce

end Minimum

end ReliableUdp.BandwidthProbing
