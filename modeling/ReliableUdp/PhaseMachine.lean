import ReliableUdp.BandwidthProbing

/-! The phases of `BbrLite` in closed form. The phase after `n` acknowledgements depends only on `n`
and on the first one that reports a positive time; losses touch the cap alone. -/
namespace ReliableUdp.PhaseMachine
open Protocol ReliableChannel SenderRun ControllerCalls BandwidthProbing

inductive Call
  | onAck (now : Time) (rttUs : ℕ)
  | onLoss

def call (b : BbrLite) : Call → BbrLite
  | .onAck now rttUs => b.onAck now rttUs
  | .onLoss => b.onLoss

def after (created : Time) (calls : List Call) : BbrLite :=
  calls.foldl call { rtPropStamp := created }

def Call.rttUs? : Call → Option ℕ
  | .onAck _ rttUs => some rttUs
  | .onLoss => none

/-- What the acknowledgements among the calls report. -/
def acks (calls : List Call) : List ℕ := calls.filterMap Call.rttUs?

/-- The number of the first acknowledgement with a positive report, counted from 1. -/
def firstPositive (rtts : List ℕ) : Option ℕ :=
  (rtts.findIdx? fun r => decide (0 < r)).map (· + 1)

def gainOf : Phase → ℚ
  | .startup => kStartupGain
  | .drain => kDrainGain
  | .probeBw => kProbeBwGain
  | .probeRtt => kSteadyGain

def nextPhase (p : Phase) (positive : Prop) [Decidable positive] (ackCount : ℕ) : Phase :=
  match p with
  | .startup => if positive then .drain else .startup
  | .drain => .probeBw
  | .probeBw => if ackCount % kProbeRttInterval = 0 then .probeRtt else .probeBw
  | .probeRtt => .probeBw

def capOf (p : Phase) (cap : ℕ) : ℕ :=
  match p with
  | .startup => cap
  | .drain => cap
  | .probeBw => maxSize
  | .probeRtt => 4

lemma advancePhase_cases (b : BbrLite) :
    (nextPhase b.phase (0 < b.btlBw) b.ackCount = b.phase ∧ b.advancePhase = b) ∨
      ∃ p, nextPhase b.phase (0 < b.btlBw) b.ackCount = p ∧
        b.advancePhase =
          { b with phase := p, paceGain := gainOf p, inflightCap := capOf p b.inflightCap } := by
  unfold BbrLite.advancePhase nextPhase
  cases hp : b.phase with
  | startup =>
    dsimp only
    split_ifs
    · exact Or.inr ⟨.drain, rfl, rfl⟩
    · exact Or.inl ⟨rfl, rfl⟩
  | drain => exact Or.inr ⟨.probeBw, rfl, rfl⟩
  | probeBw =>
    dsimp only
    split_ifs
    · exact Or.inr ⟨.probeRtt, rfl, rfl⟩
    · exact Or.inl ⟨rfl, rfl⟩
  | probeRtt => exact Or.inr ⟨.probeBw, rfl, rfl⟩

/-- The gain is the one of the phase, the cap is at least four and four while the round trip is
probed. -/
structure Paced (b : BbrLite) : Prop where
  gain : b.paceGain = gainOf b.phase
  cap : 4 ≤ b.inflightCap
  probing : b.phase = .probeRtt → b.inflightCap = 4

variable {b : BbrLite}

lemma four_le_maxSize : 4 ≤ maxSize := by decide

lemma Paced.advancePhase (h : Paced b) : Paced b.advancePhase := by
  rcases advancePhase_cases b with ⟨_, hsame⟩ | ⟨p, _, hnext⟩
  · rw [hsame]
    exact h
  · rw [hnext]
    have hcap : 4 ≤ capOf p b.inflightCap := by
      cases p with
      | startup => exact h.cap
      | drain => exact h.cap
      | probeBw => exact four_le_maxSize
      | probeRtt => exact le_refl 4
    refine { gain := rfl, cap := hcap, probing := ?_ }
    rintro rfl
    rfl

/-- The fields `onAck` measures, before the phase advances. -/
def measured (b : BbrLite) (now : Time) (rttUs : ℕ) : BbrLite :=
  { b with
    rtProp := if rttUs < b.rtProp ∨ b.rtPropExpired now then rttUs else b.rtProp
    rtPropStamp := if rttUs < b.rtProp ∨ b.rtPropExpired now then now else b.rtPropStamp
    btlBw := if rttUs > 0 then max b.btlBw (1000000 / rttUs) else b.btlBw
    ackCount := (b.ackCount + 1) % 2 ^ 64 }

lemma onAck_eq (b : BbrLite) (now : Time) (rttUs : ℕ) :
    b.onAck now rttUs = (measured b now rttUs).advancePhase := by
  unfold BbrLite.onAck measured
  dsimp only
  split_ifs <;> rfl

lemma measured_btlBw_pos (b : BbrLite) (now : Time) (rttUs : ℕ) :
    0 < (measured b now rttUs).btlBw ↔ 0 < b.btlBw ∨ 0 < rttUs := by
  dsimp only [measured]
  split_ifs with hpos
  · have hsample : (0 : ℚ) < 1000000 / rttUs := by positivity
    simp only [lt_max_iff, hsample, gt_iff_lt.mp hpos, or_true]
  · simp only [gt_iff_lt.not.mp hpos, or_false]

lemma Paced.onAck (h : Paced b) (now : Time) (rttUs : ℕ) : Paced (b.onAck now rttUs) := by
  rw [onAck_eq]
  apply Paced.advancePhase
  exact { gain := h.gain, cap := h.cap, probing := h.probing }

lemma Paced.onLoss (h : Paced b) : Paced b.onLoss := by
  refine ⟨h.gain, le_max_left _ _, fun hp => ?_⟩
  have hcap := h.probing hp
  simp [BbrLite.onLoss, hcap]

lemma paced_start (created : Time) : Paced { rtPropStamp := created } :=
  { gain := rfl, cap := four_le_maxSize, probing := by simp }

lemma paced_after (created : Time) (calls : List Call) : Paced (after created calls) := by
  induction calls using List.reverseRecOn with
  | nil => exact paced_start created
  | append_singleton calls c ih =>
    rw [after, List.foldl_concat]
    cases c with
    | onAck now rttUs => exact ih.onAck now rttUs
    | onLoss => exact ih.onLoss

lemma advancePhase_phase (b : BbrLite) :
    b.advancePhase.phase = nextPhase b.phase (0 < b.btlBw) b.ackCount := by
  rcases advancePhase_cases b with ⟨hphase, hsame⟩ | ⟨p, hphase, hnext⟩
  · rw [hsame, hphase]
  · rw [hnext, hphase]

lemma advancePhase_measurements (b : BbrLite) :
    b.advancePhase.ackCount = b.ackCount ∧ b.advancePhase.btlBw = b.btlBw := by
  rcases advancePhase_cases b with ⟨_, hsame⟩ | ⟨p, _, hnext⟩
  · rw [hsame]
    exact ⟨rfl, rfl⟩
  · rw [hnext]
    exact ⟨rfl, rfl⟩

lemma onAck_lifts_cap (h : b.phase = .drain ∨ b.phase = .probeRtt) (now : Time) (rttUs : ℕ) :
    (b.onAck now rttUs).inflightCap = maxSize := by
  rw [onAck_eq]
  have hphase : (measured b now rttUs).phase = b.phase := rfl
  unfold BbrLite.advancePhase
  rw [hphase]
  rcases h with h | h
  · rw [h]
  · rw [h]

/-- The phase after `n` acknowledgements of which the `a`-th is the first with a positive report. -/
def phaseAt (a n : ℕ) : Phase :=
  if n < a then .startup
  else if n = a then .drain
  else if a + 2 ≤ n ∧ n % kProbeRttInterval = 0 then .probeRtt
  else .probeBw

lemma phaseAt_succ (a n : ℕ) : phaseAt a (n + 1) = nextPhase (phaseAt a n) (a ≤ n + 1) (n + 1) := by
  unfold phaseAt
  rcases lt_trichotomy n a with hlt | rfl | hgt
  · rw [if_pos hlt, nextPhase]
    by_cases hnext : n + 1 < a
    · rw [if_pos hnext, if_neg (by omega)]
    · rw [if_neg hnext, if_pos (by omega), if_pos (by omega)]
  · rw [if_neg (by omega), if_neg (by omega), if_neg (by omega), if_neg (by omega), if_pos rfl,
      nextPhase]
  · have hinterval : ¬ (n % kProbeRttInterval = 0 ∧ (n + 1) % kProbeRttInterval = 0) := by
      unfold kProbeRttInterval
      omega
    rw [if_neg (show ¬ n + 1 < a by omega), if_neg (show n + 1 ≠ a by omega),
      if_neg (show ¬ n < a by omega), if_neg hgt.ne']
    by_cases hprobed : a + 2 ≤ n ∧ n % kProbeRttInterval = 0
    · rw [if_pos hprobed, nextPhase, if_neg fun h => hinterval ⟨hprobed.2, h.2⟩]
    · rw [if_neg hprobed, nextPhase]
      apply if_congr _ rfl rfl
      constructor
      · exact And.right
      · exact fun h => ⟨by omega, h⟩

/-- The number of the first positive report, one past the number of reports when there is none. -/
def firstOrNext (rtts : List ℕ) : ℕ := (rtts.findIdx fun r => decide (0 < r)) + 1

lemma firstOrNext_le_iff (rtts : List ℕ) :
    firstOrNext rtts ≤ rtts.length ↔ ∃ r ∈ rtts, 0 < r := by
  rw [firstOrNext, Nat.succ_le_iff, List.findIdx_lt_length]
  simp only [decide_eq_true_eq]

lemma firstPositive_eq_some {rtts : List ℕ} {a : ℕ} (h : firstPositive rtts = some a) :
    firstOrNext rtts = a := by
  rw [firstPositive, Option.map_eq_some_iff] at h
  obtain ⟨i, hi, rfl⟩ := h
  rw [firstOrNext, (List.findIdx?_eq_some_iff_findIdx_eq.mp hi).2]

lemma firstPositive_eq_none {rtts : List ℕ} (h : firstPositive rtts = none) :
    firstOrNext rtts = rtts.length + 1 := by
  rw [firstPositive, Option.map_eq_none_iff, List.findIdx?_eq_none_iff_findIdx_eq] at h
  rw [firstOrNext, h]

lemma phaseAt_congr {before rtts : List ℕ} (h : before <+: rtts) :
    phaseAt (firstOrNext rtts) before.length = phaseAt (firstOrNext before) before.length := by
  have hfirst : firstOrNext before = min (firstOrNext rtts) (before.length + 1) := by
    unfold firstOrNext
    conv_lhs => rw [List.prefix_iff_eq_take.mp h, List.findIdx_take]
    omega
  rw [hfirst]
  by_cases hle : firstOrNext rtts ≤ before.length + 1
  · rw [min_eq_left hle]
  · rw [min_eq_right (by omega), phaseAt, phaseAt, if_pos (by omega), if_pos (by omega)]

structure Follows (b : BbrLite) (rtts : List ℕ) : Prop where
  count : b.ackCount = rtts.length
  positive : 0 < b.btlBw ↔ ∃ r ∈ rtts, 0 < r
  phase : b.phase = phaseAt (firstOrNext rtts) rtts.length

lemma Follows.onAck {rtts : List ℕ} (h : Follows b rtts) (now : Time) {rttUs : ℕ}
    (hlt : (rtts ++ [rttUs]).length < 2 ^ 64) :
    Follows (b.onAck now rttUs) (rtts ++ [rttUs]) := by
  have hlength : (rtts ++ [rttUs]).length = rtts.length + 1 := by simp
  have hcount : (measured b now rttUs).ackCount = rtts.length + 1 := by
    dsimp only [measured]
    rw [h.count, Nat.mod_eq_of_lt (by omega)]
  have hpositive : 0 < (measured b now rttUs).btlBw ↔ ∃ r ∈ rtts ++ [rttUs], 0 < r := by
    rw [measured_btlBw_pos, h.positive]
    simp only [List.mem_append, List.mem_singleton, or_and_right, exists_or, exists_eq_left]
  obtain ⟨hsameCount, hsameBw⟩ := advancePhase_measurements (measured b now rttUs)
  rw [onAck_eq]
  refine ⟨by rw [hsameCount, hcount, hlength], by rw [hsameBw, hpositive], ?_⟩
  have hbefore : (measured b now rttUs).phase =
      phaseAt (firstOrNext (rtts ++ [rttUs])) rtts.length := by
    rw [phaseAt_congr (List.prefix_append rtts [rttUs])]
    exact h.phase
  have hreached := firstOrNext_le_iff (rtts ++ [rttUs])
  rw [advancePhase_phase, hbefore, hcount, hlength, phaseAt_succ]
  simp only [hpositive, ← hreached, hlength]

lemma Follows.onLoss {rtts : List ℕ} (h : Follows b rtts) : Follows b.onLoss rtts :=
  { count := h.count, positive := h.positive, phase := h.phase }

lemma follows_start (created : Time) : Follows { rtPropStamp := created } [] :=
  { count := rfl, positive := by simp, phase := rfl }

lemma acks_concat (calls : List Call) (c : Call) :
    acks (calls ++ [c]) = acks calls ++ c.rttUs?.toList := by
  cases c <;> simp [acks, Call.rttUs?]

lemma follows_after (created : Time) (calls : List Call) (h : (acks calls).length < 2 ^ 64) :
    Follows (after created calls) (acks calls) := by
  induction calls using List.reverseRecOn with
  | nil => exact follows_start created
  | append_singleton calls c ih =>
    rw [acks_concat, List.length_append] at h
    have hbefore := ih (by omega)
    rw [after, List.foldl_concat, acks_concat]
    cases c with
    | onAck now rttUs => exact hbefore.onAck now (by simpa [Call.rttUs?] using h)
    | onLoss =>
      rw [show Call.onLoss.rttUs?.toList = [] from rfl, List.append_nil]
      exact hbefore.onLoss

lemma acks_mono {before calls : List Call} (h : before <+: calls) : acks before <+: acks calls :=
  h.filterMap _

/-- The phase after `n` acknowledgements, where the `a`-th is the first with a positive report; the
gain is the one of the phase, and losses never take the cap below four. -/
theorem phase_machine (created : Time) (calls : List Call) (h : (acks calls).length < 2 ^ 64)
    (before : List Call) (hb : before <+: calls) :
    let b := after created before
    let n := (acks before).length
    (∀ a, firstPositive (acks calls) = some a →
        (n < a → b.phase = .startup) ∧ (n = a → b.phase = .drain) ∧
          (n = a + 1 → b.phase = .probeBw) ∧
          (a + 2 ≤ n → b.phase = if 200 ∣ n then .probeRtt else .probeBw)) ∧
      (firstPositive (acks calls) = none → b.phase = .startup) ∧
      b.paceGain = gainOf b.phase ∧
      4 ≤ b.inflightCap ∧ (b.phase = .probeRtt → b.inflightCap = 4) ∧
      ((b.phase = .drain ∨ b.phase = .probeRtt) →
        ∀ now rttUs, (b.onAck now rttUs).inflightCap = maxSize) := by
  intro b n
  have hpre := acks_mono hb
  have hpaced : Paced b := paced_after created before
  have hphase : b.phase = phaseAt (firstOrNext (acks calls)) n := by
    rw [phaseAt_congr hpre]
    exact (follows_after created before (hpre.length_le.trans_lt h)).phase
  refine ⟨fun a ha => ?_, fun hnone => ?_, hpaced.gain, hpaced.cap, hpaced.probing,
    onAck_lifts_cap⟩
  · rw [hphase, firstPositive_eq_some ha, phaseAt]
    refine ⟨fun hn => if_pos hn, fun hn => ?_, fun hn => ?_, fun hn => ?_⟩
    · rw [if_neg (by omega), if_pos hn]
    · rw [if_neg (by omega), if_neg (by omega), if_neg (by omega)]
    · rw [if_neg (by omega), if_neg (by omega)]
      apply if_congr _ rfl rfl
      rw [and_iff_right hn, Nat.dvd_iff_mod_eq_zero, kProbeRttInterval]
  · rw [hphase, firstPositive_eq_none hnone, phaseAt]
    exact if_pos (Nat.lt_succ_of_le hpre.length_le)

/-- A loss after the two hundredth acknowledgement, while the round trip is probed. -/
theorem phase_machine_probing :
    let calls := List.replicate 200 (.onAck 0 100) ++ [.onLoss]
    (after 0 calls).phase = .probeRtt ∧ (after 0 calls).inflightCap = 4 := by
  intro calls
  have hmachine := phase_machine 0 calls (by decide +kernel) calls (List.prefix_refl calls)
  have hlength : 200 ∣ (acks calls).length := by decide +kernel
  have hphase : (after 0 calls).phase = .probeRtt :=
    ((hmachine.1 1 (by decide +kernel)).2.2.2 (by decide +kernel)).trans (if_pos hlength)
  exact ⟨hphase, hmachine.2.2.2.2.1 hphase⟩

end ReliableUdp.PhaseMachine
