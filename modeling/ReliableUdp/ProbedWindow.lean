import ReliableUdp.DefaultCodec
import ReliableUdp.PhaseMachine

/-! The send window of `BbrLite` in closed form. The bandwidth is one packet per smallest round
trip, so the window stays at four or five packets while the minimum round trip is never renewed. -/
namespace ReliableUdp.ProbedWindow
open Protocol ReliableChannel ReliableSender Runs SenderRun ControllerCalls BandwidthProbing
open PhaseMachine

section Controller
variable {b : BbrLite} {rtts : List ℕ}

/-- The bandwidth is the one of the smallest positive report, zero before the first. -/
structure Rated (b : BbrLite) (rtts : List ℕ) : Prop where
  bound : ∀ r ∈ rtts, 0 < r → 1000000 / (r : ℚ) ≤ b.btlBw
  attained : (b.btlBw = 0 ∧ ∀ r ∈ rtts, r = 0) ∨ ∃ r ∈ rtts, 0 < r ∧ b.btlBw = 1000000 / (r : ℚ)

lemma measured_btlBw (b : BbrLite) (now : Time) (rttUs : ℕ) :
    (b.onAck now rttUs).btlBw =
      if rttUs > 0 then max b.btlBw (1000000 / rttUs) else b.btlBw := by
  rw [onAck_eq, (advancePhase_measurements _).2]
  rfl

lemma Rated.onAck (h : Rated b rtts) (now : Time) (rttUs : ℕ) :
    Rated (b.onAck now rttUs) (rtts ++ [rttUs]) := by
  have hmem : ∀ r, r ∈ rtts ++ [rttUs] ↔ r ∈ rtts ∨ r = rttUs := by simp
  refine ⟨?_, ?_⟩
  · intro r hr hpos
    rw [measured_btlBw]
    rcases (hmem r).mp hr with hr | rfl
    · have hold := h.bound r hr hpos
      split_ifs
      · exact le_max_of_le_left hold
      · exact hold
    · rw [if_pos hpos]
      exact le_max_right _ _
  · rw [measured_btlBw]
    rcases Nat.eq_zero_or_pos rttUs with rfl | hpos
    · rw [if_neg (lt_irrefl 0)]
      rcases h.attained with ⟨hzero, hall⟩ | ⟨r, hr, hattained⟩
      · refine Or.inl ⟨hzero, fun r hr => ?_⟩
        exact ((hmem r).mp hr).elim (hall r) id
      · exact Or.inr ⟨r, List.mem_append_left _ hr, hattained⟩
    · rw [if_pos hpos]
      rcases le_total b.btlBw (1000000 / (rttUs : ℚ)) with hle | hle
      · exact Or.inr ⟨rttUs, (hmem rttUs).mpr (Or.inr rfl), hpos, max_eq_right hle⟩
      · rw [max_eq_left hle]
        rcases h.attained with ⟨hzero, _⟩ | ⟨r, hr, hattained⟩
        · have hsample : (0 : ℚ) < 1000000 / rttUs := by positivity
          rw [hzero] at hle
          exact absurd hle (not_le.mpr hsample)
        · exact Or.inr ⟨r, List.mem_append_left _ hr, hattained⟩

lemma rated_after (created : Time) (calls : List Call) : Rated (after created calls) (acks calls) := by
  induction calls using List.reverseRecOn with
  | nil => exact ⟨by simp [acks], Or.inl ⟨rfl, by simp [acks]⟩⟩
  | append_singleton calls c ih =>
    rw [after, List.foldl_concat, acks_concat]
    cases c with
    | onAck now rttUs => exact ih.onAck now rttUs
    | onLoss =>
      simp only [Call.rttUs?, Option.toList_none, List.append_nil]
      exact ⟨ih.bound, ih.attained⟩

lemma Rated.btlBw_eq (h : Rated b rtts) {m : ℕ} (hm : m ∈ rtts) (hpos : 0 < m)
    (hleast : ∀ r ∈ rtts, 0 < r → m ≤ r) : b.btlBw = 1000000 / (m : ℚ) := by
  rcases h.attained with ⟨_, hall⟩ | ⟨r, hr, hrpos, hattained⟩
  · have hzero := hall m hm
    omega
  · refine le_antisymm ?_ (h.bound m hm hpos)
    rw [hattained]
    have hle : (m : ℚ) ≤ r := by exact_mod_cast hleast r hr hrpos
    have hmpos : (0 : ℚ) < m := by exact_mod_cast hpos
    gcongr

lemma halved_cap (cap k : ℕ) : max 4 (max 4 (cap / 2 ^ k) / 2) = max 4 (cap / 2 ^ (k + 1)) := by
  have hdiv : cap / 2 ^ (k + 1) = cap / 2 ^ k / 2 := by
    rw [pow_succ, Nat.div_div_eq_div_mul]
  rw [hdiv]
  omega

lemma lifted_cap : max 4 (maxSize / 2 ^ 0) = maxSize := by
  rw [pow_zero, Nat.div_one]
  exact max_eq_right four_le_maxSize

/-- The controller next to the losses since an acknowledgement last lifted its cap. -/
structure Counted where
  b : BbrLite
  losses : ℕ

def Counted.call (s : Counted) : Call → Counted
  | .onAck now rttUs =>
    { b := s.b.onAck now rttUs
      losses := if s.b.phase = .drain ∨ s.b.phase = .probeRtt then 0 else s.losses }
  | .onLoss => { b := s.b.onLoss, losses := s.losses + 1 }

def counted (created : Time) (calls : List Call) : Counted :=
  calls.foldl Counted.call { b := { rtPropStamp := created }, losses := 0 }

lemma counted_b (created : Time) (calls : List Call) : (counted created calls).b = after created calls := by
  induction calls using List.reverseRecOn with
  | nil => rfl
  | append_singleton calls c ih =>
    rw [counted, after, List.foldl_concat, List.foldl_concat, ← counted, ← after, ← ih]
    cases c <;> rfl

/-- Every loss since the last lift halved the cap. -/
def Halved (s : Counted) : Prop :=
  s.b.phase ≠ .probeRtt → s.b.inflightCap = max 4 (maxSize / 2 ^ s.losses)

lemma Halved.onLoss {s : Counted} (h : Halved s) : Halved (s.call .onLoss) := by
  intro hphase
  have hcap := h hphase
  simp only [Counted.call, BbrLite.onLoss]
  rw [hcap, halved_cap]

lemma Halved.onAck {s : Counted} (h : Halved s) (now : Time) (rttUs : ℕ) :
    Halved (s.call (.onAck now rttUs)) := by
  have hphase : (measured s.b now rttUs).phase = s.b.phase := rfl
  have hcap : (measured s.b now rttUs).inflightCap = s.b.inflightCap := rfl
  unfold Halved
  simp only [Counted.call]
  rw [onAck_eq]
  unfold BbrLite.advancePhase
  rw [hphase]
  cases hs : s.b.phase with
  | startup =>
    have hold := h (by rw [hs]; simp)
    dsimp only
    split_ifs with hpos hlift
    · simp at hlift
    · exact fun _ => hold
    · simp_all
    · exact fun _ => hold
  | drain =>
    intro _
    rw [if_pos (Or.inl rfl), lifted_cap]
  | probeBw =>
    have hold := h (by rw [hs]; simp)
    dsimp only
    split_ifs with hround hlift
    · simp at hlift
    · exact fun hne => absurd rfl hne
    · simp_all
    · exact fun _ => hold
  | probeRtt =>
    intro _
    rw [if_pos (Or.inr rfl), lifted_cap]

lemma halved_counted (created : Time) (calls : List Call) : Halved (counted created calls) := by
  induction calls using List.reverseRecOn with
  | nil =>
    intro _
    exact lifted_cap.symm
  | append_singleton calls c ih =>
    rw [counted, List.foldl_concat]
    cases c with
    | onAck now rttUs => exact ih.onAck now rttUs
    | onLoss => exact ih.onLoss

/-- In every run of calls the window is four before the first positive report. After it the
bandwidth is one packet in the smallest round trip ever reported, and the window four packets more
than the gain of the phase times the ratio of the current minimum round trip to the
smallest one ever reported, under a cap that every loss since its last lift halved. -/
theorem window_closed_form (created : Time) (calls : List Call) :
    ((∀ r ∈ acks calls, r = 0) → (after created calls).sendWindow = 4) ∧
      (∀ m ∈ acks calls, 0 < m → (∀ r ∈ acks calls, 0 < r → m ≤ r) →
        (after created calls).btlBw = 1000000 / (m : ℚ) ∧
          (after created calls).sendWindow =
            min ((gainOf (after created calls).phase *
              ((after created calls).rtProp / (m : ℚ))).floor.toNat + 4)
              (after created calls).inflightCap) ∧
      (after created calls).inflightCap =
        if (after created calls).phase = .probeRtt then 4
        else max 4 (maxSize / 2 ^ (counted created calls).losses) := by
  have hrated := rated_after created calls
  have hpaced := paced_after created calls
  refine ⟨?_, ?_, ?_⟩
  · intro hall
    rcases hrated.attained with ⟨hzero, _⟩ | ⟨r, hr, hpos, _⟩
    · have hfloor : (0 : ℚ).floor.toNat = 0 := rfl
      unfold BbrLite.sendWindow
      simp only [hzero, zero_mul, hfloor]
      exact min_eq_left hpaced.cap
    · have hrzero := hall r hr
      omega
  · intro m hm hpos hleast
    have hbw := hrated.btlBw_eq hm hpos hleast
    have hm0 : (m : ℚ) ≠ 0 := by exact_mod_cast hpos.ne'
    refine ⟨hbw, ?_⟩
    unfold BbrLite.sendWindow
    dsimp only
    rw [hbw, hpaced.gain]
    have hproduct : 1000000 / (m : ℚ) * ((after created calls).rtProp / 1000000) *
        gainOf (after created calls).phase =
        gainOf (after created calls).phase * ((after created calls).rtProp / (m : ℚ)) := by
      field_simp
    rw [hproduct]
  · split_ifs with hphase
    · exact hpaced.probing hphase
    · have hhalved := halved_counted created calls
      rw [Halved, counted_b] at hhalved
      exact hhalved hphase

/-- Two samples and a loss. -/
theorem window_closed_form_lossy :
    let calls : List Call := [.onAck 0 100, .onAck 1 200, .onLoss]
    (after 0 calls).sendWindow = 5 ∧ (after 0 calls).btlBw = 1000000 / ((100 : ℕ) : ℚ) ∧
      (after 0 calls).sendWindow = min ((gainOf (after 0 calls).phase *
        ((after 0 calls).rtProp / ((100 : ℕ) : ℚ))).floor.toNat + 4) (after 0 calls).inflightCap := by
  intro calls
  exact ⟨by decide +kernel, (window_closed_form 0 calls).2.1 100 (by decide) (by decide)
    (by decide)⟩

/-- The bandwidth-delay product is at most one packet, and startup ends with the first sample. -/
structure Tight (b : BbrLite) : Prop where
  product : b.btlBw * b.rtProp ≤ 1000000
  unmeasured : b.phase = .startup → b.btlBw = 0
  nonneg : 0 ≤ b.btlBw

lemma Tight.onAck (h : Tight b) {now : Time} (hfresh : b.rtPropExpired now = false) (rttUs : ℕ) :
    Tight (b.onAck now rttUs) := by
  have hprop : (b.onAck now rttUs).rtProp = min b.rtProp rttUs := by
    rw [onAck_rtProp, hfresh]
    simp only [Bool.false_eq_true, or_false]
    split_ifs with hlt
    · exact (min_eq_right hlt.le).symm
    · exact (min_eq_left (not_lt.mp hlt)).symm
  have hbw := measured_btlBw b now rttUs
  have hnonneg : 0 ≤ (b.onAck now rttUs).btlBw := by
    rw [hbw]
    split_ifs
    · exact le_max_of_le_left h.nonneg
    · exact h.nonneg
  refine ⟨?_, ?_, hnonneg⟩
  · have hold : b.btlBw * (min b.rtProp rttUs : ℕ) ≤ 1000000 := by
      refine (mul_le_mul_of_nonneg_left ?_ h.nonneg).trans h.product
      exact_mod_cast min_le_left _ _
    rw [hprop, hbw]
    split_ifs with hpos
    · have hr : (0 : ℚ) < rttUs := by exact_mod_cast hpos
      have hnew : 1000000 / (rttUs : ℚ) * (min b.rtProp rttUs : ℕ) ≤ 1000000 := by
        rw [div_mul_eq_mul_div, div_le_iff₀ hr]
        refine mul_le_mul_of_nonneg_left ?_ (by norm_num)
        exact_mod_cast min_le_right _ _
      rcases max_choice b.btlBw (1000000 / (rttUs : ℚ)) with hmax | hmax
      · rw [hmax]
        exact hold
      · rw [hmax]
        exact hnew
    · exact hold
  · intro hphase
    rw [onAck_eq] at hphase ⊢
    rw [advancePhase_phase] at hphase
    rw [(advancePhase_measurements _).2]
    unfold nextPhase at hphase
    split at hphase
    · split_ifs at hphase with hpositive
      refine le_antisymm (not_lt.mp hpositive) ?_
      have hsame := hnonneg
      rw [onAck_eq, (advancePhase_measurements _).2] at hsame
      exact hsame
    · cases hphase
    · split_ifs at hphase
    · cases hphase

lemma fresh_onAck {now : Time} (hfresh : b.rtPropExpired now = false) (rttUs : ℕ) :
    (b.onAck now rttUs).rtPropExpired now = false := by
  have hstamp : (b.onAck now rttUs).rtPropStamp =
      if rttUs < b.rtProp ∨ b.rtPropExpired now then now else b.rtPropStamp := by
    rw [onAck_eq]
    rcases advancePhase_cases (measured b now rttUs) with ⟨_, hsame⟩ | ⟨p, _, hnext⟩
    · rw [hsame]
      rfl
    · rw [hnext]
      rfl
  unfold BbrLite.rtPropExpired at hfresh ⊢
  rw [hstamp]
  split_ifs
  · simp
  · exact hfresh

lemma Tight.sendWindow_le (h : Tight b) (hpaced : Paced b) : b.sendWindow ≤ 5 := by
  have hgain : b.btlBw * (b.rtProp / 1000000) * b.paceGain ≤ 5 / 4 := by
    have hproduct : b.btlBw * (b.rtProp / 1000000) ≤ 1 := by
      have hp := h.product
      rw [← mul_div_assoc, div_le_one (by norm_num)]
      exact hp
    have hpos : 0 ≤ b.btlBw * (b.rtProp / 1000000) := by
      have hn := h.nonneg
      positivity
    rw [hpaced.gain]
    cases hphase : b.phase with
    | startup =>
      rw [h.unmeasured hphase]
      norm_num
    | drain =>
      simp only [gainOf, kDrainGain]
      linarith
    | probeBw =>
      simp only [gainOf, kProbeBwGain]
      linarith
    | probeRtt =>
      simp only [gainOf, kSteadyGain]
      linarith
  have hfloor : (b.btlBw * (b.rtProp / 1000000) * b.paceGain).floor < 2 := by
    rw [Rat.floor_lt_iff]
    norm_num
    linarith
  refine (min_le_left _ _).trans ?_
  omega

end Controller

section Channel
variable {ordered : Bool} {W : Window}

lemma inFlight_step {C : Type} [CongestionCtrl C] (codec : PacketCodec) {s : SendRun C ordered W}
    {N : ℕ} (hwindow : ∀ now, (s.channel.effectiveSendWindow now).1 ≤ N)
    (h : s.channel.inFlightCount ≤ N) (e : Event) : (s.step codec e).channel.inFlightCount ≤ N := by
  cases e with
  | asyncSend payload handler now =>
    have hcases := asyncSend_cases s.channel codec payload handler now s.io
    have hroom := hwindow now
    simp only [SendRun.step, SendRun.asyncSend]
    generalize s.channel.asyncSend codec payload handler now s.io = r at hcases ⊢
    cases hcases with
    | refused cc hfull => exact h
    | unencodable cc hlt hempty => exact h
    | collided cc hlt old hold => exact h
    | stored cc hlt hfree stats d hd hne => exact hlt.trans_le hroom
  | sendCompleted position ec now =>
    simp only [SendRun.step, SendRun.sendCompleted]
    split
    · rename_i ch sequenceNumber handler _
      have herase : (s.channel.eraseSentPacket sequenceNumber).inFlightCount ≤ N := by
        unfold Channel.eraseSentPacket
        split
        · exact h
        · split_ifs
          · exact h
          · exact (Nat.sub_le _ _).trans h
      unfold Channel.sendCompleted
      split_ifs
      · exact herase
      · exact h
    · exact h
  | onTick now => exact h
  | flush => exact h
  | onRecv packet now =>
    simp only [SendRun.step, SendRun.onRecv]
    by_cases hack : packet.type = .ack
    · rw [Channel.onRecv, if_pos hack, processAck_inFlightCount]
      exact (Nat.sub_le _ _).trans h
    · rw [(onRecv_receiveOnly s.channel hack now s.io).sender.inFlightCount]
      exact h

/-- No acknowledgement arrives more than ten seconds after the minimum round trip was set. -/
def Unexpired (s : SendRun BbrLite ordered W) : Event → Prop
  | .onRecv packet now => packet.type = .ack → s.channel.cc.rtPropExpired now = false
  | _ => True

instance (s : SendRun BbrLite ordered W) (e : Event) : Decidable (Unexpired s e) :=
  match e with
  | .onRecv _ _ => inferInstanceAs (Decidable (_ → _))
  | .asyncSend _ _ _ | .sendCompleted _ _ _ | .onTick _ | .flush => .isTrue trivial

lemma tight_step (codec : PacketCodec) {s : SendRun BbrLite ordered W}
    (h : Tight s.channel.cc ∧ Paced s.channel.cc) {e : Event} (he : Unexpired s e) :
    Tight (s.step codec e).channel.cc ∧ Paced (s.step codec e).channel.cc := by
  have hsending : ∀ now, KeptBySending (fun b : BbrLite => Tight b ∧ Paced b) now := fun now =>
    { onLoss := fun _ _ hb => ⟨⟨hb.1.product, hb.1.unmeasured, hb.1.nonneg⟩, hb.2.onLoss⟩
      sendWindow := fun _ hb => hb }
  cases e with
  | onRecv packet now =>
    simp only [SendRun.step, SendRun.onRecv, onRecv_cc]
    split_ifs with hack
    · have hfold : ∀ sps : List SentPacket, ∀ b : BbrLite,
          Tight b ∧ Paced b → b.rtPropExpired now = false →
          Tight (sps.foldl (fun cc sp => CongestionCtrl.onAck cc now sp.sequenceNumber
            (rttUs now sp)) b) ∧
          Paced (sps.foldl (fun cc sp => CongestionCtrl.onAck cc now sp.sequenceNumber
            (rttUs now sp)) b) := by
        intro sps
        induction sps with
        | nil => exact fun b hb _ => hb
        | cons sp sps ih =>
          intro b hb hfresh
          exact ih _ ⟨hb.1.onAck hfresh _, hb.2.onAck now _⟩ (fresh_onAck hfresh _)
      exact hfold _ _ h (he hack)
    · exact h
  | asyncSend payload handler now =>
    exact KeptBySending.step codec (P := fun b : BbrLite => Tight b ∧ Paced b) h (by simp)
      fun now _ => hsending now
  | sendCompleted position ec now =>
    exact KeptBySending.step codec (P := fun b : BbrLite => Tight b ∧ Paced b) h (by simp)
      fun now _ => hsending now
  | onTick now =>
    exact KeptBySending.step codec (P := fun b : BbrLite => Tight b ∧ Paced b) h (by simp)
      fun now _ => hsending now
  | flush => exact h

/-- Whatever its window and the sizes of the round trips, a channel under `BbrLite` never has more
than five packets in flight while no acknowledgement finds the minimum round trip expired. -/
theorem five_in_flight (codec : PacketCodec) (id : Byte) (retxTimeout : ℕ) (created : Time)
    (events : List Event)
    (h : Admitted (SendRun.step codec) Unexpired
      (SendRun.start id retxTimeout { rtPropStamp := created } : SendRun BbrLite ordered W) events) :
    (events.foldl (SendRun.step codec) (SendRun.start id retxTimeout { rtPropStamp := created } :
      SendRun BbrLite ordered W)).channel.inFlightCount ≤ 5 := by
  have hstart : Tight ({ rtPropStamp := created } : BbrLite) :=
    ⟨by simp, fun _ => rfl, le_refl 0⟩
  have hrun := (reachable_foldl .start events h).invariant
    (P := fun s => (Tight s.channel.cc ∧ Paced s.channel.cc) ∧ s.channel.inFlightCount ≤ 5)
    ⟨⟨hstart, paced_start created⟩, Nat.zero_le 5⟩ ?_
  · exact hrun.2
  · intro s e hs he
    refine ⟨tight_step codec hs.1 he, inFlight_step codec ?_ hs.2 e⟩
    intro now
    have hwindow : s.channel.cc.sendWindow ≤ 5 := hs.1.1.sendWindow_le hs.1.2
    unfold Channel.effectiveSendWindow
    exact max_le (by norm_num) ((min_le_right _ _).trans hwindow)

/-- Four packets, an Ack for each of the first two, and four more packets. -/
def probingRun : List Event :=
  [.asyncSend [1#8] 0 0, .asyncSend [2#8] 1 0, .asyncSend [3#8] 2 0, .asyncSend [4#8] 3 0,
    .onRecv { type := .ack, ack := 0 } 1000000, .onRecv { type := .ack, ack := 1 } 2000000,
    .asyncSend [5#8] 4 2000000, .asyncSend [6#8] 5 2000000, .asyncSend [7#8] 6 2000000,
    .asyncSend [8#8] 7 2000000]

def probingState : SendRun BbrLite true (normalizeWindow 128) :=
  probingRun.foldl (SendRun.step DefaultCodec.defaultCodec.toPacketCodec)
    (SendRun.start 0 200 { rtPropStamp := 0 })

theorem five_in_flight_probing :
    probingState.allocated = 7 ∧ probingState.channel.inFlightCount ≤ 5 := by
  have hadmitted : Admitted (SendRun.step DefaultCodec.defaultCodec.toPacketCodec) Unexpired
      (SendRun.start 0 200 { rtPropStamp := 0 } : SendRun BbrLite true (normalizeWindow 128))
      probingRun := by decide +kernel
  exact ⟨by decide +kernel, five_in_flight _ 0 200 0 probingRun hadmitted⟩

end Channel
end ReliableUdp.ProbedWindow
