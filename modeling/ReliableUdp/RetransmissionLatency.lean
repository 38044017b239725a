import ReliableUdp.RetransmissionSchedule
import ReliableUdp.Session

/-! How late a retransmission can be when the waits on the retransmit timer end in time: less than
one period of the timer, which is at most half the timeout of the channel, and the slack of the
waits. -/
namespace ReliableUdp.RetransmissionLatency
open Protocol ReliableChannel ReliableSender Runs SenderRun SenderHistory RetransmissionSchedule
open Session (SessionConfig ChannelConfig BasicSession)

lemma foldl_min_le {α : Type} (p : α → Prop) [DecidablePred p] (f : α → ℕ) (xs : List α)
    (first : ℕ) :
    xs.foldl (fun smallest x => if p x then min smallest (f x) else smallest) first ≤ first ∧
      ∀ x ∈ xs, p x →
        xs.foldl (fun smallest x => if p x then min smallest (f x) else smallest) first ≤ f x := by
  induction xs generalizing first with
  | nil => exact ⟨le_rfl, by simp⟩
  | cons y ys ih =>
    obtain ⟨hfirst, hall⟩ := ih (if p y then min first (f y) else first)
    rw [List.foldl_cons]
    refine ⟨hfirst.trans ?_, ?_⟩
    · split_ifs
      · exact min_le_left _ _
      · exact le_rfl
    · intro x hx hp
      rcases List.mem_cons.mp hx with rfl | hlater
      · rw [if_pos hp] at hfirst ⊢
        exact hfirst.trans (min_le_right _ _)
      · exact hall x hlater hp

/-- The timeout a reliable channel is created with, in milliseconds. -/
def timeout (cfg : ChannelConfig) : ℕ :=
  if cfg.retxTimeoutMs = 0 then 200 else cfg.retxTimeoutMs.toNat

lemma timeout_pos (cfg : ChannelConfig) : 0 < timeout cfg := by
  unfold timeout
  split_ifs with hzero
  · decide
  · rw [Nat.pos_iff_ne_zero]
    intro h
    exact hzero (BitVec.eq_of_toNat_eq h)

/-- A period of the timer is at most half the timeout of every reliable channel, unless that is
below 20 ms. -/
lemma retransmitTick_le {config : SessionConfig} {cfg : ChannelConfig} (hcfg : cfg ∈ config.channels)
    (hmode : cfg.mode ≠ .unreliableSequenced) :
    2 * BasicSession.retransmitTick config ≤ max 20 (timeout cfg) := by
  obtain ⟨hfirst, hall⟩ := foldl_min_le
    (fun cfg : ChannelConfig => cfg.mode ≠ .unreliableSequenced ∧ cfg.retxTimeoutMs > 0)
    (fun cfg => cfg.retxTimeoutMs.toNat) config.channels 200
  have hsmallest : config.channels.foldl (fun smallest cfg =>
      if cfg.mode ≠ .unreliableSequenced ∧ cfg.retxTimeoutMs > 0 then
        min smallest cfg.retxTimeoutMs.toNat else smallest) 200 ≤ timeout cfg := by
    unfold timeout
    split_ifs with hzero
    · exact hfirst
    · refine hall cfg hcfg ⟨hmode, ?_⟩
      rw [gt_iff_lt, BitVec.lt_def]
      refine Nat.pos_iff_ne_zero.mpr fun h => hzero (BitVec.eq_of_toNat_eq h)
  unfold BasicSession.retransmitTick
  dsimp only
  omega

/-- A run of the sending half with the time of its last tick, or of the start of the timer. -/
structure TickedRun (C : Type) (ordered : Bool) (W : Window) where
  run : SendRun C ordered W
  lastTick : Time

namespace TickedRun

variable {C : Type} {ordered : Bool} {W : Window}

def start (cfg : ChannelConfig) (cc : C) (started : Time) :
    TickedRun C ordered (normalizeWindow cfg.sendWindow) :=
  { run := { channel := .create cfg.reliableOptions cc }, lastTick := started }

def step [CongestionCtrl C] (codec : PacketCodec) (s : TickedRun C ordered W) (e : Event) :
    TickedRun C ordered W :=
  { run := s.run.step codec e
    lastTick := match e with
      | .onTick now => now
      | _ => s.lastTick }

end TickedRun

section Runs
variable {C : Type} {ordered : Bool} {W : Window} {T : ℕ}

/-- The clock does not go back behind a tick, and the next tick comes within a period. -/
def Punctual (period : Time) (s : TickedRun C ordered W) : Event → Prop
  | .asyncSend _ _ now => s.lastTick ≤ now
  | .onTick now => s.lastTick ≤ now ∧ now ≤ s.lastTick + period
  | _ => True

instance (period : Time) (s : TickedRun C ordered W) (e : Event) : Decidable (Punctual period s e) :=
  match e with
  | .asyncSend _ _ now => inferInstanceAs (Decidable (s.lastTick ≤ now))
  | .onTick now => inferInstanceAs (Decidable (s.lastTick ≤ now ∧ now ≤ s.lastTick + period))
  | .sendCompleted .. | .flush | .onRecv .. => .isTrue trivial

structure Ahead (T : ℕ) (s : TickedRun C ordered W) : Prop where
  sound : Sound T s.run
  ahead : ∀ k sp, s.run.channel.sentPackets.get k = some sp → s.lastTick < sp.nextRetx

lemma ahead_start (cfg : ChannelConfig) (cc : C) (started : Time) :
    Ahead (timeout cfg) (TickedRun.start cfg cc started : TickedRun C ordered _) := by
  refine ⟨sound_start cfg.id (timeout cfg) cc, ?_⟩
  intro k sp h
  rw [show (TickedRun.start cfg cc started : TickedRun C ordered _).run.channel.sentPackets.get k =
    none from SlotTable.get_empty _] at h
  cases h

variable [CongestionCtrl C] {codec : PacketCodec} {s : TickedRun C ordered W}

lemma due_after_tick (h : Sound T s.run) (hT : 0 < T) {now : Time} {k : ℕ} {sp' : SentPacket}
    (hget : (s.run.onTick now).channel.sentPackets.get k = some sp') : now < sp'.nextRetx := by
  have hslot := onTick_get s.run.channel now s.run.io k
  rw [show (s.run.channel.onTick now s.run.io).1.sentPackets.get k = some sp' from hget] at hslot
  cases hsp : s.run.channel.sentPackets.get k with
  | none =>
    rw [hsp] at hslot
    cases hslot
  | some sp =>
    rw [hsp] at hslot
    simp only [ticked] at hslot
    split_ifs at hslot with hlater
    · rw [Option.some.inj hslot]
      exact hlater
    · rw [Option.some.inj hslot]
      have hpos : 0 < milliseconds (s.run.channel.retxTimeout *
          2 ^ min (sp.retxCount + 1).toNat 3) := by
        rw [h.timeout]
        unfold milliseconds
        positivity
      exact Nat.lt_add_of_pos_right hpos

theorem Ahead.step (h : Ahead T s) (hT : 0 < T) {period : Time} {e : Event}
    (hg : Punctual period s e) : Ahead T (s.step codec e) := by
  refine ⟨h.sound.step codec e, ?_⟩
  intro k sp' hget
  cases e with
  | asyncSend payload handler now =>
    have hc := sent_cases codec s.run payload handler now
    simp only [TickedRun.step, SendRun.step] at hget ⊢
    generalize s.run.asyncSend codec payload handler now = run at hc hget
    cases hc with
    | refused cc => exact h.ahead k sp' hget
    | wasted cc e he => exact h.ahead k sp' hget
    | stored cc hfree stats hstats d hd =>
      dsimp only at hget
      rw [SlotTable.get_set _ W.pos] at hget
      split_ifs at hget with hslot
      · rw [← Option.some.inj hget]
        have hpos : 0 < milliseconds s.run.channel.retxTimeout := by
          rw [h.sound.timeout]
          unfold milliseconds
          positivity
        exact lt_of_le_of_lt hg (Nat.lt_add_of_pos_right hpos)
      · exact h.ahead k sp' hget
  | sendCompleted position ec now =>
    simp only [TickedRun.step, SendRun.step, SendRun.sendCompleted] at hget ⊢
    split at hget
    · rename_i id sequenceNumber handler _
      rcases sendCompleted_get s.run.channel sequenceNumber handler ec now
        { s.run.io with pending := s.run.io.pending.eraseIdx position } k with he | ⟨_, he, _⟩
      · exact h.ahead k sp' (he ▸ hget)
      · rw [he] at hget
        cases hget
    · exact h.ahead k sp' hget
  | onTick now => exact due_after_tick h.sound hT hget
  | flush => exact h.ahead k sp' hget
  | onRecv packet now =>
    simp only [TickedRun.step, SendRun.step, SendRun.onRecv] at hget ⊢
    by_cases hack : packet.type = .ack
    · rw [Channel.onRecv, if_pos hack, processAck_get] at hget
      cases hsp : s.run.channel.sentPackets.get k with
      | none =>
        rw [hsp] at hget
        cases hget
      | some sp =>
        rw [hsp] at hget
        simp only [acked] at hget
        split_ifs at hget
        exact Option.some.inj hget ▸ h.ahead k sp hsp
    · rw [(onRecv_receiveOnly s.run.channel hack now s.run.io).sender.sentPackets] at hget
      exact h.ahead k sp' hget

theorem ahead_of_reachable {period : Time} {cfg : ChannelConfig} {cc : C} {started : Time}
    {s : TickedRun C ordered (normalizeWindow cfg.sendWindow)}
    (h : Reachable (TickedRun.step codec) (Punctual period) (TickedRun.start cfg cc started) s) :
    Ahead (timeout cfg) s :=
  h.invariant (ahead_start cfg cc started) fun _ _ hs hg => hs.step (timeout_pos cfg) hg

omit [CongestionCtrl C] in
lemma elapsed_lt {now t wait period slack : ℕ} (hwait : 0 < wait)
    (hlate : now < t + wait + (period + slack)) (hperiod : 2 * period ≤ wait) :
    2 * (now - t) < 3 * wait + 2 * slack := by
  omega

/-- In every run of a reliable channel of a session whose ticks follow one another within a period
of the retransmit timer and some slack, a stored packet last sent at `t` and resent `k` times is
resent by the first tick at or after its deadline, less than a period and the slack late; with a
timeout of at least 20 ms and no slack, before one and a half times the backed off timeout has
passed. -/
theorem retransmission_latency (codec : PacketCodec) (config : SessionConfig) (cfg : ChannelConfig)
    (hcfg : cfg ∈ config.channels) (hmode : cfg.mode ≠ .unreliableSequenced) (cc : C)
    (started slack : Time) (s : TickedRun C ordered (normalizeWindow cfg.sendWindow))
    (h : Reachable (TickedRun.step codec)
      (Punctual (milliseconds (BasicSession.retransmitTick config) + slack))
      (TickedRun.start cfg cc started) s)
    (n : ℕ) (t : Time) (hstored : lastSend n s.run.trace = some t) (now : Time)
    (hnow : Punctual (milliseconds (BasicSession.retransmitTick config) + slack) s (.onTick now)) :
    let wait := milliseconds (timeout cfg * 2 ^ min ((resends s.run.trace).count n % 2 ^ 32) 3)
    (n ∈ ((s.run.due now).map datagramOf).map Prod.fst ↔ t + wait ≤ now) ∧
      now < t + wait + (milliseconds (BasicSession.retransmitTick config) + slack) ∧
      (20 ≤ timeout cfg → 2 * (now - t) < 3 * wait + 2 * slack) := by
  intro wait
  have hs := ahead_of_reachable h
  obtain ⟨k, sp, hk, rfl⟩ := hs.sound.live n t hstored
  have htracked := hs.sound.stored k sp hk
  obtain ⟨t', hlast, hdue⟩ := htracked.due
  rw [hstored, Option.some.injEq] at hlast
  subst hlast
  have hwait : sp.nextRetx = t + wait := by
    rw [hdue, htracked.retx, BitVec.toNat_ofNat]
  have hahead := hs.ahead k sp hk
  have hlate : now < t + wait + (milliseconds (BasicSession.retransmitTick config) + slack) := by
    rw [← hwait]
    exact lt_of_le_of_lt hnow.2 (Nat.add_lt_add_right hahead _)
  refine ⟨by rw [hs.sound.mem_due_iff hk, hwait], hlate, ?_⟩
  intro hlong
  have hhalf := retransmitTick_le hcfg hmode
  rw [max_eq_right hlong] at hhalf
  have hperiod : 2 * milliseconds (BasicSession.retransmitTick config) ≤ wait := by
    calc 2 * milliseconds (BasicSession.retransmitTick config)
        = 1000000 * (2 * BasicSession.retransmitTick config) := by
          unfold milliseconds
          ring
      _ ≤ milliseconds (timeout cfg) := Nat.mul_le_mul_left _ hhalf
      _ ≤ wait := Nat.mul_le_mul_left _ (Nat.le_mul_of_pos_right _ (by positivity))
  have hpos := timeout_pos cfg
  exact elapsed_lt (by simp only [wait, milliseconds]; positivity) hlate hperiod

end Runs

/-- A channel with a timeout of 100 ms next to one with the default, so the timer ticks every
50 ms. -/
def twoTimeouts : SessionConfig := { channels := [{ retxTimeoutMs := 100 }, { id := 1 }] }

/-- Sent 29 ms after a tick, due by the third tick after it; every tick is a millisecond late. -/
def lateRun : List Event :=
  [.onTick (milliseconds 51), .asyncSend [7#8] 0 (milliseconds 80), .onTick (milliseconds 102),
    .onTick (milliseconds 153)]

def lateState : TickedRun Null true (normalizeWindow 128) :=
  lateRun.foldl (TickedRun.step DefaultCodec.defaultCodec.toPacketCodec)
    (TickedRun.start { retxTimeoutMs := 100 } {} 0)

theorem retransmission_latency_late :
    BasicSession.retransmitTick twoTimeouts = 50 ∧
      0 ∈ ((lateState.run.due (milliseconds 204)).map datagramOf).map Prod.fst ∧
      2 * (milliseconds 204 - milliseconds 80) < 3 * milliseconds 100 + 2 * milliseconds 1 := by
  have htick : BasicSession.retransmitTick twoTimeouts = 50 := by decide
  have hreach : Reachable (TickedRun.step DefaultCodec.defaultCodec.toPacketCodec)
      (Punctual (milliseconds (BasicSession.retransmitTick twoTimeouts) + milliseconds 1))
      (TickedRun.start { retxTimeoutMs := 100 } {} 0) lateState :=
    reachable_foldl .start lateRun (by decide +kernel)
  have hlatency := retransmission_latency DefaultCodec.defaultCodec.toPacketCodec twoTimeouts
    { retxTimeoutMs := 100 } (by decide) (by decide) {} 0 (milliseconds 1) lateState hreach 0
    (milliseconds 80) (by decide +kernel) (milliseconds 204) (by rw [htick]; decide +kernel)
  have hresends : (resends lateState.run.trace).count 0 = 0 := by decide +kernel
  rw [hresends] at hlatency
  exact ⟨htick, hlatency.1.mpr (by decide), hlatency.2.2 (by decide)⟩

end ReliableUdp.RetransmissionLatency
