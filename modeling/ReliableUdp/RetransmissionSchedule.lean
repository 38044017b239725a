import ReliableUdp.SendStore

/-! When ticks resend a packet: exactly once its deadline has come, which lies the timeout after
it was stored and, after every resend, the doubled timeout, at most eightfold, after that. -/
namespace ReliableUdp.RetransmissionSchedule
open Protocol DefaultCodec ChannelCommon ReliableChannel ReliableSender Runs SenderRun
  SenderHistory SendStore

/-- The deadline of a packet last sent at `t` and resent `k` times since it was stored. -/
def deadline (retxTimeout : ℕ) (t : Time) (k : ℕ) : Time :=
  t + milliseconds (retxTimeout * 2 ^ min k 3)

section Due
variable {C : Type} {ordered : Bool} {W : Window} {T : ℕ} {s : SendRun C ordered W}

/-- The packets a tick resends are those in the store whose deadline has come. The counter of
the code keeps the number of resends modulo 2^32. -/
theorem mem_due_iff_deadline (h : Sound T s) (now : Time) (n : ℕ) :
    n ∈ ((s.due now).map datagramOf).map Prod.fst ↔
      ∃ t, lastSend n s.trace = some t ∧
        deadline T t ((resends s.trace).count n % 2 ^ 32) ≤ now := by
  have hretx : ∀ k sp, s.channel.sentPackets.get k = some sp →
      sp.retxCount.toNat = (resends s.trace).count (s.owner (k % W.size)) % 2 ^ 32 := by
    intro k sp hk
    rw [(h.stored k sp hk).retx, BitVec.toNat_ofNat]
  constructor
  · intro hn
    obtain ⟨k, sp, hk, rfl, hdue⟩ := due_live hn
    obtain ⟨t, hlast, hnext⟩ := (h.stored k sp hk).due
    rw [hnext, hretx k sp hk] at hdue
    exact ⟨t, hlast, hdue⟩
  · rintro ⟨t, hlast, hdue⟩
    obtain ⟨k, sp, hk, rfl⟩ := h.live n t hlast
    obtain ⟨t', hlast', hnext⟩ := (h.stored k sp hk).due
    rw [hlast] at hlast'
    rw [h.mem_due_iff hk, hnext, hretx k sp hk, ← Option.some.inj hlast']
    exact hdue

lemma not_mem_due_of_dropped (h : Sound T s) (now : Time) {n : ℕ} (hn : n ∈ dropped s.trace) :
    n ∉ ((s.due now).map datagramOf).map Prod.fst := by
  rw [mem_due_iff_deadline h]
  rintro ⟨t, hlast, _⟩
  rw [h.gone n hn] at hlast
  cases hlast

lemma nodup_due (h : Sound T s) (now : Time) :
    (((s.due now).map datagramOf).map Prod.fst).Nodup := by
  have hmap : ((s.due now).map datagramOf).map Prod.fst = (s.due now).map Prod.fst := by
    rw [List.map_map]
    rfl
  rw [hmap]
  exact h.distinct.nodup.sublist (List.filter_sublist.map Prod.fst)

end Due

/-- A tick resent the packets that were due, each once, and none that had left the store. -/
structure OnTime (T : ℕ) (before : List Mark) (now : Time) (resent : List ℕ) : Prop where
  once : resent.Nodup
  due : ∀ n, n ∈ resent ↔ ∃ t, lastSend n before = some t ∧
    deadline T t ((resends before).count n % 2 ^ 32) ≤ now
  present : ∀ n ∈ dropped before, n ∉ resent

def Scheduled (T : ℕ) (trace : List Mark) : Prop :=
  ∀ before now resent after, trace = before ++ .tick now resent :: after →
    OnTime T before now (resent.map Prod.fst)

lemma Scheduled.concat {T : ℕ} {trace : List Mark} (h : Scheduled T trace) {m : Mark}
    (hm : ∀ now resent, m = .tick now resent → OnTime T trace now (resent.map Prod.fst)) :
    Scheduled T (trace ++ [m]) := by
  intro before now resent after he
  rcases List.append_eq_append_iff.mp he with ⟨mid, hbefore, hrest⟩ | ⟨mid, htrace, hrest⟩
  · cases mid with
    | nil =>
      rw [List.append_nil] at hbefore
      rw [hbefore]
      exact hm now resent (List.cons.inj hrest).1
    | cons x mid => simp at hrest
  · cases mid with
    | nil =>
      rw [List.append_nil] at htrace
      rw [← htrace]
      exact hm now resent (List.cons.inj hrest).1.symm
    | cons x mid =>
      obtain ⟨rfl, _⟩ := List.cons.inj hrest
      exact h before now resent mid htrace

section Runs
variable {C : Type} [CongestionCtrl C] {ordered : Bool} {W : Window} {T : ℕ}
  {codec : PacketCodec} {s : SendRun C ordered W}

theorem Scheduled.step (h : Scheduled T s.trace) (hs : Sound T s) (e : Event) :
    Scheduled T (s.step codec e).trace := by
  cases e with
  | asyncSend payload handler now =>
    have hc := sent_cases codec s payload handler now
    simp only [SendRun.step]
    generalize s.asyncSend codec payload handler now = s' at hc ⊢
    cases hc with
    | refused cc => exact h
    | wasted cc e he => exact h
    | stored cc hfree stats hstats d hd => exact h.concat fun _ _ he => by cases he
  | sendCompleted position ec now =>
    simp only [SendRun.step, SendRun.sendCompleted]
    split
    · exact h.concat fun _ _ he => by cases he
    · exact h
  | onTick now =>
    refine h.concat fun now' resent he => ?_
    obtain ⟨rfl, rfl⟩ := Mark.tick.inj he
    exact ⟨nodup_due hs now, mem_due_iff_deadline hs now, fun n => not_mem_due_of_dropped hs now⟩
  | flush => exact h.concat fun _ _ he => by cases he
  | onRecv packet now => exact h.concat fun _ _ he => by cases he

theorem scheduled_of_reachable {guard : SendRun C ordered W → Event → Prop} {id : Byte} {cc : C}
    (h : Reachable (SendRun.step codec) guard (SendRun.start id T cc) s) :
    Scheduled T s.trace := by
  induction h with
  | start =>
    intro before now resent after he
    simp [SendRun.start] at he
  | step prior e _ ih => exact ih.step (sound_of_reachable prior) e

lemma onTick_onLoss (h : Sound T s) (now : Time) :
    (s.onTick now).channel.cc = (((s.due now).map datagramOf).map Prod.fst).foldl
      (fun cc n => CongestionCtrl.onLoss cc now (wire n)) s.channel.cc := by
  have hseq : (dueAt s.channel now).map SentPacket.sequenceNumber =
      (((s.due now).map datagramOf).map Prod.fst).map wire := by
    rw [← due_packets, List.map_map, List.map_map, List.map_map]
    apply List.map_congr_left
    intro p hp
    obtain ⟨k, hk, ho⟩ := (mem_indexed W.pos).mp (List.mem_of_mem_filter hp)
    simp only [Function.comp_apply, datagramOf, ← ho]
    exact (h.stored k p.2 hk).seq
  have hcc := onTick_cc s.channel now s.io
  rw [hseq, List.foldl_map] at hcc
  exact hcc

/-- Every tick of a run resends exactly the packets in the store whose deadline has come, counted
from when they were stored or last resent with the doubling capped at eight, each at most once and
none that was acknowledged or erased; `packetsLost_` counts these resends, and each is reported to
the congestion controller once. -/
theorem retransmission_schedule (codec : PacketCodec) (id : Byte) (retxTimeout : ℕ) (cc : C)
    (h : Reachable (SendRun.step codec) (fun _ _ => True) (SendRun.start id retxTimeout cc) s)
    (hcount : ∀ n, (resends s.trace).count n < 2 ^ 32 - 1) :
    (∀ before now resent after, s.trace = before ++ .tick now resent :: after →
      (resent.map Prod.fst).Nodup ∧
      (∀ n, n ∈ resent.map Prod.fst ↔ ∃ t, lastSend n before = some t ∧
        deadline retxTimeout t ((resends before).count n) ≤ now) ∧
      ∀ n ∈ dropped before, n ∉ resent.map Prod.fst) ∧
    (datagrams s.trace).map Prod.snd = transmitted s.io.log ∧
    s.io.stats.packetsLost = (resends s.trace).length ∧
    ∀ now, ∃ resent, (s.onTick now).trace = s.trace ++ [.tick now resent] ∧
      (s.onTick now).channel.cc = (resent.map Prod.fst).foldl
        (fun cc n => CongestionCtrl.onLoss cc now (wire n)) s.channel.cc := by
  have hs := sound_of_reachable h
  refine ⟨?_, hs.socket, hs.lost, fun now => ⟨_, rfl, onTick_onLoss hs now⟩⟩
  intro before now resent after he
  have htick := scheduled_of_reachable h before now resent after he
  refine ⟨htick.once, fun n => ?_, htick.present⟩
  have hle : (resends before).count n ≤ (resends s.trace).count n := by
    rw [he, resends, resends, List.flatMap_append]
    exact List.Sublist.count_le n (List.sublist_append_left _ _)
  have hmod : (resends before).count n % 2 ^ 32 = (resends before).count n :=
    Nat.mod_eq_of_lt (by have := hcount n; omega)
  rw [htick.due n, hmod]

end Runs

/-- Timeout 200 ms: stored at 0, resent at 200 ms, not at 599 ms, and again at 600 ms. -/
def backoff : List Event :=
  [.asyncSend [7] 1 0, .onTick (milliseconds 199), .onTick (milliseconds 200),
    .onTick (milliseconds 599), .onTick (milliseconds 600)]

theorem retransmission_schedule_backoff :
    (runNull (normalizeWindow 2) backoff).io.stats.packetsLost = 2 ∧
      lastSend 0 (runNull (normalizeWindow 2) backoff).trace = some (milliseconds 600) := by
  have hreach : Reachable (SendRun.step defaultCodec.toPacketCodec) (fun _ _ => True)
      (SendRun.start 0 200 {}) (runNull (normalizeWindow 2) backoff) :=
    reachable_foldl .start backoff (by decide)
  have hresends : resends (runNull (normalizeWindow 2) backoff).trace = [0, 0] := by
    decide +kernel
  have hschedule := retransmission_schedule _ _ _ _ hreach fun n => by
    rw [hresends]
    exact lt_of_le_of_lt (List.count_le_length) (by decide)
  refine ⟨?_, by decide +kernel⟩
  rw [hschedule.2.2.1, hresends]
  rfl

end ReliableUdp.RetransmissionSchedule
