import ReliableUdp.InFlightStatistic

/-! The outcome of a flush. The completions of the resends write to a variable of the initiating
step, which calls the handler and ends before any completion can run, so an outcome is reported
only when there is nothing to resend. -/
namespace ReliableUdp.FlushOutcome
open Protocol ReliableChannel ReliableSender Session SessionSteps Runs InFlightStatistic

def firstError (results : List ErrorCode) : ErrorCode :=
  (results.find? ErrorCode.failed).getD .none

/-- One call of `asyncFlush`: the resends its loops have yet to reach, those whose completion is
outstanding, the variable `ec` and the outcomes so far. `handled` lists the error codes its handler
was called with; `openAtCall` and `lateWrites` count the resends without a completion at that moment
and the writes to `ec` after it, when the variable is gone. -/
structure FlushCall where
  unsent : List (List Byte)
  outstanding : List (List Byte) := []
  ec : ErrorCode := .none
  results : List ErrorCode := []
  handled : List ErrorCode := []
  openAtCall : ℕ := 0
  lateWrites : ℕ := 0
  deriving DecidableEq, Repr

/-- The initiating step goes on, or the socket completes a resend it has taken. -/
inductive Move
  | advance
  | complete (position : ℕ) (sendError : ErrorCode)
  deriving DecidableEq, Repr

namespace FlushCall

/-- The next `asyncSendTo` of the loops and, after the last, the call of the handler. -/
def advance (c : FlushCall) : FlushCall :=
  if c.handled ≠ [] then c
  else
    match c.unsent with
    | d :: rest => { c with unsent := rest, outstanding := c.outstanding ++ [d] }
    | [] => { c with handled := [c.ec], openAtCall := c.outstanding.length }

def complete (c : FlushCall) (position : ℕ) (sendError : ErrorCode) : FlushCall :=
  if position < c.outstanding.length then
    let writes := sendError.failed && !c.ec.failed
    { c with
      outstanding := c.outstanding.eraseIdx position
      results := c.results ++ [sendError]
      ec := if writes then sendError else c.ec
      lateWrites := if writes = true ∧ c.handled ≠ [] then c.lateWrites + 1 else c.lateWrites }
  else c

def step (c : FlushCall) : Move → FlushCall
  | .advance => c.advance
  | .complete position sendError => c.complete position sendError

/-- The step has ended and every resend has completed. -/
def Finished (c : FlushCall) : Prop := c.handled ≠ [] ∧ c.outstanding = []

/-- The handler was called once, after all resends, with their first error, and nothing wrote to
the variable afterwards. -/
structure Reports (c : FlushCall) : Prop where
  handled : c.handled = [firstError c.results]
  settled : c.openAtCall = 0
  unwritten : c.lateWrites = 0

lemma advance_sends {c : FlushCall} (hrunning : c.handled = []) {d : List Byte}
    {rest : List (List Byte)} (hunsent : c.unsent = d :: rest) :
    c.advance = { c with unsent := rest, outstanding := c.outstanding ++ [d] } := by
  simp [advance, hrunning, hunsent]

lemma advance_calls {c : FlushCall} (hrunning : c.handled = []) (hunsent : c.unsent = []) :
    c.advance = { c with handled := [c.ec], openAtCall := c.outstanding.length } := by
  simp [advance, hrunning, hunsent]

lemma advance_ended {c : FlushCall} (hended : c.handled ≠ []) : c.advance = c := by
  simp [advance, hended]

lemma complete_frame (c : FlushCall) (position : ℕ) (sendError : ErrorCode) :
    (c.complete position sendError).handled = c.handled ∧
      (c.complete position sendError).openAtCall = c.openAtCall := by
  unfold complete
  by_cases hposition : position < c.outstanding.length
  · rw [if_pos hposition]
    exact ⟨rfl, rfl⟩
  · rw [if_neg hposition]
    exact ⟨rfl, rfl⟩

/-- The socket runs on the strand of the session: no completion before the step has ended. -/
def OnStrand (c : FlushCall) (m : Move) : Prop := m ≠ .advance → c.handled ≠ []

instance (c : FlushCall) (m : Move) : Decidable (OnStrand c m) :=
  inferInstanceAs (Decidable (m ≠ .advance → c.handled ≠ []))

instance (c : FlushCall) : Decidable (Finished c) :=
  inferInstanceAs (Decidable (c.handled ≠ [] ∧ c.outstanding = []))

end FlushCall

open FlushCall

lemma failed_firstError (results : List ErrorCode) :
    (firstError results).failed = results.any ErrorCode.failed := by
  unfold firstError
  cases hfind : results.find? ErrorCode.failed with
  | none =>
    rw [List.find?_eq_none] at hfind
    have hany : results.any ErrorCode.failed = false := by simpa using hfind
    rw [hany]
    rfl
  | some e =>
    have hmem := List.mem_of_find?_eq_some hfind
    have hfailed := List.find?_some hfind
    rw [Option.getD_some, hfailed, eq_comm, List.any_eq_true]
    exact ⟨e, hmem, hfailed⟩

lemma firstError_concat (results : List ErrorCode) (sendError : ErrorCode) :
    firstError (results ++ [sendError]) =
      if sendError.failed && !(firstError results).failed then sendError
      else firstError results := by
  rw [failed_firstError]
  unfold firstError
  rw [List.find?_append]
  cases hfind : results.find? ErrorCode.failed with
  | none =>
    rw [List.find?_eq_none] at hfind
    have hany : results.any ErrorCode.failed = false := by simpa using hfind
    cases hfailed : sendError.failed <;> simp [hany, hfailed]
  | some e =>
    have hany : results.any ErrorCode.failed = true :=
      List.any_eq_true.mpr ⟨e, List.mem_of_find?_eq_some hfind, List.find?_some hfind⟩
    simp [hany]

/-- A call with so many packets to resend: while it runs, `ec` is the first error so far, and a
handler that is called with nothing outstanding got the first error of all. -/
structure Sound (packets : ℕ) (c : FlushCall) : Prop where
  count : c.unsent.length + c.outstanding.length + c.results.length = packets
  running : c.handled = [] → c.ec = firstError c.results ∧ c.lateWrites = 0
  bounded : c.openAtCall ≤ packets
  settled : c.handled ≠ [] → c.openAtCall = 0 →
    c.outstanding = [] ∧ c.handled = [firstError c.results] ∧ c.lateWrites = 0

lemma Sound.advance {packets : ℕ} {c : FlushCall} (h : Sound packets c) :
    Sound packets c.advance := by
  by_cases hhandled : c.handled = []
  · obtain ⟨hec, hlate⟩ := h.running hhandled
    have hcount := h.count
    cases hunsent : c.unsent with
    | cons d rest =>
      rw [advance_sends hhandled hunsent]
      rw [hunsent, List.length_cons] at hcount
      refine ⟨?_, h.running, h.bounded, fun hc => absurd hhandled hc⟩
      simp only [List.length_append, List.length_singleton]
      omega
    | nil =>
      rw [advance_calls hhandled hunsent]
      have hopened : c.outstanding.length ≤ packets := by omega
      refine ⟨hcount, fun hc => by simp at hc, hopened, fun _ hopen => ?_⟩
      exact ⟨List.length_eq_zero_iff.mp hopen, by rw [hec], hlate⟩
  · rw [advance_ended hhandled]
    exact h

lemma Sound.complete {packets : ℕ} {c : FlushCall} (h : Sound packets c) (position : ℕ)
    (sendError : ErrorCode) : Sound packets (c.complete position sendError) := by
  unfold FlushCall.complete
  by_cases hposition : position < c.outstanding.length
  · rw [if_pos hposition]
    have hcount := h.count
    refine ⟨?_, ?_, h.bounded, ?_⟩
    · simp only [List.length_append, List.length_singleton,
        List.length_eraseIdx_of_lt hposition]
      omega
    · intro hrunning
      obtain ⟨hec, hlate⟩ := h.running hrunning
      refine ⟨?_, ?_⟩
      · rw [firstError_concat, ← hec]
      · have hno : ¬ ((sendError.failed && !c.ec.failed) = true ∧ c.handled ≠ []) :=
          fun hw => hw.2 hrunning
        simp only [if_neg hno]
        exact hlate
    · intro hended hopen
      obtain ⟨hnone, _⟩ := h.settled hended hopen
      rw [hnone] at hposition
      cases hposition
  · rw [if_neg hposition]
    exact h

lemma sound_run {packets : ℕ} {c : FlushCall} (h : Sound packets c) (moves : List Move) :
    Sound packets (moves.foldl FlushCall.step c) := by
  induction moves generalizing c with
  | nil => exact h
  | cons m moves ih =>
    rw [List.foldl_cons]
    cases m with
    | advance => exact ih h.advance
    | complete position sendError => exact ih (h.complete position sendError)

/-- A finished call reports its outcome exactly when its handler found nothing outstanding. -/
lemma Sound.reports_iff {packets : ℕ} {c : FlushCall} (h : Sound packets c) (hf : Finished c) :
    Reports c ↔ c.openAtCall = 0 := by
  refine ⟨fun hr => hr.settled, fun hopen => ?_⟩
  obtain ⟨_, hhandled, hlate⟩ := h.settled hf.1 hopen
  exact ⟨hhandled, hopen, hlate⟩

structure Stranded (packets : ℕ) (c : FlushCall) : Prop where
  running : c.handled = [] → c.unsent.length + c.outstanding.length = packets
  ended : c.handled ≠ [] → c.openAtCall = packets

lemma stranded_run {packets : ℕ} {c : FlushCall} (h : Stranded packets c) (moves : List Move)
    (hstrand : Admitted FlushCall.step OnStrand c moves) :
    Stranded packets (moves.foldl FlushCall.step c) := by
  induction moves generalizing c with
  | nil => exact h
  | cons m moves ih =>
    obtain ⟨hm, hrest⟩ := hstrand
    refine ih ?_ hrest
    cases m with
    | advance =>
      simp only [FlushCall.step]
      by_cases hhandled : c.handled = []
      · have hcount := h.running hhandled
        cases hunsent : c.unsent with
        | cons d rest =>
          rw [advance_sends hhandled hunsent]
          rw [hunsent, List.length_cons] at hcount
          refine ⟨fun _ => ?_, fun hc => absurd hhandled hc⟩
          simp only [List.length_append, List.length_singleton]
          omega
        | nil =>
          rw [advance_calls hhandled hunsent]
          rw [hunsent, List.length_nil, Nat.zero_add] at hcount
          exact ⟨fun hc => by simp at hc, fun _ => hcount⟩
      · rw [advance_ended hhandled]
        exact h
    | complete position sendError =>
      have hended : c.handled ≠ [] := hm (by simp)
      obtain ⟨hhandled, hopen⟩ := complete_frame c position sendError
      refine ⟨fun hc => absurd (hhandled.symm.trans hc) hended, fun _ => ?_⟩
      exact hopen.trans (h.ended hended)

lemma initiated (c : FlushCall) (hrunning : c.handled = []) :
    (List.replicate (c.unsent.length + 1) Move.advance).foldl FlushCall.step c =
      { c with
        unsent := []
        outstanding := c.outstanding ++ c.unsent
        handled := [c.ec]
        openAtCall := c.outstanding.length + c.unsent.length } := by
  obtain ⟨unsent, hunsent⟩ : ∃ unsent, c.unsent = unsent := ⟨_, rfl⟩
  induction unsent generalizing c with
  | nil => simp [hunsent, FlushCall.step, advance_calls hrunning hunsent]
  | cons d rest ih =>
    have hstep : c.step .advance =
        { c with unsent := rest, outstanding := c.outstanding ++ [d] } :=
      advance_sends hrunning hunsent
    have hrest := ih { c with unsent := rest, outstanding := c.outstanding ++ [d] } hrunning rfl
    rw [hunsent, List.length_cons, List.replicate_succ, List.foldl_cons, hstep, hrest]
    simp only [List.append_assoc, List.singleton_append, List.length_append, List.length_nil,
      List.length_cons]
    congr 1
    omega

lemma exists_completions (c : FlushCall) (hended : c.handled ≠ []) :
    ∃ moves, Admitted FlushCall.step OnStrand c moves ∧
      Finished (moves.foldl FlushCall.step c) := by
  obtain ⟨n, hn⟩ : ∃ n, c.outstanding.length = n := ⟨_, rfl⟩
  induction n generalizing c with
  | zero => exact ⟨[], trivial, hended, List.length_eq_zero_iff.mp hn⟩
  | succ n ih =>
    have hposition : 0 < c.outstanding.length := by omega
    have hstep : (c.step (.complete 0 .none)).outstanding.length = n := by
      simp only [FlushCall.step, FlushCall.complete, if_pos hposition,
        List.length_eraseIdx_of_lt hposition]
      omega
    have hkept : (c.step (.complete 0 .none)).handled ≠ [] := by
      rw [FlushCall.step, (complete_frame c 0 .none).1]
      exact hended
    obtain ⟨moves, hadmitted, hfinished⟩ := ih _ hkept hstep
    exact ⟨.complete 0 .none :: moves, ⟨fun _ => hended, hadmitted⟩, hfinished⟩

section Session
variable {O U : Type}

def flushCall (s : BasicSession O U) : FlushCall :=
  if s.closed then { unsent := [], ec := makeErrorCode .channelClosed }
  else { unsent := resends s }

lemma length_resends (s : BasicSession O U) : (resends s).length = inFlight s := by
  have hchannel : ∀ c : ChannelVar O U, (resent c).length = slotStored (some c) := by
    intro c
    cases c with
    | unreliable ch => rfl
    | ordered W ch => exact List.length_map _
    | unordered W ch => exact List.length_map _
  rw [inFlight, SlotTable.total_eq_sum_entries rfl, resends, List.length_flatMap]
  simp only [hchannel]

/-- The session runs the whole initiating step of the call at once. -/
theorem asyncFlush_initiates (s : BasicSession O U) (handler : ℕ) :
    (s.asyncFlush handler).io =
      let c := (List.replicate ((flushCall s).unsent.length + 1) Move.advance).foldl FlushCall.step
        (flushCall s)
      (resendAll s.io c.outstanding).emit (c.handled.map (Effect.sendDone handler)) := by
  unfold flushCall
  cases hclosed : s.closed with
  | true =>
    rw [if_pos rfl, initiated _ rfl, asyncFlush_closed hclosed]
    simp [BasicSession.emit, resendAll_nil]
  | false =>
    rw [if_neg (by simp), initiated _ rfl, asyncFlush_open hclosed]
    rfl

lemma sound_flushCall {s : BasicSession O U} (hopen : s.closed = false) :
    Sound (inFlight s) (flushCall s) ∧ Stranded (inFlight s) (flushCall s) := by
  have hcall : flushCall s = { unsent := resends s } := by simp [flushCall, hopen]
  rw [hcall]
  exact ⟨⟨length_resends s, fun _ => ⟨rfl, rfl⟩, Nat.zero_le _, fun hc => absurd rfl hc⟩,
    ⟨fun _ => length_resends s, fun hc => absurd rfl hc⟩⟩

def flushed (s : BasicSession O U) (moves : List Move) : FlushCall :=
  moves.foldl FlushCall.step (flushCall s)

lemma exists_finished (s : BasicSession O U) :
    ∃ moves, Admitted FlushCall.step OnStrand (flushCall s) moves ∧ Finished (flushed s moves) := by
  have hrunning : (flushCall s).handled = [] := by
    unfold flushCall
    split_ifs
    · rfl
    · rfl
  have hinitiated := initiated (flushCall s) hrunning
  have hstep : Admitted FlushCall.step OnStrand (flushCall s)
      (List.replicate ((flushCall s).unsent.length + 1) .advance) := by
    refine admitted_of_forall_mem _ ?_
    intro m hm c hcomplete
    exact absurd (List.eq_of_mem_replicate hm) hcomplete
  obtain ⟨moves, hadmitted, hfinished⟩ := exists_completions
    (flushed s (List.replicate ((flushCall s).unsent.length + 1) .advance))
    (by rw [flushed, hinitiated]; simp)
  refine ⟨_, (admitted_append _ _ moves).mpr ⟨hstep, hadmitted⟩, ?_⟩
  rw [flushed, List.foldl_append]
  exact hfinished

/-- For every open session, the outcome of a flush is reported under every schedule exactly when
nothing is in flight, and the same holds of each schedule on the strand. -/
theorem flush_reports_iff (s : BasicSession O U) (hopen : s.closed = false) :
    ((∀ moves, Finished (flushed s moves) → Reports (flushed s moves)) ↔ inFlight s = 0) ∧
      ∀ moves, Admitted FlushCall.step OnStrand (flushCall s) moves →
        Finished (flushed s moves) → (Reports (flushed s moves) ↔ inFlight s = 0) := by
  obtain ⟨hsound, hstranded⟩ := sound_flushCall hopen
  have hstrand : ∀ moves, Admitted FlushCall.step OnStrand (flushCall s) moves →
      Finished (flushed s moves) → (Reports (flushed s moves) ↔ inFlight s = 0) := by
    intro moves hadmitted hfinished
    have hrun : Sound (inFlight s) (flushed s moves) := sound_run hsound moves
    have hopened : (flushed s moves).openAtCall = inFlight s :=
      (stranded_run hstranded moves hadmitted).ended hfinished.1
    rw [hrun.reports_iff hfinished, hopened]
  refine ⟨⟨?_, ?_⟩, hstrand⟩
  · intro hall
    obtain ⟨moves, hadmitted, hfinished⟩ := exists_finished s
    exact (hstrand moves hadmitted hfinished).mp (hall moves hfinished)
  · intro hzero moves hfinished
    have hrun : Sound (inFlight s) (flushed s moves) := sound_run hsound moves
    have hbounded := hrun.bounded
    exact (hrun.reports_iff hfinished).mpr (by omega)

def waitingSession : BasicSession Null Null :=
  [Event.start ⟨1, 9000⟩ 0, .asyncSend 0 [7] 0 0].foldl
    (BasicSession.step DefaultCodec.defaultCodec.toPacketCodec) (BasicSession.create {} ⟨⟩ ⟨⟩)

theorem flush_reports_waiting :
    inFlight (BasicSession.create {} (⟨⟩ : Null) (⟨⟩ : Null)) = 0 ∧
      (∀ moves, Finished (flushed (BasicSession.create {} (⟨⟩ : Null) (⟨⟩ : Null)) moves) →
        Reports (flushed (BasicSession.create {} (⟨⟩ : Null) (⟨⟩ : Null)) moves)) ∧
      inFlight waitingSession = 1 ∧
      ¬ ∀ moves, Finished (flushed waitingSession moves) →
        Reports (flushed waitingSession moves) := by
  have hidle : inFlight (BasicSession.create {} (⟨⟩ : Null) (⟨⟩ : Null)) = 0 := by decide +kernel
  have hwaiting : inFlight waitingSession = 1 := by decide +kernel
  have hopen : waitingSession.closed = false := by decide +kernel
  refine ⟨hidle, (flush_reports_iff _ rfl).1.mpr hidle, hwaiting, fun hall => ?_⟩
  have hzero := (flush_reports_iff waitingSession hopen).1.mp hall
  omega

/-- The resend fails after the handler was called without an error. -/
def failingMoves : List Move := [.advance, .advance, .complete 0 (.system 111)]

theorem failure_unreported :
    waitingSession.closed = false ∧
      Admitted FlushCall.step OnStrand (flushCall waitingSession) failingMoves ∧
      Finished (flushed waitingSession failingMoves) ∧
      firstError (flushed waitingSession failingMoves).results = .system 111 ∧
      (flushed waitingSession failingMoves).handled = [.none] ∧
      (flushed waitingSession failingMoves).openAtCall = 1 ∧
      (flushed waitingSession failingMoves).lateWrites = 1 ∧
      ¬ Reports (flushed waitingSession failingMoves) := by
  have hhandled : (flushed waitingSession failingMoves).handled = [.none] := by decide +kernel
  have hopened : (flushed waitingSession failingMoves).openAtCall = 1 := by decide +kernel
  refine ⟨by decide +kernel, by decide +kernel, by decide +kernel, by decide +kernel, hhandled,
    hopened, by decide +kernel, fun hr => ?_⟩
  rw [hr.settled] at hopened
  cases hopened

end Session

end ReliableUdp.FlushOutcome
