import ReliableUdp.ChannelCommon
import ReliableUdp.Runs

/-! Every run of the receive queue is an exactly-once first-in first-out hand-over of the
delivered payloads to the receives. Each operation calls a handler as its last action, so a
call made from within a handler is simply the next event. -/
namespace ReliableUdp.ReceiveQueue
open Protocol ChannelCommon Runs

/-- The queue with what it has done: its effects, the payloads delivered to it and the buffer
size of every receive. The handler of a receive is the number of receives before it. -/
structure QueueRun where
  queue : RecvQueue := {}
  log : List Effect := []
  delivered : List (List Byte) := []
  bufs : List ℕ := []
  deriving DecidableEq, Repr

inductive Event
  | deliver (payload : List Byte)
  | asyncRecv (buf : ℕ)
  | close (reason : ErrorCode)
  deriving DecidableEq, Repr

def QueueRun.step (s : QueueRun) : Event → QueueRun
  | .deliver payload =>
    let r := s.queue.deliver payload
    { s with queue := r.1, log := s.log ++ r.2, delivered := s.delivered ++ [payload] }
  | .asyncRecv buf =>
    let r := s.queue.asyncRecv buf s.bufs.length
    { s with queue := r.1, log := s.log ++ r.2, bufs := s.bufs ++ [buf] }
  | .close reason =>
    let r := s.queue.close reason
    { s with queue := r.1, log := s.log ++ r.2 }

/-- A session closes its channels with an error only. -/
def ClosesWithError (_ : QueueRun) : Event → Prop
  | .close reason => reason.failed = true
  | _ => True

instance (s : QueueRun) (e : Event) : Decidable (ClosesWithError s e) :=
  match e with
  | .close reason => inferInstanceAs (Decidable (reason.failed = true))
  | .deliver _ => .isTrue trivial
  | .asyncRecv _ => .isTrue trivial

/-- The handlers called without an error and the bytes they were given, in order. -/
def successes (log : List Effect) : List (ℕ × List Byte) :=
  log.filterMap fun
    | .recvDone handler ec data => if ec.failed then none else some (handler, data)
    | _ => none

def calls (handler : ℕ) (log : List Effect) : ℕ :=
  log.countP fun
    | .recvDone h _ _ => h == handler
    | _ => false

/-- What a handler gets of a payload: the leading bytes that fit its buffer. -/
def copied (bufs : List ℕ) (completed : ℕ × List Byte) : ℕ × List Byte :=
  (completed.1, completed.2.take (min completed.2.length (bufs.getD completed.1 0)))

/-- The payloads went to receives in order, and the others are still queued. -/
def Fifo (s : QueueRun) : Prop :=
  ∃ completed : List (ℕ × List Byte),
    completed.map Prod.snd ++ s.queue.queuedMessages = s.delivered ∧
    successes s.log = completed.map (copied s.bufs) ∧
    ∀ c ∈ completed, c.1 < s.bufs.length

/-- A receive is parked only while nothing is queued and the queue is open. -/
def ParkedIdle (s : QueueRun) : Prop :=
  ∀ recv, s.queue.pendingRecv = some recv →
    s.queue.queuedMessages = [] ∧ s.queue.closed = false ∧ s.bufs[recv.handler]? = some recv.buf

/-- Every handler is called once, except the parked one, which is not called yet. -/
def CalledOnce (s : QueueRun) : Prop :=
  ∀ k, calls k s.log =
    if k < s.bufs.length ∧ s.queue.pendingRecv.map PendingRecv.handler ≠ some k then 1 else 0

structure Consistent (s : QueueRun) : Prop where
  fifo : Fifo s
  parked : ParkedIdle s
  called : CalledOnce s
  reason : s.queue.closed = true → s.queue.closeReason.failed = true

@[simp] lemma successes_append (xs ys : List Effect) :
    successes (xs ++ ys) = successes xs ++ successes ys := by
  simp [successes]

@[simp] lemma calls_append (k : ℕ) (xs ys : List Effect) :
    calls k (xs ++ ys) = calls k xs + calls k ys := by
  simp [calls]

lemma calls_recvDone (k handler : ℕ) (ec : ErrorCode) (data : List Byte) :
    calls k [.recvDone handler ec data] = if handler = k then 1 else 0 := by
  simp [calls, List.countP_cons]

lemma successes_failed {ec : ErrorCode} (h : ec.failed = true) (handler : ℕ) (data : List Byte) :
    successes [.recvDone handler ec data] = [] := by
  simp [successes, h]

lemma successes_completeRecv (recv : PendingRecv) (message : List Byte) :
    successes [completeRecv recv message] =
      [(recv.handler, message.take (min message.length recv.buf))] := by
  simp [successes, completeRecv, ErrorCode.failed, List.take_eq_take_iff, min_comm]

lemma copied_concat {bufs : List ℕ} {completed : List (ℕ × List Byte)}
    (h : ∀ c ∈ completed, c.1 < bufs.length) (buf : ℕ) :
    completed.map (copied (bufs ++ [buf])) = completed.map (copied bufs) := by
  apply List.map_congr_left
  intro c hc
  simp [copied, List.getElem?_append_left (h c hc)]

lemma consistent_start : Consistent {} := by
  refine ⟨⟨[], rfl, rfl, by simp⟩, ?_, ?_, ?_⟩
  · intro recv h
    cases h
  · intro k
    simp [calls]
  · intro h
    cases h

theorem Consistent.deliver {s : QueueRun} (h : Consistent s) (payload : List Byte) :
    Consistent (s.step (.deliver payload)) := by
  obtain ⟨completed, hall, hsuccess, hlt⟩ := h.fifo
  unfold QueueRun.step RecvQueue.deliver
  cases hp : s.queue.pendingRecv with
  | none =>
    refine ⟨⟨completed, ?_, by simpa using hsuccess, hlt⟩, ?_, ?_, h.reason⟩
    · simp [← hall]
    · intro recv hrecv
      simp at hrecv
    · intro k
      simpa [hp] using h.called k
  | some recv =>
    obtain ⟨hempty, hopen, hbuf⟩ := h.parked recv hp
    obtain ⟨hhandler, hget⟩ := List.getElem?_eq_some_iff.mp hbuf
    refine ⟨⟨completed ++ [(recv.handler, payload)], ?_, ?_, ?_⟩, ?_, ?_, h.reason⟩
    · rw [hempty, List.append_nil] at hall
      simp [hempty, hall]
    · simp [hsuccess, successes_completeRecv, copied, hhandler, hget]
    · intro c hc
      rcases List.mem_append.mp hc with hold | hnew
      · exact hlt c hold
      · rw [List.mem_singleton] at hnew
        rw [hnew]
        exact hhandler
    · intro recv' hrecv'
      cases hrecv'
    · intro k
      have hk := h.called k
      rw [hp] at hk
      simp only [calls_append, hk, completeRecv, calls_recvDone, Option.map_some, ne_eq,
        Option.some.injEq, Option.map_none, reduceCtorEq, not_false_eq_true, and_true]
      split_ifs <;> omega

section Receive
variable {s : QueueRun}

lemma Consistent.refused (h : Consistent s) (buf : ℕ) {ec : ErrorCode} (hec : ec.failed = true) :
    Consistent { s with
      log := s.log ++ [.recvDone s.bufs.length ec []]
      bufs := s.bufs ++ [buf] } := by
  obtain ⟨completed, hall, hsuccess, hlt⟩ := h.fifo
  refine ⟨⟨completed, hall, ?_, ?_⟩, ?_, ?_, h.reason⟩
  · rw [copied_concat hlt, successes_append, successes_failed hec, List.append_nil, hsuccess]
  · intro c hc
    have := hlt c hc
    simp only [List.length_append, List.length_singleton]
    omega
  · intro recv hrecv
    obtain ⟨hempty, hopen, hbuf⟩ := h.parked recv hrecv
    obtain ⟨hhandler, _⟩ := List.getElem?_eq_some_iff.mp hbuf
    exact ⟨hempty, hopen, by rw [List.getElem?_append_left hhandler, hbuf]⟩
  · intro k
    have hparked : s.queue.pendingRecv.map PendingRecv.handler ≠ some s.bufs.length := by
      cases hp : s.queue.pendingRecv with
      | none => simp
      | some recv =>
        obtain ⟨hhandler, _⟩ := List.getElem?_eq_some_iff.mp (h.parked recv hp).2.2
        simp only [Option.map_some, ne_eq, Option.some.injEq]
        omega
    simp only [calls_append, h.called k, calls_recvDone, List.length_append, List.length_singleton]
    by_cases hk : s.bufs.length = k
    · subst hk
      simp [hparked]
    · have hiff : k < s.bufs.length + 1 ↔ k < s.bufs.length := by omega
      simp [hk, hiff]

lemma Consistent.served (h : Consistent s) (buf : ℕ) {message : List Byte}
    {rest : List (List Byte)} (hq : s.queue.queuedMessages = message :: rest) :
    Consistent { s with
      queue := { s.queue with queuedMessages := rest }
      log := s.log ++ [completeRecv ⟨buf, s.bufs.length⟩ message]
      bufs := s.bufs ++ [buf] } := by
  obtain ⟨completed, hall, hsuccess, hlt⟩ := h.fifo
  have hnone : s.queue.pendingRecv = none := by
    cases hp : s.queue.pendingRecv with
    | none => rfl
    | some recv =>
      have := (h.parked recv hp).1
      rw [hq] at this
      cases this
  refine ⟨⟨completed ++ [(s.bufs.length, message)], ?_, ?_, ?_⟩, ?_, ?_, h.reason⟩
  · simp [← hall, hq]
  · simp [hsuccess, successes_completeRecv, copied_concat hlt, copied]
  · intro c hc
    simp only [List.length_append, List.length_singleton]
    rcases List.mem_append.mp hc with hold | hnew
    · have := hlt c hold
      omega
    · rw [List.mem_singleton] at hnew
      rw [hnew]
      exact Nat.lt_succ_self _
  · intro recv hrecv
    rw [hnone] at hrecv
    cases hrecv
  · intro k
    have hk := h.called k
    rw [hnone] at hk
    simp only [calls_append, hk, completeRecv, calls_recvDone, hnone, Option.map_none, ne_eq,
      reduceCtorEq, not_false_eq_true, and_true, List.length_append, List.length_singleton]
    split_ifs <;> omega

lemma Consistent.parks (h : Consistent s) (buf : ℕ) (hq : s.queue.queuedMessages = [])
    (hopen : s.queue.closed = false) (hnone : s.queue.pendingRecv = none) :
    Consistent { s with
      queue := { s.queue with pendingRecv := some ⟨buf, s.bufs.length⟩ }
      bufs := s.bufs ++ [buf] } := by
  obtain ⟨completed, hall, hsuccess, hlt⟩ := h.fifo
  refine ⟨⟨completed, hall, ?_, ?_⟩, ?_, ?_, h.reason⟩
  · rw [copied_concat hlt, hsuccess]
  · intro c hc
    have := hlt c hc
    simp only [List.length_append, List.length_singleton]
    omega
  · intro recv hrecv
    have hr : recv = ⟨buf, s.bufs.length⟩ := (Option.some.inj hrecv).symm
    rw [hr]
    exact ⟨hq, hopen, by simp⟩
  · intro k
    have hk := h.called k
    rw [hnone] at hk
    simp only [hk, Option.map_some, Option.map_none, ne_eq, reduceCtorEq, not_false_eq_true,
      and_true, List.length_append, List.length_singleton, Option.some.injEq]
    split_ifs <;> omega

end Receive

theorem Consistent.asyncRecv {s : QueueRun} (h : Consistent s) (buf : ℕ) :
    Consistent (s.step (.asyncRecv buf)) := by
  unfold QueueRun.step RecvQueue.asyncRecv
  cases hq : s.queue.queuedMessages with
  | cons message rest => exact h.served buf hq
  | nil =>
    cases hc : s.queue.closed with
    | true => exact h.refused buf (h.reason hc)
    | false =>
      cases hp : s.queue.pendingRecv with
      | some recv => exact h.refused buf rfl
      | none => simpa [hq, hc] using h.parks buf hq hc hp

theorem Consistent.close {s : QueueRun} (h : Consistent s) {reason : ErrorCode}
    (hreason : reason.failed = true) : Consistent (s.step (.close reason)) := by
  obtain ⟨completed, hall, hsuccess, hlt⟩ := h.fifo
  unfold QueueRun.step RecvQueue.close
  cases hp : s.queue.pendingRecv with
  | none =>
    refine ⟨⟨completed, hall, by simpa using hsuccess, hlt⟩, ?_, ?_, fun _ => hreason⟩
    · intro recv hrecv
      simp at hrecv
    · intro k
      simpa [hp] using h.called k
  | some recv =>
    obtain ⟨_, _, hbuf⟩ := h.parked recv hp
    obtain ⟨hhandler, _⟩ := List.getElem?_eq_some_iff.mp hbuf
    refine ⟨⟨completed, hall, ?_, hlt⟩, ?_, ?_, fun _ => hreason⟩
    · simp [hsuccess, successes_failed hreason]
    · intro recv' hrecv'
      cases hrecv'
    · intro k
      have hk := h.called k
      rw [hp] at hk
      simp only [calls_append, hk, calls_recvDone, Option.map_some, ne_eq, Option.some.injEq,
        Option.map_none, reduceCtorEq, not_false_eq_true, and_true]
      split_ifs <;> omega

theorem consistent_of_reachable {s : QueueRun}
    (h : Reachable QueueRun.step ClosesWithError {} s) : Consistent s := by
  refine h.invariant consistent_start ?_
  intro s e hs hguard
  cases e with
  | deliver payload => exact hs.deliver payload
  | asyncRecv buf => exact hs.asyncRecv buf
  | close reason => exact hs.close hguard

/-- In every run the successful completions are the delivered payloads in order, cut to the
receiver's buffer, and the rest is queued; a receive waits only at an empty open queue; every
other handler was called exactly once; and a second receive fails beside the parked one. -/
theorem receive_exactly_once {s : QueueRun} (h : Reachable QueueRun.step ClosesWithError {} s) :
    Fifo s ∧ ParkedIdle s ∧ CalledOnce s ∧
      ∀ recv, s.queue.pendingRecv = some recv → ∀ buf,
        (s.step (.asyncRecv buf)).queue = s.queue ∧
        (s.step (.asyncRecv buf)).log =
          s.log ++ [.recvDone s.bufs.length (makeErrorCode .channelClosed) []] := by
  have hs := consistent_of_reachable h
  refine ⟨hs.fifo, hs.parked, hs.called, ?_⟩
  intro recv hp buf
  obtain ⟨hempty, hopen, _⟩ := hs.parked recv hp
  simp [QueueRun.step, RecvQueue.asyncRecv, hempty, hopen, hp]

/-- A parked receive, a second one that fails, a truncated delivery, a queued one and a close. -/
def truncatedRun : List Event :=
  [.asyncRecv 2, .asyncRecv 8, .deliver [1, 2, 3], .deliver [4], .close (.rude .timeout),
    .asyncRecv 8, .asyncRecv 8]

theorem receive_exactly_once_truncated :
    Reachable QueueRun.step ClosesWithError {} (truncatedRun.foldl QueueRun.step {}) ∧
      successes (truncatedRun.foldl QueueRun.step {}).log = [(0, [1, 2]), (2, [4])] ∧
      Fifo (truncatedRun.foldl QueueRun.step {}) := by
  have hreach : Reachable QueueRun.step ClosesWithError {} (truncatedRun.foldl QueueRun.step {}) :=
    reachable_foldl .start truncatedRun (by decide)
  exact ⟨hreach, by decide, (receive_exactly_once hreach).1⟩

end ReliableUdp.ReceiveQueue
