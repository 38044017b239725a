import ReliableUdp.Session
import ReliableUdp.Runs

/-! Datagrams of strangers and datagrams that do not decode leave no trace in a session: erased from
a run they change nothing the peer or the application can see, at any later time. -/
namespace ReliableUdp.StrayDatagrams
open Protocol ChannelCommon ReliableChannel Session

variable {O U : Type}

/-- The arrival of a datagram from another address than the peer's, or of one that does not decode. -/
def Stray (codec : PacketCodec) (s : BasicSession O U) : Event → Prop
  | .onSocketRecv ec sender datagram _ =>
    ec.failed = false ∧ (sender = s.io.remote → (codec.decode datagram).toOption = none)
  | _ => False

instance (codec : PacketCodec) (s : BasicSession O U) (e : Event) : Decidable (Stray codec s e) :=
  match e with
  | .onSocketRecv ec sender datagram _ =>
    inferInstanceAs (Decidable (ec.failed = false ∧
      (sender = s.io.remote → (codec.decode datagram).toOption = none)))
  | .start .. | .retransmitTimer .. | .keepaliveTimer .. | .sendCompleted .. | .cancel
  | .asyncDisconnect .. | .asyncSend .. | .asyncRecv .. | .asyncFlush .. => .isFalse id

/-- Two sessions that differ at most in the receive a closed session has outstanding. -/
structure Agrees (s t : BasicSession O U) : Prop where
  same : t = { s with receiving := t.receiving }
  receiving : s.closed = false → t.receiving = s.receiving

lemma Agrees.refl (s : BasicSession O U) : Agrees s s := ⟨rfl, fun _ => rfl⟩

lemma Agrees.eq_of_open {s t : BasicSession O U} (h : Agrees s t) (hopen : s.closed = false) :
    t = s := by
  rw [h.same, h.receiving hopen]

lemma agrees_of_closed {s t : BasicSession O U} (hclosed : s.closed = true) {b b' : Bool}
    (h : t = { s with receiving := b' }) : Agrees { s with receiving := b } t := by
  subst h
  refine ⟨rfl, fun hopen => ?_⟩
  rw [hclosed] at hopen
  cases hopen

variable [CongestionCtrl O] [CongestionCtrl U]

lemma step_stray {codec : PacketCodec} {s : BasicSession O U} {e : Event} (h : Stray codec s e) :
    s.step codec e = if s.closed then { s with receiving := false } else s := by
  cases e with
  | onSocketRecv ec sender datagram now =>
    obtain ⟨hec, hstray⟩ := h
    have hhandled : (if sender = s.io.remote then
        ({ s with receiving := false } : BasicSession O U).handlePacket codec datagram now
        else { s with receiving := false }) = { s with receiving := false } := by
      split_ifs with hsender
      · have hdec := hstray hsender
        unfold BasicSession.handlePacket
        cases hd : codec.decode datagram with
        | error err => rfl
        | ok packet =>
          rw [hd] at hdec
          cases hdec
      · rfl
    cases hr : s.receiving with
    | false =>
      have hsame : { s with receiving := false } = s := by rw [← hr]
      simp only [BasicSession.step, BasicSession.onSocketRecv, hr, if_true, hsame, ite_self]
    | true =>
      have hsame : { s with receiving := true } = s := by rw [← hr]
      simp only [BasicSession.step, BasicSession.onSocketRecv, hr, hec, hhandled, Bool.true_eq_false,
        Bool.false_eq_true, if_false]
      split_ifs
      · rfl
      · exact hsame
  | _ => exact h.elim

lemma step_closed (codec : PacketCodec) {s : BasicSession O U} (hclosed : s.closed = true) (b : Bool)
    (e : Event) : (s.step codec e).closed = true ∧
      ∃ b', ({ s with receiving := b } : BasicSession O U).step codec e =
        { s.step codec e with receiving := b' } := by
  obtain ⟨config, io, channels, started, closed, receiving, retransmitting, keepingAlive,
    lastRecv⟩ := s
  obtain rfl : closed = true := hclosed
  cases e with
  | start remote now =>
    simp only [BasicSession.step, BasicSession.start, or_true, if_true]
    exact ⟨trivial, b, rfl⟩
  | onSocketRecv ec sender datagram now =>
    have hstep : ∀ t : BasicSession O U, t.closed = true →
        t.onSocketRecv codec ec sender datagram now = { t with receiving := false } := by
      intro t ht
      unfold BasicSession.onSocketRecv
      by_cases hr : t.receiving = false
      · rw [if_pos hr, ← hr]
      · rw [if_neg hr, if_pos ht]
    simp only [BasicSession.step]
    rw [hstep _ rfl, hstep _ rfl]
    exact ⟨rfl, false, rfl⟩
  | retransmitTimer ec now =>
    simp only [BasicSession.step, BasicSession.retransmitTimer, or_true, if_true]
    split_ifs <;> exact ⟨rfl, b, rfl⟩
  | keepaliveTimer ec now =>
    simp only [BasicSession.step, BasicSession.keepaliveTimer, or_true, if_true]
    split_ifs <;> exact ⟨rfl, b, rfl⟩
  | sendCompleted position ec now =>
    simp only [BasicSession.step, BasicSession.sendCompleted, BasicSession.channel?,
      BasicSession.close, if_true]
    cases io.pending[position]? with
    | none => exact ⟨rfl, b, rfl⟩
    | some completion =>
      cases completion with
      | data ch sequenceNumber handler =>
        dsimp only
        split <;> exact ⟨rfl, b, rfl⟩
      | _ => exact ⟨rfl, b, rfl⟩
  | cancel =>
    simp only [BasicSession.step, BasicSession.cancel, BasicSession.close, if_true]
    exact ⟨trivial, b, rfl⟩
  | asyncDisconnect handler =>
    simp only [BasicSession.step, BasicSession.asyncDisconnect, if_true]
    exact ⟨rfl, b, rfl⟩
  | asyncSend ch payload handler now =>
    simp only [BasicSession.step, BasicSession.asyncSend, if_true]
    exact ⟨rfl, b, rfl⟩
  | asyncRecv ch buf handler =>
    simp only [BasicSession.step, BasicSession.asyncRecv, BasicSession.channel?]
    split <;> exact ⟨rfl, b, rfl⟩
  | asyncFlush handler =>
    simp only [BasicSession.step, BasicSession.asyncFlush, if_true]
    exact ⟨rfl, b, rfl⟩

lemma Agrees.stray {codec : PacketCodec} {s t : BasicSession O U} (h : Agrees s t) {e : Event}
    (he : Stray codec s e) : Agrees (s.step codec e) t := by
  rw [step_stray he]
  split_ifs with hclosed
  · exact agrees_of_closed hclosed h.same
  · exact h

lemma Agrees.step {s t : BasicSession O U} (h : Agrees s t) (codec : PacketCodec) (e : Event) :
    Agrees (s.step codec e) (t.step codec e) := by
  cases hclosed : s.closed with
  | false =>
    rw [h.eq_of_open hclosed]
    exact Agrees.refl _
  | true =>
    obtain ⟨hstays, b', hstep⟩ := step_closed codec hclosed t.receiving e
    rw [← h.same] at hstep
    exact agrees_of_closed hstays hstep

/-- Whatever strangers send and however datagrams are damaged, and at whatever moments they arrive:
without these arrivals the run ends with the same channels, timers, statistics and log of datagrams
and callbacks. In particular they neither keep a silent session alive nor tear one down. -/
theorem strays_leave_no_trace (codec : PacketCodec) (s : BasicSession O U) (events : List Event) :
    Agrees (events.foldl (BasicSession.step codec) s)
      ((Runs.sieve (BasicSession.step codec) (Stray codec) s events).foldl
        (BasicSession.step codec) s) :=
  Runs.related_sieve (fun _ _ _ h he => h.stray he) (fun _ _ e h => h.step codec e)
    (Agrees.refl s) events

end ReliableUdp.StrayDatagrams
