import ReliableUdp.SessionMoves
import ReliableUdp.DefaultCodec

/-! Why a session ends: every teardown it reports goes back to one event of the run that gave the
reason, and a timeout to a peer that was silent for longer than configured. -/
namespace ReliableUdp.DisconnectReasons
open Protocol ChannelCommon ReliableChannel ReliableSender Session SessionSteps SessionMoves

variable {O U : Type} [CongestionCtrl O] [CongestionCtrl U]

lemma call_lifecycle (codec : PacketCodec) (c : ChannelVar O U) (io : Transport) (call : Call) :
    lifecycle (call.run codec c io).2.log = lifecycle io.log := by
  cases call with
  | asyncSend payload handler now => exact (variant_asyncSend c codec payload handler now io).2.lifecycle
  | sendCompleted sequenceNumber handler ec now =>
    exact (variant_sendCompleted c sequenceNumber handler ec now io).2.lifecycle
  | asyncRecv buf handler =>
    simp only [Call.run, (variant_asyncRecv c buf handler io).2, Transport.emit_log, lifecycle_append,
      asyncRecv_lifecycle, List.append_nil]
  | onTick now => exact (variant_onTick c now io).2.lifecycle
  | onRecv packet now => exact (variant_onRecv c packet now io).lifecycle
  | flush =>
    simp only [Call.run, variant_flush]
    exact (inert_resendAll io (resent c)).lifecycle
  | close reason =>
    simp only [Call.run, (variant_close c reason io).2, Transport.emit_log, lifecycle_append,
      closeEffects_lifecycle, List.append_nil]

lemma mem_lifecycle {reason : ErrorCode} {log : List Effect} :
    .onDisconnected reason ∈ lifecycle log ↔ .onDisconnected reason ∈ log := by
  simp [lifecycle]

theorem disconnected_step (codec : PacketCodec) (s : BasicSession O U) (e : Event)
    {reason : ErrorCode} (h : .onDisconnected reason ∈ (s.step codec e).io.log) :
    .onDisconnected reason ∈ s.io.log ∨ Reason codec s e reason := by
  have hkeep : .onDisconnected reason ∈ lifecycle (s.step codec e).io.log →
      .onDisconnected reason ∈ lifecycle s.io.log ∨ Reason codec s e reason := by
    refine step_keeps codec (P := fun t => .onDisconnected reason ∈ lifecycle t.io.log →
      .onDisconnected reason ∈ lifecycle s.io.log ∨ Reason codec s e reason) ?_ Or.inl
    intro t t' ht hmove hmem
    cases hmove with
    | call k hk c hc call cause =>
      simp only [put, call_lifecycle] at hmem
      exact ht hmem
    | send packet completion hown hne =>
      rw [(inert_sendEncoded t.io _ completion).lifecycle] at hmem
      exact ht hmem
    | report effect hreport =>
      simp only [BasicSession.emit, Transport.emit_log, lifecycle_append, List.mem_append] at hmem
      rcases hmem with hold | hnew
      · exact ht hold
      · rw [mem_lifecycle, List.mem_singleton] at hnew
        subst hnew
        exact Or.inr hreport
    | bookkeeping _ hbook =>
      rw [hbook.log] at hmem
      exact ht hmem
  exact (hkeep (mem_lifecycle.mpr h)).imp_left mem_lifecycle.mp

def run (codec : PacketCodec) (config : SessionConfig) (cc : O) (cc' : U) (events : List Event) :
    BasicSession O U :=
  events.foldl (BasicSession.step codec) (BasicSession.create config cc cc')

lemma run_concat (codec : PacketCodec) (config : SessionConfig) (cc : O) (cc' : U)
    (events : List Event) (e : Event) :
    run codec config cc cc' (events ++ [e]) = (run codec config cc cc' events).step codec e := by
  simp only [run, List.foldl_append, List.foldl_cons, List.foldl_nil]

/-- Every reported teardown goes back to the event of the run that first reported it. -/
theorem disconnected_because (codec : PacketCodec) (config : SessionConfig) (cc : O) (cc' : U)
    (events : List Event) {reason : ErrorCode}
    (h : .onDisconnected reason ∈ (run codec config cc cc' events).io.log) :
    ∃ before e after, events = before ++ e :: after ∧
      .onDisconnected reason ∉ (run codec config cc cc' before).io.log ∧
      .onDisconnected reason ∈ ((run codec config cc cc' before).step codec e).io.log ∧
      Reason codec (run codec config cc cc' before) e reason := by
  induction events using List.reverseRecOn with
  | nil => exact absurd h List.not_mem_nil
  | append_singleton events e ih =>
    by_cases hold : .onDisconnected reason ∈ (run codec config cc cc' events).io.log
    · obtain ⟨before, e', after, rfl, hreason⟩ := ih hold
      exact ⟨before, e', after ++ [e], by simp, hreason⟩
    · rw [run_concat] at h
      exact ⟨events, e, [], rfl, hold, h, (disconnected_step codec _ e h).resolve_left hold⟩

/-- The clock reading of an event, if the session reads the clock for it. -/
def clock : Event → Option Time
  | .start _ now => some now
  | .onSocketRecv _ _ _ now => some now
  | .retransmitTimer _ now => some now
  | .keepaliveTimer _ now => some now
  | .sendCompleted _ _ now => some now
  | .asyncSend _ _ _ now => some now
  | .cancel | .asyncDisconnect _ | .asyncRecv .. | .asyncFlush _ => none

/-- The session receives a well-formed datagram of its peer at this time. -/
def Heard (codec : PacketCodec) (s : BasicSession O U) (e : Event) (now : Time) : Prop :=
  ∃ ec datagram packet, e = .onSocketRecv ec s.io.remote datagram now ∧ s.receiving = true ∧
    s.closed = false ∧ ec.failed = false ∧ codec.decode datagram = .ok packet

omit [CongestionCtrl O] [CongestionCtrl U] in
lemma close_lastRecv (s : BasicSession O U) (reason : ErrorCode) :
    (s.close reason).lastRecv = s.lastRecv := by
  unfold BasicSession.close
  split_ifs <;> rfl

omit [CongestionCtrl O] [CongestionCtrl U] in
lemma sendPacket_lastRecv (codec : PacketCodec) (s : BasicSession O U) (packet : Packet) :
    (s.sendPacket codec packet).lastRecv = s.lastRecv := by
  unfold BasicSession.sendPacket
  dsimp only
  split_ifs <;> rfl

lemma channelPacket_lastRecv (codec : PacketCodec) (s : BasicSession O U) (packet : Packet)
    (now : Time) : (s.channelPacket codec packet now).lastRecv = s.lastRecv := by
  unfold BasicSession.channelPacket
  cases s.channel? packet.channel with
  | none => rfl
  | some c =>
    dsimp only
    split_ifs
    · rfl
    · cases (c.onRecv packet now s.io).1.buildAck with
      | none => rfl
      | some ack => exact sendPacket_lastRecv codec _ ack

lemma handlePacket_lastRecv (codec : PacketCodec) (s : BasicSession O U) (datagram : List Byte)
    (now : Time) : (s.handlePacket codec datagram now).lastRecv =
      if (codec.decode datagram).isOk then now else s.lastRecv := by
  unfold BasicSession.handlePacket
  cases codec.decode datagram with
  | error err => rfl
  | ok packet =>
    simp only [Except.isOk, Except.toBool, if_true]
    split_ifs
    · rw [close_lastRecv]
    · rfl
    · rw [sendPacket_lastRecv]
    · rfl
    · rw [channelPacket_lastRecv]

lemma step_lastRecv (codec : PacketCodec) (s : BasicSession O U) (e : Event) :
    (s.step codec e).lastRecv = s.lastRecv ∨ clock e = some (s.step codec e).lastRecv := by
  cases e with
  | start remote now =>
    simp only [BasicSession.step, BasicSession.start]
    split_ifs
    · exact Or.inl rfl
    · exact Or.inr rfl
  | onSocketRecv ec sender datagram now =>
    have hhandled : ∀ t : BasicSession O U, t.lastRecv = s.lastRecv →
        (t.handlePacket codec datagram now).lastRecv = s.lastRecv ∨
          some now = some (t.handlePacket codec datagram now).lastRecv := by
      intro t ht
      rw [handlePacket_lastRecv]
      split_ifs
      · exact Or.inr rfl
      · exact Or.inl ht
    simp only [BasicSession.step, BasicSession.onSocketRecv, clock]
    split_ifs
    · exact Or.inl rfl
    · exact Or.inl rfl
    · exact Or.inl (close_lastRecv _ _)
    · exact hhandled _ rfl
    · exact hhandled _ rfl
    · exact Or.inl rfl
  | retransmitTimer ec now =>
    simp only [BasicSession.step, BasicSession.retransmitTimer]
    split_ifs <;> exact Or.inl rfl
  | keepaliveTimer ec now =>
    simp only [BasicSession.step, BasicSession.keepaliveTimer]
    split_ifs
    · exact Or.inl rfl
    · exact Or.inl rfl
    · exact Or.inl (close_lastRecv _ _)
    · exact Or.inl (sendPacket_lastRecv codec s _)
  | sendCompleted position ec now =>
    simp only [BasicSession.step, BasicSession.sendCompleted]
    split
    · split <;> exact Or.inl rfl
    · exact Or.inl rfl
    · exact Or.inl (close_lastRecv _ _)
    · exact Or.inl rfl
    · exact Or.inl rfl
    · exact Or.inl rfl
  | cancel => exact Or.inl (close_lastRecv s operationAborted)
  | asyncDisconnect handler =>
    simp only [BasicSession.step, BasicSession.asyncDisconnect]
    split_ifs
    · exact Or.inl rfl
    · exact Or.inl (close_lastRecv _ _)
    · exact Or.inl rfl
  | asyncSend ch payload handler now =>
    simp only [BasicSession.step, BasicSession.asyncSend]
    split_ifs
    · exact Or.inl rfl
    · cases s.channel? ch <;> exact Or.inl rfl
    · cases s.channel? ch <;> exact Or.inl rfl
  | asyncRecv ch buf handler =>
    simp only [BasicSession.step, BasicSession.asyncRecv]
    cases s.channel? ch <;> exact Or.inl rfl
  | asyncFlush handler =>
    simp only [BasicSession.step, BasicSession.asyncFlush]
    split_ifs <;> exact Or.inl rfl

lemma Heard.lastRecv {codec : PacketCodec} {s : BasicSession O U} {e : Event} {now : Time}
    (h : Heard codec s e now) : (s.step codec e).lastRecv = now := by
  obtain ⟨ec, datagram, packet, rfl, hreceiving, hopen, hec, hdec⟩ := h
  have hhandled : ∀ t : BasicSession O U, (t.handlePacket codec datagram now).lastRecv = now := by
    intro t
    rw [handlePacket_lastRecv, hdec]
    rfl
  simp only [BasicSession.step, BasicSession.onSocketRecv, hreceiving, hopen, hec]
  simp only [Bool.true_eq_false, Bool.false_eq_true, if_false, if_true]
  split_ifs
  · exact hhandled _
  · exact hhandled _

lemma lastRecv_of_heard (codec : PacketCodec) (config : SessionConfig) (cc : O) (cc' : U)
    {earlier later : List Event} {e : Event} {now : Time}
    (hclock : ((earlier ++ e :: later).filterMap clock).Pairwise (· ≤ ·))
    (h : Heard codec (run codec config cc cc' earlier) e now) :
    now ≤ (run codec config cc cc' (earlier ++ e :: later)).lastRecv := by
  induction later using List.reverseRecOn with
  | nil =>
    rw [run_concat, h.lastRecv]
  | append_singleton later e' ih =>
    have hsplit : earlier ++ e :: (later ++ [e']) = (earlier ++ e :: later) ++ [e'] := by simp
    rw [hsplit] at hclock ⊢
    rw [List.filterMap_append, List.pairwise_append] at hclock
    rw [run_concat]
    rcases step_lastRecv codec (run codec config cc cc' (earlier ++ e :: later)) e' with hsame | hread
    · rw [hsame]
      exact ih hclock.1
    · obtain ⟨ec, datagram, packet, rfl, _⟩ := h
      refine hclock.2.2 now ?_ _ ?_
      · exact List.mem_filterMap.mpr ⟨_, List.mem_append_right _ List.mem_cons_self, rfl⟩
      · exact List.mem_filterMap.mpr ⟨e', List.mem_singleton_self e', hread⟩

lemma run_config (codec : PacketCodec) (config : SessionConfig) (cc : O) (cc' : U)
    (events : List Event) : (run codec config cc cc' events).config = config := by
  refine List.foldlRecOn events (BasicSession.step codec)
    (motive := fun s : BasicSession O U => s.config = config) rfl ?_
  intro s hs e _
  exact (step_config codec s e).trans hs

def SystemErrors : Event → Prop
  | .onSocketRecv (.rude _) _ _ _ => False
  | _ => True

instance (e : Event) : Decidable (SystemErrors e) :=
  match e with
  | .onSocketRecv (.rude _) .. => .isFalse id
  | .onSocketRecv .none .. | .onSocketRecv (.system _) .. | .start .. | .retransmitTimer ..
  | .keepaliveTimer .. | .sendCompleted .. | .cancel | .asyncDisconnect _ | .asyncSend ..
  | .asyncRecv .. | .asyncFlush _ => .isTrue trivial

omit [CongestionCtrl O] [CongestionCtrl U] in
lemma keepaliveTimer_failed (codec : PacketCodec) (s : BasicSession O U) {ec : ErrorCode}
    (hec : ec.failed = true) (now : Time) : (s.keepaliveTimer codec ec now).io.log = s.io.log := by
  unfold BasicSession.keepaliveTimer
  rw [if_pos (Or.inl hec)]
  split_ifs <;> rfl

/-- A session first reports a timeout when its keepalive timer fires more than the configured time
after every well-formed datagram it ever received from its peer. -/
theorem timeout_after_silence (codec : PacketCodec) (config : SessionConfig) (cc : O) (cc' : U)
    (events : List Event) (hclock : (events.filterMap clock).Pairwise (· ≤ ·))
    (hsystem : ∀ e ∈ events, SystemErrors e)
    (h : .onDisconnected (makeErrorCode .timeout) ∈ (run codec config cc cc' events).io.log) :
    ∃ before ec now after, events = before ++ .keepaliveTimer ec now :: after ∧
      ec.failed = false ∧
      .onDisconnected (makeErrorCode .timeout) ∉ (run codec config cc cc' before).io.log ∧
      .onDisconnected (makeErrorCode .timeout) ∈
        (run codec config cc cc' (before ++ [.keepaliveTimer ec now])).io.log ∧
      ∀ earlier e later heard, before = earlier ++ e :: later →
        Heard codec (run codec config cc cc' earlier) e heard →
          heard + milliseconds config.timeoutMs.toNat < now := by
  obtain ⟨before, e, after, rfl, habsent, hpresent, hreason⟩ :=
    disconnected_because codec config cc cc' events h
  generalize hcode : makeErrorCode Error.timeout = reason at hreason
  cases hreason with
  | silent ec now hsilent =>
    have hec : ec.failed = false := by
      by_contra hfailed
      rw [Bool.not_eq_false] at hfailed
      have hlog := keepaliveTimer_failed codec (run codec config cc cc' before) hfailed now
      exact habsent (hlog ▸ hpresent)
    refine ⟨before, ec, now, after, rfl, hec, habsent, by rw [run_concat]; exact hpresent, ?_⟩
    rintro earlier e later heard rfl hheard
    rw [List.filterMap_append, List.pairwise_append] at hclock
    have hlast := lastRecv_of_heard codec config cc cc' hclock.1 hheard
    rw [run_config] at hsilent
    exact (Nat.add_le_add_right hlast _).trans_lt (Nat.add_lt_of_lt_sub' hsilent)
  | socket _ sender datagram now hec =>
    have hsys := hsystem (.onSocketRecv reason sender datagram now) (by simp)
    rw [← hcode] at hsys
    exact hsys.elim
  | reset => cases hcode
  | cancelled => cases hcode
  | unencodable => cases hcode
  | farewell => cases hcode

/-- The peer is heard once, then the keepalive timer fires 31 seconds later. -/
def silentRun : List Event :=
  [.start ⟨1, 7#16⟩ 0,
    .onSocketRecv .none ⟨1, 7#16⟩ (DefaultCodec.defaultCodec.encodePacket { type := .keepalive }) 5,
    .keepaliveTimer .none 31000000000]

theorem timeout_after_silence_once :
    (run DefaultCodec.defaultCodec.toPacketCodec {} (⟨⟩ : Null) (⟨⟩ : Null) silentRun).io.log =
        [.onConnected, .onDisconnected (makeErrorCode .timeout)] ∧
      ∃ before ec now after, silentRun = before ++ .keepaliveTimer ec now :: after ∧
        ec.failed = false ∧
        .onDisconnected (makeErrorCode .timeout) ∉ (run DefaultCodec.defaultCodec.toPacketCodec {}
          (⟨⟩ : Null) (⟨⟩ : Null) before).io.log ∧
        .onDisconnected (makeErrorCode .timeout) ∈ (run DefaultCodec.defaultCodec.toPacketCodec {}
          (⟨⟩ : Null) (⟨⟩ : Null) (before ++ [.keepaliveTimer ec now])).io.log ∧
        ∀ earlier e later heard, before = earlier ++ e :: later →
          Heard DefaultCodec.defaultCodec.toPacketCodec
              (run DefaultCodec.defaultCodec.toPacketCodec {} (⟨⟩ : Null) (⟨⟩ : Null) earlier) e
              heard →
            heard + milliseconds 30000 < now := by
  refine ⟨by decide +kernel, ?_⟩
  exact timeout_after_silence DefaultCodec.defaultCodec.toPacketCodec {} (⟨⟩ : Null) (⟨⟩ : Null)
    silentRun (by decide) (by decide) (by decide +kernel)

end ReliableUdp.DisconnectReasons
