import ReliableUdp.HandshakeNetwork
import ReliableUdp.SessionSteps

/-! Agreement of the handshake: the client adopts the socket of a session that was opened for it,
and that session is the only one it ever exchanges packets with. -/
namespace ReliableUdp.HandshakeAgreement
open Protocol ReliableChannel Session SessionSteps Handshake HandshakeNetwork

def handlerCalls (log : List HandshakeEffect) : ℕ :=
  log.countP fun
    | .handler _ _ => true
    | _ => false

@[simp] lemma handlerCalls_append (xs ys : List HandshakeEffect) :
    handlerCalls (xs ++ ys) = handlerCalls xs + handlerCalls ys := List.countP_append

/-- The effects of one step of the client's handshake and the `done` flag before and after it.
Only a sender that meets the condition is adopted. -/
inductive Effects (adoptable : Endpoint → Prop) (server : Endpoint) :
    Bool → Bool → List HandshakeEffect → Prop
  | idle (done : Bool) : Effects adoptable server done done []
  | sends (done : Bool) (datagram : List Byte) :
      Effects adoptable server done done [.transmit server datagram]
  | fails {done : Bool} (hopen : done = false) (ec : ErrorCode) (rest : List HandshakeEffect)
      (hec : ec.failed = true) (hrest : rest = [] ∨ rest = [.cancelSocket]) :
      Effects adoptable server done true (.handler ec ⟨0, 0⟩ :: rest)
  | adopts {done : Bool} (hopen : done = false) (sender : Endpoint)
      (hadoptable : adoptable sender) :
      Effects adoptable server done true [.handler .none sender]

lemma Effects.calls {adoptable : Endpoint → Prop} {server : Endpoint} {done done' : Bool}
    {added : List HandshakeEffect} (h : Effects adoptable server done done' added) :
    handlerCalls added + (if done then 1 else 0) = if done' then 1 else 0 := by
  cases h with
  | idle => simp [handlerCalls]
  | sends => simp [handlerCalls]
  | fails hopen ec rest hec hrest => rcases hrest with rfl | rfl <;> simp [handlerCalls, hopen]
  | adopts hopen sender _ => simp [handlerCalls, hopen]

lemma Effects.inits {adoptable : Endpoint → Prop} {server : Endpoint} {done done' : Bool}
    {added : List HandshakeEffect} (h : Effects adoptable server done done' added) {dst : Endpoint}
    {d : List Byte} (hd : HandshakeEffect.transmit dst d ∈ added) : dst = server := by
  cases h with
  | idle => cases hd
  | sends => simp_all
  | fails hopen ec rest hec hrest => rcases hrest with rfl | rfl <;> simp at hd
  | adopts hopen sender _ => simp at hd

lemma Effects.adopted {adoptable : Endpoint → Prop} {server : Endpoint} {done done' : Bool}
    {added : List HandshakeEffect} (h : Effects adoptable server done done' added)
    {endpoint : Endpoint} (ha : HandshakeEffect.handler .none endpoint ∈ added) :
    adoptable endpoint := by
  cases h with
  | idle => cases ha
  | sends => simp at ha
  | fails hopen ec rest hec hrest =>
    have hne : ErrorCode.none ≠ ec := by
      intro he
      rw [← he] at hec
      cases hec
    rcases hrest with rfl | rfl <;> simp [hne] at ha
  | adopts hopen sender hsender =>
    simp only [List.mem_singleton, HandshakeEffect.handler.injEq, true_and] at ha
    exact ha ▸ hsender

def Progress (adoptable : Endpoint → Prop) (state state' : ClientState) : Prop :=
  state'.server = state.server ∧ ∃ added, state'.log = state.log ++ added ∧
    Effects adoptable state.server state.done state'.done added

lemma progress_idle (adoptable : Endpoint → Prop) {state state' : ClientState}
    (hserver : state'.server = state.server) (hdone : state'.done = state.done)
    (hlog : state'.log = state.log) : Progress adoptable state state' :=
  ⟨hserver, [], by simpa using hlog, hdone ▸ .idle _⟩

lemma complete_open {state : ClientState} (hopen : state.done = false) (ec : ErrorCode)
    (adopted : Endpoint) : state.complete ec adopted =
      { state with done := true, log := state.log ++ [.handler ec adopted] } := by
  simp [ClientState.complete, hopen]

lemma complete_fails {state : ClientState} (hopen : state.done = false) {ec : ErrorCode}
    (hec : ec.failed = true) (adoptable : Endpoint → Prop) :
    Progress adoptable state (state.complete ec ⟨0, 0⟩) := by
  rw [complete_open hopen]
  exact ⟨rfl, _, rfl, Effects.fails hopen ec [] hec (Or.inl rfl)⟩

lemma sendInit_progress (codec : PacketCodec) {state : ClientState} (hopen : state.done = false)
    (adoptable : Endpoint → Prop) : Progress adoptable state (state.sendInit codec) := by
  unfold ClientState.sendInit
  dsimp only
  split_ifs
  · exact complete_fails (by exact hopen) rfl adoptable
  · exact ⟨rfl, _, rfl, .sends _ _⟩

lemma onRetry_progress (codec : PacketCodec) (state : ClientState) (ec : ErrorCode) (now : Time) :
    Progress (fun _ => False) state (state.onRetry codec ec now) := by
  unfold ClientState.onRetry
  by_cases hw : state.waiting = false
  · rw [if_pos hw]
    exact progress_idle _ rfl rfl rfl
  · rw [if_neg hw]
    dsimp only
    split_ifs with hstop hlate
    · exact progress_idle _ rfl rfl rfl
    · have hopen : state.done = false := by
        rw [not_or] at hstop
        simpa using hstop.2
      rw [complete_open (by exact hopen)]
      exact ⟨rfl, [.handler (makeErrorCode .timeout) ⟨0, 0⟩, .cancelSocket], by simp,
        .fails hopen _ _ rfl (Or.inr rfl)⟩
    · have hopen : state.done = false := by
        rw [not_or] at hstop
        simpa using hstop.2
      exact sendInit_progress codec (by exact hopen) _

lemma onRecv_progress (codec : PacketCodec) (state : ClientState) (ec : ErrorCode)
    (sender : Endpoint) (datagram : List Byte) :
    Progress (fun adopted => adopted = sender ∧ ec.failed = false ∧ state.done = false ∧
        isHandshakeAck codec datagram = true ∧ sender.address = state.server.address)
      state (state.onRecv codec ec sender datagram) := by
  unfold ClientState.onRecv
  by_cases hr : state.receiving = false
  · rw [if_pos hr]
    exact progress_idle _ rfl rfl rfl
  · rw [if_neg hr]
    dsimp only
    by_cases hdone : state.done = true
    · rw [if_pos hdone]
      exact progress_idle _ rfl rfl rfl
    · have hopen : state.done = false := by simpa using hdone
      rw [if_neg hdone]
      by_cases hec : ec.failed = true
      · rw [if_pos hec]
        exact complete_fails (by exact hopen) hec _
      · rw [if_neg hec]
        cases hd : codec.decode datagram with
        | error e => exact progress_idle _ rfl rfl rfl
        | ok packet =>
          dsimp only
          split_ifs with hack
          · have hcode : ec.failed = false := by simpa using hec
            have hkind : isHandshakeAck codec datagram = true := by
              simp [isHandshakeAck, hd, hack.1]
            rw [complete_open (by exact hopen)]
            exact ⟨rfl, _, rfl, Effects.adopts hopen sender ⟨rfl, hcode, hopen, hkind, hack.2⟩⟩
          · exact progress_idle _ rfl rfl rfl

section Sessions
variable {O U : Type}

/-- A step that neither starts the session nor sends except from a started session to its peer. -/
structure Carried (s s' : BasicSession O U) : Prop where
  remote : s'.io.remote = s.io.remote
  started : s'.started = s.started
  receiving : s'.receiving = true → s.receiving = true
  sent : ∀ dst d, Effect.transmit dst d ∈ s'.io.log → Effect.transmit dst d ∈ s.io.log ∨
    (s.started = true ∧ dst = s.io.remote)

lemma Carried.refl (s : BasicSession O U) : Carried s s := ⟨rfl, rfl, id, fun _ _ h => Or.inl h⟩

lemma carried_of_closes {s s' : BasicSession O U} {reason : ErrorCode} (h : Closes s s' reason) :
    Carried s s' :=
  ⟨h.silent.remote, h.started, h.receiving, fun dst d hd => Or.inl (h.silent.sent dst d hd)⟩

lemma carried_cancel (s : BasicSession O U) : Carried s s.cancel := by
  by_cases hclosed : s.closed = true
  · have hsame : s.cancel = s := by simp [BasicSession.cancel, BasicSession.close, hclosed]
    rw [hsame]
    exact Carried.refl s
  · exact carried_of_closes (closes_close (by simpa using hclosed) operationAborted)

variable [CongestionCtrl O] [CongestionCtrl U]

lemma carried_step (codec : PacketCodec) {s : BasicSession O U} (hstarted : s.started = true)
    (e : Session.Event) : Carried s (s.step codec e) := by
  have h := stepped codec s e
  generalize s.step codec e = s' at h ⊢
  cases h with
  | advances _ _ h _ =>
    refine ⟨h.addressed.remote, h.started, h.receiving, ?_⟩
    intro dst d hd
    exact (h.addressed.sent dst d hd).imp_right fun hdst => ⟨hstarted, hdst⟩
  | starts remote now hnew _ =>
    rw [hstarted] at hnew
    cases hnew
  | closes _ _ _ h _ => exact carried_of_closes h
  | receives _ _ _ _ h =>
    exact ⟨h.silent.remote, h.started, fun hr => h.receiving ▸ hr,
      fun dst d hd => Or.inl (h.silent.sent dst d hd)⟩

lemma carried_arrive (codec : PacketCodec) {s : BasicSession O U}
    (hlisten : s.receiving = true → s.started = true) (arrival : Arrival) (now : Time) :
    Carried s (arrive codec s arrival now) := by
  cases hr : s.receiving with
  | false =>
    have hsame : arrive codec s arrival now = s := by simp [arrive, BasicSession.onSocketRecv, hr]
    rw [hsame]
    exact Carried.refl s
  | true =>
    exact carried_step codec (hlisten hr) (.onSocketRecv arrival.code arrival.sender
      (arrival.received (recvBufferSize s)) now)

end Sessions

section Agreement
variable {O U : Type}

/-- The handshake reported success with this endpoint. -/
def Adopted (w : World O U) (endpoint : Endpoint) : Prop :=
  HandshakeEffect.handler .none endpoint ∈ w.connector.handshake.log

def OpenedFor (a : BasicAcceptor O U) (socket client : Endpoint) : Prop :=
  (socket, client) ∈ a.opened.map fun r => (r.socket, r.client)

/-- A session of the acceptor sends to the client it was opened for and to nobody else. -/
structure Served (r : OpenedSession O U) : Prop where
  sent : ∀ dst d, Effect.transmit dst d ∈ r.session.io.log → dst = r.client
  remote : r.session.started = true → r.session.io.remote = r.client
  listening : r.session.receiving = true → r.session.started = true

structure Agreed (codec : PacketCodec) (w : World O U) : Prop where
  server : w.connector.handshake.server = w.acceptor.socket
  calls : handlerCalls w.connector.handshake.log = if w.connector.handshake.done then 1 else 0
  inits : ∀ dst d, HandshakeEffect.transmit dst d ∈ w.connector.handshake.log →
    dst = w.acceptor.socket
  sent : ∀ dst d, Effect.transmit dst d ∈ w.connector.session.io.log →
    w.connector.session.started = true ∧ dst = w.connector.session.io.remote
  remote : w.connector.session.started = true → Adopted w w.connector.session.io.remote
  listening : w.connector.session.receiving = true → w.connector.session.started = true
  opened : ∀ endpoint, Adopted w endpoint → OpenedFor w.acceptor endpoint w.connector.socket
  served : ∀ r ∈ w.acceptor.opened, Served r
  distinct : w.sockets.Nodup
  foreign : ∀ d ∈ w.foreign, d.src ∉ w.sockets ∧
    (d.src.address = w.acceptor.socket.address →
      isHandshakeAck codec (d.bytes.take bufferSize) = false)

lemma Agreed.done_of_adopted {codec : PacketCodec} {w : World O U} (h : Agreed codec w)
    {endpoint : Endpoint} (ha : Adopted w endpoint) : w.connector.handshake.done = true := by
  have hpos : 0 < handlerCalls w.connector.handshake.log := by
    unfold handlerCalls
    rw [List.countP_pos_iff]
    exact ⟨_, ha, rfl⟩
  rw [h.calls] at hpos
  by_contra hd
  simp [hd] at hpos

lemma agreed_client {codec : PacketCodec} {w : World O U} (h : Agreed codec w)
    {s' : BasicSession O U} (hc : Carried w.connector.session s') :
    Agreed codec { w with connector := { w.connector with session := s' } } := by
  refine ⟨h.server, h.calls, h.inits, ?_, ?_, ?_, h.opened, h.served, h.distinct, h.foreign⟩
  · intro dst d hd
    dsimp only
    rw [hc.started, hc.remote]
    rcases hc.sent dst d hd with hd | hd
    · exact h.sent dst d hd
    · exact hd
  · dsimp only
    rw [hc.started, hc.remote]
    exact h.remote
  · intro hr
    rw [hc.started]
    exact h.listening (hc.receiving hr)

lemma served_carried {r : OpenedSession O U} (h : Served r) {s' : BasicSession O U}
    (hc : Carried r.session s') : Served { r with session := s' } := by
  refine ⟨?_, ?_, ?_⟩
  · intro dst d hd
    rcases hc.sent dst d hd with hd | ⟨hstarted, hdst⟩
    · exact h.sent dst d hd
    · exact hdst.trans (h.remote hstarted)
  · intro hstarted
    rw [hc.started] at hstarted
    exact hc.remote.trans (h.remote hstarted)
  · intro hr
    exact hc.started.trans (h.listening (hc.receiving hr))

lemma map_set_same {α β : Type*} (f : α → β) {xs : List α} {i : ℕ} {x y : α}
    (hx : xs[i]? = some x) (hy : f y = f x) : (xs.set i y).map f = xs.map f := by
  obtain ⟨hi, rfl⟩ := List.getElem?_eq_some_iff.mp hx
  rw [List.map_set, hy, ← List.getElem_map f (h := by simpa using hi), List.set_getElem_self]

lemma agreed_set {codec : PacketCodec} {w : World O U} (h : Agreed codec w)
    {a : BasicAcceptor O U} {position : ℕ} {r r' : OpenedSession O U}
    (hr : w.acceptor.opened[position]? = some r) (hsocket : a.socket = w.acceptor.socket)
    (hopened : a.opened = w.acceptor.opened.set position r') (hs : r'.socket = r.socket)
    (hc : r'.client = r.client) (hserved : Served r') : Agreed codec { w with acceptor := a } := by
  have hsockets : ({ w with acceptor := a } : World O U).sockets = w.sockets := by
    simp only [World.sockets, hsocket, hopened, map_set_same OpenedSession.socket hr hs]
  have hmap : a.opened.map (fun r => (r.socket, r.client)) =
      w.acceptor.opened.map fun r => (r.socket, r.client) := by
    rw [hopened, map_set_same _ hr (by rw [hs, hc])]
  refine ⟨h.server.trans hsocket.symm, h.calls, ?_, h.sent, h.remote, h.listening, ?_, ?_, ?_, ?_⟩
  · rw [hsocket]
    exact h.inits
  · intro endpoint ha
    unfold OpenedFor
    rw [hmap]
    exact h.opened endpoint ha
  · intro x hx
    dsimp only at hx
    rw [hopened] at hx
    rcases List.mem_or_eq_of_mem_set hx with hx | rfl
    · exact h.served x hx
    · exact hserved
  · rw [hsockets]
    exact h.distinct
  · rw [hsockets, hsocket]
    exact h.foreign

lemma agreed_updateSession {codec : PacketCodec} {w : World O U} (h : Agreed codec w)
    (position : ℕ) {f : BasicSession O U → BasicSession O U}
    (hf : ∀ r ∈ w.acceptor.opened[position]?, Carried r.session (f r.session)) :
    Agreed codec (w.updateSession position f) := by
  unfold World.updateSession
  cases hr : w.acceptor.opened[position]? with
  | none => exact h
  | some r =>
    have hserved := h.served r (List.mem_of_getElem? hr)
    exact agreed_set h hr rfl rfl rfl rfl (served_carried hserved (hf r hr))

lemma start_cases (s : BasicSession O U) (remote : Endpoint) (now : Time) :
    s.start remote now = s ∨ (s.started = false ∧ (s.start remote now).started = true ∧
      (s.start remote now).io.remote = remote ∧ ∀ dst d,
        Effect.transmit dst d ∈ (s.start remote now).io.log → Effect.transmit dst d ∈ s.io.log) := by
  by_cases h : s.started = true ∨ s.closed = true
  · exact Or.inl (by simp only [BasicSession.start, h, if_true])
  · right
    have hnew : s.started = false := by
      rw [not_or] at h
      simpa using h.1
    have hstart : s.start remote now = { s with
        started := true
        io := { s.io with remote := remote }.emit [.onConnected]
        lastRecv := now
        receiving := true
        retransmitting := true
        keepingAlive := true } := by
      simp only [BasicSession.start, h, if_false]
    rw [hstart]
    exact ⟨hnew, rfl, rfl, fun dst d hd => by simpa using hd⟩

lemma Effects.session {adoptable : Endpoint → Prop} {server : Endpoint} {done done' : Bool}
    {added : List HandshakeEffect} (h : Effects adoptable server done done' added)
    (s : BasicSession O U) (now : Time) :
    added.foldl (BasicConnector.onHandshake now) s = s ∨
      ∃ endpoint, HandshakeEffect.handler .none endpoint ∈ added ∧ s.started = false ∧
        (added.foldl (BasicConnector.onHandshake now) s).started = true ∧
        (added.foldl (BasicConnector.onHandshake now) s).io.remote = endpoint ∧
        ∀ dst d, Effect.transmit dst d ∈
          (added.foldl (BasicConnector.onHandshake now) s).io.log →
            Effect.transmit dst d ∈ s.io.log := by
  cases h with
  | idle => exact Or.inl rfl
  | sends => exact Or.inl rfl
  | fails hopen ec rest hec hrest =>
    rcases hrest with rfl | rfl <;> simp [BasicConnector.onHandshake, hec]
  | adopts hopen sender _ =>
    have hfold : [HandshakeEffect.handler .none sender].foldl (BasicConnector.onHandshake now) s =
        s.start sender now := rfl
    rw [hfold]
    rcases start_cases s sender now with hsame | hstart
    · exact Or.inl hsame
    · exact Or.inr ⟨sender, List.mem_singleton.mpr rfl, hstart⟩

lemma agreed_advance {codec : PacketCodec} {w : World O U} (h : Agreed codec w)
    {adoptable : Endpoint → Prop} {state : ClientState}
    (hp : Progress adoptable w.connector.handshake state)
    (hadoptable : ∀ endpoint, adoptable endpoint →
      OpenedFor w.acceptor endpoint w.connector.socket) (now : Time) :
    Agreed codec { w with connector := w.connector.advance state now } := by
  obtain ⟨hserver, added, hlog, heffects⟩ := hp
  obtain ⟨s', hs'⟩ : ∃ s', s' = added.foldl (BasicConnector.onHandshake now) w.connector.session :=
    ⟨_, rfl⟩
  have hadvance : w.connector.advance state now =
      { w.connector with handshake := state, session := s' } := by
    simp [BasicConnector.advance, hlog, hs']
  have hsession := heffects.session w.connector.session now
  have hkept : ∀ endpoint, Adopted w endpoint →
      HandshakeEffect.handler .none endpoint ∈ state.log := by
    intro endpoint ha
    rw [hlog]
    exact List.mem_append_left _ ha
  rw [hadvance]
  rw [← hs'] at hsession
  refine ⟨hserver.trans h.server, ?_, ?_, ?_, ?_, ?_, ?_, h.served, h.distinct, h.foreign⟩
  · dsimp only
    rw [hlog, handlerCalls_append, h.calls, Nat.add_comm, heffects.calls]
  · intro dst d hd
    dsimp only at hd
    rw [hlog, List.mem_append] at hd
    rcases hd with hd | hd
    · exact h.inits dst d hd
    · exact (heffects.inits hd).trans h.server
  · intro dst d hd
    rcases hsession with hsame | ⟨endpoint, _, hnew, hstarted, hremote, hquiet⟩
    · rw [hsame] at hd ⊢
      exact h.sent dst d hd
    · have hold := (h.sent dst d (hquiet dst d hd)).1
      rw [hnew] at hold
      cases hold
  · intro hstarted
    rcases hsession with hsame | ⟨endpoint, hadded, _, _, hremote, _⟩
    · rw [hsame] at hstarted ⊢
      exact hkept _ (h.remote hstarted)
    · rw [hremote]
      unfold Adopted
      dsimp only
      rw [hlog]
      exact List.mem_append_right _ hadded
  · intro hr
    rcases hsession with hsame | ⟨_, _, _, hstarted, _, _⟩
    · rw [hsame] at hr ⊢
      exact h.listening hr
    · exact hstarted
  · intro endpoint ha
    unfold Adopted at ha
    dsimp only at ha
    rw [hlog, List.mem_append] at ha
    rcases ha with ha | ha
    · exact h.opened endpoint ha
    · exact hadoptable endpoint (heffects.adopted ha)

lemma agreed_openSession {codec : PacketCodec} {w : World O U} (h : Agreed codec w)
    {socket : Endpoint} (hnew : socket ∉ w.sockets) (hunused : socket ∉ w.foreign.map Datagram.src)
    (client : Endpoint) (initSeq : Seq) :
    Agreed codec { w with acceptor := w.acceptor.openSession codec socket client initSeq } := by
  unfold BasicAcceptor.openSession
  dsimp only
  split_ifs
  · exact ⟨h.server, h.calls, h.inits, h.sent, h.remote, h.listening, h.opened, h.served, h.distinct,
      h.foreign⟩
  · have hsockets : ∀ r : OpenedSession O U, r.socket = socket →
        ({ w with acceptor := { w.acceptor with
          accepting := false
          opened := w.acceptor.opened ++ [r] } } : World O U).sockets = w.sockets ++ [socket] := by
      intro r hr
      simp [World.sockets, hr]
    refine ⟨h.server, h.calls, h.inits, h.sent, h.remote, h.listening, ?_, ?_, ?_, ?_⟩
    · intro endpoint ha
      unfold OpenedFor
      rw [List.map_append]
      exact List.mem_append_left _ (h.opened endpoint ha)
    · intro r hr
      rcases List.mem_append.mp hr with hr | hr
      · exact h.served r hr
      · rw [List.mem_singleton.mp hr]
        refine ⟨?_, ?_, ?_⟩
        · intro dst d hd
          simp only [BasicSession.emit, BasicSession.create, Transport.emit_log, List.nil_append,
            List.mem_singleton, Effect.transmit.injEq] at hd
          exact hd.1
        · intro hs
          cases hs
        · intro hs
          cases hs
    · rw [hsockets _ rfl]
      refine h.distinct.append (List.nodup_singleton _) ?_
      simpa using hnew
    · intro d hd
      rw [hsockets _ rfl, List.mem_append, not_or, List.mem_singleton]
      refine ⟨⟨(h.foreign d hd).1, ?_⟩, (h.foreign d hd).2⟩
      intro he
      exact hunused (he ▸ List.mem_map_of_mem hd)

lemma agreed_acceptorRecv {codec : PacketCodec} {w : World O U} (h : Agreed codec w)
    {socket : Endpoint} (hnew : socket ∉ w.sockets) (hunused : socket ∉ w.foreign.map Datagram.src)
    (ec : ErrorCode) (sender : Endpoint) (datagram : List Byte) :
    Agreed codec { w with acceptor := w.acceptor.onRecv codec socket ec sender datagram } := by
  unfold BasicAcceptor.onRecv
  split_ifs
  · exact h
  · exact ⟨h.server, h.calls, h.inits, h.sent, h.remote, h.listening, h.opened, h.served, h.distinct,
      h.foreign⟩
  · cases codec.decode datagram with
    | error e => exact h
    | ok packet =>
      dsimp only
      split_ifs
      · exact h
      · exact agreed_openSession h hnew hunused sender packet.seq

lemma agreed_ackSent {codec : PacketCodec} {w : World O U} (h : Agreed codec w) (position : ℕ)
    (ec : ErrorCode) (now : Time) :
    Agreed codec { w with acceptor := w.acceptor.ackSent position ec now } := by
  unfold BasicAcceptor.ackSent
  cases hr : w.acceptor.opened[position]? with
  | none => exact h
  | some r =>
    have hserved := h.served r (List.mem_of_getElem? hr)
    dsimp only
    split_ifs
    · exact h
    · exact agreed_set h hr rfl rfl rfl rfl ⟨hserved.sent, hserved.remote, hserved.listening⟩
    · refine agreed_set h hr rfl rfl rfl rfl ?_
      rcases start_cases r.session r.client now with hsame | ⟨_, hstarted, hremote, hquiet⟩
      · rw [hsame]
        exact ⟨hserved.sent, hserved.remote, hserved.listening⟩
      · exact ⟨fun dst d hd => hserved.sent dst d (hquiet dst d hd), fun _ => hremote,
          fun _ => hstarted⟩

/-- A HandshakeAck that reaches the client before it is done comes from a session opened for it. -/
lemma adoptable_opened {codec : PacketCodec} {w : World O U} (h : Agreed codec w)
    (hopen : w.connector.handshake.done = false) {d : Datagram} (hsent : w.Sent d)
    (hdst : d.dst = w.connector.socket) (haddress : d.src.address = w.acceptor.socket.address)
    (hack : isHandshakeAck codec (d.bytes.take bufferSize) = true) :
    OpenedFor w.acceptor d.src w.connector.socket := by
  have hdistinct := h.distinct
  unfold World.sockets at hdistinct
  rcases hsent with ⟨_, hinit | hdata⟩ | ⟨r, hr, hsrc, hsend⟩ | hforeign
  · have hserver := h.inits _ _ hinit
    rw [hdst] at hserver
    simp [hserver] at hdistinct
  · have hdone := h.done_of_adopted (h.remote (h.sent _ _ hdata).1)
    rw [hopen] at hdone
    cases hdone
  · have hclient := (h.served r hr).sent _ _ hsend
    rw [hsrc, ← hdst, hclient]
    exact List.mem_map_of_mem (f := fun r => (r.socket, r.client)) hr
  · rw [(h.foreign d hforeign).2 haddress] at hack
    cases hack

lemma agreed_start (codec : PacketCodec) {client server : Endpoint} (hne : client ≠ server)
    (clientConfig serverConfig : SessionConfig) (cc : O) (cc' : U) (now : Time) :
    Agreed codec (World.start codec client server clientConfig serverConfig cc cc' now) := by
  have hidle : ∀ deadline, Agreed codec
      { connector :=
          { socket := client
            handshake := { server := server, deadline := deadline }
            session := BasicSession.create clientConfig cc cc' }
        acceptor :=
          { socket := server, config := serverConfig, orderedCc := cc, unorderedCc := cc' } } := by
    intro deadline
    refine ⟨rfl, rfl, ?_, ?_, ?_, ?_, ?_, ?_, ?_, ?_⟩
    · intro dst d hd
      cases hd
    · intro dst d hd
      cases hd
    · intro hs
      cases hs
    · intro hs
      cases hs
    · intro endpoint ha
      cases ha
    · intro r hr
      cases hr
    · simpa [World.sockets] using hne
    · intro d hd
      cases hd
  have hfirst : ∃ deadline, Progress (fun _ => False) { server := server, deadline := deadline }
      (asyncClientHandshake codec server clientConfig now) :=
    ⟨_, sendInit_progress codec rfl _⟩
  obtain ⟨deadline, hp⟩ := hfirst
  exact agreed_advance (hidle deadline) hp (fun _ hf => hf.elim) now

lemma adopted_unique {codec : PacketCodec} {w : World O U} (h : Agreed codec w) {a b : Endpoint}
    (ha : Adopted w a) (hb : Adopted w b) : a = b := by
  have hcalls := h.calls
  rw [handlerCalls, List.countP_eq_length_filter, h.done_of_adopted ha] at hcalls
  obtain ⟨x, hx⟩ := List.length_eq_one_iff.mp hcalls
  have hone : ∀ endpoint, Adopted w endpoint → HandshakeEffect.handler .none endpoint = x := by
    intro endpoint hadopted
    apply List.mem_singleton.mp
    rw [← hx]
    exact List.mem_filter.mpr ⟨hadopted, rfl⟩
  have hab := (hone a ha).trans (hone b hb).symm
  simpa using hab

lemma adopted_of_sent {codec : PacketCodec} {w : World O U} (h : Agreed codec w)
    {r : OpenedSession O U} (hr : r ∈ w.acceptor.opened) {d : Datagram} (hsent : w.Sent d)
    (hdst : d.dst = r.socket) (hsrc : d.src = w.connector.socket) : Adopted w r.socket := by
  have hdistinct := h.distinct
  have hmem : ∀ r ∈ w.acceptor.opened, r.socket ∈ w.acceptor.opened.map OpenedSession.socket :=
    fun r hr => List.mem_map_of_mem hr
  simp only [World.sockets, List.nodup_cons, List.mem_cons, not_or] at hdistinct
  rcases hsent with ⟨_, hinit | hdata⟩ | ⟨r', hr', hsrc', _⟩ | hforeign
  · have hserver := h.inits _ _ hinit
    rw [hdst] at hserver
    exact absurd (hserver ▸ hmem r hr) hdistinct.2.1
  · obtain ⟨hstarted, hremote⟩ := h.sent _ _ hdata
    rw [← hdst, hremote]
    exact h.remote hstarted
  · exact absurd (hsrc ▸ hsrc' ▸ hmem r' hr') hdistinct.1.2
  · refine absurd ?_ (h.foreign d hforeign).1
    rw [hsrc]
    exact List.mem_cons_self

lemma processes_some {codec : PacketCodec} {s : BasicSession O U} {arrival : Arrival}
    {packet : Packet} (h : processes codec s arrival = some packet) :
    s.receiving = true ∧ arrival.code.failed = false ∧ arrival.sender = s.io.remote := by
  unfold processes at h
  split_ifs at h with hc
  exact ⟨hc.1, hc.2.2.1, hc.2.2.2⟩

lemma adopted_of_processed {codec : PacketCodec} {w : World O U} (h : Agreed codec w)
    {e : NetEvent} (he : w.Admits codec e) {p : Processing} (hp : w.processed codec e = some p) :
    (p.receiver = w.connector.socket → Adopted w p.sender) ∧
      (p.sender = w.connector.socket → p.receiver ≠ w.connector.socket → Adopted w p.receiver) := by
  cases e with
  | clientRecv arrival now =>
    obtain ⟨packet, hpacket, rfl⟩ := Option.map_eq_some_iff.mp hp
    obtain ⟨hreceiving, _, hsender⟩ := processes_some hpacket
    refine ⟨?_, fun _ hne => absurd rfl hne⟩
    intro _
    dsimp only
    rw [hsender]
    exact h.remote (h.listening hreceiving)
  | sessionRecv position arrival now =>
    obtain ⟨r, hr, hmap⟩ := Option.bind_eq_some_iff.mp hp
    obtain ⟨packet, hpacket, rfl⟩ := Option.map_eq_some_iff.mp hmap
    have hmem := List.mem_of_getElem? hr
    have harrives := he r hr
    have hne : r.socket ≠ w.connector.socket := by
      have hdistinct := h.distinct
      simp only [World.sockets, List.nodup_cons, List.mem_cons, not_or] at hdistinct
      intro heq
      exact hdistinct.1.2 (heq ▸ List.mem_map_of_mem hmem)
    refine ⟨fun heq => absurd heq hne, ?_⟩
    intro hclient _
    cases arrival with
    | failed ec =>
      have hcode := (processes_some hpacket).2.1
      rw [Arrival.code, show ec.failed = true from harrives] at hcode
      cases hcode
    | datagram d => exact adopted_of_sent h hmem harrives.1 harrives.2 hclient
  | _ => cases hp

variable [CongestionCtrl O] [CongestionCtrl U]

theorem agreed_step {codec : PacketCodec} {w : World O U} (h : Agreed codec w) {e : NetEvent}
    (he : w.Admits codec e) : Agreed codec (w.step codec e) := by
  cases e with
  | retryTimer ec now =>
    exact agreed_advance h (onRetry_progress codec _ ec now) (fun _ hf => hf.elim) now
  | handshakeRecv arrival now =>
    refine agreed_advance h (onRecv_progress codec _ _ _ _) ?_ now
    rintro endpoint ⟨rfl, hcode, hopen, hack, haddress⟩
    cases arrival with
    | failed ec =>
      rw [Arrival.code, show ec.failed = true from he] at hcode
      cases hcode
    | datagram d =>
      rw [h.server] at haddress
      exact adoptable_opened h hopen he.1 he.2 haddress hack
  | clientRecv arrival now => exact agreed_client h (carried_arrive codec h.listening arrival now)
  | clientCall e =>
    refine agreed_client h ?_
    rcases he.2 with hstarted | rfl
    · exact carried_step codec hstarted e
    · exact carried_cancel _
  | acceptorRecv arrival socket => exact agreed_acceptorRecv h he.2.1 he.2.2 _ _ _
  | ackSent position ec now => exact agreed_ackSent h position ec now
  | sessionRecv position arrival now =>
    rw [World.step]
    refine agreed_updateSession h position ?_
    intro r hr
    exact carried_arrive codec (h.served r (List.mem_of_getElem? hr)).listening arrival now
  | sessionCall position e =>
    rw [World.step]
    refine agreed_updateSession h position ?_
    intro r hr
    exact carried_step codec (he.2 r hr) e
  | foreignSends d =>
    refine ⟨h.server, h.calls, h.inits, h.sent, h.remote, h.listening, h.opened, h.served, h.distinct,
      ?_⟩
    intro d' hd'
    rcases List.mem_append.mp hd' with hd' | hd'
    · exact h.foreign d' hd'
    · rw [List.mem_singleton.mp hd']
      exact he

lemma socket_step (codec : PacketCodec) (w : World O U) (e : NetEvent) :
    (w.step codec e).connector.socket = w.connector.socket := by
  cases e with
  | sessionRecv position arrival now =>
    rw [World.step, World.updateSession]
    cases w.acceptor.opened[position]? <;> rfl
  | sessionCall position e =>
    rw [World.step, World.updateSession]
    cases w.acceptor.opened[position]? <;> rfl
  | _ => rfl

/-- In every run, whatever the network and the timers do, the handshake handler is called at most
once, a reported success names the socket of a session opened for this client, and of all
sessions only that one ever acts on packets of the client and the client on packets of it. -/
theorem handshake_agreement (codec : PacketCodec) (client server : Endpoint) (hne : client ≠ server)
    (clientConfig serverConfig : SessionConfig) (cc : O) (cc' : U) (now : Time) (w : World O U)
    (hw : Runs.Reachable (World.step codec) (World.Admits codec)
      (World.start codec client server clientConfig serverConfig cc cc' now) w) :
    handlerCalls w.connector.handshake.log ≤ 1 ∧
      (∀ adopted, Adopted w adopted → OpenedFor w.acceptor adopted client) ∧
      (∀ adopted adopted', Adopted w adopted → Adopted w adopted' → adopted = adopted') ∧
      (w.acceptor.opened.map OpenedSession.socket).Nodup ∧
      ∀ e, w.Admits codec e → ∀ p, w.processed codec e = some p →
        (p.receiver = client → Adopted w p.sender) ∧
        (p.sender = client → p.receiver ≠ client → Adopted w p.receiver) := by
  have hagreed : Agreed codec w :=
    hw.invariant (agreed_start codec hne clientConfig serverConfig cc cc' now)
      fun _ _ h he => agreed_step h he
  have hsocket : w.connector.socket = client :=
    hw.invariant (P := fun w => w.connector.socket = client) rfl
      fun w e h _ => (socket_step codec w e).trans h
  have hdistinct := hagreed.distinct
  simp only [World.sockets, List.nodup_cons] at hdistinct
  refine ⟨?_, ?_, ?_, hdistinct.2.2, ?_⟩
  · rw [hagreed.calls]
    split_ifs <;> omega
  · intro adopted ha
    rw [← hsocket]
    exact hagreed.opened adopted ha
  · intro adopted adopted' ha ha'
    exact adopted_unique hagreed ha ha'
  · intro e he p hp
    rw [← hsocket]
    exact adopted_of_processed hagreed he hp

end Agreement

/-- Sockets of a client, an acceptor and the two sessions a retried INIT opens. -/
def clientSocket : Endpoint := ⟨1, 5000⟩
def serverSocket : Endpoint := ⟨2, 9000⟩
def firstSocket : Endpoint := ⟨2, 40001⟩
def secondSocket : Endpoint := ⟨2, 40002⟩

def encoded (packet : Packet) : List Byte := DefaultCodec.defaultCodec.encodePacket packet

/-- The INIT is retried, both copies are answered, and the second ACK arrives first. -/
def retriedRun : List NetEvent :=
  [.retryTimer .none 1000000000,
    .acceptorRecv (.datagram ⟨clientSocket, serverSocket, encoded { type := .handshakeInit }⟩)
      firstSocket,
    .ackSent 0 .none 1,
    .acceptorRecv (.datagram ⟨clientSocket, serverSocket, encoded { type := .handshakeInit }⟩)
      secondSocket,
    .ackSent 1 .none 2,
    .handshakeRecv (.datagram ⟨secondSocket, clientSocket, encoded { type := .handshakeAck }⟩) 3,
    .clientCall (.asyncSend 0 [7#8] 0 4)]

def retriedWorld : World Null Null :=
  retriedRun.foldl (World.step DefaultCodec.defaultCodec.toPacketCodec)
    (World.start DefaultCodec.defaultCodec.toPacketCodec clientSocket serverSocket {} {} ⟨⟩ ⟨⟩ 0)

def retriedArrival : NetEvent :=
  .sessionRecv 1 (.datagram ⟨clientSocket, secondSocket,
    encoded { type := .data, payload := [7#8] }⟩) 5

theorem handshake_agreement_retried :
    (∃ p, retriedWorld.processed DefaultCodec.defaultCodec.toPacketCodec retriedArrival = some p ∧
        p.sender = clientSocket ∧ p.receiver = secondSocket) ∧
      Adopted retriedWorld secondSocket ∧ retriedWorld.acceptor.opened.length = 2 := by
  have hreach : Runs.Reachable (World.step DefaultCodec.defaultCodec.toPacketCodec)
      (World.Admits DefaultCodec.defaultCodec.toPacketCodec)
      (World.start DefaultCodec.defaultCodec.toPacketCodec clientSocket serverSocket {} {} ⟨⟩ ⟨⟩ 0)
      retriedWorld :=
    Runs.reachable_foldl .start retriedRun (by decide +kernel)
  obtain ⟨p, hp, hsender, hreceiver⟩ : ∃ p, retriedWorld.processed
      DefaultCodec.defaultCodec.toPacketCodec retriedArrival = some p ∧ p.sender = clientSocket ∧
        p.receiver = secondSocket :=
    ⟨⟨secondSocket, clientSocket, { type := .data, payload := [7#8], crc := 0x0c22ed8e#32 }⟩,
      by decide +kernel, rfl, rfl⟩
  have hagree := handshake_agreement _ _ _ (by decide) _ _ _ _ _ _ hreach
  have hadopted := (hagree.2.2.2.2 retriedArrival (by decide +kernel) p hp).2 hsender
    (by rw [hreceiver]; decide)
  exact ⟨⟨p, hp, hsender, hreceiver⟩, hreceiver ▸ hadopted, by decide +kernel⟩

end ReliableUdp.HandshakeAgreement
