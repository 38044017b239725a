import ReliableUdp.DisconnectReasons
import ReliableUdp.Reception
import ReliableUdp.Runs

/-! Two sessions over a network that loses, duplicates, delays and reorders their datagrams and adds
datagrams of strangers and datagrams that do not decode. Both sides send and receive on all their
channels at once, with timers, send errors and teardown in any order. -/
namespace ReliableUdp.Connection
open Protocol ChannelCommon ReliableChannel OrderedReceiver ReliableSender Session SessionSteps
open SessionMoves SessionOutput Reception DisconnectReasons

inductive Side
  | left
  | right
  deriving DecidableEq, Repr

def Side.other : Side → Side
  | .left => .right
  | .right => .left

lemma Side.other_ne (d : Side) : d.other ≠ d := by
  cases d <;> simp [Side.other]

lemma Side.eq_other {a b : Side} (h : a ≠ b) : b = a.other := by
  cases a <;> cases b <;> simp_all [Side.other]

/-- Next to the sessions stand the records of what their applications asked for, and for every side
and slot the indices it handed over out of the payloads its peer numbered. -/
structure Peers (O U : Type) where
  session : Side → BasicSession O U
  record : Side → Record := fun _ => {}
  handed : Side → ℕ → List ℕ := fun _ _ => []

/-- An event at one side. For an arriving Data packet `index` is the index it carries. -/
structure Occurrence where
  side : Side
  event : Session.Event
  index : ℕ := 0
  deriving DecidableEq, Repr

variable {O U : Type}

/-- The indices a session hands over on slot `k` when it moves from `s` to `s'`. -/
def newlyHanded (s s' : BasicSession O U) (handed : ℕ → List ℕ) (n k : ℕ) : List ℕ :=
  match s.channels.get k with
  | none => []
  | some c =>
    handedBy (handed k) n ((deliveredOn k s'.io.log).length - (deliveredOn k s.io.log).length) c

/-- A datagram of the peer that decodes was sent by the peer. A Data packet carries the payload of
the index and arrives while the channel can tell this index apart. -/
def Genuine (w : Peers O U) (o : Occurrence) (datagram : List Byte) (packet : Packet) : Prop :=
  datagram ∈ transmitted (w.session o.side.other).io.log ∧
    (packet.type = .data → packet.seq = wire o.index ∧
      ((w.record o.side.other).sent packet.channel.toNat)[o.index]? = some packet.payload ∧
      ∀ c ∈ (w.session o.side).channel? packet.channel,
        Expects (w.handed o.side packet.channel.toNat) o.index c)

instance (w : Peers O U) (o : Occurrence) (datagram : List Byte) (packet : Packet) :
    Decidable (Genuine w o datagram packet) :=
  inferInstanceAs (Decidable (_ ∧ (_ → _ ∧ _ ∧ _)))

def arriving : Session.Event → Option (Endpoint × List Byte)
  | .onSocketRecv _ sender datagram _ => some (sender, datagram)
  | _ => none

/-- What may happen: errors of the socket are system errors, and a datagram from the address of the
peer does not decode or is genuine. -/
def Plausible (codec : LawfulCodec) (w : Peers O U) (o : Occurrence) : Prop :=
  SystemErrors o.event ∧ ∀ a ∈ arriving o.event, a.1 = (w.session o.side).io.remote →
    ∀ packet ∈ (codec.decode a.2).toOption, Genuine w o a.2 packet

instance (codec : LawfulCodec) (w : Peers O U) (o : Occurrence) :
    Decidable (Plausible codec w o) :=
  inferInstanceAs (Decidable (_ ∧ _))

def start (config : Side → SessionConfig) (cc : Side → O) (cc' : Side → U) : Peers O U :=
  { session := fun side => BasicSession.create (config side) (cc side) (cc' side) }

section OneSide
variable {codec : PacketCodec}

/-- The channels of a session that hands over the payloads of `sent`, with their ids. -/
structure Hands (sent : ℕ → List (List Byte)) (handed : ℕ → List ℕ) (s : BasicSession O U) :
    Prop where
  ids : ∀ k < kMaxChannels, ∀ c, s.channels.get k = some c → (channelId c).toNat = k
  receives : ∀ k < kMaxChannels, ∀ c, s.channels.get k = some c →
    Receives k (sent k) (handed k) c s.io.log

variable {sent : ℕ → List (List Byte)} {handed : ℕ → List ℕ}

lemma Hands.put {s : BasicSession O U} (h : Hands sent handed s) {handed' : ℕ → List ℕ} {k : ℕ}
    (hk : k < kMaxChannels) {r : ChannelVar O U × Transport} (hid : (channelId r.1).toNat = k)
    (hr : Receives k (sent k) (handed' k) r.1 r.2.log)
    (hothers : ∀ j, j ≠ k → handed' j = handed j ∧
      deliveredOn j r.2.log = deliveredOn j s.io.log) : Hands sent handed' (put s k r) := by
  refine ⟨forall_put hk hid fun j hj _ => h.ids j hj, ?_⟩
  refine forall_put (P := fun j c => Receives j (sent j) (handed' j) c r.2.log) hk hr ?_
  intro j hj hne c hc
  obtain ⟨hsame, hlog⟩ := hothers j hne
  have hold := h.receives j hj c hc
  rw [hsame]
  exact ⟨hold.remembers, by rw [hlog]; exact hold.delivered⟩

lemma Hands.of_log {s s' : BasicSession O U} (h : Hands sent handed s)
    (hchannels : s'.channels = s.channels)
    (hlog : ∀ k, deliveredOn k s'.io.log = deliveredOn k s.io.log) : Hands sent handed s' := by
  refine ⟨by rw [hchannels]; exact h.ids, ?_⟩
  intro k hk c hc
  rw [hchannels] at hc
  have hold := h.receives k hk c hc
  exact ⟨hold.remembers, by rw [hlog k]; exact hold.delivered⟩

lemma newlyHanded_of_log {s s' : BasicSession O U} {k : ℕ}
    (h : deliveredOn k s'.io.log = deliveredOn k s.io.log) (n : ℕ) :
    newlyHanded s s' handed n k = [] := by
  unfold newlyHanded
  rw [h, Nat.sub_self]
  cases s.channels.get k with
  | none => rfl
  | some c => cases c <;> rfl

variable [CongestionCtrl O] [CongestionCtrl U]

lemma call_channelId (c : ChannelVar O U) (io : Transport) (call : Call) :
    channelId (call.run codec c io).1 = channelId c := by
  by_cases hsend : ∀ payload handler now, call ≠ .asyncSend payload handler now
  · exact (call_resends codec c io hsend).id
  · push Not at hsend
    obtain ⟨payload, handler, now, rfl⟩ := hsend
    cases c with
    | unreliable ch =>
      simp only [Call.run, ChannelVar.asyncSend, UnreliableChannel.Channel.asyncSend]
      split_ifs <;> rfl
    | ordered W ch => exact (asyncSend_receiver ch codec payload handler now io).id
    | unordered W ch => exact (asyncSend_receiver ch codec payload handler now io).id

/-- What reaches a session from its peer: Data packets with the payload of index `n`, which the
channel can tell apart. -/
def Fed (codec : PacketCodec) (sent : ℕ → List (List Byte)) (handed : ℕ → List ℕ)
    (s : BasicSession O U) (e : Event) (n : ℕ) : Prop :=
  ∀ ec datagram now packet, e = .onSocketRecv ec s.io.remote datagram now →
    codec.decode datagram = .ok packet → packet.type = .data → packet.seq = wire n ∧
      (sent packet.channel.toNat)[n]? = some packet.payload ∧
      ∀ c ∈ s.channel? packet.channel, Expects (handed packet.channel.toNat) n c

theorem Hands.step {s : BasicSession O U} (h : Hands sent handed s) {e : Event} {n : ℕ}
    (hfed : Fed codec sent handed s e n) :
    Hands sent (fun k => handed k ++ newlyHanded s (s.step codec e) handed n k)
      (s.step codec e) := by
  refine step_keeps codec
    (P := fun t => Hands sent (fun k => handed k ++ newlyHanded s t handed n k) t) ?_ ?_
  · intro t t' ht hmove
    have hquiet : (∀ k, deliveredOn k t'.io.log = deliveredOn k t.io.log) →
        (fun k => handed k ++ newlyHanded s t' handed n k) =
          fun k => handed k ++ newlyHanded s t handed n k := by
      intro hlog
      funext k
      unfold newlyHanded
      rw [hlog k]
    cases hmove with
    | call k hk c hc call cause =>
      have hid := ht.ids k hk c hc
      have hid' : (channelId (call.run codec c t.io).1).toNat = k := by rw [call_channelId]; exact hid
      by_cases hdata : ∃ packet now, call = .onRecv packet now ∧ packet.type = .data
      · obtain ⟨packet, now, rfl, htype⟩ := hdata
        cases cause with
        | onRecv ec datagram _ _ hopen hec hdec _ hchannels hio =>
          obtain ⟨hseq, hx, hexpects⟩ := hfed ec datagram now packet rfl hdec htype
          rw [hchannels] at hc
          have hn := hexpects c (by
            unfold BasicSession.channel?
            rw [if_pos hk, hc]
            rfl)
          have hstart : ∀ j, newlyHanded s t handed n j = [] :=
            fun j => newlyHanded_of_log (by rw [hio]) n
          have hold := ht.receives _ hk c (by rw [hchannels]; exact hc)
          rw [hstart, List.append_nil] at hold
          have hnew := hold.arrival hid htype hseq hx hn now
          refine ht.put hk hid' ?_ ?_
          · simp only [newlyHanded, hc, SessionMoves.put, Call.run]
            rw [hio] at hnew ⊢
            exact hnew
          · intro j hne
            have hother := onRecv_other hid hne packet now t.io
            refine ⟨?_, hother⟩
            rw [hstart j]
            congr 1
            exact newlyHanded_of_log (by rw [← hio]; exact hother) n
      · push Not at hdata
        have hidle := call_idle codec c t.io hdata
        rw [hquiet hidle.delivered]
        exact ht.put hk hid' ((ht.receives k hk c hc).idle hidle) fun j _ => ⟨rfl, hidle.delivered j⟩
    | send packet completion hown hne =>
      have hlog : Quiet t.io (t.io.sendEncoded (codec.encodePacket packet) completion) := ⟨_, rfl, rfl⟩
      rw [hquiet hlog.deliveredOn]
      exact ht.of_log rfl hlog.deliveredOn
    | report effect hreport =>
      have hlog : Quiet t.io (t.io.emit [effect]) := by
        refine ⟨_, rfl, ?_⟩
        cases effect with
        | deliver => exact hreport.elim
        | _ => rfl
      rw [hquiet hlog.deliveredOn]
      exact ht.of_log rfl hlog.deliveredOn
    | bookkeeping _ hbook =>
      have hlog := (Quiet.of_log hbook.log).deliveredOn
      rw [hquiet hlog]
      exact ht.of_log hbook.channels hlog
  · have hstart : (fun k => handed k ++ newlyHanded s s handed n k) = handed := by
      funext k
      rw [newlyHanded_of_log rfl, List.append_nil]
    rw [hstart]
    exact h

end OneSide

section TwoSides

lemma prefix_of_map_range {α : Type} {xs ys : List α} {m : ℕ}
    (h : xs.map some = (List.range m).map fun n => ys[n]?) : xs <+: ys := by
  have hlength : xs.length = m := by simpa using congrArg List.length h
  rw [List.prefix_iff_getElem?]
  intro n hn
  have hget := congrArg (fun zs => zs[n]?) h
  simp only [List.getElem?_map, List.getElem?_range (hlength ▸ hn), Option.map_some,
    List.getElem?_eq_getElem hn] at hget
  exact (Option.some.inj hget).symm

/-- Both sides account for what they send and hand over what the other side numbered. -/
structure Sound (codec : LawfulCodec) (w : Peers O U) : Prop where
  authored : ∀ d, Authored codec.toPacketCodec (w.record d) (w.session d)
  hands : ∀ d, Hands (w.record d.other).sent (w.handed d) (w.session d)
  resets : ∀ d, .onDisconnected (makeErrorCode .connectionReset) ∈ (w.session d).io.log →
    (w.record d.other).disconnecting = true

lemma sound_start (codec : LawfulCodec) (config : Side → SessionConfig) (cc : Side → O)
    (cc' : Side → U) : Sound codec (start config cc cc') := by
  refine ⟨fun d => authored_create _ _ _, ?_, fun d hd => absurd hd List.not_mem_nil⟩
  intro d
  refine ⟨fun k hk c hc => ((authored_create _ _ _ : Authored codec.toPacketCodec {} _).numbers k hk
    c hc).id, ?_⟩
  intro k _ c hc
  refine ⟨?_, rfl⟩
  refine created_channel (P := Remembers _ []) ?_ ?_ ?_ (config d) hc
  · exact fun cfg => ⟨rfl, _, holds_initial, by simp⟩
  · exact fun cfg => ⟨List.nodup_nil, Or.inl ⟨rfl, by simp, rfl⟩⟩
  · exact fun id => ⟨List.Pairwise.nil, fun _ => rfl, by simp⟩

lemma disconnecting_of_datagram {codec : LawfulCodec} {g : Record} {d : List Byte}
    (h : Outgoing codec.toPacketCodec g d) {packet : Packet} (hdec : codec.decode d = .ok packet)
    (htype : packet.type = .disconnect) : g.disconnecting = true := by
  have hdecoded : ∀ sent : Packet, d = codec.encodePacket sent → sent.type = .disconnect := by
    rintro sent rfl
    obtain ⟨crc, hsent⟩ := codec.decode_encodePacket sent
    rw [hdec] at hsent
    rw [← htype, Except.ok.inj hsent]
  cases h with
  | data k hk h =>
    obtain ⟨sent, n, hd, hdata, _⟩ := h
    have hdisconnect := hdecoded sent hd
    rw [hdata] at hdisconnect
    exact absurd hdisconnect (by decide)
  | control sent hd hempty hcontrol =>
    rcases hcontrol with hother | ⟨_, hdisconnecting⟩
    · rw [hdecoded sent hd] at hother
      exact absurd hother (by decide)
    · exact hdisconnecting

variable [CongestionCtrl O] [CongestionCtrl U]

def step (codec : LawfulCodec) (w : Peers O U) (o : Occurrence) : Peers O U :=
  let s := w.session o.side
  let s' := s.step codec.toPacketCodec o.event
  { session := Function.update w.session o.side s'
    record := Function.update w.record o.side ((w.record o.side).after s s' o.event)
    handed := Function.update w.handed o.side fun k =>
      w.handed o.side k ++ newlyHanded s s' (w.handed o.side) o.index k }

theorem Sound.step {codec : LawfulCodec} {w : Peers O U} (h : Sound codec w) {o : Occurrence}
    (ho : Plausible codec w o) : Sound codec (step codec w o) := by
  obtain ⟨hsystem, harrives⟩ := ho
  have hgenuine : ∀ ec datagram now packet, o.event =
      .onSocketRecv ec (w.session o.side).io.remote datagram now →
      codec.decode datagram = .ok packet → Genuine w o datagram packet := by
    intro ec datagram now packet he hdec
    refine harrives (_, datagram) (by rw [he]; rfl) rfl packet ?_
    rw [hdec]
    rfl
  have hfed : Fed codec.toPacketCodec (w.record o.side.other).sent (w.handed o.side)
      (w.session o.side) o.event o.index := by
    intro ec datagram now packet he hdec htype
    exact (hgenuine ec datagram now packet he hdec).2 htype
  have hreset : .onDisconnected (makeErrorCode .connectionReset) ∈
      ((w.session o.side).step codec.toPacketCodec o.event).io.log →
      (w.record o.side.other).disconnecting = true := by
    intro hmem
    rcases disconnected_step codec.toPacketCodec _ o.event hmem with hold | hreason
    · exact h.resets o.side hold
    · generalize he : o.event = e at hreason
      generalize hcode : makeErrorCode Error.connectionReset = reason at hreason
      cases hreason with
      | reset ec datagram now packet hec hdec htype =>
        have hsent := (hgenuine ec datagram now packet he hdec).1
        exact disconnecting_of_datagram ((h.authored o.side.other).output datagram hsent) hdec htype
      | socket _ sender datagram now hec =>
        rw [he, ← hcode] at hsystem
        exact hsystem.elim
      | silent => cases hcode
      | cancelled => cases hcode
      | unencodable => cases hcode
      | farewell => cases hcode
  have hgrown := extends_after (w.record o.side) (w.session o.side)
    ((w.session o.side).step codec.toPacketCodec o.event) o.event
  refine ⟨?_, ?_, ?_⟩
  · intro d
    by_cases hd : d = o.side
    · subst hd
      simp only [Connection.step, Function.update_self]
      exact (h.authored o.side).step o.event
    · simp only [Connection.step, Function.update_of_ne hd]
      exact h.authored d
  · intro d
    by_cases hd : d = o.side
    · subst hd
      simp only [Connection.step, Function.update_self, Function.update_of_ne (Side.other_ne _)]
      exact (h.hands o.side).step hfed
    · have hother := Side.eq_other hd
      have hold := h.hands d
      simp only [Connection.step, Function.update_of_ne hd, ← hother, Function.update_self]
      rw [← hother] at hold
      exact ⟨hold.ids, fun k hk c hc => (hold.receives k hk c hc).mono (hgrown.sent k)⟩
  · intro d
    by_cases hd : d = o.side
    · subst hd
      simp only [Connection.step, Function.update_self, Function.update_of_ne (Side.other_ne _)]
      exact hreset
    · have hother := Side.eq_other hd
      have hold := h.resets d
      simp only [Connection.step, Function.update_of_ne hd, ← hother, Function.update_self]
      rw [← hother] at hold
      exact fun hmem => hgrown.disconnecting (hold hmem)

theorem sound_of_reachable {codec : LawfulCodec} {config : Side → SessionConfig} {cc : Side → O}
    {cc' : Side → U} {w : Peers O U}
    (h : Runs.Reachable (step codec) (Plausible codec) (start config cc cc') w) : Sound codec w :=
  h.invariant (sound_start codec config cc cc') fun _ _ hw ho => hw.step ho

/-- What the mode of a channel promises about the payloads `got` out of `sent`. -/
def Guarantee (sent got : List (List Byte)) (handed : List ℕ) : ChannelVar O U → Prop
  | .ordered _ _ => got <+: sent
  | .unordered _ _ => handed.Nodup
  | .unreliable _ => handed.Pairwise (· < ·)

/-- Each channel of each side hands over payloads that its peer sent on the same channel: an ordered
channel a prefix of them, an unordered one each at most once, an unreliable one in send order. -/
theorem channels_deliver (codec : LawfulCodec) (config : Side → SessionConfig) (cc : Side → O)
    (cc' : Side → U) (w : Peers O U)
    (h : Runs.Reachable (step codec) (Plausible codec) (start config cc cc') w) (d : Side) (ch : Byte)
    (c : ChannelVar O U) (hc : (w.session d).channel? ch = some c) :
    (deliveredOn ch.toNat (w.session d).io.log).map some =
        (w.handed d ch.toNat).map (fun n => ((w.record d.other).sent ch.toNat)[n]?) ∧
      Guarantee ((w.record d.other).sent ch.toNat) (deliveredOn ch.toNat (w.session d).io.log)
        (w.handed d ch.toNat) c := by
  obtain ⟨hlt, hget⟩ := channel?_some hc
  have hreceives := ((sound_of_reachable h).hands d).receives _ hlt c hget
  refine ⟨hreceives.delivered, ?_⟩
  have hremembers := hreceives.remembers
  cases c with
  | unreliable chan => exact hremembers.1
  | ordered W chan =>
    have hdelivered := hreceives.delivered
    rw [hremembers.1] at hdelivered
    exact prefix_of_map_range hdelivered
  | unordered W chan => exact hremembers.1

/-- A session reports a reset of the connection only if the application of its peer disconnected an
open session: neither strangers nor damaged, repeated or late datagrams can tear a session down. -/
theorem reset_only_by_peer (codec : LawfulCodec) (config : Side → SessionConfig) (cc : Side → O)
    (cc' : Side → U) (w : Peers O U)
    (h : Runs.Reachable (step codec) (Plausible codec) (start config cc cc') w) (d : Side)
    (hreset : .onDisconnected (makeErrorCode .connectionReset) ∈ (w.session d).io.log) :
    (w.record d.other).disconnecting = true :=
  (sound_of_reachable h).resets d hreset

end TwoSides

def message (ch : Byte) (seq : Seq) (payload : List Byte) : List Byte :=
  DefaultCodec.defaultCodec.encodePacket
    { type := .data, seq := seq, channel := ch, payload := payload }

/-- Messages of the left side arrive on an ordered and on an unreliable channel, reversed and
repeated, with a damaged one and one of a stranger between them; then the left side disconnects. -/
def chatRun : List Occurrence :=
  [⟨.left, .start ⟨2, 7#16⟩ 0, 0⟩, ⟨.right, .start ⟨1, 7#16⟩ 0, 0⟩,
    ⟨.left, .asyncSend 0 [7#8] 0 1, 0⟩, ⟨.left, .asyncSend 0 [8#8] 1 1, 0⟩,
    ⟨.left, .asyncSend 1 [9#8] 2 1, 0⟩,
    ⟨.right, .onSocketRecv .none ⟨1, 7#16⟩ (message 0 1 [8#8]) 2, 1⟩,
    ⟨.right, .onSocketRecv .none ⟨1, 7#16⟩ [1#8, 2#8] 3, 0⟩,
    ⟨.right, .onSocketRecv .none ⟨9, 9#16⟩ (message 0 0 [6#8]) 3, 0⟩,
    ⟨.right, .onSocketRecv .none ⟨1, 7#16⟩ (message 0 0 [7#8]) 4, 0⟩,
    ⟨.right, .onSocketRecv .none ⟨1, 7#16⟩ (message 1 0 [9#8]) 5, 0⟩,
    ⟨.right, .onSocketRecv .none ⟨1, 7#16⟩ (message 1 0 [9#8]) 6, 0⟩,
    ⟨.left, .asyncDisconnect 3, 0⟩,
    ⟨.right, .onSocketRecv .none ⟨1, 7#16⟩
      (DefaultCodec.defaultCodec.encodePacket { type := .disconnect }) 7, 0⟩]

def chatConfig : SessionConfig := { channels := [{}, { id := 1, mode := .unreliableSequenced }] }

def chatState : Peers Null Null :=
  chatRun.foldl (step DefaultCodec.defaultCodec)
    (start (fun _ => chatConfig) (fun _ => ⟨⟩) (fun _ => ⟨⟩))

lemma chat_reachable : Runs.Reachable (step DefaultCodec.defaultCodec)
    (Plausible DefaultCodec.defaultCodec)
    (start (fun _ => chatConfig) (fun _ => ⟨⟩) (fun _ => ⟨⟩)) chatState :=
  Runs.reachable_foldl .start chatRun (by decide +kernel)

theorem channels_deliver_chat : ∃ c, (chatState.session .right).channel? 0 = some c ∧
    deliveredOn 0 (chatState.session .right).io.log = [[7#8], [8#8]] ∧
    (deliveredOn 0 (chatState.session .right).io.log).map some =
        (chatState.handed .right 0).map (fun n => ((chatState.record .left).sent 0)[n]?) ∧
      Guarantee ((chatState.record .left).sent 0)
        (deliveredOn 0 (chatState.session .right).io.log) (chatState.handed .right 0) c := by
  have hopen : ((chatState.session .right).channel? 0).isSome = true := by decide +kernel
  obtain ⟨c, hc⟩ := Option.isSome_iff_exists.mp hopen
  exact ⟨c, hc, by decide +kernel, channels_deliver DefaultCodec.defaultCodec _ _ _ chatState
    chat_reachable .right 0 c hc⟩

theorem reset_only_by_peer_chat : (chatState.record .left).disconnecting = true :=
  reset_only_by_peer DefaultCodec.defaultCodec _ _ _ chatState chat_reachable .right
    (by decide +kernel)
end ReliableUdp.Connection
