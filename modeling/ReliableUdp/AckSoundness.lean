import ReliableUdp.AckTracking

/-! An acknowledgement removes from the sender only packets the receiver has. -/
namespace ReliableUdp.AckSoundness
open Protocol ChannelCommon ReliableChannel OrderedReceiver ReliableSender ReliablePair
open OrderedDelivery AckTracking
open UnorderedDelivery (Collects collects_start)

variable {C : Type} {ordered : Bool} {Ws Wr W : Window}

/-- The payload of index `n` was handed to the receive queue or is in the receive buffer. -/
def Possesses (s : Pair C ordered Ws Wr) (n : ℕ) : Prop :=
  ∃ x, s.sent[n]? = some x ∧
    ((∃ i : ℕ, s.handed[i]? = some n ∧ (delivered s.receiverIo.log)[i]? = some x) ∨
      s.receiver.receiveBuffer.get (wire n).toNat = some ⟨wire n, x⟩)

lemma possesses_of_has {s : Pair C true Ws Wr} {held : ℕ → Option (List Byte)}
    (h : Reassembles s held) {n : ℕ} (hn : Has s.expected held n) : Possesses s n := by
  rcases hn with hlt | hheld
  · have hget := List.getElem?_eq_getElem (hlt.trans_le h.progress)
    refine ⟨_, hget, Or.inl ⟨n, ?_, ?_⟩⟩
    · rw [h.handed]
      exact List.getElem?_range hlt
    · rw [h.delivered, List.getElem?_take_of_lt hlt, hget]
  · obtain ⟨x, hx⟩ := Option.isSome_iff_exists.mp hheld
    exact ⟨x, h.authentic n x hx, Or.inr (h.holds.stored n x hx)⟩

lemma possesses_of_handed {s : Pair C false Ws Wr} (h : Collects s) {n : ℕ} (hn : n ∈ s.handed) :
    Possesses s n := by
  obtain ⟨i, hi⟩ := List.mem_iff_getElem?.mp hn
  have hmap := congrArg (fun xs : List (Option (List Byte)) => xs[i]?) h.delivered
  simp only [List.getElem?_map, hi, Option.map_some] at hmap
  obtain ⟨x, hx, hsent⟩ := Option.map_eq_some_iff.mp hmap
  exact ⟨x, hsent.symm, Or.inl ⟨i, hi, hx⟩⟩

/-- The environment under which sequence numbers and slots are unambiguous: arrivals within half
the range, acknowledgements from the receiver only. -/
def Unambiguous (s : Pair C ordered W W) (e : Event) : Prop :=
  (W.size ∣ 65536 ∨ s.sent.length < 65536) ∧
    match e with
    | .dataArrives position _ => ∀ p ∈ s.data[position]?,
        (∀ M ∈ s.received.max?, Close p.1 M) ∧ (ordered = true → Close p.1 s.expected)
    | .ackArrives position _ => ∀ a ∈ s.acks[position]?, ∀ p ∈ s.indexed, Close p.1 a.1
    | .packetArrives packet _ => packet.type ≠ .ack
    | _ => True

instance (s : Pair C ordered W W) (e : Event) : Decidable (Unambiguous s e) :=
  match e with
  | .dataArrives position _ =>
    inferInstanceAs (Decidable ((W.size ∣ 65536 ∨ s.sent.length < 65536) ∧
      ∀ p ∈ s.data[position]?,
        (∀ M ∈ s.received.max?, Close p.1 M) ∧ (ordered = true → Close p.1 s.expected)))
  | .ackArrives position _ =>
    inferInstanceAs (Decidable ((W.size ∣ 65536 ∨ s.sent.length < 65536) ∧
      ∀ a ∈ s.acks[position]?, ∀ p ∈ s.indexed, Close p.1 a.1))
  | .packetArrives packet _ =>
    inferInstanceAs (Decidable ((W.size ∣ 65536 ∨ s.sent.length < 65536) ∧ packet.type ≠ .ack))
  | .asyncSend .. | .sendCompleted .. | .onTick _ | .flush | .asyncRecv .. =>
    inferInstanceAs (Decidable ((W.size ∣ 65536 ∨ s.sent.length < 65536) ∧ True))

lemma unclashing_of_unambiguous {codec : LawfulCodec} {s : Pair C true W W}
    {held : ℕ → Option (List Byte)} (h : Tracking codec s held) (hsound : Sound codec s) {e : Event}
    (hg : Unambiguous s e) : Unclashing s e := by
  cases e with
  | dataArrives position now =>
    intro p hp
    obtain ⟨hnear, hexpected⟩ := hg.2 p hp
    refine ⟨hexpected rfl, hnear, ?_⟩
    intro b hb hin
    obtain ⟨m, hm, hseqm, hslot⟩ := h.reassembles.holds.only _ b hb
    obtain ⟨_, _, _, _, hsent⟩ := hsound.data p (List.mem_of_getElem? hp)
    have hmlt := (List.getElem?_eq_some_iff.mp (h.reassembles.authentic m _ hm)).1
    have hnlt := (List.getElem?_eq_some_iff.mp hsent).1
    have hmn : m = p.1 := slot_injective (h.reassembles.holds.window m _ hm) hin hslot
      (hg.1.imp_right fun hlt => ⟨by omega, by omega⟩)
    rw [hseqm, hmn]
  | _ => trivial

section Controlled
variable [CongestionCtrl C]

theorem tracking_of_reachable {codec : LawfulCodec} {id : Byte} {retxTimeout retxTimeout' : ℕ}
    {cc cc' : C} {s : Pair C true W W}
    (h : Runs.Reachable (Pair.step codec) Unambiguous
      (Pair.start id retxTimeout retxTimeout' cc cc') s) : ∃ held, Tracking codec s held := by
  have hboth : Sound codec s ∧ ∃ held, Tracking codec s held := by
    refine h.invariant (P := fun s => Sound codec s ∧ ∃ held, Tracking codec s held)
      ⟨sound_start codec id retxTimeout retxTimeout' cc cc', _,
        tracking_start codec id retxTimeout retxTimeout' cc cc'⟩ ?_
    intro s e hs hg
    obtain ⟨hsound, held, hs⟩ := hs
    obtain ⟨held', hs', _⟩ := hs.step hsound (unclashing_of_unambiguous hs hsound hg)
    exact ⟨hsound.step e, held', hs'⟩
  exact hboth.2

theorem recording_of_reachable {codec : LawfulCodec} {id : Byte} {retxTimeout retxTimeout' : ℕ}
    {cc cc' : C} {s : Pair C false W W}
    (h : Runs.Reachable (Pair.step codec) Unambiguous
      (Pair.start id retxTimeout retxTimeout' cc cc') s) : Recording codec s := by
  refine receiver_invariant h (recording_start codec id retxTimeout retxTimeout' cc cc')
    (fun s s' hs => hs.sender) ?_ (fun s buf handler hs => hs.asyncRecv buf handler)
  intro s position now n d packet hs hg hget htype hseq hsent
  exact hs.arrival (hg.2 (n, d) (by rw [hget]; rfl)).1 htype hseq hsent now

/-- A packet that an acknowledgement removes from the sender is one whose payload the receiver has
delivered or buffered. -/
theorem removed_possessed (codec : LawfulCodec) (id : Byte) (retxTimeout retxTimeout' : ℕ)
    (cc cc' : C) (s : Pair C ordered W W)
    (h : Runs.Reachable (Pair.step codec) Unambiguous
      (Pair.start id retxTimeout retxTimeout' cc cc') s)
    (position : ℕ) (now : Time) (hack : Unambiguous s (.ackArrives position now)) (k : ℕ)
    (sp : SentPacket) (hsp : s.sender.sentPackets.get k = some sp)
    (hremoved : (s.step codec (.ackArrives position now)).sender.sentPackets.get k = none) :
    sp.sequenceNumber = wire (s.owner (k % W.size)) ∧ Possesses s (s.owner (k % W.size)) := by
  have hsound := sound_of_reachable h
  refine ⟨(hsound.stored k sp hsp).seq, ?_⟩
  cases ordered with
  | true =>
    obtain ⟨held, hs⟩ := tracking_of_reachable h
    exact possesses_of_has hs.reassembles (hs.covered.removed hsound hack.2 hsp hremoved)
  | false =>
    have hs := recording_of_reachable h
    exact possesses_of_handed hs.collects (hs.covered.removed hsound hack.2 hsp hremoved)

end Controlled

/-- Of two packets only the second arrives; it is buffered and acknowledged. -/
def gapRun : List Event := [.asyncSend [7#8] 0 0, .asyncSend [9#8] 1 0, .dataArrives 1 1]

def gapState : Pair Null true (normalizeWindow 3) (normalizeWindow 3) :=
  gapRun.foldl (Pair.step DefaultCodec.defaultCodec) (Pair.start 0 200 200 ⟨⟩ ⟨⟩)

theorem removed_possessed_gap :
    delivered gapState.receiverIo.log = [] ∧ gapState.owner 1 = 1 ∧ Possesses gapState 1 := by
  have hreach : Runs.Reachable (Pair.step DefaultCodec.defaultCodec) Unambiguous
      (Pair.start 0 200 200 ⟨⟩ ⟨⟩) gapState :=
    Runs.reachable_foldl .start gapRun (by decide +kernel)
  have hstored : (gapState.sender.sentPackets.get 1).isSome := by decide +kernel
  obtain ⟨sp, hsp⟩ := Option.isSome_iff_exists.mp hstored
  have hpossessed := removed_possessed DefaultCodec.defaultCodec 0 200 200 ⟨⟩ ⟨⟩ gapState hreach
    0 2 (by decide +kernel) 1 sp hsp (by decide +kernel)
  exact ⟨by decide +kernel, by decide +kernel, hpossessed.2⟩

end ReliableUdp.AckSoundness
