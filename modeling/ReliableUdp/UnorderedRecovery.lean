import ReliableUdp.Recovery

/-! Recovery of an unordered channel with a window of at most 32: one tick of the sender and the
arrival of its datagrams, in any order and any number of times, are enough. -/
namespace ReliableUdp.UnorderedRecovery
open Protocol ChannelCommon ReliableChannel OrderedReceiver ReliableSender ReliablePair
open AckTracking OrderedProgress ReceiveAckTracker
open UnorderedDelivery (Collects NearHighest)
open Recovery (SenderIdle dataArrives_idle arrivals_idle fresh_onTick acks_dataArrives
  retained_lt retained_within stored_step empties_store)

variable {C : Type} {W : Window}

/-- The sender is supplied and arriving indices are less than 32768 away from the highest one, none
exactly 32 ahead of it. -/
def Regular [CongestionCtrl C] (s : Pair C false W W) (e : Event) : Prop :=
  Supplied s e ∧ NearHighest s e ∧ ShiftDefined s e

instance [CongestionCtrl C] (s : Pair C false W W) (e : Event) : Decidable (Regular s e) :=
  inferInstanceAs (Decidable (Supplied s e ∧ NearHighest s e ∧ ShiftDefined s e))

/-- Everything that recovery rests on: what was not handed over is stored, and nothing is stored
for longer than a window. -/
structure Recoverable (codec : LawfulCodec) (s : Pair C false W W) : Prop where
  sound : Sound codec s
  recording : Recording codec s
  complete : ∀ n < s.sent.length, n ∈ s.handed ∨ Retained s n
  within : ∀ n, Retained s n → s.sent.length ≤ n + W.size
  received : ∀ n ∈ s.received, n < s.sent.length

lemma recoverable_start (codec : LawfulCodec) (id : Byte) (retxTimeout retxTimeout' : ℕ)
    (cc cc' : C) :
    Recoverable codec (Pair.start id retxTimeout retxTimeout' cc cc' : Pair C false W W) := by
  refine ⟨sound_start codec id retxTimeout retxTimeout' cc cc',
    recording_start codec id retxTimeout retxTimeout' cc cc', ?_, ?_, ?_⟩
  · intro n hn
    cases hn
  · rintro n ⟨k, sp, hsp, _⟩
    simp [Pair.start] at hsp
  · intro n hn
    cases hn

section Facts
variable {codec : LawfulCodec} {s : Pair C false W W}

lemma handed_le (h : Recording codec s) {M : ℕ} (hM : s.received.max? = some M) {n : ℕ}
    (hn : n ∈ s.handed) : n ≤ M := by
  rcases h.collects.tracker with ⟨hnone, _, _⟩ | ⟨M', hM', ht⟩
  · rw [hM] at hnone
    cases hnone
  · rw [hM] at hM'
    rw [Option.some.inj hM']
    exact ht.greatest.2 hn

/-- A stored index lies at most 32 below the highest index received, at most a window above it and
close to it. -/
lemma Recoverable.near (h : Recoverable codec s) (hsmall : W.size ≤ 32) {n : ℕ}
    (hn : Retained s n) : ∀ M ∈ s.received.max?, M ≤ n + 32 ∧ n ≤ M + W.size ∧ Close n M := by
  intro M hM
  have hhigh := h.received M (List.max?_eq_some_iff.mp hM).1
  have hwithin := h.within n hn
  have hlt := retained_lt h.sound hn
  have hlow : s.sent.length ≤ M + 1 + W.size := by
    by_cases hnext : M + 1 < s.sent.length
    · rcases h.complete (M + 1) hnext with hhanded | hretained
      · have hle := handed_le h.recording hM hhanded
        omega
      · exact h.within (M + 1) hretained
    · omega
  exact ⟨by omega, by omega, close_iff.mpr (by omega)⟩

lemma Recoverable.shiftDefined (h : Recoverable codec s) (hsmall : W.size < 32) {n : ℕ}
    (hn : Retained s n) : s.receiver.recvAckTracker.ShiftDefined (wire n) := by
  rcases h.recording.collects.tracker with ⟨_, _, hfresh⟩ | ⟨M, hM, ht⟩
  · intro hreceived
    rw [hfresh] at hreceived
    cases hreceived
  · obtain ⟨_, habove, hclose⟩ := h.near hsmall.le hn M hM
    exact ht.shiftDefined hclose (by omega)

/-- Once every index was handed over, the delivered payloads are those sent, in some order. -/
lemma delivered_perm (h : Collects s) (hall : ∀ n < s.sent.length, n ∈ s.handed) :
    (delivered s.receiverIo.log).Perm s.sent := by
  have hindices : s.handed.Perm (List.range s.sent.length) := by
    rw [List.perm_ext_iff_of_nodup h.nodup List.nodup_range]
    intro n
    rw [List.mem_range]
    exact ⟨h.sent n, hall n⟩
  have hrange : (List.range s.sent.length).map (fun n => s.sent[n]?) = s.sent.map some := by
    apply List.ext_getElem
    · simp
    · intro i h1 h2
      rw [List.length_map] at h2
      simp [List.getElem?_eq_getElem h2]
  have hmap : ((delivered s.receiverIo.log).map some).Perm (s.sent.map some) := by
    rw [h.delivered, ← hrange]
    exact hindices.map _
  have hback := hmap.filterMap id
  simpa [List.filterMap_map] using hback

lemma SenderIdle.retained {s s' : Pair C false W W} (h : SenderIdle s s') {n : ℕ} :
    Retained s' n ↔ Retained s n := by
  unfold Retained
  rw [h.sender, h.owner]

end Facts

section Controlled
variable [CongestionCtrl C] {codec : LawfulCodec} {s : Pair C false W W}

theorem Recoverable.step (h : Recoverable codec s) (hW : W.size ∣ 65536) {e : Event}
    (hg : Regular s e) : Recoverable codec (s.step codec e) := by
  have hsound := h.sound.step e
  have hwithin : ∀ n, Retained (s.step codec e) n → (s.step codec e).sent.length ≤ n + W.size :=
    fun n hn => retained_within h.within h.sound hW hg.1 hn
  have hcomplete : {n | n ∈ s.handed} ⊆ {n | n ∈ (s.step codec e).handed} →
      ∀ n < (s.step codec e).sent.length,
        n ∈ (s.step codec e).handed ∨ Retained (s.step codec e) n :=
    fun hgrows => possessed_or_retained_step (P := {n | n ∈ s.handed}) h.complete h.sound
      h.recording.covered hg.1 hgrows
  have hstep := h.sound.stepped e
  generalize s.step codec e = s' at hsound hwithin hcomplete hstep ⊢
  cases hstep with
  | sender _ _ hsame =>
    refine ⟨hsound, h.recording.sender hsame, hcomplete ?_, hwithin, ?_⟩
    · rw [hsame.handed]
    · intro n hn
      rw [hsame.received] at hn
      exact (h.received n hn).trans_le hsame.sent.length_le
  | arrival position now n d packet hget htype hseq hsent =>
    have hnear : ∀ M ∈ s.received.max?, Close n M := hg.2.1 (n, d) hget
    refine ⟨hsound, h.recording.arrival hnear htype hseq hsent now, hcomplete ?_, hwithin, ?_⟩
    · intro k hk
      exact List.mem_append_left _ hk
    · intro m hm
      rcases List.mem_append.mp hm with hold | hnew
      · exact h.received m hold
      · rw [List.mem_singleton.mp hnew]
        exact (List.getElem?_eq_some_iff.mp hsent).1
  | asyncRecv buf handler =>
    exact ⟨hsound, h.recording.asyncRecv buf handler, hcomplete subset_rfl, hwithin, h.received⟩

theorem recoverable_of_reachable {id : Byte} {retxTimeout retxTimeout' : ℕ} {cc cc' : C}
    (hW : W.size ∣ 65536) (h : Runs.Reachable (Pair.step codec) Regular
      (Pair.start id retxTimeout retxTimeout' cc cc') s) : Recoverable codec s :=
  h.invariant (recoverable_start codec id retxTimeout retxTimeout' cc cc')
    fun _ _ hs hg => hs.step hW hg

lemma Recoverable.run (h : Recoverable codec s) (hW : W.size ∣ 65536) {events : List Event}
    (hadmitted : Runs.Admitted (Pair.step codec) Regular s events) :
    Recoverable codec (events.foldl (Pair.step codec) s) := by
  induction events generalizing s with
  | nil => exact h
  | cons e events ih => exact ih (h.step hW hadmitted.1) hadmitted.2

lemma handed_dataArrives (s : Pair C false W W) (position : ℕ) (now : Time) {n : ℕ}
    (hn : n ∈ s.handed) : n ∈ (s.step codec (.dataArrives position now)).handed := by
  simp only [Pair.step]
  split
  · exact hn
  · split
    · exact hn
    · exact List.mem_append_left _ hn

lemma handed_arrivals (s : Pair C false W W) (positions : List ℕ) (now : Time) {n : ℕ}
    (hn : n ∈ s.handed) :
    n ∈ ((positions.map (.dataArrives · now)).foldl (Pair.step codec) s).handed := by
  induction positions generalizing s with
  | nil => exact hn
  | cons position positions ih =>
    rw [List.map_cons, List.foldl_cons]
    exact ih _ (handed_dataArrives s position now hn)

lemma Recoverable.delivers (h : Recoverable codec s) (hsmall : W.size ≤ 32) {n : ℕ}
    (hn : Retained s n) {position : ℕ} {d : List Byte} (hget : s.data[position]? = some (n, d))
    (now : Time) (hdefined : W.size = 32 → ShiftDefined s (.dataArrives position now)) :
    Regular s (.dataArrives position now) ∧
      n ∈ (s.step codec (.dataArrives position now)).handed := by
  have hnear := h.near hsmall hn
  refine ⟨⟨trivial, ?_, ?_⟩, ?_⟩
  · intro p hp M hM
    rw [hget, Option.mem_some_iff] at hp
    rw [← hp]
    exact (hnear M hM).2.2
  · rcases hsmall.eq_or_lt with heq | hlt
    · exact hdefined heq
    · intro p hp _
      rw [hget, Option.mem_some_iff] at hp
      rw [← hp]
      exact h.shiftDefined hlt hn
  · obtain ⟨packet, hdec, htype, hseq, hsent⟩ := h.sound.data _ (List.mem_of_getElem? hget)
    have hstep : s.step codec (.dataArrives position now) = s.dataArrives codec n packet now := by
      simp only [Pair.step, hget, hdec]
    rw [hstep]
    obtain ⟨_, harrived⟩ := h.recording.collects.arrival codec (fun M hM => (hnear M hM).2.2) htype
      hseq hsent now
    cases harrived with
    | dropped hold hhanded _ =>
      rw [hhanded]
      refine hold.resolve_right ?_
      rintro ⟨M, hM, hlt⟩
      have hle := (hnear M hM).1
      omega
    | delivered _ _ hhanded _ =>
      rw [hhanded]
      exact List.mem_append_right _ (List.mem_singleton_self n)

theorem Recoverable.delivers_all (h : Recoverable codec s) (hW : W.size ∣ 65536)
    (hsmall : W.size ≤ 32) (now : Time) (positions : List ℕ)
    (hstored : ∀ position ∈ positions, ∃ p, s.data[position]? = some p ∧ Retained s p.1)
    (hdefined : W.size = 32 →
      Runs.Admitted (Pair.step codec) ShiftDefined s (positions.map (.dataArrives · now))) :
    Runs.Admitted (Pair.step codec) Regular s (positions.map (.dataArrives · now)) ∧
      ∀ position ∈ positions, ∀ p, s.data[position]? = some p →
        p.1 ∈ ((positions.map (.dataArrives · now)).foldl (Pair.step codec) s).handed := by
  induction positions generalizing s with
  | nil => exact ⟨trivial, by simp⟩
  | cons position positions ih =>
    obtain ⟨p, hget, hp⟩ := hstored position List.mem_cons_self
    obtain ⟨hregular, hhanded⟩ := h.delivers hsmall hp hget now fun heq => (hdefined heq).1
    have hidle : SenderIdle s (s.step codec (.dataArrives position now)) :=
      dataArrives_idle s position now
    have hrest := ih (h.step hW hregular) (by
      intro position' hposition'
      obtain ⟨p', hget', hp'⟩ := hstored position' (List.mem_cons_of_mem _ hposition')
      exact ⟨p', by rw [hidle.data]; exact hget', (SenderIdle.retained hidle).mpr hp'⟩)
      fun heq => (hdefined heq).2
    obtain ⟨hadmitted, hall⟩ := hrest
    refine ⟨⟨hregular, hadmitted⟩, ?_⟩
    intro position' hposition' p' hget'
    rw [List.map_cons, List.foldl_cons]
    rcases List.mem_cons.mp hposition' with rfl | hlater
    · rw [hget] at hget'
      rw [← Option.some.inj hget']
      exact handed_arrivals _ positions now hhanded
    · exact hall position' hlater p' (by rw [hidle.data]; exact hget')

lemma retained_of_fresh (now : Time) {position : ℕ} {p : ℕ × List Byte}
    (hposition : s.data.length ≤ position) (hget : (s.onTick now).data[position]? = some p) :
    Retained (s.onTick now) p.1 := by
  simp only [Pair.onTick, List.getElem?_append_right hposition] at hget
  obtain ⟨q, hq, rfl⟩ := List.mem_map.mp (List.mem_of_getElem? hget)
  obtain ⟨k, hk, hn⟩ := mem_indexed (List.mem_of_mem_filter hq)
  have hslot := onTick_get s.sender now s.senderIo k
  rw [hk] at hslot
  simp only [ticked] at hslot
  split_ifs at hslot
  · exact ⟨k, _, hslot, hn.symm⟩
  · exact ⟨k, _, hslot, hn.symm⟩

/-- After a tick at which all deadlines have passed, everything is handed over once its datagrams
have arrived. -/
lemma Recoverable.one_tick (h : Recoverable codec s) (hW : W.size ∣ 65536) (hsmall : W.size ≤ 32)
    (now : Time) (hdue : ∀ k sp, s.sender.sentPackets.get k = some sp → sp.nextRetx ≤ now)
    (positions : List ℕ) (hpositions : ∀ position, position ∈ positions ↔
      s.data.length ≤ position ∧ position < (s.onTick now).data.length)
    (hdefined : W.size = 32 → Runs.Admitted (Pair.step codec) ShiftDefined (s.onTick now)
      (positions.map (.dataArrives · now))) :
    Runs.Admitted (Pair.step codec) Regular s
        (.onTick now :: positions.map (.dataArrives · now)) ∧
      ∀ n < s.sent.length, n ∈ ((Event.onTick now :: positions.map (.dataArrives · now)).foldl
        (Pair.step codec) s).handed := by
  have htick : Recoverable codec (s.onTick now) :=
    h.step hW (e := .onTick now) ⟨trivial, trivial, trivial⟩
  obtain ⟨hadmitted, hall⟩ := htick.delivers_all hW hsmall now positions (by
    intro position hposition
    obtain ⟨hfirst, hlast⟩ := (hpositions position).mp hposition
    exact ⟨_, List.getElem?_eq_getElem hlast,
      retained_of_fresh now hfirst (List.getElem?_eq_getElem hlast)⟩) hdefined
  refine ⟨⟨⟨trivial, trivial, trivial⟩, hadmitted⟩, ?_⟩
  intro n hn
  rcases htick.complete n hn with hhanded | hretained
  · exact handed_arrivals (s.onTick now) positions now hhanded
  · obtain ⟨position, hfirst, d, hget⟩ := fresh_onTick now hdue hretained
    have hlast := (List.getElem?_eq_some_iff.mp hget).1
    exact hall position ((hpositions position).mpr ⟨hfirst, hlast⟩) (n, d) hget

/-- After an arrival with which everything was handed over, the last acknowledgement empties the
store. -/
lemma Recoverable.settles (h : Recoverable codec s) (hW : W.size ∣ 65536) (hsmall : W.size ≤ 32)
    {position : ℕ} {p : ℕ × List Byte} (hget : s.data[position]? = some p) (now : Time)
    (hg : Regular s (.dataArrives position now))
    (hall : ∀ n < s.sent.length, n ∈ (s.step codec (.dataArrives position now)).handed) :
    let t := s.step codec (.dataArrives position now)
    Regular t (.ackArrives (t.acks.length - 1) now) ∧
      ∀ k, (t.step codec (.ackArrives (t.acks.length - 1) now)).sender.sentPackets.get k = none := by
  intro t
  have ht : Recoverable codec t := h.step hW hg
  obtain ⟨packet, hdec, _, _, _⟩ := h.sound.data p (List.mem_of_getElem? hget)
  have hstep : t = s.dataArrives codec p.1 packet now := by
    simp only [t, Pair.step, hget, hdec]
  have htop : t.received.max? ≠ none := by
    rw [hstep, show (s.dataArrives codec p.1 packet now).received = s.received ++ [p.1] from rfl]
    simp
  rcases ht.recording.collects.tracker with ⟨hnone, _, _⟩ | ⟨M, hM, htracks⟩
  · exact absurd hnone htop
  · have hlatest := ht.recording.latest M hM
    rw [← hlatest] at hM htracks
    have hreceived : (s.dataArrives codec p.1 packet now).receiver.recvAckTracker.hasReceived =
        true := by
      rw [← hstep]
      exact htracks.hasReceived
    obtain ⟨reply, htype, hack, hbits, hacks⟩ := acks_dataArrives hreceived
    rw [← hstep] at hack hbits hacks
    have hlast : t.acks[t.acks.length - 1]? = some (t.latest, codec.encodePacket reply) := by
      rw [hacks, List.length_append, List.length_singleton, Nat.add_sub_cancel,
        List.getElem?_concat_length]
    obtain ⟨hsupplied, hempty⟩ := empties_store ht.sound htracks (fun n hn => by
      obtain ⟨hle, _, hclose⟩ := ht.near hsmall hn t.latest hM
      have hlt := retained_lt ht.sound hn
      rw [hstep] at hlt
      exact ⟨hclose, hall n hlt, hle⟩) hlast htype hack hbits now
    exact ⟨⟨hsupplied, trivial, trivial⟩, hempty⟩

lemma empty_ackArrives (hempty : ∀ k, s.sender.sentPackets.get k = none) (position : ℕ)
    (now : Time) : Regular s (.ackArrives position now) ∧
      ∀ k, (s.step codec (.ackArrives position now)).sender.sentPackets.get k = none := by
  refine ⟨⟨?_, trivial, trivial⟩, ?_⟩
  · intro a _ p hp
    obtain ⟨k, hk, _⟩ := mem_indexed hp
    rw [hempty k] at hk
    cases hk
  · intro k
    by_contra hne
    obtain ⟨sp', hsp'⟩ := Option.ne_none_iff_exists'.mp hne
    have hother : ∀ payload handler now', Event.ackArrives position now ≠
        .asyncSend payload handler now' := fun _ _ _ he => by cases he
    obtain ⟨sp, hsp⟩ := (stored_step hother).2 k sp' hsp'
    rw [hempty k] at hsp
    cases hsp

lemma Recoverable.last_acknowledgement (h : Recoverable codec s) (hW : W.size ∣ 65536)
    (hsmall : W.size ≤ 32) (now : Time)
    (hdue : ∀ k sp, s.sender.sentPackets.get k = some sp → sp.nextRetx ≤ now)
    (positions : List ℕ) (hpositions : ∀ position, position ∈ positions ↔
      s.data.length ≤ position ∧ position < (s.onTick now).data.length)
    (hdefined : W.size = 32 → Runs.Admitted (Pair.step codec) ShiftDefined (s.onTick now)
      (positions.map (.dataArrives · now))) :
    let t := (Event.onTick now :: positions.map (.dataArrives · now)).foldl (Pair.step codec) s
    Regular t (.ackArrives (t.acks.length - 1) now) ∧
      ∀ k, (t.step codec (.ackArrives (t.acks.length - 1) now)).sender.sentPackets.get k = none := by
  obtain ⟨hadmitted, hall⟩ := h.one_tick hW hsmall now hdue positions hpositions hdefined
  rcases List.eq_nil_or_concat' positions with rfl | ⟨before, last, rfl⟩
  · refine empty_ackArrives (s := s.onTick now) ?_ _ now
    intro k
    by_contra hne
    obtain ⟨sp, hsp⟩ := Option.ne_none_iff_exists'.mp hne
    obtain ⟨position, hfirst, d, hget⟩ := fresh_onTick now hdue
      (show Retained (s.onTick now) _ from ⟨k, sp, hsp, rfl⟩)
    have hmem := (hpositions position).mpr ⟨hfirst, (List.getElem?_eq_some_iff.mp hget).1⟩
    exact absurd hmem List.not_mem_nil
  · rw [List.map_append, List.map_singleton, ← List.cons_append] at hadmitted hall ⊢
    obtain ⟨hbefore, hregular⟩ := (Runs.admitted_concat s _ _).mp hadmitted
    have hidle : SenderIdle (s.onTick now) _ := arrivals_idle codec (s.onTick now) before now
    obtain ⟨_, hbound⟩ := (hpositions last).mp (List.mem_append_right _ List.mem_cons_self)
    obtain ⟨p, hget⟩ : ∃ p, (s.onTick now).data[last]? = some p :=
      ⟨_, List.getElem?_eq_getElem hbound⟩
    rw [← show _ = (s.onTick now).data from hidle.data] at hget
    rw [List.foldl_concat] at hall ⊢
    have hreached : Recoverable codec ((Event.onTick now ::
        before.map (.dataArrives · now)).foldl (Pair.step codec) s) :=
      h.run hW hbefore
    exact hreached.settles hW hsmall hget now hregular fun n hn => hall n (hidle.sent ▸ hn)

/-- In every regular run of an unordered channel whose window is at most 32 and divides the range
of sequence numbers, whatever was lost so far: one tick at which all deadlines have passed and the
arrival of its datagrams, in any order and with repetitions, deliver every payload that was sent
exactly once, and the acknowledgement of the last of them empties the store. With a window of 32 the
order matters in one point: no datagram comes exactly 32 ahead of the latest one. -/
theorem one_tick_delivers (codec : LawfulCodec) (id : Byte) (retxTimeout retxTimeout' : ℕ)
    (cc cc' : C) (s : Pair C false W W) (hW : W.size ∣ 65536) (hsmall : W.size ≤ 32)
    (h : Runs.Reachable (Pair.step codec) Regular (Pair.start id retxTimeout retxTimeout' cc cc') s)
    (now : Time) (hdue : ∀ k sp, s.sender.sentPackets.get k = some sp → sp.nextRetx ≤ now)
    (positions : List ℕ) (hpositions : ∀ position, position ∈ positions ↔
      s.data.length ≤ position ∧ position < (s.onTick now).data.length)
    (hdefined : W.size = 32 → Runs.Admitted (Pair.step codec) ShiftDefined (s.onTick now)
      (positions.map (.dataArrives · now))) :
    let t := (Event.onTick now :: positions.map (.dataArrives · now)).foldl (Pair.step codec) s
    Runs.Admitted (Pair.step codec) Regular s (.onTick now :: positions.map (.dataArrives · now) ++
        [.ackArrives (t.acks.length - 1) now]) ∧
      (delivered t.receiverIo.log).Perm s.sent ∧
      ∀ k, (t.step codec (.ackArrives (t.acks.length - 1) now)).sender.sentPackets.get k = none := by
  have hs := recoverable_of_reachable hW h
  obtain ⟨hadmitted, hall⟩ := hs.one_tick hW hsmall now hdue positions hpositions hdefined
  obtain ⟨hlast, hempty⟩ := hs.last_acknowledgement hW hsmall now hdue positions hpositions hdefined
  have ht := hs.run hW hadmitted
  have hidle := arrivals_idle codec (s.onTick now) positions now
  have hsent : ((Event.onTick now :: positions.map (.dataArrives · now)).foldl (Pair.step codec)
      s).sent = s.sent := hidle.sent
  refine ⟨(Runs.admitted_concat s _ _).mpr ⟨hadmitted, hlast⟩, ?_, hempty⟩
  rw [← hsent]
  exact delivered_perm ht.recording.collects fun n hn => hall n (hsent ▸ hn)

end Controlled

/-- Window four: the second of three packets arrives and is acknowledged, the others are lost. -/
def lossyRun : List Event :=
  [.asyncSend [7#8] 0 0, .asyncSend [8#8] 1 0, .asyncSend [9#8] 2 0, .dataArrives 1 1,
    .ackArrives 0 2]

def lossyState : Pair Null false (normalizeWindow 4) (normalizeWindow 4) :=
  lossyRun.foldl (Pair.step DefaultCodec.defaultCodec) (Pair.start 0 200 200 ⟨⟩ ⟨⟩)

/-- The tick resends the first and the third packet, which overtakes it and arrives twice. -/
theorem one_tick_delivers_lossy :
    delivered lossyState.receiverIo.log = [[8#8]] ∧
      let t := (Event.onTick (milliseconds 1000) ::
        [4, 3, 4].map (.dataArrives · (milliseconds 1000))).foldl
          (Pair.step DefaultCodec.defaultCodec) lossyState
      Runs.Admitted (Pair.step DefaultCodec.defaultCodec) Regular lossyState
          (.onTick (milliseconds 1000) :: [4, 3, 4].map (.dataArrives · (milliseconds 1000)) ++
            [.ackArrives (t.acks.length - 1) (milliseconds 1000)]) ∧
        (delivered t.receiverIo.log).Perm lossyState.sent ∧
        ∀ k, (t.step DefaultCodec.defaultCodec
          (.ackArrives (t.acks.length - 1) (milliseconds 1000))).sender.sentPackets.get k = none := by
  have hreach : Runs.Reachable (Pair.step DefaultCodec.defaultCodec) Regular
      (Pair.start 0 200 200 ⟨⟩ ⟨⟩) lossyState :=
    Runs.reachable_foldl .start lossyRun (by decide +kernel)
  have hdue : ∀ sp ∈ lossyState.sender.sentPackets.entries, sp.nextRetx ≤ milliseconds 1000 := by
    decide +kernel
  have hfirst : lossyState.data.length = 3 := by decide +kernel
  have hlast : (lossyState.onTick (milliseconds 1000)).data.length = 5 := by decide +kernel
  refine ⟨by decide +kernel, ?_⟩
  refine one_tick_delivers DefaultCodec.defaultCodec 0 200 200 ⟨⟩ ⟨⟩ lossyState (by decide)
    (by decide) hreach (milliseconds 1000)
    (fun k sp hsp => hdue sp (SlotTable.mem_entries_of_get hsp)) [4, 3, 4] ?_
    (fun heq => absurd heq (by decide))
  intro position
  rw [hfirst, hlast]
  simp only [List.mem_cons, List.not_mem_nil, or_false]
  omega

end ReliableUdp.UnorderedRecovery
