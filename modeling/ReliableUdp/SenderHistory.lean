import ReliableUdp.SenderRun

/-! The history of a sender run explains its store: which index sits in which slot, how often
and with which bytes it was sent, and when it is due next. -/
namespace ReliableUdp.SenderHistory
open Protocol ChannelCommon ReliableChannel OrderedReceiver ReliableSender Runs SenderRun

section History
variable {W : Window} {T allocated : ℕ} {trace : List Mark} {n k : ℕ} {sp : SentPacket}

/-- The history of index `n` explains the packet in slot `k`. -/
structure Tracked (W : Window) (T allocated : ℕ) (trace : List Mark) (n k : ℕ) (sp : SentPacket) :
    Prop where
  lt : n < allocated
  seq : sp.sequenceNumber = wire n
  slot : (wire n).toNat % W.size = k % W.size
  bytes : ∀ d, (n, d) ∈ datagrams trace → d = sp.encodedPacket
  sent : ((datagrams trace).map Prod.fst).count n =
    1 + (resends trace).count n + (flushes trace).count n
  retx : sp.retxCount = BitVec.ofNat 32 ((resends trace).count n)
  due : ∃ t, lastSend n trace = some t ∧
    sp.nextRetx = t + milliseconds (T * 2 ^ min sp.retxCount.toNat 3)

lemma resends_subset (m : Mark) : m.resends ⊆ m.indices := by
  cases m with
  | tick now resent => exact List.subset_append_left _ _
  | _ => exact List.nil_subset _

lemma flushes_subset (m : Mark) : m.flushes ⊆ m.indices := by
  cases m with
  | flush resent => exact List.subset_append_left _ _
  | _ => exact List.nil_subset _

lemma lastSend_of_notMem {m : Mark} (h : n ∉ m.indices) (last : Option Time) :
    m.lastSend n last = last := by
  cases m with
  | stored i now d =>
    have hne : i ≠ n := by
      rintro rfl
      simp [Mark.indices, Mark.datagrams] at h
    simp [Mark.lastSend, hne]
  | tick now resent =>
    have hout : n ∉ resent.map Prod.fst := by
      simpa [Mark.indices, Mark.datagrams, Mark.dropped] using h
    simp only [Mark.lastSend, hout, if_false]
  | flush resent => rfl
  | removed cause indices =>
    have hout : n ∉ indices := by simpa [Mark.indices, Mark.datagrams, Mark.dropped] using h
    simp only [Mark.lastSend, hout, if_false]

lemma Tracked.bytes_concat (h : Tracked W T allocated trace n k sp) {m : Mark}
    (hm : ∀ d, (n, d) ∈ m.datagrams → d = sp.encodedPacket) (d : List Byte)
    (hd : (n, d) ∈ datagrams (trace ++ [m])) : d = sp.encodedPacket := by
  rw [datagrams_concat, List.mem_append] at hd
  rcases hd with hold | hnew
  · exact h.bytes d hold
  · exact hm d hnew

lemma Tracked.keep (h : Tracked W T allocated trace n k sp) {m : Mark} (hm : n ∉ m.indices)
    {allocated' : ℕ} (ha : allocated ≤ allocated') :
    Tracked W T allocated' (trace ++ [m]) n k sp := by
  have hdata : n ∉ m.datagrams.map Prod.fst := fun hin => hm (List.mem_append_left _ hin)
  have hresends : n ∉ m.resends := fun hin => hm (resends_subset m hin)
  have hflushes : n ∉ m.flushes := fun hin => hm (flushes_subset m hin)
  refine ⟨lt_of_lt_of_le h.lt ha, h.seq, h.slot, ?_, ?_, ?_, ?_⟩
  · exact h.bytes_concat fun d hd => absurd (List.mem_map_of_mem hd) hdata
  · simp [h.sent, List.count_eq_zero_of_not_mem hdata, List.count_eq_zero_of_not_mem hresends,
      List.count_eq_zero_of_not_mem hflushes]
  · simp [h.retx, List.count_eq_zero_of_not_mem hresends]
  · rw [lastSend_concat, lastSend_of_notMem hm]
    exact h.due

lemma Tracked.flush (h : Tracked W T allocated trace n k sp) {resent : List (ℕ × List Byte)}
    (hbytes : ∀ d, (n, d) ∈ resent → d = sp.encodedPacket)
    (honce : (resent.map Prod.fst).count n = 1) :
    Tracked W T allocated (trace ++ [.flush resent]) n k sp := by
  refine ⟨h.lt, h.seq, h.slot, h.bytes_concat hbytes, ?_, ?_, ?_⟩
  · simp only [datagrams_concat, resends_concat, flushes_concat, List.map_append, List.count_append,
      h.sent, Mark.datagrams, Mark.resends, Mark.flushes, honce, List.count_nil]
    omega
  · simp [h.retx, Mark.resends]
  · simpa [Mark.lastSend] using h.due

lemma Tracked.resent (h : Tracked W T allocated trace n k sp) {resent : List (ℕ × List Byte)}
    (hbytes : ∀ d, (n, d) ∈ resent → d = sp.encodedPacket)
    (honce : (resent.map Prod.fst).count n = 1) (now : Time) :
    Tracked W T allocated (trace ++ [.tick now resent]) n k (Channel.retransmitted T now sp) := by
  have hmem : n ∈ resent.map Prod.fst := List.count_pos_iff.mp (by omega)
  refine ⟨h.lt, h.seq, h.slot, h.bytes_concat hbytes, ?_, ?_, ?_⟩
  · simp only [datagrams_concat, resends_concat, flushes_concat, List.map_append, List.count_append,
      h.sent, Mark.datagrams, Mark.resends, Mark.flushes, honce, List.count_nil]
    omega
  · simp only [Channel.retransmitted, h.retx, resends_concat, List.count_append, Mark.resends, honce,
      BitVec.ofNat_add]
    rfl
  · refine ⟨now, ?_, rfl⟩
    simp only [lastSend_concat, Mark.lastSend, hmem, if_true]

end History

section Store
variable {N : ℕ} {store : SlotTable SentPacket N} {owner : ℕ → ℕ}

lemma mem_indexed (hN : 0 < N) {p : ℕ × SentPacket} :
    p ∈ indexed store owner ↔ ∃ k, store.get k = some p.2 ∧ owner (k % N) = p.1 := by
  simp only [indexed, List.mem_filterMap, List.mem_range, Option.map_eq_some_iff]
  constructor
  · rintro ⟨k, hk, sp, hsp, rfl⟩
    exact ⟨k, hsp, by rw [Nat.mod_eq_of_lt hk]⟩
  · rintro ⟨k, hk, hn⟩
    exact ⟨k % N, Nat.mod_lt k hN, p.2, by rw [SlotTable.get_mod, hk], by rw [hn]⟩

lemma indexed_packets (store : SlotTable SentPacket N) (owner : ℕ → ℕ) :
    (indexed store owner).map Prod.snd = store.entries := by
  rw [SlotTable.entries_eq, indexed, List.map_filterMap]
  congr 1
  funext i
  cases store.get i <;> rfl

def Distinct (store : SlotTable SentPacket N) (owner : ℕ → ℕ) : Prop :=
  ∀ j k sp sp', store.get j = some sp → store.get k = some sp' → owner (j % N) = owner (k % N) →
    j % N = k % N

lemma Distinct.nodup (h : Distinct store owner) : ((indexed store owner).map Prod.fst).Nodup := by
  rw [indexed, List.map_filterMap, List.Nodup, List.pairwise_filterMap]
  refine List.Pairwise.imp_of_mem ?_ (List.nodup_range (n := N))
  intro i j hi hj hij n hn n' hn' he
  rw [List.mem_range] at hi hj
  simp only [Option.map_map, Option.map_eq_some_iff, Function.comp_apply] at hn hn'
  obtain ⟨sp, hsp, rfl⟩ := hn
  obtain ⟨sp', hsp', rfl⟩ := hn'
  have hmod := h i j sp sp' hsp hsp' (by rwa [Nat.mod_eq_of_lt hi, Nat.mod_eq_of_lt hj])
  rw [Nat.mod_eq_of_lt hi, Nat.mod_eq_of_lt hj] at hmod
  exact hij hmod

lemma Distinct.count_eq_one (h : Distinct store owner) {l : List (ℕ × SentPacket)}
    (hl : l.Sublist (indexed store owner)) {p : ℕ × SentPacket} (hp : p ∈ l) :
    ((l.map datagramOf).map Prod.fst).count p.1 = 1 := by
  have hmap : (l.map datagramOf).map Prod.fst = l.map Prod.fst := by
    rw [List.map_map]
    rfl
  rw [hmap]
  exact List.count_eq_one_of_mem (h.nodup.sublist (hl.map Prod.fst)) (List.mem_map_of_mem hp)

lemma mem_emptied (hN : 0 < N) {after : SlotTable SentPacket N} {n : ℕ} :
    n ∈ emptied store after owner ↔
      ∃ k sp, store.get k = some sp ∧ after.get k = none ∧ owner (k % N) = n := by
  simp only [emptied, List.mem_map, List.mem_filter, List.mem_range, Bool.and_eq_true,
    Option.isSome_iff_exists, Option.isNone_iff_eq_none]
  constructor
  · rintro ⟨k, ⟨hk, ⟨sp, hsp⟩, hnone⟩, hn⟩
    exact ⟨k, sp, hsp, hnone, by rw [Nat.mod_eq_of_lt hk, hn]⟩
  · rintro ⟨k, sp, hsp, hnone, hn⟩
    refine ⟨k % N, ⟨Nat.mod_lt k hN, ⟨sp, ?_⟩, ?_⟩, hn⟩
    · rw [SlotTable.get_mod, hsp]
    · rw [SlotTable.get_mod, hnone]

end Store

section Sound
variable {C : Type} {ordered : Bool} {W : Window} {T : ℕ}

structure Sound (T : ℕ) (s : SendRun C ordered W) : Prop where
  timeout : s.channel.retxTimeout = T
  next : s.channel.nextSeq = wire s.allocated
  stored : ∀ k sp, s.channel.sentPackets.get k = some sp →
    Tracked W T s.allocated s.trace (s.owner (k % W.size)) k sp
  live : ∀ n t, lastSend n s.trace = some t →
    ∃ k sp, s.channel.sentPackets.get k = some sp ∧ s.owner (k % W.size) = n
  bound : ∀ m ∈ s.trace, ∀ n ∈ m.indices, n < s.allocated
  gone : ∀ n ∈ dropped s.trace, lastSend n s.trace = none
  identical : ∀ n d d', (n, d) ∈ datagrams s.trace → (n, d') ∈ datagrams s.trace → d = d'
  socket : (datagrams s.trace).map Prod.snd = transmitted s.io.log
  count : s.channel.inFlightCount = s.channel.sentPackets.occupied
  lost : s.io.stats.packetsLost = (resends s.trace).length

variable {s : SendRun C ordered W}

lemma sound_start (id : Byte) (T : ℕ) (cc : C) :
    Sound T (SendRun.start id T cc : SendRun C ordered W) := by
  refine ⟨rfl, rfl, ?_, ?_, by simp [SendRun.start], by simp [SendRun.start, dropped],
    by simp [SendRun.start, datagrams], rfl, ?_, rfl⟩
  · intro k sp h
    simp [SendRun.start] at h
  · intro n t h
    cases h
  · exact SlotTable.occupied_empty.symm

lemma Sound.distinct (h : Sound T s) : Distinct s.channel.sentPackets s.owner := by
  intro j k sp sp' hj hk ho
  rw [← (h.stored j sp hj).slot, ← (h.stored k sp' hk).slot, ho]

lemma Sound.dropped_lt (h : Sound T s) {n : ℕ} (hn : n ∈ dropped s.trace) : n < s.allocated := by
  obtain ⟨m, hm, hmn⟩ := List.mem_flatMap.mp hn
  exact h.bound m hm n (List.mem_append_right _ hmn)

lemma Sound.datagrams_lt (h : Sound T s) {n : ℕ} {d : List Byte} (hn : (n, d) ∈ datagrams s.trace) :
    n < s.allocated := by
  obtain ⟨m, hm, hmn⟩ := List.mem_flatMap.mp hn
  exact h.bound m hm n (List.mem_append_left _ (List.mem_map_of_mem hmn))

lemma Sound.resent_bytes (h : Sound T s) {l : List (ℕ × SentPacket)}
    (hl : l.Sublist (indexed s.channel.sentPackets s.owner)) {k : ℕ} {sp : SentPacket}
    (hk : s.channel.sentPackets.get k = some sp) {d : List Byte}
    (hd : (s.owner (k % W.size), d) ∈ l.map datagramOf) : d = sp.encodedPacket := by
  obtain ⟨p, hp, he⟩ := List.mem_map.mp hd
  obtain ⟨j, hj, ho⟩ := (mem_indexed W.pos).mp (hl.subset hp)
  obtain ⟨hfst, hsnd⟩ := Prod.mk.inj he
  have hmod := h.distinct j k p.2 sp hj hk (ho.trans hfst)
  rw [SlotTable.get_congr _ hmod, hk] at hj
  rw [← hsnd, ← Option.some.inj hj]

lemma Sound.identical_resent (h : Sound T s) {l : List (ℕ × SentPacket)}
    (hl : l.Sublist (indexed s.channel.sentPackets s.owner)) :
    ∀ n d d', (n, d) ∈ datagrams s.trace ++ l.map datagramOf →
      (n, d') ∈ datagrams s.trace ++ l.map datagramOf → d = d' := by
  have hslot : ∀ n d, (n, d) ∈ l.map datagramOf → ∃ k sp,
      s.channel.sentPackets.get k = some sp ∧ s.owner (k % W.size) = n := by
    intro n d hd
    obtain ⟨p, hp, he⟩ := List.mem_map.mp hd
    obtain ⟨k, hk, ho⟩ := (mem_indexed W.pos).mp (hl.subset hp)
    exact ⟨k, p.2, hk, ho.trans (Prod.mk.inj he).1⟩
  have hstored : ∀ k sp, s.channel.sentPackets.get k = some sp → ∀ d,
      (s.owner (k % W.size), d) ∈ datagrams s.trace ++ l.map datagramOf → d = sp.encodedPacket := by
    intro k sp hk d hd
    rcases List.mem_append.mp hd with hold | hnew
    · exact (h.stored k sp hk).bytes d hold
    · exact h.resent_bytes hl hk hnew
  intro n d d' hd hd'
  by_cases hnew : ∃ d'', (n, d'') ∈ l.map datagramOf
  · obtain ⟨d'', hd''⟩ := hnew
    obtain ⟨k, sp, hk, rfl⟩ := hslot n d'' hd''
    rw [hstored k sp hk d hd, hstored k sp hk d' hd']
  · have hold : ∀ x, (n, x) ∈ datagrams s.trace ++ l.map datagramOf → (n, x) ∈ datagrams s.trace := by
      intro x hx
      rcases List.mem_append.mp hx with hx | hx
      · exact hx
      · exact absurd ⟨x, hx⟩ hnew
    exact h.identical n d d' (hold d hd) (hold d' hd')

lemma Sound.resent_lt (h : Sound T s) {l : List (ℕ × SentPacket)}
    (hl : l.Sublist (indexed s.channel.sentPackets s.owner)) :
    ∀ n ∈ (l.map datagramOf).map Prod.fst, n < s.allocated := by
  intro n hn
  simp only [List.map_map, List.mem_map, Function.comp_apply] at hn
  obtain ⟨p, hp, rfl⟩ := hn
  obtain ⟨k, hk, ho⟩ := (mem_indexed W.pos).mp (hl.subset hp)
  simp only [datagramOf, ← ho]
  exact (h.stored k p.2 hk).lt

lemma bound_concat {trace : List Mark} {m : Mark} {allocated allocated' : ℕ}
    (h : ∀ m ∈ trace, ∀ n ∈ m.indices, n < allocated) (ha : allocated ≤ allocated')
    (hm : ∀ n ∈ m.indices, n < allocated') :
    ∀ m' ∈ trace ++ [m], ∀ n ∈ m'.indices, n < allocated' := by
  intro m' hm' n hn
  rcases List.mem_append.mp hm' with hold | hnew
  · exact lt_of_lt_of_le (h m' hold n hn) ha
  · rw [List.mem_singleton] at hnew
    exact hm n (hnew ▸ hn)

lemma Sound.quiet (h : Sound T s) {ch : Channel C ordered W} {io : Transport} {allocated : ℕ}
    (ha : s.allocated ≤ allocated) (htimeout : ch.retxTimeout = s.channel.retxTimeout)
    (hnext : ch.nextSeq = wire allocated) (hstore : ch.sentPackets = s.channel.sentPackets)
    (hcount : ch.inFlightCount = s.channel.inFlightCount)
    (hlog : transmitted io.log = transmitted s.io.log)
    (hstats : io.stats.packetsLost = s.io.stats.packetsLost) :
    Sound T { s with channel := ch, io := io, allocated := allocated } := by
  refine ⟨htimeout.trans h.timeout, hnext, ?_, ?_, ?_, h.gone, h.identical, ?_, ?_, ?_⟩
  · intro k sp hk
    have ht := h.stored k sp (hstore ▸ hk)
    exact ⟨lt_of_lt_of_le ht.lt ha, ht.seq, ht.slot, ht.bytes, ht.sent, ht.retx, ht.due⟩
  · intro n t hn
    obtain ⟨k, sp, hk, ho⟩ := h.live n t hn
    exact ⟨k, sp, by rw [hstore, hk], ho⟩
  · intro m hm n hn
    exact lt_of_lt_of_le (h.bound m hm n hn) ha
  · exact h.socket.trans hlog.symm
  · rw [hcount, h.count, hstore]
  · exact hstats.trans h.lost

lemma Sound.tracked_fresh (h : Sound T s) (d : List Byte) (now : Time) :
    Tracked W T (s.allocated + 1) (s.trace ++ [.stored s.allocated now d]) s.allocated
      s.channel.nextSeq.toNat (freshPacket s.channel d now) := by
  have hdata : s.allocated ∉ (datagrams s.trace).map Prod.fst := by
    intro hin
    obtain ⟨p, hp, he⟩ := List.mem_map.mp hin
    have hlt := h.datagrams_lt (n := p.1) (d := p.2) hp
    omega
  have hfresh : ∀ f : Mark → List ℕ, (∀ m, f m ⊆ m.indices) → s.allocated ∉ s.trace.flatMap f := by
    intro f hf hin
    obtain ⟨m, hm, hmn⟩ := List.mem_flatMap.mp hin
    have hlt := h.bound m hm _ (hf m hmn)
    omega
  have hresends : (resends s.trace).count s.allocated = 0 :=
    List.count_eq_zero_of_not_mem (hfresh _ resends_subset)
  have hflushes : (flushes s.trace).count s.allocated = 0 :=
    List.count_eq_zero_of_not_mem (hfresh _ flushes_subset)
  refine ⟨Nat.lt_succ_self _, h.next, by rw [h.next], ?_, ?_, ?_, ?_⟩
  · intro d' hd'
    simp only [datagrams_concat, Mark.datagrams, List.mem_append, List.mem_singleton] at hd'
    rcases hd' with hold | hnew
    · exact absurd (List.mem_map_of_mem (f := Prod.fst) hold) hdata
    · exact (Prod.mk.inj hnew).2
  · simp [Mark.datagrams, Mark.resends, Mark.flushes, hresends, hflushes,
      List.count_eq_zero_of_not_mem hdata]
  · simp [freshPacket, Mark.resends, hresends]
  · refine ⟨now, by simp [Mark.lastSend], ?_⟩
    simp [freshPacket, h.timeout]

lemma Sound.tracked_store (h : Sound T s) {d : List Byte} {now : Time}
    (hfree : s.channel.sentPackets.get s.channel.nextSeq.toNat = none) {k : ℕ} {sp : SentPacket}
    (hk : (s.channel.sentPackets.set s.channel.nextSeq.toNat
      (some (freshPacket s.channel d now))).get k = some sp) :
    Tracked W T (s.allocated + 1) (s.trace ++ [.stored s.allocated now d])
      (Function.update s.owner (s.channel.nextSeq.toNat % W.size) s.allocated (k % W.size)) k sp := by
  rw [SlotTable.get_set _ W.pos] at hk
  split_ifs at hk with hslot
  · have ht := h.tracked_fresh d now
    rw [← Option.some.inj hk, ← hslot, Function.update_self]
    exact ⟨ht.lt, ht.seq, ht.slot.trans hslot, ht.bytes, ht.sent, ht.retx, ht.due⟩
  · have ht := h.stored k sp hk
    rw [Function.update_of_ne (SlotTable.mod_ne_of_get hfree hk).symm]
    refine ht.keep ?_ (Nat.le_succ _)
    simp only [Mark.indices, Mark.datagrams, Mark.dropped, List.map_cons, List.map_nil,
      List.append_nil, List.mem_singleton]
    exact ht.lt.ne

lemma Sound.identical_fresh (h : Sound T s) (d : List Byte) :
    ∀ n x x', (n, x) ∈ datagrams s.trace ++ [(s.allocated, d)] →
      (n, x') ∈ datagrams s.trace ++ [(s.allocated, d)] → x = x' := by
  intro n x x' hx hx'
  rw [List.mem_append, List.mem_singleton] at hx hx'
  rcases hx with hx | hx <;> rcases hx' with hx' | hx'
  · exact h.identical n x x' hx hx'
  · have hlt := h.datagrams_lt hx
    have he := (Prod.mk.inj hx').1
    omega
  · have hlt := h.datagrams_lt hx'
    have he := (Prod.mk.inj hx).1
    omega
  · rw [(Prod.mk.inj hx).2, (Prod.mk.inj hx').2]

lemma Sound.store (h : Sound T s) {ch : Channel C ordered W} {io : Transport} {d : List Byte}
    {now : Time} (hfree : s.channel.sentPackets.get s.channel.nextSeq.toNat = none)
    (htimeout : ch.retxTimeout = s.channel.retxTimeout)
    (hnext : ch.nextSeq = s.channel.nextSeq + 1)
    (hstore : ch.sentPackets = s.channel.sentPackets.set s.channel.nextSeq.toNat
      (some (freshPacket s.channel d now)))
    (hcount : ch.inFlightCount = s.channel.inFlightCount + 1)
    (hlog : transmitted io.log = transmitted s.io.log ++ [d])
    (hstats : io.stats.packetsLost = s.io.stats.packetsLost) :
    Sound T { channel := ch
              io := io
              allocated := s.allocated + 1
              owner := Function.update s.owner (s.channel.nextSeq.toNat % W.size) s.allocated
              trace := s.trace ++ [.stored s.allocated now d] } := by
  refine ⟨htimeout.trans h.timeout, by rw [hnext, h.next, wire_succ], ?_, ?_, ?_, ?_, ?_, ?_, ?_, ?_⟩
  · intro k sp hk
    exact h.tracked_store hfree (hstore ▸ hk)
  · intro n t hn
    by_cases hnew : s.allocated = n
    · refine ⟨s.channel.nextSeq.toNat, freshPacket s.channel d now, ?_, ?_⟩
      · simp only [hstore]
        rw [SlotTable.get_set_same _ W.pos rfl]
      · simp [hnew]
    · simp only [lastSend_concat, Mark.lastSend, hnew, if_false] at hn
      obtain ⟨k, sp, hk, ho⟩ := h.live n t hn
      have hother := SlotTable.mod_ne_of_get hfree hk
      refine ⟨k, sp, ?_, (Function.update_of_ne hother.symm _ _).trans ho⟩
      simp only [hstore]
      rw [SlotTable.get_set_other _ hother, hk]
  · refine bound_concat h.bound (Nat.le_succ _) ?_
    intro n hn
    simp only [Mark.indices, Mark.datagrams, Mark.dropped, List.map_cons, List.map_nil,
      List.append_nil, List.mem_singleton] at hn
    rw [hn]
    exact Nat.lt_succ_self _
  · intro n hn
    simp only [dropped_concat, Mark.dropped, List.append_nil] at hn
    have hlt := h.dropped_lt hn
    have hne : s.allocated ≠ n := by omega
    simp only [lastSend_concat, Mark.lastSend, hne, if_false]
    exact h.gone n hn
  · simpa only [datagrams_concat, Mark.datagrams] using h.identical_fresh d
  · simp [Mark.datagrams, h.socket, hlog]
  · have hocc := SlotTable.occupied_set s.channel.sentPackets W.pos s.channel.nextSeq.toNat
      (some (freshPacket s.channel d now))
    rw [hfree] at hocc
    simp only [Option.toList_none, Option.toList_some, List.length_nil, List.length_singleton] at hocc
    simp only [hcount, hstore, h.count]
    omega
  · simp [Mark.resends, hstats, h.lost]

lemma Sound.shrink (h : Sound T s) {ch : Channel C ordered W} {io : Transport} {cause : Cause}
    (htimeout : ch.retxTimeout = s.channel.retxTimeout) (hnext : ch.nextSeq = s.channel.nextSeq)
    (hstore : ∀ k, ch.sentPackets.get k = s.channel.sentPackets.get k ∨
      ch.sentPackets.get k = none)
    (hcount : ch.inFlightCount = ch.sentPackets.occupied)
    (hlog : transmitted io.log = transmitted s.io.log)
    (hstats : io.stats.packetsLost = s.io.stats.packetsLost) :
    Sound T { s with
      channel := ch
      io := io
      trace := s.trace ++
        [.removed cause (emptied s.channel.sentPackets ch.sentPackets s.owner)] } := by
  have hkept : ∀ k sp, ch.sentPackets.get k = some sp → s.channel.sentPackets.get k = some sp := by
    intro k sp hk
    rcases hstore k with hsame | hnone
    · rw [← hsame, hk]
    · rw [hnone] at hk
      cases hk
  refine ⟨htimeout.trans h.timeout, hnext.trans h.next, ?_, ?_, ?_, ?_, ?_, ?_, hcount, ?_⟩
  · intro k sp hk
    refine (h.stored k sp (hkept k sp hk)).keep ?_ le_rfl
    simp only [Mark.indices, Mark.datagrams, Mark.dropped, List.map_nil, List.nil_append]
    rw [mem_emptied W.pos]
    rintro ⟨j, sp', hj, hnone, ho⟩
    have hmod := h.distinct j k sp' sp hj (hkept k sp hk) ho
    rw [SlotTable.get_congr _ hmod, hk] at hnone
    cases hnone
  · intro n t hn
    simp only [lastSend_concat, Mark.lastSend] at hn
    split_ifs at hn with hout
    obtain ⟨k, sp, hk, ho⟩ := h.live n t hn
    rcases hstore k with hsame | hnone
    · exact ⟨k, sp, hsame.trans hk, ho⟩
    · exact absurd ((mem_emptied W.pos).mpr ⟨k, sp, hk, hnone, ho⟩) hout
  · refine bound_concat h.bound le_rfl ?_
    intro n hn
    simp only [Mark.indices, Mark.datagrams, Mark.dropped, List.map_nil, List.nil_append] at hn
    obtain ⟨k, sp, hk, _, rfl⟩ := (mem_emptied W.pos).mp hn
    exact (h.stored k sp hk).lt
  · intro n hn
    simp only [dropped_concat, Mark.dropped, List.mem_append] at hn
    simp only [lastSend_concat, Mark.lastSend]
    split_ifs with hout
    · rfl
    · rcases hn with hold | hnew
      · exact h.gone n hold
      · exact absurd hnew hout
  · simpa [Mark.datagrams] using h.identical
  · simp [Mark.datagrams, h.socket, hlog]
  · simp [Mark.resends, hstats, h.lost]

lemma Sound.flush (h : Sound T s) : Sound T s.flush := by
  have hl := List.Sublist.refl (indexed s.channel.sentPackets s.owner)
  refine ⟨h.timeout, h.next, ?_, ?_, ?_, ?_, ?_, ?_, h.count, ?_⟩
  · intro k sp hk
    refine (h.stored k sp hk).flush (fun d hd => h.resent_bytes hl hk hd) ?_
    exact h.distinct.count_eq_one hl (p := (s.owner (k % W.size), sp))
      ((mem_indexed W.pos).mpr ⟨k, hk, rfl⟩)
  · intro n t hn
    simp only [SendRun.flush, lastSend_concat, Mark.lastSend] at hn
    exact h.live n t hn
  · have hlt := h.resent_lt hl
    refine bound_concat h.bound le_rfl ?_
    simp only [Mark.indices, Mark.datagrams, Mark.dropped, List.append_nil]
    exact hlt
  · intro n hn
    simp only [SendRun.flush, dropped_concat, Mark.dropped, List.append_nil] at hn
    simp only [SendRun.flush, lastSend_concat, Mark.lastSend]
    exact h.gone n hn
  · simpa only [SendRun.flush, datagrams_concat, Mark.datagrams] using h.identical_resent hl
  · simp only [SendRun.flush, datagrams_concat, Mark.datagrams, List.map_append, h.socket,
      flush_transmitted]
    rw [← indexed_packets s.channel.sentPackets s.owner, List.map_map, List.map_map]
    rfl
  · have hstats : (s.channel.flush s.io).stats = s.io.stats := by rw [flush_eq, resendAll]
    simp only [SendRun.flush, resends_concat, Mark.resends, List.append_nil, hstats, h.lost]

lemma due_packets (s : SendRun C ordered W) (now : Time) :
    (s.due now).map Prod.snd = dueAt s.channel now := by
  rw [dueAt, ← indexed_packets s.channel.sentPackets s.owner, List.filter_map]
  rfl

lemma Sound.mem_due_iff (h : Sound T s) {k : ℕ} {sp : SentPacket}
    (hk : s.channel.sentPackets.get k = some sp) (now : Time) :
    s.owner (k % W.size) ∈ ((s.due now).map datagramOf).map Prod.fst ↔ sp.nextRetx ≤ now := by
  simp only [List.map_map, List.mem_map, Function.comp_apply, SendRun.due, List.mem_filter,
    decide_eq_true_eq]
  constructor
  · rintro ⟨p, ⟨hp, hdue⟩, he⟩
    obtain ⟨j, hj, ho⟩ := (mem_indexed W.pos).mp hp
    have hmod := h.distinct j k p.2 sp hj hk (ho.trans he)
    rw [SlotTable.get_congr _ hmod, hk] at hj
    rwa [Option.some.inj hj]
  · intro hdue
    exact ⟨(s.owner (k % W.size), sp), ⟨(mem_indexed W.pos).mpr ⟨k, hk, rfl⟩, hdue⟩, rfl⟩

lemma due_live {n : ℕ} {now : Time}
    (hn : n ∈ ((s.due now).map datagramOf).map Prod.fst) :
    ∃ k sp, s.channel.sentPackets.get k = some sp ∧ s.owner (k % W.size) = n ∧
      sp.nextRetx ≤ now := by
  simp only [List.map_map, List.mem_map, Function.comp_apply, SendRun.due, List.mem_filter,
    decide_eq_true_eq] at hn
  obtain ⟨p, ⟨hp, hdue⟩, he⟩ := hn
  obtain ⟨k, hk, ho⟩ := (mem_indexed W.pos).mp hp
  exact ⟨k, p.2, hk, ho.trans he, hdue⟩

lemma Sound.tracked_tick (h : Sound T s) (now : Time) {k : ℕ} {sp' : SentPacket}
    (hk : ticked T now (s.channel.sentPackets.get k) = some sp') :
    Tracked W T s.allocated (s.trace ++ [.tick now ((s.due now).map datagramOf)])
      (s.owner (k % W.size)) k sp' := by
  have hl : (s.due now).Sublist (indexed s.channel.sentPackets s.owner) :=
    List.filter_sublist
  cases hg : s.channel.sentPackets.get k with
  | none =>
    rw [hg] at hk
    cases hk
  | some sp =>
    have ht := h.stored k sp hg
    have hdue := h.mem_due_iff hg now
    rw [hg] at hk
    simp only [ticked] at hk
    split_ifs at hk with hlater
    · rw [← Option.some.inj hk]
      refine ht.keep ?_ le_rfl
      simp only [Mark.indices, Mark.datagrams, Mark.dropped, List.append_nil]
      rw [hdue]
      exact not_le.mpr hlater
    · rw [← Option.some.inj hk]
      refine ht.resent (fun d hd => h.resent_bytes hl hg hd) ?_ now
      obtain ⟨p, hp, he⟩ := List.mem_map.mp (hdue.mpr (not_lt.mp hlater))
      obtain ⟨q, hq, rfl⟩ := List.mem_map.mp hp
      rw [← he]
      exact h.distinct.count_eq_one hl hq

end Sound

section Controlled
variable {C : Type} [CongestionCtrl C] {ordered : Bool} {W : Window} {T : ℕ}
  {s : SendRun C ordered W}

theorem Sound.onTick (h : Sound T s) (now : Time) : Sound T (s.onTick now) := by
  have hl : (s.due now).Sublist (indexed s.channel.sentPackets s.owner) :=
    List.filter_sublist
  have hget : ∀ k, (s.channel.onTick now s.io).1.sentPackets.get k =
      ticked T now (s.channel.sentPackets.get k) := by
    intro k
    rw [onTick_get, h.timeout]
  refine ⟨h.timeout, h.next, ?_, ?_, ?_, ?_, ?_, ?_, ?_, ?_⟩
  · intro k sp' hk
    exact h.tracked_tick now ((hget k).symm.trans hk)
  · intro n t hn
    have hold : ∃ k sp, s.channel.sentPackets.get k = some sp ∧ s.owner (k % W.size) = n := by
      simp only [SendRun.onTick, lastSend_concat, Mark.lastSend] at hn
      split_ifs at hn with hin
      · obtain ⟨k, sp, hk, ho, _⟩ := due_live hin
        exact ⟨k, sp, hk, ho⟩
      · exact h.live n t hn
    obtain ⟨k, sp, hk, ho⟩ := hold
    have hkeep : (ticked T now (some sp)).isSome := by
      simp only [ticked]
      split_ifs <;> rfl
    obtain ⟨sp', hsp'⟩ := Option.isSome_iff_exists.mp hkeep
    exact ⟨k, sp', (hget k).trans (by rw [hk, hsp']), ho⟩
  · have hlt := h.resent_lt hl
    refine bound_concat h.bound le_rfl ?_
    simp only [Mark.indices, Mark.datagrams, Mark.dropped, List.append_nil]
    exact hlt
  · intro n hn
    simp only [SendRun.onTick, dropped_concat, Mark.dropped, List.append_nil] at hn
    have hgone := h.gone n hn
    simp only [SendRun.onTick, lastSend_concat, Mark.lastSend]
    split_ifs with hin
    · obtain ⟨k, sp, hk, ho, _⟩ := due_live hin
      obtain ⟨t, ht, _⟩ := (h.stored k sp hk).due
      rw [ho, hgone] at ht
      cases ht
    · exact hgone
  · simpa only [SendRun.onTick, datagrams_concat, Mark.datagrams] using h.identical_resent hl
  · simp only [SendRun.onTick, datagrams_concat, Mark.datagrams, List.map_append, h.socket,
      onTick_transmitted]
    rw [← due_packets, List.map_map, List.map_map]
    rfl
  · rw [show (s.onTick now).channel.sentPackets.occupied = s.channel.sentPackets.occupied from
      onTick_occupied s.channel now s.io]
    exact h.count
  · have hlost := onTick_packetsLost s.channel now s.io
    rw [← due_packets] at hlost
    simp only [SendRun.onTick, resends_concat, Mark.resends, hlost, h.lost, List.length_append,
      List.length_map]

lemma sendCompleted_store (ch : Channel C ordered W) (sequenceNumber : Seq) (handler : ℕ)
    (ec : ErrorCode) (now : Time) (io : Transport)
    (h : ch.inFlightCount = ch.sentPackets.occupied) :
    (ch.sendCompleted sequenceNumber handler ec now io).1.retxTimeout = ch.retxTimeout ∧
      (ch.sendCompleted sequenceNumber handler ec now io).1.inFlightCount =
        (ch.sendCompleted sequenceNumber handler ec now io).1.sentPackets.occupied ∧
      transmitted (ch.sendCompleted sequenceNumber handler ec now io).2.log =
        transmitted io.log ∧
      (ch.sendCompleted sequenceNumber handler ec now io).2.stats.packetsLost =
        io.stats.packetsLost := by
  have htimeout : (ch.eraseSentPacket sequenceNumber).retxTimeout = ch.retxTimeout := by
    unfold Channel.eraseSentPacket
    cases ch.sentPackets.get sequenceNumber.toNat with
    | none => rfl
    | some sp =>
      dsimp only
      split_ifs <;> rfl
  unfold Channel.sendCompleted
  split_ifs
  · exact ⟨htimeout, eraseSentPacket_count ch sequenceNumber h, by simp [transmitted], rfl⟩
  · exact ⟨rfl, h, by simp [transmitted], rfl⟩

theorem Sound.sendCompleted (h : Sound T s) (position : ℕ) (ec : ErrorCode) (now : Time) :
    Sound T (s.sendCompleted position ec now) := by
  have hquiet : Sound T { s with
      io := { s.io with pending := s.io.pending.eraseIdx position } } :=
    h.quiet le_rfl rfl h.next rfl rfl rfl rfl
  unfold SendRun.sendCompleted
  dsimp only
  split
  · rename_i channel sequenceNumber handler _
    obtain ⟨htimeout, hcount, hlog, hlost⟩ := sendCompleted_store s.channel sequenceNumber handler
      ec now { s.io with pending := s.io.pending.eraseIdx position } h.count
    refine hquiet.shrink htimeout (sendCompleted_frame _ _ _ _ _ _).2 ?_ hcount hlog hlost
    intro k
    rcases sendCompleted_get s.channel sequenceNumber handler ec now
      { s.io with pending := s.io.pending.eraseIdx position } k with hsame | ⟨_, hnone, _⟩
    · exact Or.inl hsame
    · exact Or.inr hnone
  · exact hquiet

theorem Sound.onRecv (h : Sound T s) (packet : Packet) (now : Time) :
    Sound T (s.onRecv packet now) := by
  unfold SendRun.onRecv
  by_cases hack : packet.type = .ack
  · have hrecv : s.channel.onRecv packet now s.io =
        s.channel.processAck packet.ack packet.ackBits now s.io := by
      rw [Channel.onRecv, if_pos hack]
    have hcount := processAck_inFlightCount s.channel packet.ack packet.ackBits now s.io
    have hocc := processAck_occupied s.channel packet.ack packet.ackBits now s.io
    rw [hrecv]
    refine h.shrink rfl rfl ?_ ?_ ?_ (processAck_packetsLost _ _ _ _ _)
    · intro k
      rw [processAck_get]
      cases s.channel.sentPackets.get k with
      | none => exact Or.inl rfl
      | some sp =>
        simp only [acked]
        split_ifs
        · exact Or.inl rfl
        · exact Or.inr rfl
    · have := h.count
      omega
    · rw [processAck_log]
  · have hr := onRecv_receiveOnly s.channel hack now s.io
    refine h.shrink hr.sender.retxTimeout hr.sender.nextSeq ?_ ?_ hr.transmitted
      (onRecv_packetsLost _ _ _ _)
    · intro k
      rw [hr.sender.sentPackets]
      exact Or.inl rfl
    · rw [hr.sender.inFlightCount, hr.sender.sentPackets, h.count]

/-- The three ways an `asyncSend` of the run ends: no number taken, a number taken for nothing,
or a packet stored and sent. -/
inductive Sent (codec : PacketCodec) (s : SendRun C ordered W) (payload : List Byte)
    (handler : ℕ) (now : Time) : SendRun C ordered W → Prop
  | refused (cc : C) :
      Sent codec s payload handler now
        { s with
          channel := { s.channel with cc := cc }
          io := s.io.emit [.sendDone handler (makeErrorCode .sendWindowFull)] }
  | wasted (cc : C) (e : Error) (he : e = .badPacket ∨ e = .sendWindowFull) :
      Sent codec s payload handler now
        { s with
          channel := { s.channel with cc := cc, nextSeq := s.channel.nextSeq + 1 }
          io := s.io.emit [.sendDone handler (makeErrorCode e)]
          allocated := s.allocated + 1 }
  | stored (cc : C) (hfree : s.channel.sentPackets.get s.channel.nextSeq.toNat = none)
      (stats : SocketStats) (hstats : stats.packetsLost = s.io.stats.packetsLost) (d : List Byte)
      (hd : d = codec.encodePacket (s.channel.dataPacket payload)) :
      Sent codec s payload handler now
        { channel := { s.channel with
            cc := cc
            nextSeq := s.channel.nextSeq + 1
            sentPackets := s.channel.sentPackets.set s.channel.nextSeq.toNat
              (some (freshPacket s.channel d now))
            inFlightCount := s.channel.inFlightCount + 1 }
          io := { s.io with stats := stats }.sendEncoded d
            (.data s.channel.id s.channel.nextSeq handler)
          allocated := s.allocated + 1
          owner := Function.update s.owner (s.channel.nextSeq.toNat % W.size) s.allocated
          trace := s.trace ++ [.stored s.allocated now d] }

theorem sent_cases (codec : PacketCodec) (s : SendRun C ordered W) (payload : List Byte)
    (handler : ℕ) (now : Time) :
    Sent codec s payload handler now (s.asyncSend codec payload handler now) := by
  have hnext : s.channel.nextSeq + 1 ≠ s.channel.nextSeq := by
    intro h
    simp at h
  have hlost := asyncSend_packetsLost s.channel codec payload handler now s.io
  have h := asyncSend_cases s.channel codec payload handler now s.io
  unfold SendRun.asyncSend
  generalize s.channel.asyncSend codec payload handler now s.io = r at hlost h ⊢
  cases h with
  | refused cc hfull =>
    have hc : Sent codec s payload handler now _ := .refused cc
    simpa [transmitted] using hc
  | unencodable cc hroom hempty =>
    have hc : Sent codec s payload handler now _ := .wasted cc .badPacket (Or.inl rfl)
    simpa [transmitted, hnext] using hc
  | collided cc hroom old hold =>
    have hc : Sent codec s payload handler now _ := .wasted cc .sendWindowFull (Or.inr rfl)
    simpa [transmitted, hnext] using hc
  | stored cc hroom hfree stats d hd hne =>
    have hc : Sent codec s payload handler now _ := .stored cc hfree stats hlost d hd
    simpa [transmitted, hnext, Transport.sendEncoded] using hc

theorem Sound.asyncSend (h : Sound T s) (codec : PacketCodec) (payload : List Byte) (handler : ℕ)
    (now : Time) : Sound T (s.asyncSend codec payload handler now) := by
  have hc := sent_cases codec s payload handler now
  generalize s.asyncSend codec payload handler now = s' at hc ⊢
  cases hc with
  | refused cc => exact h.quiet le_rfl rfl h.next rfl rfl (by simp [transmitted]) rfl
  | wasted cc e he =>
    refine h.quiet (Nat.le_succ _) rfl ?_ rfl rfl (by simp [transmitted]) rfl
    rw [wire_succ, ← h.next]
  | stored cc hfree stats hstats d hd =>
    exact h.store hfree rfl rfl rfl rfl (transmitted_sendEncoded _ _ _) hstats

theorem Sound.step (h : Sound T s) (codec : PacketCodec) (e : Event) : Sound T (s.step codec e) := by
  cases e with
  | asyncSend payload handler now => exact h.asyncSend codec payload handler now
  | sendCompleted position ec now => exact h.sendCompleted position ec now
  | onTick now => exact h.onTick now
  | flush => exact h.flush
  | onRecv packet now => exact h.onRecv packet now

/-- The history explains every reachable state. -/
theorem sound_of_reachable {codec : PacketCodec} {guard : SendRun C ordered W → Event → Prop}
    {id : Byte} {cc : C} (h : Reachable (SendRun.step codec) guard (SendRun.start id T cc) s) :
    Sound T s :=
  h.invariant (sound_start id T cc) fun _ e hs _ => hs.step codec e

end Controlled

end ReliableUdp.SenderHistory
