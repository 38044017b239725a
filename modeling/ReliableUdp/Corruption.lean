import ReliableUdp.DefaultCodec

/-! A checksum whose step is injective in the running state and in the input tells any two
inputs apart that differ in one place. The default codec therefore rejects every accepted
frame with one byte replaced. -/
namespace ReliableUdp.Corruption
open Protocol DefaultCodec

section Fold
variable {σ α : Type*} {f : σ → α → σ}

lemma foldl_injective (hstate : ∀ a, Function.Injective fun s => f s a) (l : List α) :
    Function.Injective fun s => l.foldl f s := by
  induction l with
  | nil => exact fun s s' h => h
  | cons a l ih =>
    intro s s' h
    simp only [List.foldl_cons] at h
    exact hstate a (ih h)

theorem foldl_set_ne (hstate : ∀ a, Function.Injective fun s => f s a)
    (hinput : ∀ s, Function.Injective (f s)) (l : List α) {i : ℕ} {a x : α} (hi : l[i]? = some a)
    (hx : a ≠ x) (s : σ) : (l.set i x).foldl f s ≠ l.foldl f s := by
  induction l generalizing i s with
  | nil => simp at hi
  | cons b l ih =>
    cases i with
    | zero =>
      have hba : b = a := by simpa using hi
      intro h
      simp only [List.set_cons_zero, List.foldl_cons] at h
      have hxb : x = b := hinput s (foldl_injective hstate l h)
      exact hx (hba.symm.trans hxb.symm)
    | succ i =>
      simp only [List.set_cons_succ, List.foldl_cons]
      exact ih (by simpa using hi) (f s b)

end Fold

lemma mul_prime_injective : Function.Injective fun h : BitVec 32 => h * 16777619#32 := by
  have hinv : ∀ h : BitVec 32, h * 16777619#32 * 899433627#32 = h := by
    intro h
    rw [BitVec.mul_assoc, show 16777619#32 * 899433627#32 = 1#32 by decide, BitVec.mul_one]
  exact Function.HasLeftInverse.injective ⟨fun h => h * 899433627#32, hinv⟩

lemma xor_injective (c : BitVec 32) : Function.Injective fun h : BitVec 32 => h ^^^ c := by
  intro h h' he
  simpa using congrArg (· ^^^ c) he

lemma fnvStep_injective_state (b : Byte) : Function.Injective fun h => fnvStep h b :=
  mul_prime_injective.comp (xor_injective _)

lemma fnvStep_injective_byte (h : BitVec 32) : Function.Injective (fnvStep h) := by
  intro b b' he
  have hxor : b.setWidth 32 ^^^ h = b'.setWidth 32 ^^^ h := by
    rw [BitVec.xor_comm _ h, BitVec.xor_comm _ h]
    exact mul_prime_injective he
  have hwide : b.setWidth 32 = b'.setWidth 32 := xor_injective h hxor
  have hback := congrArg (BitVec.setWidth 8) hwide
  simpa using hback

lemma checksum_set_ne {b : List Byte} {i len : ℕ} {x : Byte} (hlen : len ≤ b.length)
    (hi : i < len) (hx : b[i]? ≠ some x) : checksum (b.set i x) len ≠ checksum b len := by
  have hib : i < b.length := by omega
  have hget : (b.take len)[i]? = some b[i] := by
    rw [List.getElem?_take_of_lt hi, List.getElem?_eq_getElem hib]
  unfold checksum
  rw [List.take_set]
  refine foldl_set_ne fnvStep_injective_state fnvStep_injective_byte _ hget ?_ _
  intro he
  exact hx (by rw [List.getElem?_eq_getElem hib, he])

lemma checksum_set_of_le {b : List Byte} {i len : ℕ} {x : Byte} (hi : len ≤ i) :
    checksum (b.set i x) len = checksum b len := by
  unfold checksum
  rw [List.take_set_of_le hi]

lemma byteAt_set_of_ne {b : List Byte} {i j : ℕ} {x : Byte} (h : i ≠ j) :
    byteAt (b.set i x) j = byteAt b j := by
  simp [byteAt, List.getElem?_set_ne h]

lemma readU32_set_of_lt {b : List Byte} {i len : ℕ} {x : Byte} (hi : i < len) :
    readU32 (b.set i x) len = readU32 b len := by
  unfold readU32
  rw [byteAt_set_of_ne (by omega), byteAt_set_of_ne (by omega), byteAt_set_of_ne (by omega),
    byteAt_set_of_ne (by omega)]

lemma readU32_set_ne {b : List Byte} {k len : ℕ} {x : Byte} (hlen : len + 4 ≤ b.length)
    (hk : k < 4) (hx : b[len + k]? ≠ some x) : readU32 (b.set (len + k) x) len ≠ readU32 b len := by
  intro h
  have hbytes := congrArg le32 h
  simp only [readU32, le32_append, List.cons.injEq, and_true] at hbytes
  have hsame : byteAt (b.set (len + k) x) (len + k) = byteAt b (len + k) := by
    interval_cases k
    · exact hbytes.1
    · exact hbytes.2.1
    · exact hbytes.2.2.1
    · exact hbytes.2.2.2
  have hib : len + k < b.length := by omega
  apply hx
  simpa [byteAt, List.getElem?_eq_getElem hib, hib, eq_comm] using hsame

/-- The decoder rejects exactly the strings that are too short or carry another checksum. -/
lemma decode_eq_badPacket_iff (b : List Byte) :
    decode b = .error .badPacket ↔ b.length < 14 ∨
      readU32 b (b.length - 4) ≠ checksum b (b.length - 4) := by
  unfold decode
  by_cases hlen : b.length < 14
  · simp [kHeaderSize, kCrcSize, hlen]
  · have hpos : 10 + (b.length - 10 - 4) = b.length - 4 := by omega
    simp [kHeaderSize, kCrcSize, hlen, hpos]

/-- Replacing one byte of an accepted string, wherever it stands, makes the decoder reject it.
Every encoded packet is such a string. -/
theorem decode_set_badPacket :
    (∀ (b : List Byte) (pkt : Packet) (i : ℕ) (x : Byte), decode b = .ok pkt → i < b.length →
      b[i]? ≠ some x → decode (b.set i x) = .error .badPacket) ∧
    (∀ (pkt : Packet) (outBuf : List Byte), pkt.payload.length + maxOverhead ≤ outBuf.length →
      ∃ decoded, decode ((encode pkt outBuf).2.take (encode pkt outBuf).1) = .ok decoded) := by
  constructor
  · intro b pkt i x hok hi hx
    have hvalid : ¬ (b.length < 14 ∨ readU32 b (b.length - 4) ≠ checksum b (b.length - 4)) := by
      rw [← decode_eq_badPacket_iff, hok]
      simp
    simp only [not_or, not_lt, ne_eq, not_not] at hvalid
    obtain ⟨hlen, hcrc⟩ := hvalid
    rw [decode_eq_badPacket_iff, List.length_set]
    right
    by_cases hbody : i < b.length - 4
    · rw [readU32_set_of_lt hbody, hcrc]
      exact (checksum_set_ne (by omega) hbody hx).symm
    · obtain ⟨k, rfl⟩ := Nat.exists_eq_add_of_le (not_lt.mp hbody)
      rw [checksum_set_of_le (by omega), ← hcrc]
      exact readU32_set_ne (by omega) (by omega) hx
  · intro pkt outBuf hroom
    have hpos := defaultCodec.encode_fits pkt outBuf hroom
    obtain ⟨crc, hdecode⟩ := defaultCodec.decode_encode pkt outBuf hpos.1
    exact ⟨_, hdecode⟩

end ReliableUdp.Corruption
