import Mathlib.Algebra.Group.Nat.Defs

/-!
# Bytes and 16-bit words

A 16-bit word as a high and a low byte (`wordOf`), and the two ways back. Addresses in a 16-bit
address space: `p + i` for a natural number `i`.
-/

namespace Word

/-- A property of all bytes, byte by byte. -/
theorem forall_byte {p : UInt8 → Prop} (h : ∀ v : BitVec 8, p (UInt8.ofBitVec v)) (c : UInt8) :
    p c := h c.toBitVec

/-- A property of the bytes of a list, checked one by one. -/
theorem forall_mem {p : UInt8 → Prop} [DecidablePred p] {vs : List UInt8}
    (h : vs.all (fun v => decide (p v)) = true) : ∀ v ∈ vs, p v :=
  fun v hv => of_decide_eq_true (List.all_eq_true.mp h v hv)

/-- The 16-bit word of a high and a low byte. -/
def wordOf (hi lo : UInt8) : UInt16 := (hi.toUInt16 <<< 8) + lo.toUInt16

theorem wordOf_toNat (hi lo : UInt8) : (wordOf hi lo).toNat = hi.toNat * 256 + lo.toNat := by
  have h1 := hi.toNat_lt
  have h2 := lo.toNat_lt
  simp only [wordOf, UInt16.toNat_add, UInt16.toNat_shiftLeft, UInt8.toNat_toUInt16]
  simp [Nat.shiftLeft_eq]
  omega

/-- A word is its high and its low byte. -/
theorem wordOf_split (w : UInt16) : wordOf (w >>> 8).toUInt8 (w &&& 0xFF).toUInt8 = w := by
  apply UInt16.toNat_inj.mp
  have h := w.toNat_lt
  have hlo : (w &&& 0xFF).toNat = w.toNat % 256 := Nat.and_two_pow_sub_one_eq_mod w.toNat 8
  have hhi : (w >>> 8).toNat = w.toNat / 256 := Nat.shiftRight_eq_div_pow w.toNat 8
  rw [wordOf_toNat, UInt16.toNat_toUInt8, UInt16.toNat_toUInt8, hlo, hhi]
  omega

theorem wordOf_hi (hi lo : UInt8) : (wordOf hi lo >>> 8).toUInt8 = hi := by
  apply UInt8.toNat_inj.mp
  have h1 := hi.toNat_lt
  have h2 := lo.toNat_lt
  have hhi : (wordOf hi lo >>> 8).toNat = (wordOf hi lo).toNat / 256 :=
    Nat.shiftRight_eq_div_pow (wordOf hi lo).toNat 8
  rw [UInt16.toNat_toUInt8, hhi, wordOf_toNat]
  omega

theorem add_one_add_ofNat (p : UInt16) (k : Nat) :
    p + 1 + UInt16.ofNat k = p + UInt16.ofNat (k + 1) := by
  rw [UInt16.ofNat_add, UInt16.add_comm (UInt16.ofNat k), ← UInt16.add_assoc]
  rfl

/-- Offsets below `2 ^ 16` give different addresses. -/
theorem add_ofNat_inj {p : UInt16} {i j : Nat} (hi : i < 2 ^ 16) (hj : j < 2 ^ 16)
    (h : p + UInt16.ofNat i = p + UInt16.ofNat j) : i = j := by
  have := congrArg UInt16.toNat (UInt16.add_right_inj p |>.mp h)
  rwa [UInt16.toNat_ofNat_of_lt' hi, UInt16.toNat_ofNat_of_lt' hj] at this

theorem ofInt_toNat {n : Nat} (h : n < 2 ^ 16) : (UInt16.ofInt n).toNat = n := by
  have hn : ((n : Int) % 2 ^ 16).toNat = n := by omega
  rw [UInt16.ofInt, hn]
  exact UInt16.toNat_ofNat_of_lt' h

theorem ofInt_word (w : UInt16) : UInt16.ofInt w.toNat = w :=
  UInt16.toNat_inj.mp (ofInt_toNat w.toNat_lt)

/-- The high byte of a word that an integer holds. -/
theorem ofInt_shift (w : UInt16) : UInt16.ofInt ((w.toNat : Int) >>> (8 : Nat)) = w >>> 8 := by
  have h : ((w.toNat : Int) >>> (8 : Nat)) = ((w >>> 8).toNat : Int) := rfl
  rw [h, ofInt_word]

/-- The low byte of a word that an integer holds. -/
theorem ofInt_mod (w : UInt16) : UInt16.ofInt ((w.toNat : Int) % 256) = w &&& 0xFF := by
  have hlo : (w &&& 0xFF).toNat = w.toNat % 256 := Nat.and_two_pow_sub_one_eq_mod w.toNat 8
  have h : ((w.toNat : Int) % 256) = ((w &&& 0xFF).toNat : Int) := by rw [hlo]; rfl
  rw [h, ofInt_word]

end Word
