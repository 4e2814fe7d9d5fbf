import AtkOnenet.Lib.Listener
import AtkOnenet.Touch.Gt9147
import Mathlib.Data.Nat.Find
import Mathlib.Tactic.Push

/-!
# Refused bytes of a register write (`HARDWARE/TOUCH/gt9147.c`)

`gt9147WrReg` on a bus whose device acknowledges and refuses bytes as a script says. A refused data
byte ends the loop and is reported. The results for the slave address and the register address are
dropped: `CT_IIC_Wait_Ack` has put a STOP on the bus after the refusal, and the write goes on with
the next byte all the same.

`gt9147WrReg_listener` says what the write clocks onto the bus and returns, for every script.
`refusals_reported_iff`: a refusal ends the write and is reported (`EndsAtRefusal`) exactly if the
first three bytes are acknowledged.
-/

namespace AtkOnenet

open TwoWire Listener

/-- The device acknowledges the byte number `k` in time for the 251 samples of `CT_IIC_Wait_Ack`
(the last one is taken 251 actions after the clock has risen), or not at all. -/
abbrev AckScript := Nat → Option (Fin 252)

def AckScript.listener (acks : AckScript) : Device Listener :=
  Listener.device fun k => (acks k).map Fin.val

def AckScript.acked (acks : AckScript) (k : Nat) : Bool := (acks k).isSome

variable {acks : AckScript} {bs : List UInt8} {o l : Bool} {k t : Nat}

/-! ## The functions of `ctiic.c` -/

theorem ctIicStart_listener (p : Pins) :
    ctIicStart acks.listener ⟨p, heard bs⟩ = ⟨⟨false, true, false⟩, heard bs⟩ := by
  obtain ⟨scl, o, l⟩ := p
  cases scl <;> cases o <;> cases l <;> rfl

theorem ctIicStop_listener (p : Pins) :
    ctIicStop acks.listener ⟨p, heard bs⟩ = ⟨⟨true, true, true⟩, heard bs⟩ := by
  obtain ⟨scl, o, l⟩ := p
  cases scl <;> cases o <;> cases l <;> rfl

theorem takesBits_listener (acks : AckScript) (bs : List UInt8) :
    TakesBits acks.listener (fun bits => ⟨bs, bits, none⟩) (fun v => inSlot (bs ++ [v]) 0) := by
  intro l v bits
  cases v <;>
    simp [ctIicSda, ctIicScl, ctDelay, Bus.act, Bus.lines, AckScript.listener, Listener.device,
      Listener.drive, onRise, onFall, onDelay, Lines.cond]

/-- A whole byte, from any pins: it is heard, and its acknowledge slot begins. -/
theorem ctIicSendByte_listener (acks : AckScript) (bs : List UInt8) (v : UInt8) (p : Pins) :
    ∃ l', ctIicSendByte acks.listener v ⟨p, heard bs⟩ =
      ⟨⟨false, true, l'⟩, inSlot (bs ++ [v]) 0⟩ := by
  apply (takesBits_listener acks bs).sendByte
  show _ = (⟨⟨false, true, p.sda⟩, heard bs⟩ : Bus Listener)
  obtain ⟨scl, o, l⟩ := p
  cases scl <;> cases o <;> cases l <;> rfl

/-- A sample of the data line, `t` actions after the clock has risen in the slot. -/
theorem ctReadSda_listener (hk : bs.length = k + 1) :
    ctReadSda acks.listener ⟨⟨true, false, l⟩, inSlot bs t⟩ =
      ((acks k).map fun j => decide (t < j.val)).getD true := by
  simp only [ctReadSda, Bus.lines, AckScript.listener, Listener.device, drive_inSlot hk]
  cases acks k <;> simp

theorem ctDelay_listener : ctDelay acks.listener ⟨⟨true, o, l⟩, inSlot bs t⟩ =
    ⟨⟨true, o, l⟩, inSlot bs (t + 1)⟩ := by
  simp only [ctDelay, Bus.act, Bus.lines, AckScript.listener, Listener.device, Lines.cond_self]
  rfl

/-- STOP in an acknowledge slot without an acknowledge. -/
theorem ctIicStop_inSlot (hk : bs.length = k + 1) (hno : acks k = none) :
    ctIicStop acks.listener ⟨⟨true, false, true⟩, inSlot bs t⟩ =
      ⟨⟨true, true, true⟩, heard bs⟩ := by
  have hdrive : ∀ t, (inSlot bs t).drive (fun k => (acks k).map Fin.val) = true := by
    intro t
    rw [drive_inSlot hk, hno]
    rfl
  simp [ctIicStop, ctSdaOut, ctIicScl, ctIicSda, ctDelay, Bus.act, Bus.lines, AckScript.listener,
    Listener.device, Lines.cond, hdrive]

/-- `CT_IIC_Wait_Ack` lets the clock fall after an acknowledge, and puts a STOP on the bus without
one. -/
def slotEnd (acks : AckScript) (k : Nat) (bs : List UInt8) : UInt8 × Bus Listener :=
  if acks.acked k then (0, ⟨⟨false, false, true⟩, heard bs⟩)
  else (1, ⟨⟨true, true, true⟩, heard bs⟩)

theorem ctIicWaitAckLoop_listener {left : Nat} (hk : bs.length = k + 1) (ht : t + left = 251) :
    ctIicWaitAckLoop acks.listener left ⟨⟨true, false, true⟩, inSlot bs t⟩ =
      slotEnd acks k bs := by
  induction left generalizing t with
  | zero =>
    rw [ctIicWaitAckLoop, ctReadSda_listener hk]
    cases hj : acks k with
    | none =>
      simp [slotEnd, AckScript.acked, hj, ctIicStop_inSlot hk hj]
    | some j =>
      -- the last sample: the device has pulled the line low by now
      have hlt : ¬ t < j.val := by omega
      simp [slotEnd, AckScript.acked, hj, hlt]
      rfl
  | succ left ih =>
    rw [ctIicWaitAckLoop, ctReadSda_listener hk]
    cases hj : acks k with
    | none =>
      simp only [Option.map_none, Option.getD_none, ↓reduceIte]
      rw [ctDelay_listener, ih (by omega)]
    | some j =>
      simp only [Option.map_some, Option.getD_some, decide_eq_true_eq]
      split
      · rw [ctDelay_listener, ih (by omega)]
      · simp [slotEnd, AckScript.acked, hj]
        rfl

theorem ctIicWaitAck_listener (hk : bs.length = k + 1) :
    ctIicWaitAck acks.listener ⟨⟨false, true, l⟩, inSlot bs 0⟩ = slotEnd acks k bs := by
  have h : ctIicWaitAck acks.listener ⟨⟨false, true, l⟩, inSlot bs 0⟩ =
      ctIicWaitAckLoop acks.listener 250
        (ctDelay acks.listener ⟨⟨true, false, true⟩, inSlot bs 0⟩) := by
    cases l <;> rfl
  rw [h, ctDelay_listener]
  exact ctIicWaitAckLoop_listener hk rfl

/-- A byte with its acknowledge slot, from any pins. -/
theorem sendByte_waitAck_listener (acks : AckScript) (bs : List UInt8) (v : UInt8) (p : Pins) :
    ctIicWaitAck acks.listener (ctIicSendByte acks.listener v ⟨p, heard bs⟩) =
      slotEnd acks bs.length (bs ++ [v]) := by
  obtain ⟨l', h⟩ := ctIicSendByte_listener acks bs v p
  rw [h]
  apply ctIicWaitAck_listener
  rw [List.length_append, List.length_singleton]

/-! ## A register write -/

theorem slotEnd_fst (acks : AckScript) (k : Nat) (bs : List UInt8) :
    (slotEnd acks k bs).1 = if acks.acked k then 0 else 1 := by
  unfold slotEnd
  split <;> rfl

theorem slotEnd_snd (acks : AckScript) (k : Nat) (bs : List UInt8) :
    ∃ p, (slotEnd acks k bs).2 = ⟨p, heard bs⟩ := by
  unfold slotEnd
  split <;> exact ⟨_, rfl⟩

/-- The data loop gives up at the first refusal. -/
theorem gt9147WrBytes_listener (acks : AckScript) (bs : List UInt8) {buf : List UInt8} {i n : Nat}
    (hn : i + n ≤ buf.length) (p : Pins) :
    ∃ p', gt9147WrBytes acks.listener buf i n ⟨p, heard bs⟩ =
      (if ∀ j < n, acks.acked (bs.length + j) then 0 else 1,
        ⟨p', heard (bs ++ sent acks.acked bs.length ((buf.drop i).take n))⟩) := by
  induction n generalizing i bs p with
  | zero => exact ⟨p, by simp [gt9147WrBytes, sent]⟩
  | succ n ih =>
    have hi : i < buf.length := by omega
    obtain ⟨p', hp'⟩ := slotEnd_snd acks bs.length (bs ++ [buf[i]])
    have hslot := sendByte_waitAck_listener acks bs buf[i] p
    rw [gt9147WrBytes, List.getD_eq_getElem _ _ hi, hslot, List.drop_eq_getElem_cons hi,
      List.take_succ_cons, sent]
    simp only [slotEnd_fst, hp']
    by_cases hk : acks.acked bs.length
    · -- acknowledged: the loop goes on, with one more byte heard
      have hn' : i + 1 + n ≤ buf.length := by omega
      obtain ⟨p'', h⟩ := ih (bs ++ [buf[i]]) hn' p'
      have hall : (∀ j < n, acks.acked ((bs ++ [buf[i]]).length + j)) ↔
          ∀ j < n + 1, acks.acked (bs.length + j) := by
        rw [Nat.forall_lt_succ_left, List.length_append, List.length_singleton]
        simp only [Nat.add_assoc, Nat.add_comm 1, Nat.add_zero, hk, true_and]
      refine ⟨p'', ?_⟩
      simp only [hk, ↓reduceIte, ne_eq, not_true_eq_false, h, hall]
      rw [List.append_assoc, List.length_append, List.length_singleton, List.singleton_append]
    · have hall : ¬ ∀ j < n + 1, acks.acked (bs.length + j) := fun h => hk (h 0 n.succ_pos)
      refine ⟨p', ?_⟩
      rw [if_neg hk, if_neg hk, if_neg hall, if_pos (show (1 : UInt8) ≠ 0 by decide)]

/-- The address bytes: they go onto the wire whatever the device answers. -/
theorem setPointer_listener (acks : AckScript) (reg : UInt16) (p : Pins) :
    ∃ p', (ctIicWaitAck acks.listener (ctIicSendByte acks.listener (reg &&& 0xFF).toUInt8
      (ctIicWaitAck acks.listener (ctIicSendByte acks.listener (reg >>> 8).toUInt8
        (ctIicWaitAck acks.listener (ctIicSendByte acks.listener gtCmdWr
          ⟨p, heard []⟩)).2)).2)).2 =
      ⟨p', heard [gtCmdWr, (reg >>> 8).toUInt8, (reg &&& 0xFF).toUInt8]⟩ := by
  have h : ∀ (bs : List UInt8) (v : UInt8) (p : Pins), ∃ p',
      (ctIicWaitAck acks.listener (ctIicSendByte acks.listener v ⟨p, heard bs⟩)).2 =
        ⟨p', heard (bs ++ [v])⟩ := by
    intro bs v p
    rw [sendByte_waitAck_listener]
    exact slotEnd_snd _ _ _
  obtain ⟨p₁, h₁⟩ := h [] gtCmdWr p
  obtain ⟨p₂, h₂⟩ := h ([] ++ [gtCmdWr]) (reg >>> 8).toUInt8 p₁
  rw [h₁, h₂]
  exact h _ _ p₂

/-- What a register write clocks onto the bus, and what it returns: only the data bytes count. -/
theorem gt9147WrReg_listener (acks : AckScript) (reg : UInt16) {buf : List UInt8} {len : UInt8}
    (hl : len.toNat ≤ buf.length) (p : Pins) :
    gt9147WrReg acks.listener reg buf len ⟨p, heard []⟩ =
      (if ∀ j < len.toNat, acks.acked (3 + j) then 0 else 1, ⟨⟨true, true, true⟩,
        heard ([gtCmdWr, (reg >>> 8).toUInt8, (reg &&& 0xFF).toUInt8] ++
          sent acks.acked 3 (buf.take len.toNat))⟩) := by
  obtain ⟨p₁, h₁⟩ := setPointer_listener acks reg ⟨false, true, false⟩
  have hn : 0 + len.toNat ≤ buf.length := by omega
  obtain ⟨p₂, h₂⟩ := gt9147WrBytes_listener acks
    [gtCmdWr, (reg >>> 8).toUInt8, (reg &&& 0xFF).toUInt8] hn p₁
  simp only [gt9147WrReg, ctIicStart_listener, h₁, h₂, ctIicStop_listener]
  rfl

/-- A write of `n` bytes in all (addresses included), with the result `w`: it returns 0 if the device
acknowledges every byte, and nothing follows the first refused byte on the wire. -/
structure EndsAtRefusal (acks : AckScript) (n : Nat) (w : UInt8 × Bus Listener) : Prop where
  reported : w.1 = 0 ↔ ∀ k < n, acks.acked k
  silent : ∀ k < n, ¬ acks.acked k → (∀ i < k, acks.acked i) → w.2.dev.bytes.length ≤ k + 1

/-- The result of a write is about the bytes from number 3 on only. -/
theorem acked_from_three {n : Nat} (haddr : ∀ k < 3, acks.acked k) :
    (∀ j < n, acks.acked (3 + j)) ↔ ∀ k < 3 + n, acks.acked k := by
  constructor
  · intro h k hk
    rcases Nat.lt_or_ge k 3 with hk3 | hk3
    · exact haddr k hk3
    · have hj := h (k - 3) (by omega)
      rwa [Nat.add_sub_cancel' hk3] at hj
  · intro h j hj
    exact h (3 + j) (by omega)

section Ends

variable {addr payload : List UInt8} {p : Pins} {ret : UInt8}

/-- The first data byte is on the wire at least, so it follows a refused address byte. -/
theorem EndsAtRefusal.address_acked (h1 : 1 ≤ payload.length) (ha : addr.length = 3)
    (h : EndsAtRefusal acks (3 + payload.length)
      (ret, ⟨p, heard (addr ++ sent acks.acked 3 payload)⟩)) : ∀ k < 3, acks.acked k := by
  by_contra hno
  push Not at hno
  obtain ⟨hk, hrefused⟩ := Nat.find_spec hno
  have hbefore : ∀ i < Nat.find hno, acks.acked i := by
    intro i hi
    by_contra hi'
    exact Nat.find_min hno hi ⟨by omega, hi'⟩
  have hle := h.silent _ (by omega) hrefused hbefore
  obtain ⟨v, vs, rfl⟩ := List.exists_cons_of_length_pos h1
  simp only [heard, sent, List.length_append, List.length_cons] at hle
  omega

/-- Behind the address bytes the write gives up at the first refusal. -/
theorem silent_of_address_acked (ha : addr.length = 3) (haddr : ∀ k < 3, acks.acked k) {k : Nat}
    (hk : k < 3 + payload.length) (hno : ¬ acks.acked k) (hok : ∀ i < k, acks.acked i) :
    (addr ++ sent acks.acked 3 payload).length = k + 1 := by
  have hk3 : 3 ≤ k := by
    by_contra hk3
    exact hno (haddr k (by omega))
  obtain ⟨n, rfl⟩ := Nat.exists_eq_add_of_le hk3
  have hsent : (sent acks.acked 3 payload).length = n + 1 :=
    sent_length (by omega) (fun i hi => hok (3 + i) (by omega)) hno
  rw [List.length_append, ha, hsent]
  omega

end Ends

/-- **Refusals.** A register write of a payload ends at the first refused byte and reports it, for
every script, exactly if the slave address and both bytes of the register address are
acknowledged. -/
theorem refusals_reported_iff (acks : AckScript) (reg : UInt16) (p : Pins) {payload : List UInt8}
    (h1 : 1 ≤ payload.length) (h2 : payload.length ≤ 255) :
    EndsAtRefusal acks (3 + payload.length)
        (gt9147WrReg acks.listener reg payload (UInt8.ofNat payload.length) ⟨p, heard []⟩) ↔
      ∀ k < 3, acks.acked k := by
  have hlen : (UInt8.ofNat payload.length).toNat = payload.length := by
    rw [UInt8.toNat_ofNat']
    omega
  have hw := gt9147WrReg_listener acks reg (Nat.le_of_eq hlen) p
  rw [hlen, List.take_length] at hw
  rw [hw]
  constructor
  · intro h
    exact h.address_acked h1 rfl
  · intro haddr
    constructor
    case reported =>
      rw [← acked_from_three haddr]
      split
      case isTrue hall => exact iff_of_true rfl hall
      case isFalse hno => exact iff_of_false (show ¬ (1 : UInt8) = 0 by decide) hno
    case silent =>
      intro k hk hno hok
      exact Nat.le_of_eq (silent_of_address_acked rfl haddr hk hno hok)

/-- Three bytes into register `0x8040`: the one that is refused is the second data byte. -/
theorem refusals_reported_second :
    let acks : AckScript := fun k => if k = 4 then none else some 7
    EndsAtRefusal acks (3 + [(2 : UInt8), 3, 4].length)
      (gt9147WrReg acks.listener 0x8040 [2, 3, 4] (UInt8.ofNat [(2 : UInt8), 3, 4].length)
        ⟨⟨true, true, true⟩, heard []⟩) := by
  intro acks
  exact (refusals_reported_iff acks 0x8040 ⟨true, true, true⟩ (by decide) (by decide)).mpr
    (by decide)

/-- A chip that refuses its slave address and then acknowledges: the write returns 0, and all four
bytes are on the wire. -/
theorem address_refusal_lost :
    let acks : AckScript := fun k => if k = 0 then none else some 0
    let w := gt9147WrReg acks.listener 0x8040 [2] 1 ⟨⟨true, true, true⟩, heard []⟩
    w.1 = 0 ∧ w.2.dev.bytes = [0x28, 0x80, 0x40, 2] ∧ ¬ EndsAtRefusal acks 4 w := by
  intro acks w
  have hlen : (1 : UInt8).toNat ≤ [(2 : UInt8)].length := by decide
  have hw : w = _ := gt9147WrReg_listener acks 0x8040 hlen ⟨true, true, true⟩
  have hret : w.1 = 0 := by
    rw [hw]
    decide
  refine ⟨hret, by rw [hw]; decide, ?_⟩
  intro h
  exact absurd (h.reported.mp hret 0 (by decide)) (by decide)

end AtkOnenet
