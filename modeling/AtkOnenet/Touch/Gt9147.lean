import AtkOnenet.Touch.Ctiic
import Mathlib.Data.List.GetD

/-!
# Register access of the touch controller (`HARDWARE/TOUCH/gt9147.c`)

`gt9147WrReg` and `gt9147RdReg`, over any device on the bus, and what they do with the register
slave at the chip's two addresses (`gt9147`): a write stores the bytes from the register on
(`gt9147WrReg_slave`), a read fills the buffer with the registers (`gt9147RdReg_slave`). Both start
from and end in an idle bus (`Idle`), so calls compose; a write followed by a read of the same
registers gives the bytes back (`gt9147_write_read`).
-/

namespace AtkOnenet

open TwoWire Word

def gtCmdWr : UInt8 := 0x28
def gtCmdRd : UInt8 := 0x29

section Driver

variable {σ : Type} (d : Device σ)

/-- The data loop of `GT9147_WR_Reg` at index `i` with `n` bytes to go. -/
def gt9147WrBytes (buf : List UInt8) (i : Nat) : Nat → Bus σ → UInt8 × Bus σ
  | 0, b => (0, b)
  | n + 1, b =>
    let (ret, b) := ctIicWaitAck d (ctIicSendByte d (buf.getD i 0) b)
    if ret ≠ 0 then (ret, b) else gt9147WrBytes buf (i + 1) n b

def gt9147WrReg (reg : UInt16) (buf : List UInt8) (len : UInt8) (b : Bus σ) : UInt8 × Bus σ :=
  let b := ctIicStart d b
  -- The results of the first three acknowledge slots are dropped.
  let (_, b) := ctIicWaitAck d (ctIicSendByte d gtCmdWr b)
  let (_, b) := ctIicWaitAck d (ctIicSendByte d (reg >>> 8).toUInt8 b)
  let (_, b) := ctIicWaitAck d (ctIicSendByte d (reg &&& 0xFF).toUInt8 b)
  let (ret, b) := gt9147WrBytes d buf 0 len.toNat b
  (ret, ctIicStop d b)

/-- The data loop of `GT9147_RD_Reg` at index `i` with `n` bytes to go. The last one gets a NACK. -/
def gt9147RdBytes (len i : Nat) : Nat → List UInt8 → Bus σ → List UInt8 × Bus σ
  | 0, buf, b => (buf, b)
  | n + 1, buf, b =>
    let (v, b) := ctIicReadByte d (if (i : Int) = (len : Int) - 1 then 0 else 1) b
    gt9147RdBytes len (i + 1) n (buf.set i v) b

def gt9147RdReg (reg : UInt16) (buf : List UInt8) (len : UInt8) (b : Bus σ) :
    List UInt8 × Bus σ :=
  let b := ctIicStart d b
  let (_, b) := ctIicWaitAck d (ctIicSendByte d gtCmdWr b)
  let (_, b) := ctIicWaitAck d (ctIicSendByte d (reg >>> 8).toUInt8 b)
  let (_, b) := ctIicWaitAck d (ctIicSendByte d (reg &&& 0xFF).toUInt8 b)
  let b := ctIicStart d b
  let (_, b) := ctIicWaitAck d (ctIicSendByte d gtCmdRd b)
  let (buf, b) := gt9147RdBytes d len.toNat 0 len.toNat buf b
  (buf, ctIicStop d b)

end Driver

/-! ## With the register slave -/

/-- The touch controller: a register slave at the addresses `GT_CMD_WR` and `GT_CMD_RD`. -/
def gt9147 : Device Slave := Slave.device gtCmdWr gtCmdRd

/-- An idle bus: both lines high, the slave waits for a START and has let go of the data line. -/
structure Idle (b : Bus Slave) : Prop where
  scl : b.pins.scl = true
  sda : (b.lines gt9147).sda = true
  mode : b.dev.mode = .idle
  free : b.dev.sda = true

section Slave

variable {regs : UInt16 → UInt8} {ptr reg : UInt16} {buf : List UInt8} {o l s : Bool} {m : Mode}

/-- The write address and the register address, up to the last acknowledge: the pointer is set. -/
theorem setPointer_slave (reg : UInt16) :
    (ctIicWaitAck gt9147 (ctIicSendByte gt9147 (reg &&& 0xFF).toUInt8
      (ctIicWaitAck gt9147 (ctIicSendByte gt9147 (reg >>> 8).toUInt8
        (ctIicWaitAck gt9147 (ctIicSendByte gt9147 gtCmdWr
          ⟨⟨false, o, l⟩, ⟨regs, ptr, .rx .address [], true⟩⟩)).2)).2)).2 =
      ⟨⟨false, false, true⟩, ⟨regs, reg, .rx .data [], true⟩⟩ := by
  have h1 := sendByte_waitAck_slave gtCmdWr gtCmdRd gtCmdWr regs ptr .address o l rfl
  have h2 := sendByte_waitAck_slave gtCmdWr gtCmdRd (reg >>> 8).toUInt8 regs ptr .ptrHi false true
    rfl
  have h3 := fun q => sendByte_waitAck_slave gtCmdWr gtCmdRd (reg &&& 0xFF).toUInt8 regs q .ptrLo
    false true rfl
  rw [gt9147, h1, h2, h3]
  have hw : (wordOf (reg >>> 8).toUInt8 (ptr &&& 0xFF).toUInt8 >>> 8).toUInt8 =
      (reg >>> 8).toUInt8 := wordOf_hi _ _
  rw [hw, wordOf_split]

theorem gt9147WrBytes_slave {i n : Nat} (h : i + n ≤ buf.length) :
    gt9147WrBytes gt9147 buf i n ⟨⟨false, false, true⟩, ⟨regs, ptr, .rx .data [], true⟩⟩ =
      (0, ⟨⟨false, false, true⟩, ⟨Slave.storeAll regs ptr ((buf.drop i).take n),
        ptr + UInt16.ofNat n, .rx .data [], true⟩⟩) := by
  induction n generalizing i regs ptr with
  | zero => simp [gt9147WrBytes, Slave.storeAll, Store.storeAlong]
  | succ n ih =>
    have hi : i < buf.length := by omega
    have hb := sendByte_waitAck_slave gtCmdWr gtCmdRd buf[i] regs ptr .data false true rfl
    rw [gt9147WrBytes, List.getD_eq_getElem _ _ hi, gt9147, hb]
    simp only [ne_eq, not_true_eq_false, ↓reduceIte]
    rw [← gt9147, ih (by omega), List.drop_eq_getElem_cons hi, List.take_succ_cons,
      Slave.storeAll_cons, add_one_add_ofNat]

theorem gt9147RdBytes_slave {len i n : Nat} (hn : i + (n + 1) = len) (hl : len ≤ buf.length) :
    gt9147RdBytes gt9147 len i (n + 1) buf
        ⟨⟨false, o, l⟩, Slave.load ⟨regs, ptr, m, s⟩⟩ =
      (buf.take i ++ (List.range (n + 1)).map (fun k => regs (ptr + UInt16.ofNat k)) ++
        buf.drop len, ⟨⟨false, true, true⟩, ⟨regs, ptr + UInt16.ofNat (n + 1), .idle, true⟩⟩) := by
  have hi : i < buf.length := by omega
  induction n generalizing i buf o l ptr m s with
  | zero =>
    rw [gt9147RdBytes, if_pos (by omega), gt9147, ctIicReadByte_nack_slave]
    simp only [gt9147RdBytes]
    rw [List.set_eq_take_append_cons_drop, if_pos hi, ← hn]
    simp
  | succ n ih =>
    rw [gt9147RdBytes, if_neg (by omega), gt9147, ctIicReadByte_ack_slave (by decide), ← gt9147]
    simp only
    rw [ih (by omega) (by simpa using hl) (by rw [List.length_set]; omega)]
    have ht : (buf.set i (regs ptr)).take (i + 1) = buf.take i ++ [regs ptr] := by
      rw [List.set_eq_take_append_cons_drop, if_pos hi, List.take_append,
        List.take_of_length_le (by rw [List.length_take]; omega)]
      simp [Nat.min_eq_left (Nat.le_of_lt hi)]
    have hd : (buf.set i (regs ptr)).drop len = buf.drop len := by
      rw [List.drop_set_of_lt (by omega)]
    rw [ht, hd, List.range_succ_eq_map (n := n + 1)]
    simp only [add_one_add_ofNat, List.map_cons, List.map_map, Function.comp_def]
    simp

theorem Idle.eq {b : Bus Slave} (h : Idle b) :
    b = ⟨⟨true, b.pins.sdaOut, b.pins.sda⟩, ⟨b.dev.regs, b.dev.ptr, .idle, true⟩⟩ := by
  obtain ⟨⟨_, o, l⟩, ⟨r, p, _, _⟩⟩ := b
  obtain ⟨rfl, -, rfl, rfl⟩ := h
  rfl

theorem idle_mk : Idle ⟨⟨true, true, true⟩, ⟨regs, ptr, .idle, true⟩⟩ :=
  ⟨rfl, rfl, rfl, rfl⟩

/-- A write from an idle bus: it returns 0, stores the bytes and leaves the bus idle. -/
theorem gt9147WrReg_slave {b : Bus Slave} (hb : Idle b) (reg : UInt16) {len : UInt8}
    (hl : len.toNat ≤ buf.length) :
    gt9147WrReg gt9147 reg buf len b =
      (0, ⟨⟨true, true, true⟩, ⟨Slave.storeAll b.dev.regs reg (buf.take len.toNat),
        reg + UInt16.ofNat len.toNat, .idle, true⟩⟩) := by
  rw [hb.eq]
  simp only [gt9147WrReg]
  have hs := ctIicStart_idle gtCmdWr gtCmdRd b.dev.regs b.dev.ptr b.pins.sdaOut b.pins.sda
  rw [← gt9147] at hs
  rw [hs, setPointer_slave, gt9147WrBytes_slave (by simpa using hl), gt9147, ctIicStop_rx]
  rfl

/-- A read of at least one byte from an idle bus: the buffer gets the registers, which keep their
values, and the bus is left idle. -/
theorem gt9147RdReg_slave {b : Bus Slave} (hb : Idle b) (reg : UInt16) {len : UInt8}
    (h0 : 0 < len.toNat) (hl : len.toNat ≤ buf.length) :
    gt9147RdReg gt9147 reg buf len b =
      ((List.range len.toNat).map (fun k => b.dev.regs (reg + UInt16.ofNat k)) ++
        buf.drop len.toNat, ⟨⟨true, true, true⟩,
          ⟨b.dev.regs, reg + UInt16.ofNat len.toNat, .idle, true⟩⟩) := by
  obtain ⟨n, hn⟩ : ∃ n, len.toNat = n + 1 := ⟨len.toNat - 1, by omega⟩
  rw [hb.eq]
  simp only [gt9147RdReg]
  have hs := ctIicStart_idle gtCmdWr gtCmdRd b.dev.regs b.dev.ptr b.pins.sdaOut b.pins.sda
  have hr := ctIicStart_rx gtCmdWr gtCmdRd b.dev.regs reg .data false
  have ha := sendByte_waitAck_read (show gtCmdRd ≠ gtCmdWr by decide) b.dev.regs reg true false
  rw [← gt9147] at hs hr ha
  rw [hs, setPointer_slave, hr, ha, hn, gt9147RdBytes_slave (by omega) (by omega), gt9147,
    ctIicStop_idle]
  rfl

end Slave

/-- **Write, then read.** A register write of a payload from an idle bus returns 0, stores the
payload and nothing else; a read of the same registers then gives the payload back, leaves the
registers as they are and the bus idle. The rest of the read buffer is not touched. -/
theorem gt9147_write_read {b : Bus Slave} (hb : Idle b) (reg : UInt16) {payload out : List UInt8}
    (h1 : 1 ≤ payload.length) (h2 : payload.length ≤ 255) (ho : payload.length ≤ out.length) :
    let len := UInt8.ofNat payload.length
    let w := gt9147WrReg gt9147 reg payload len b
    let r := gt9147RdReg gt9147 reg out len w.2
    (w.1 = 0 ∧
      (∀ i (hi : i < payload.length), w.2.dev.regs (reg + UInt16.ofNat i) = payload[i]) ∧
      (∀ a, (∀ i < payload.length, a ≠ reg + UInt16.ofNat i) → w.2.dev.regs a = b.dev.regs a) ∧
      Idle w.2) ∧
    r.1 = payload ++ out.drop payload.length ∧ r.2.dev.regs = w.2.dev.regs ∧ Idle r.2 := by
  intro len w r
  have hlen : len.toNat = payload.length := by
    simp only [len, UInt8.toNat_ofNat']
    omega
  have hw : w = _ := gt9147WrReg_slave hb reg (by omega)
  rw [hlen, List.take_length] at hw
  have hwi : Idle w.2 := by rw [hw]; exact idle_mk
  have hr : r = _ := gt9147RdReg_slave hwi reg (by omega) (by omega)
  have hget : ∀ i (hi : i < payload.length),
      w.2.dev.regs (reg + UInt16.ofNat i) = payload[i] := by
    intro i hi
    rw [hw]
    exact Slave.storeAll_get (by omega) hi
  have hmap : (List.range payload.length).map (fun k => w.2.dev.regs (reg + UInt16.ofNat k)) =
      payload := by
    apply List.ext_getElem
    · simp
    · intro i _ hi
      simp [hget i hi]
  refine ⟨⟨by rw [hw], hget, ?_, hwi⟩, by rw [hr, hlen, hmap], by rw [hr],
    by rw [hr]; exact idle_mk⟩
  intro a ha
  rw [hw]
  exact Store.storeAlong_of_ne ha

/-- Two bytes into the last register and, past the wrap of the pointer, the first one. -/
theorem gt9147_write_read_wrap :
    let b : Bus Slave := ⟨⟨true, true, true⟩, ⟨fun _ => 0, 0, .idle, true⟩⟩
    let w := gt9147WrReg gt9147 0xFFFF [0x12, 0xA5] 2 b
    w.1 = 0 ∧ w.2.dev.regs 0xFFFF = 0x12 ∧ w.2.dev.regs 0 = 0xA5 ∧
      (gt9147RdReg gt9147 0xFFFF [0, 0, 7] 2 w.2).1 = [0x12, 0xA5, 7] := by
  have hlen : 1 ≤ [(0x12 : UInt8), 0xA5].length ∧ [(0x12 : UInt8), 0xA5].length ≤ 255 := by decide
  have h := gt9147_write_read (b := ⟨⟨true, true, true⟩, ⟨fun _ => 0, 0, .idle, true⟩⟩) idle_mk
    0xFFFF hlen.1 hlen.2 (show _ ≤ [(0 : UInt8), 0, 7].length by decide)
  exact ⟨h.1.1, h.1.2.1 0 (by decide), h.1.2.1 1 (by decide), h.2.1⟩

end AtkOnenet
