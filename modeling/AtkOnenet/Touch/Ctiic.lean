import AtkOnenet.Lib.RegisterSlave

/-!
# The bit-banged bus of the touch controller (`HARDWARE/TOUCH/ctiic.c`)

Each function of `ctiic.c` as a function on the bus, for any device on it. The pin macros of
`ctiic.h` (`CT_SDA_IN`, `CT_SDA_OUT`, `CT_IIC_SCL`, `CT_IIC_SDA`) are one action of the master each;
a delay is an action that leaves the pins as they are, so a device may do something in it.

A byte goes over to any device that takes it bit by bit (`TakesBits.sendByte`). The `*_slave` lemmas
say what each function does with the standard register slave: a byte sent and its acknowledge slot
(`sendByte_waitAck_slave`), a byte read with `ACK` or `NACK` (`ctIicReadByte_ack_slave`,
`ctIicReadByte_nack_slave`), START and STOP.
-/

namespace AtkOnenet

open TwoWire

section Driver

variable {σ : Type} (d : Device σ)

def ctSdaIn (b : Bus σ) : Bus σ := b.act d { b.pins with sdaOut := false }

def ctSdaOut (b : Bus σ) : Bus σ := b.act d { b.pins with sdaOut := true }

def ctIicScl (v : Bool) (b : Bus σ) : Bus σ := b.act d { b.pins with scl := v }

def ctIicSda (v : Bool) (b : Bus σ) : Bus σ := b.act d { b.pins with sda := v }

def ctReadSda (b : Bus σ) : Bool := (b.lines d).sda

/-- `CT_Delay` and `rt_hw_us_delay`. -/
def ctDelay (b : Bus σ) : Bus σ := b.act d b.pins

def ctIicStart (b : Bus σ) : Bus σ :=
  b |> ctSdaOut d |> ctIicSda d true |> ctIicScl d true |> ctDelay d
    |> ctIicSda d false |> ctDelay d |> ctIicScl d false

def ctIicStop (b : Bus σ) : Bus σ :=
  b |> ctSdaOut d |> ctIicScl d true |> ctDelay d
    |> ctIicSda d false |> ctDelay d |> ctIicSda d true

/-- The loop of `CT_IIC_Wait_Ack`; `left` is `250 - ucErrTime`. -/
def ctIicWaitAckLoop (left : Nat) (b : Bus σ) : UInt8 × Bus σ :=
  if ctReadSda d b then
    match left with
    | 0 => (1, ctIicStop d b)
    | left + 1 => ctIicWaitAckLoop left (ctDelay d b)
  else (0, ctIicScl d false b)

def ctIicWaitAck (b : Bus σ) : UInt8 × Bus σ :=
  ctIicWaitAckLoop d 250 (b |> ctSdaIn d |> ctIicSda d true |> ctIicScl d true |> ctDelay d)

def ctIicAck (b : Bus σ) : Bus σ :=
  b |> ctIicScl d false |> ctSdaOut d |> ctDelay d |> ctIicSda d false |> ctDelay d
    |> ctIicScl d true |> ctDelay d |> ctIicScl d false

def ctIicNAck (b : Bus σ) : Bus σ :=
  b |> ctIicScl d false |> ctSdaOut d |> ctDelay d |> ctIicSda d true |> ctDelay d
    |> ctIicScl d true |> ctDelay d |> ctIicScl d false

/-- The loop of `CT_IIC_Send_Byte` with `n` bits to go. -/
def ctIicSendBits : Nat → UInt8 → Bus σ → Bus σ
  | 0, _, b => b
  | n + 1, txd, b => ctIicSendBits n (txd <<< 1) (b |> ctIicSda d ((txd &&& 0x80) >>> 7 == 1)
      |> ctIicScl d true |> ctDelay d |> ctIicScl d false |> ctDelay d)

def ctIicSendByte (txd : UInt8) (b : Bus σ) : Bus σ :=
  ctIicSendBits d 8 txd (b |> ctSdaOut d |> ctIicScl d false |> ctDelay d)

/-- The loop of `CT_IIC_Read_Byte` with `n` bits to go. -/
def ctIicReadBits : Nat → UInt8 → Bus σ → UInt8 × Bus σ
  | 0, receive, b => (receive, b)
  | n + 1, receive, b =>
    let b := b |> ctIicScl d false |> ctDelay d |> ctIicScl d true
    ctIicReadBits n ((receive <<< 1) + if ctReadSda d b then 1 else 0) b

def ctIicReadByte (ack : UInt8) (b : Bus σ) : UInt8 × Bus σ :=
  let (receive, b) := ctIicReadBits d 8 0 (b |> ctSdaIn d |> ctDelay d)
  (receive, if ack = 0 then ctIicNAck d b else ctIicAck d b)

/-- In each turn of the loop of `CT_IIC_Send_Byte` the device takes one bit. It collects them in the
states `taking`, and comes to `taken` with the byte after the eighth. -/
def TakesBits (taking : List Bool → σ) (taken : UInt8 → σ) : Prop :=
  ∀ l v bits, (⟨⟨false, true, l⟩, taking bits⟩ |> ctIicSda d v |> ctIicScl d true |> ctDelay d
    |> ctIicScl d false |> ctDelay d) =
      ⟨⟨false, true, v⟩, if bits.length = 7 then taken (ofBits (bits ++ [v]))
        else taking (bits ++ [v])⟩

variable {d} {taking : List Bool → σ} {taken : UInt8 → σ} {p : Pins} {l : Bool}

theorem TakesBits.sendBits (h : TakesBits d taking taken) {n : Nat} (txd : UInt8)
    {bits : List Bool} (hn : bits.length + n = 7) (l : Bool) :
    ∃ l', ctIicSendBits d (n + 1) txd ⟨⟨false, true, l⟩, taking bits⟩ =
      ⟨⟨false, true, l'⟩, taken (ofBits (bits ++ msbs (n + 1) txd))⟩ := by
  induction n generalizing txd bits l with
  | zero =>
    rw [ctIicSendBits, h, if_pos (by omega)]
    exact ⟨_, rfl⟩
  | succ n ih =>
    rw [ctIicSendBits, h, if_neg (by omega)]
    have hlen : (bits ++ [msb txd]).length + n = 7 := by
      rw [List.length_append, List.length_singleton]
      omega
    obtain ⟨l', hrest⟩ := ih (txd <<< 1) hlen (msb txd)
    refine ⟨l', hrest.trans ?_⟩
    rw [List.append_assoc]
    rfl

/-- A whole byte, from any pins at which the device waits for the first bit. -/
theorem TakesBits.sendByte (h : TakesBits d taking taken)
    (hstart : (⟨p, taking []⟩ |> ctSdaOut d |> ctIicScl d false |> ctDelay d) =
      ⟨⟨false, true, l⟩, taking []⟩) (v : UInt8) :
    ∃ l', ctIicSendByte d v ⟨p, taking []⟩ = ⟨⟨false, true, l'⟩, taken v⟩ := by
  have hlen : ([] : List Bool).length + 7 = 7 := rfl
  obtain ⟨l', hbits⟩ := h.sendBits v hlen l
  refine ⟨l', ?_⟩
  rw [ctIicSendByte, hstart, hbits, List.nil_append,
    show ofBits (msbs (7 + 1) v) = v from ofBits_bitsOf v]

end Driver

/-! ## With the register slave

The bus is written out: the pins `⟨scl, sdaOut, sda⟩` and the slave `⟨regs, ptr, mode, sda⟩`.
Between the functions the clock is low, and the slave has let go of the data line unless it sends.
-/

section Slave

variable {wr rd : UInt8} {regs regs' : UInt16 → UInt8} {ptr ptr' : UInt16} {f f' : Field}
  {o l s : Bool} {m : Mode}

theorem ctIicStart_idle (wr rd : UInt8) (regs : UInt16 → UInt8) (ptr : UInt16) (o l : Bool) :
    ctIicStart (Slave.device wr rd) ⟨⟨true, o, l⟩, ⟨regs, ptr, .idle, true⟩⟩ =
      ⟨⟨false, true, false⟩, ⟨regs, ptr, .rx .address [], true⟩⟩ := by
  cases o <;> cases l <;> rfl

/-- A repeated START. The slave samples a first bit of `f` on the way, and drops it. -/
theorem ctIicStart_rx (wr rd : UInt8) (regs : UInt16 → UInt8) (ptr : UInt16) (f : Field)
    (o : Bool) : ctIicStart (Slave.device wr rd) ⟨⟨false, o, true⟩, ⟨regs, ptr, .rx f [], true⟩⟩ =
      ⟨⟨false, true, false⟩, ⟨regs, ptr, .rx .address [], true⟩⟩ := by
  cases o <;> rfl

/-- STOP after a written byte: the data line falls while the clock is high, then rises. -/
theorem ctIicStop_rx :
    ctIicStop (Slave.device wr rd) ⟨⟨false, o, true⟩, ⟨regs, ptr, .rx f [], true⟩⟩ =
      ⟨⟨true, true, true⟩, ⟨regs, ptr, .idle, true⟩⟩ := by
  cases o <;> rfl

theorem ctIicStop_idle :
    ctIicStop (Slave.device wr rd) ⟨⟨false, o, true⟩, ⟨regs, ptr, .idle, true⟩⟩ =
      ⟨⟨true, true, true⟩, ⟨regs, ptr, .idle, true⟩⟩ := by
  cases o <;> rfl

/-- The slave takes the bits of a byte, and accepts it as `f` on the falling edge after the last
one. -/
theorem takesBits_slave (wr rd : UInt8) (regs : UInt16 → UInt8) (ptr : UInt16) (f : Field) :
    TakesBits (Slave.device wr rd) (fun bits => ⟨regs, ptr, .rx f bits, true⟩)
      (fun v => Slave.accept wr rd f v ⟨regs, ptr, .idle, true⟩) := by
  intro l v bits
  cases v <;>
    simp [ctIicSda, ctIicScl, ctDelay, Bus.act, Bus.lines, Slave.device, Slave.onRise,
      Slave.onFall, Lines.cond] <;>
    cases f <;> rfl

/-- A whole byte: the slave accepts it as `f`. -/
theorem ctIicSendByte_slave (wr rd v : UInt8) (regs : UInt16 → UInt8) (ptr : UInt16) (f : Field)
    (o l : Bool) :
    ∃ l', ctIicSendByte (Slave.device wr rd) v
        ⟨⟨false, o, l⟩, ⟨regs, ptr, .rx f [], true⟩⟩ =
      ⟨⟨false, true, l'⟩, Slave.accept wr rd f v ⟨regs, ptr, .idle, true⟩⟩ := by
  apply (takesBits_slave wr rd regs ptr f).sendByte
  show _ = (⟨⟨false, true, l⟩, ⟨regs, ptr, .rx f [], true⟩⟩ : Bus Slave)
  cases o <;> cases l <;> rfl

theorem ctIicWaitAck_ack :
    ctIicWaitAck (Slave.device wr rd) ⟨⟨false, true, l⟩, ⟨regs, ptr, .ack f, false⟩⟩ =
      (0, ⟨⟨false, false, true⟩, ⟨regs, ptr, .rx f [], true⟩⟩) := by
  cases l <;> rfl

theorem ctIicWaitAck_ackRead :
    ctIicWaitAck (Slave.device wr rd) ⟨⟨false, true, l⟩, ⟨regs, ptr, .ackRead, false⟩⟩ =
      (0, ⟨⟨false, false, true⟩, Slave.load ⟨regs, ptr, .idle, true⟩⟩) := by
  cases l <;> rfl

/-- A byte that the slave acknowledges, with its acknowledge slot. -/
theorem sendByte_waitAck_slave (wr rd v : UInt8) (regs : UInt16 → UInt8) (ptr : UInt16) (f : Field)
    (o l : Bool)
    (h : Slave.accept wr rd f v ⟨regs, ptr, .idle, true⟩ = ⟨regs', ptr', .ack f', false⟩) :
    ctIicWaitAck (Slave.device wr rd) (ctIicSendByte (Slave.device wr rd) v
        ⟨⟨false, o, l⟩, ⟨regs, ptr, .rx f [], true⟩⟩) =
      (0, ⟨⟨false, false, true⟩, ⟨regs', ptr', .rx f' [], true⟩⟩) := by
  obtain ⟨l', hs⟩ := ctIicSendByte_slave wr rd v regs ptr f o l
  rw [hs, h, ctIicWaitAck_ack]

/-- The read address with its acknowledge slot: the slave has the first register bit on the line. -/
theorem sendByte_waitAck_read (hne : rd ≠ wr) (regs : UInt16 → UInt8) (ptr : UInt16) (o l : Bool) :
    ctIicWaitAck (Slave.device wr rd) (ctIicSendByte (Slave.device wr rd) rd
        ⟨⟨false, o, l⟩, ⟨regs, ptr, .rx .address [], true⟩⟩) =
      (0, ⟨⟨false, false, true⟩, Slave.load ⟨regs, ptr, .idle, true⟩⟩) := by
  obtain ⟨l', hs⟩ := ctIicSendByte_slave wr rd rd regs ptr .address o l
  rw [hs, show Slave.accept wr rd .address rd ⟨regs, ptr, .idle, true⟩ =
    ⟨regs, ptr, .ackRead, false⟩ by simp [Slave.accept, hne], ctIicWaitAck_ackRead]

/-! ### Reading -/

/-- The bits after the first one: each falling edge brings the next. -/
theorem ctIicReadBits_slave (wr rd : UInt8) (regs : UInt16 → UInt8) (ptr : UInt16) (l b : Bool)
    (bits : List Bool) (r : UInt8) :
    ∃ b', ctIicReadBits (Slave.device wr rd) bits.length r
        ⟨⟨true, false, l⟩, ⟨regs, ptr, .tx bits, b⟩⟩ =
      (bits.foldl shiftIn r, ⟨⟨true, false, l⟩, ⟨regs, ptr, .tx [], b'⟩⟩) := by
  induction bits generalizing b r with
  | nil => exact ⟨b, rfl⟩
  | cons v bits ih =>
    obtain ⟨b', h⟩ := ih v (shiftIn r v)
    refine ⟨b', Eq.trans ?_ h⟩
    cases v <;> rfl

/-- The first bit is on the line already: the clock is low, so no falling edge comes before it. -/
theorem ctIicReadBits_first {n : Nat} {b : Bool} {bits : List Bool} :
    ctIicReadBits (Slave.device wr rd) (n + 1) 0
        (⟨⟨false, o, l⟩, ⟨regs, ptr, .tx bits, b⟩⟩ |> ctSdaIn (Slave.device wr rd)
          |> ctDelay (Slave.device wr rd)) =
      ctIicReadBits (Slave.device wr rd) n (shiftIn 0 b)
        ⟨⟨true, false, l⟩, ⟨regs, ptr, .tx bits, b⟩⟩ := by
  cases o <;> cases l <;> cases b <;> rfl

/-- The eight bits of the register under the pointer, up to the master's acknowledge. -/
theorem ctIicReadBits_load (wr rd : UInt8) (regs : UInt16 → UInt8) (ptr : UInt16) (m : Mode)
    (s o l : Bool) :
    ∃ b', ctIicReadBits (Slave.device wr rd) 8 0
        (⟨⟨false, o, l⟩, Slave.load ⟨regs, ptr, m, s⟩⟩ |> ctSdaIn (Slave.device wr rd)
          |> ctDelay (Slave.device wr rd)) =
      (regs ptr, ⟨⟨true, false, l⟩, ⟨regs, ptr + 1, .tx [], b'⟩⟩) := by
  obtain ⟨b', h⟩ := ctIicReadBits_slave wr rd regs (ptr + 1) l (msb (regs ptr))
    (bitsOf (regs ptr)).tail (shiftIn 0 (msb (regs ptr)))
  refine ⟨b', ctIicReadBits_first.trans (h.trans ?_)⟩
  rw [foldl_shiftIn_tail]

theorem ctIicReadByte_ack_slave {ack : UInt8} (ha : ack ≠ 0) :
    ctIicReadByte (Slave.device wr rd) ack ⟨⟨false, o, l⟩, Slave.load ⟨regs, ptr, m, s⟩⟩ =
      (regs ptr, ⟨⟨false, true, false⟩, Slave.load ⟨regs, ptr + 1, .idle, true⟩⟩) := by
  obtain ⟨b', h⟩ := ctIicReadBits_load wr rd regs ptr m s o l
  simp only [ctIicReadByte, h, ha, ↓reduceIte, Prod.mk.injEq, true_and]
  cases l <;> cases b' <;> rfl

theorem ctIicReadByte_nack_slave :
    ctIicReadByte (Slave.device wr rd) 0 ⟨⟨false, o, l⟩, Slave.load ⟨regs, ptr, m, s⟩⟩ =
      (regs ptr, ⟨⟨false, true, true⟩, ⟨regs, ptr + 1, .idle, true⟩⟩) := by
  obtain ⟨b', h⟩ := ctIicReadBits_load wr rd regs ptr m s o l
  simp only [ctIicReadByte, h, ↓reduceIte, Prod.mk.injEq, true_and]
  cases l <;> cases b' <;> rfl

end Slave

end AtkOnenet
