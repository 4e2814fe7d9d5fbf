import AtkOnenet.Touch.Gt9147

/-!
# The shape of the bus transactions

A transaction is one call of `GT9147_WR_Reg` or `GT9147_RD_Reg`, recorded by a probe on the lines.
`Framed` is the I2C frame that it should be: one START in front (a read has a second, repeated one),
one STOP at the end, no other change of the data line while the clock is high, both lines high
afterwards.

No transaction is framed, whatever the device answers (`framed_iff`). `CT_IIC_Stop` raises the clock
before it pulls the data line down. Every caller enters it with the data latch high, so a free data
line falls while the clock is high: a START right before the STOP. If the device holds the line
down, there is no STOP either.
-/

namespace AtkOnenet

open TwoWire

/-- A call of a register function. -/
inductive RegCall where
  | wrReg (reg : UInt16) (buf : List UInt8) (len : UInt8)
  | rdReg (reg : UInt16) (buf : List UInt8) (len : UInt8)

variable {σ : Type} {d : Device σ}

def RegCall.run (d : Device σ) : RegCall → Bus σ → Bus σ
  | .wrReg reg buf len, b => (gt9147WrReg d reg buf len b).2
  | .rdReg reg buf len, b => (gt9147RdReg d reg buf len b).2

/-- The STARTs and STOPs of a good frame, the newest first. -/
def RegCall.frame : RegCall → List Cond
  | .wrReg .. => [.stop, .start]
  | .rdReg .. => [.stop, .start, .start]

/-- The record `r` (the newest levels first) is the I2C frame of the call `c`. -/
structure Framed (c : RegCall) (r : List Lines) : Prop where
  /-- The STARTs and STOPs; every other change of the data line is made with the clock low. -/
  conds : conditions r = c.frame
  /-- The first START is in front of the first clock pulse. -/
  first : conditions (r.reverse.takeWhile (·.scl)).reverse = [.start]
  /-- After the last clock pulse, which is the last acknowledge slot, there is just the STOP. -/
  last : conditions (sinceLow r) = [.stop]
  /-- Both lines are high afterwards. -/
  high : r.head? = some ⟨true, true⟩

/-- The frame of a write without a byte: START, one clock pulse with the data line low, STOP. -/
example : Framed (.wrReg 0 [] 0) [⟨true, true⟩, ⟨true, false⟩, ⟨false, false⟩, ⟨true, false⟩,
    ⟨false, false⟩, ⟨true, false⟩, ⟨true, true⟩] :=
  ⟨rfl, rfl, rfl, rfl⟩

/-- The calls `cs` one after the other, each with the record of its own transaction. -/
def transactions (d : Device σ) : List RegCall → Bus σ → List (RegCall × List Lines)
  | [], _ => []
  | c :: cs, b =>
    let b' := c.run d.probed ⟨b.pins, (b.dev, [])⟩
    (c, b'.record d) :: transactions d cs ⟨b'.pins, b'.dev.1⟩

/-! ## The data latch in front of `CT_IIC_Stop` -/

theorem ctIicWaitAckLoop_latch (left : Nat) (b : Bus σ) (hb : b.pins.sda = true) :
    (ctIicWaitAckLoop d left b).2.pins.sda = true := by
  induction left generalizing b with
  | zero =>
    unfold ctIicWaitAckLoop
    split
    · rfl
    · exact hb
  | succ left ih =>
    unfold ctIicWaitAckLoop
    split
    · exact ih _ hb
    · exact hb

/-- `CT_IIC_Wait_Ack` leaves the data latch high, acknowledged or not. -/
theorem ctIicWaitAck_latch (b : Bus σ) : (ctIicWaitAck d b).2.pins.sda = true :=
  ctIicWaitAckLoop_latch _ _ rfl

theorem gt9147WrBytes_latch (buf : List UInt8) (i n : Nat) (b : Bus σ)
    (hb : b.pins.sda = true) : (gt9147WrBytes d buf i n b).2.pins.sda = true := by
  induction n generalizing i b with
  | zero => exact hb
  | succ n ih =>
    simp only [gt9147WrBytes]
    split
    · exact ctIicWaitAck_latch _
    · exact ih _ _ (ctIicWaitAck_latch _)

/-- The last byte of a read gets a NACK, which leaves the data latch high. -/
theorem gt9147RdBytes_latch {len i n : Nat} (hn : i + n = len) (buf : List UInt8) (b : Bus σ)
    (hb : n = 0 → b.pins.sda = true) : (gt9147RdBytes d len i n buf b).2.pins.sda = true := by
  induction n generalizing i buf b with
  | zero => exact hb rfl
  | succ n ih =>
    simp only [gt9147RdBytes]
    refine ih (by omega) _ _ fun h0 => ?_
    rw [if_pos (by omega)]
    rfl

/-- Every call ends with `CT_IIC_Stop`, entered with the data latch high. -/
theorem RegCall.run_eq_stop (c : RegCall) (b : Bus σ) :
    ∃ b', b'.pins.sda = true ∧ c.run d b = ctIicStop d b' := by
  cases c with
  | wrReg reg buf len =>
    exact ⟨_, gt9147WrBytes_latch _ _ _ _ (ctIicWaitAck_latch _), rfl⟩
  | rdReg reg buf len =>
    exact ⟨_, gt9147RdBytes_latch (Nat.zero_add _) _ _ fun _ => ctIicWaitAck_latch _, rfl⟩

/-! ## The end of every transaction -/

/-- The levels that `CT_IIC_Stop` leaves in a record, where the device drives `s`. -/
theorem ctIicStop_record (hq : d.Quiet) (b : Bus (σ × List Lines)) (hb : b.pins.sda = true) :
    ∃ s t, (ctIicStop d.probed b).record d =
      ⟨true, s⟩ :: ⟨true, s⟩ :: ⟨true, false⟩ :: ⟨true, false⟩ :: ⟨true, false⟩ ::
        ⟨true, false⟩ :: ⟨true, s⟩ :: t := by
  -- From `b₁` on the clock is high, so the device keeps its side of the data line.
  let b₁ := b |> ctSdaOut d.probed |> ctIicScl d.probed true |> ctDelay d.probed
  let b₂ := ctIicSda d.probed false b₁
  let b₃ := ctDelay d.probed b₂
  have h₁ : b₁.record d = ⟨true, d.drive b₁.dev.1⟩ :: b₁.dev.2 := by
    simp [Bus.record, Bus.lines, Device.probed, b₁, ctDelay, ctIicScl, ctSdaOut, hb]
  have d₂ : d.drive b₂.dev.1 = d.drive b₁.dev.1 := hq.drive_act _ _ rfl
  have d₃ : d.drive b₃.dev.1 = d.drive b₁.dev.1 := (hq.drive_act _ _ rfl).trans d₂
  have r₂ : b₂.record d = ⟨true, false⟩ :: ⟨true, false⟩ :: b₁.record d := by
    refine (hq.record_act _ _ rfl).trans ?_
    simp [b₁, ctDelay, ctIicScl, ctSdaOut]
  have r₃ : b₃.record d = ⟨true, false⟩ :: ⟨true, false⟩ :: b₂.record d := by
    refine (hq.record_act _ _ rfl).trans ?_
    simp [b₂, ctIicSda, b₁, ctDelay, ctIicScl, ctSdaOut]
  have r₄ : (ctIicStop d.probed b).record d =
      ⟨true, d.drive b₁.dev.1⟩ :: ⟨true, d.drive b₁.dev.1⟩ :: b₃.record d := by
    refine (hq.record_act _ _ rfl).trans ?_
    rw [← d₃]
    simp [b₃, b₂, ctIicSda, b₁, ctDelay, ctIicScl, ctSdaOut]
  exact ⟨_, _, by rw [r₄, r₃, r₂, h₁]⟩

/-- No call makes a framed transaction. -/
theorem not_framed (hq : d.Quiet) (c : RegCall) (b : Bus (σ × List Lines)) :
    ¬ Framed c ((c.run d.probed b).record d) := by
  intro h
  obtain ⟨b', hb', he⟩ := c.run_eq_stop (d := d.probed) b
  obtain ⟨s, t, hr⟩ := ctIicStop_record hq b' hb'
  rw [he, hr] at h
  -- Both lines are high at the end, so the device drives high, and the data line has fallen.
  obtain rfl : s = true := by simpa using h.high
  have hl := h.last
  simp [sinceLow, conditions, Lines.cond] at hl

/-- **A run of register calls makes only good frames exactly when it makes no call.** -/
theorem framed_iff (hq : d.Quiet) (cs : List RegCall) (b : Bus σ) :
    (∀ t ∈ transactions d cs b, Framed t.1 t.2) ↔ cs = [] := by
  cases cs with
  | nil => simp [transactions]
  | cons c cs =>
    simp only [transactions, List.mem_cons, forall_eq_or_imp, reduceCtorEq, iff_false, not_and]
    exact fun h => (not_framed hq c _ h).elim

/-- The touch controller, with both lines high. -/
def gt9147Bus : Bus Slave := ⟨⟨true, true, true⟩, ⟨fun _ => 0, 0, .idle, true⟩⟩

/-- A write of one byte to `0x8040`. -/
theorem framed_iff_gt9147 :
    (∀ t ∈ transactions gt9147 [.wrReg 0x8040 [2] 1] gt9147Bus, Framed t.1 t.2) ↔
      [RegCall.wrReg 0x8040 [2] 1] = [] :=
  framed_iff (Slave.quiet _ _) _ _

/-- In this write the device acknowledges every byte, and there is a second START before the
STOP. -/
theorem wrReg_start_before_stop :
    (gt9147WrReg gt9147 0x8040 [2] 1 gt9147Bus).1 = 0 ∧
      (transactions gt9147 [.wrReg 0x8040 [2] 1] gt9147Bus).map (fun t => conditions t.2) =
        [[.stop, .start, .start]] ∧
      ¬ ∀ t ∈ transactions gt9147 [.wrReg 0x8040 [2] 1] gt9147Bus, Framed t.1 t.2 := by
  have hconds : (transactions gt9147 [.wrReg 0x8040 [2] 1] gt9147Bus).map
      (fun t => conditions t.2) = [[.stop, .start, .start]] := by decide +kernel
  refine ⟨by decide +kernel, hconds, fun h => ?_⟩
  have hc := (h _ (List.mem_singleton.mpr rfl)).conds
  exact absurd ((List.head_eq_of_cons_eq hconds).symm.trans hc) (by decide)

end AtkOnenet
