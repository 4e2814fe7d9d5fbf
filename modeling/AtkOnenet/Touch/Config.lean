import AtkOnenet.Touch.Gt9147

/-!
# Setting up the touch controller (`HARDWARE/TOUCH/gt9147.c`)

`gt9147Init` reads the product ID and, on a GT9147 with an old configuration, writes the
configuration table with its checksum (`gt9147SendCfg`). The pins, the reset line and the printed
lines are left out.

* `gt9147Init_slave`: on the register slave it is a function of the registers (`initRegs`).
* `gt9147Init_config`: what the registers are afterwards, and that a second call changes nothing.
-/

namespace AtkOnenet

open TwoWire Word

def gtCtrlReg : UInt16 := 0x8040
def gtCfgsReg : UInt16 := 0x8047
def gtCheckReg : UInt16 := 0x80FF
def gtPidReg : UInt16 := 0x8140

def gt9147CfgTbl : List UInt8 := [
  0x62, 0xE0, 0x01, 0x20, 0x03, 0x05, 0x34, 0xC0, 0x01, 0x08,
  0x28, 0x0F, 0x50, 0x32, 0x03, 0x05, 0x00, 0x00, 0x00, 0x00,
  0x00, 0x00, 0x06, 0x16, 0x16, 0x1F, 0x14, 0x89, 0x28, 0x0A,
  0x17, 0x15, 0x31, 0x0D, 0x00, 0x00, 0x08, 0x22, 0x04, 0x11,
  0x00, 0x00, 0x00, 0x00, 0x00, 0x03, 0x82, 0x08, 0x08, 0x00,
  0x00, 0x0F, 0x2C, 0x94, 0xC5, 0x02, 0x07, 0x00, 0x00, 0x04,
  0x9D, 0x10, 0x00, 0x84, 0x14, 0x00, 0x70, 0x19, 0x00, 0x5F,
  0x20, 0x00, 0x55, 0x27, 0x00, 0x54, 0x00, 0x00, 0x00, 0x00,
  0x00, 0x00, 0x00, 0x00, 0x00, 0x00, 0x00, 0x00, 0x00, 0x00,
  0x00, 0x00, 0x00, 0x00, 0x00, 0x00, 0x00, 0x00, 0x00, 0x00,
  0x00, 0x00, 0x00, 0x00, 0x00, 0x00, 0x00, 0x00, 0x00, 0x01,
  0x00, 0x00, 0x1A, 0x18, 0x16, 0x14, 0x12, 0x10, 0x0E, 0x0C,
  0x0A, 0x08, 0x00, 0x00, 0x00, 0x00, 0x1F, 0xFF, 0xFF, 0xFF,
  0xFF, 0xFF, 0xFF, 0xFF, 0xFF, 0xFF, 0xFF, 0xFF, 0xFF, 0xFF,
  0xFF, 0x00, 0x00, 0x02, 0x04, 0x05, 0x06, 0x08, 0x0A, 0x0C,
  0x0E, 0x1D, 0x1E, 0x1F, 0x20, 0x22, 0x24, 0x28, 0x29, 0xFF,
  0x00, 0x00, 0x00, 0x00, 0x00, 0x00, 0x00, 0x00, 0xFF, 0xFF,
  0xFF, 0xFF, 0xFF, 0xFF, 0xFF, 0xFF, 0xFF, 0xFF, 0xFF, 0xF6,
  0xFF, 0xFF, 0xFF, 0xFF]

/-- The byte that makes the sum of a block 0. -/
def checksum (vs : List UInt8) : UInt8 := ~~~(vs.foldl (· + ·) 0) + 1

section Driver

variable {σ : Type} (d : Device σ)

def gt9147SendCfg (mode : UInt8) (b : Bus σ) : UInt8 × Bus σ :=
  let buf := [checksum gt9147CfgTbl, mode]
  let (_, b) := gt9147WrReg d gtCfgsReg gt9147CfgTbl (UInt8.ofNat gt9147CfgTbl.length) b
  let (_, b) := gt9147WrReg d gtCheckReg buf 2 b
  (0, b)

/-- The text `9147`. -/
def pid9147 : List UInt8 := [0x39, 0x31, 0x34, 0x37]

def gt9147Init (b : Bus σ) : UInt8 × Bus σ :=
  let (temp, b) := gt9147RdReg d gtPidReg [0, 0, 0, 0, 0] 4 b
  let temp := temp.set 4 0
  -- `strcmp` compares up to the terminating zero.
  if temp.takeWhile (· ≠ 0) = pid9147 then
    let temp := temp.set 0 0x02
    let (_, b) := gt9147WrReg d gtCtrlReg temp 1 b
    let (temp, b) := gt9147RdReg d gtCfgsReg temp 1 b
    let b := if temp.getD 0 0 < 0x60 then (gt9147SendCfg d 1 b).2 else b
    let temp := temp.set 0 0x00
    (0, (gt9147WrReg d gtCtrlReg temp 1 b).2)
  else (0, b)

end Driver

/-! ## With the register slave -/

variable {b : Bus Slave} {regs : UInt16 → UInt8} {a : UInt16}

/-- The four bytes of the product ID. -/
def pidBytes (regs : UInt16 → UInt8) : List UInt8 :=
  (List.range 4).map (fun k => regs (gtPidReg + UInt16.ofNat k))

/-- The product ID is that of a GT9147. -/
def Is9147 (regs : UInt16 → UInt8) : Prop := pidBytes regs = pid9147

instance (regs : UInt16 → UInt8) : Decidable (Is9147 regs) := inferInstanceAs (Decidable (_ = _))

/-- The table with its checksum and the flag that makes the chip save it. -/
def cfgBlock (mode : UInt8) : List UInt8 := gt9147CfgTbl ++ [checksum gt9147CfgTbl, mode]

/-- The registers behind `gt9147Init`. -/
def initRegs (regs : UInt16 → UInt8) : UInt16 → UInt8 :=
  if Is9147 regs then
    let reset := Function.update regs gtCtrlReg 0x02
    let configured :=
      if regs gtCfgsReg < 0x60 then Slave.storeAll reset gtCfgsReg (cfgBlock 1) else reset
    Function.update configured gtCtrlReg 0x00
  else regs

theorem pidBytes_length (regs : UInt16 → UInt8) : (pidBytes regs).length = 4 := by
  simp [pidBytes]

/-- `strcmp` of the bytes that were read with a zero behind them. -/
theorem takeWhile_pid (regs : UInt16 → UInt8) :
    ((pidBytes regs ++ [0]).set 4 0).takeWhile (· ≠ 0) = pid9147 ↔ Is9147 regs := by
  have hlen := pidBytes_length regs
  have hset : (pidBytes regs ++ [0]).set 4 0 = pidBytes regs ++ [0] := by
    rw [List.set_append_right _ _ (Nat.le_of_eq hlen), hlen]
    rfl
  rw [hset, Is9147]
  generalize pidBytes regs = bytes at hlen ⊢
  constructor
  · intro h
    have hpre := List.takeWhile_prefix (fun v : UInt8 => decide (v ≠ 0)) (l := bytes ++ [0])
    rw [h] at hpre
    rw [List.prefix_iff_eq_take.mp hpre]
    exact (List.take_left' hlen).symm
  · rintro rfl
    decide

theorem cfgTbl_length : gt9147CfgTbl.length = 184 := by decide +kernel

/-- A write on an idle bus. -/
theorem wrReg_idle (hb : Idle b) (reg : UInt16) {buf : List UInt8} {len : UInt8}
    (hl : len.toNat ≤ buf.length) :
    ∃ b', gt9147WrReg gt9147 reg buf len b = (0, b') ∧ Idle b' ∧
      b'.dev.regs = Slave.storeAll b.dev.regs reg (buf.take len.toNat) :=
  ⟨_, gt9147WrReg_slave hb reg hl, idle_mk, rfl⟩

/-- A read on an idle bus. -/
theorem rdReg_idle (hb : Idle b) (reg : UInt16) {buf : List UInt8} {len : UInt8}
    (h0 : 0 < len.toNat) (hl : len.toNat ≤ buf.length) :
    ∃ b', gt9147RdReg gt9147 reg buf len b =
        ((List.range len.toNat).map (fun k => b.dev.regs (reg + UInt16.ofNat k)) ++
          buf.drop len.toNat, b') ∧ Idle b' ∧ b'.dev.regs = b.dev.regs :=
  ⟨_, gt9147RdReg_slave hb reg h0 hl, idle_mk, rfl⟩

/-- Writing the table and then its checksum stores one block. -/
theorem gt9147SendCfg_slave (hb : Idle b) (mode : UInt8) :
    ∃ b', gt9147SendCfg gt9147 mode b = (0, b') ∧ Idle b' ∧
      b'.dev.regs = Slave.storeAll b.dev.regs gtCfgsReg (cfgBlock mode) := by
  have h184 : (UInt8.ofNat gt9147CfgTbl.length).toNat = gt9147CfgTbl.length := by
    rw [cfgTbl_length]
    rfl
  obtain ⟨b₁, htbl, hb₁, hregs₁⟩ := wrReg_idle hb gtCfgsReg (Nat.le_of_eq h184)
  obtain ⟨b₂, hend, hb₂, hregs₂⟩ := wrReg_idle hb₁ gtCheckReg
    (show (2 : UInt8).toNat ≤ [checksum gt9147CfgTbl, mode].length from Nat.le_refl 2)
  refine ⟨b₂, by simp only [gt9147SendCfg, htbl, hend], hb₂, ?_⟩
  have hnext : gtCheckReg = gtCfgsReg + UInt16.ofNat gt9147CfgTbl.length := by
    rw [cfgTbl_length]
    rfl
  rw [hregs₂, hregs₁, h184, List.take_length, hnext, cfgBlock, Slave.storeAll_append]
  rfl

/-- On the register slave the set-up is a function of the registers. -/
theorem gt9147Init_slave (hb : Idle b) :
    ∃ b', gt9147Init gt9147 b = (0, b') ∧ Idle b' ∧ b'.dev.regs = initRegs b.dev.regs := by
  obtain ⟨b₁, hpid, hb₁, hregs₁⟩ := rdReg_idle hb gtPidReg
    (show 0 < (4 : UInt8).toNat by decide) (show (4 : UInt8).toNat ≤ [0, 0, 0, 0, 0].length by decide)
  have hbytes : (List.range (4 : UInt8).toNat).map
      (fun k => b.dev.regs (gtPidReg + UInt16.ofNat k)) = pidBytes b.dev.regs := rfl
  have hrest : ([0, 0, 0, 0, 0] : List UInt8).drop (4 : UInt8).toNat = [0] := rfl
  rw [hbytes, hrest] at hpid
  have htext := takeWhile_pid b.dev.regs
  by_cases hid : Is9147 b.dev.regs
  · have hid' : pidBytes b.dev.regs = pid9147 := hid
    rw [hid'] at hpid htext
    obtain ⟨b₂, hreset, hb₂, hregs₂⟩ := wrReg_idle hb₁ gtCtrlReg
      (show (1 : UInt8).toNat ≤ (((pid9147 ++ [0]).set 4 0).set 0 2).length by decide)
    obtain ⟨b₃, hver, hb₃, hregs₃⟩ := rdReg_idle hb₂ gtCfgsReg
      (show 0 < (1 : UInt8).toNat by decide)
      (show (1 : UInt8).toNat ≤ (((pid9147 ++ [0]).set 4 0).set 0 2).length by decide)
    have hreset₂ : b₂.dev.regs = Function.update b.dev.regs gtCtrlReg 2 := by
      rw [hregs₂, hregs₁]
      rfl
    have hold : b₂.dev.regs gtCfgsReg = b.dev.regs gtCfgsReg := by
      rw [hreset₂]
      exact Function.update_of_ne (by decide) _ _
    have hbyte : ((List.range (1 : UInt8).toNat).map (fun k => b₂.dev.regs (gtCfgsReg +
        UInt16.ofNat k)) ++ (((pid9147 ++ [0]).set 4 0).set 0 2).drop (1 : UInt8).toNat) =
        [b.dev.regs gtCfgsReg, 0x31, 0x34, 0x37, 0] := by
      rw [← hold]
      rfl
    rw [hbyte] at hver
    -- What the driver does behind the read of the version.
    obtain ⟨b₄, hsend, hb₄, hregs₄⟩ : ∃ b₄,
        (if b.dev.regs gtCfgsReg < 0x60 then (gt9147SendCfg gt9147 1 b₃).2 else b₃) = b₄ ∧ Idle b₄ ∧
          b₄.dev.regs = if b.dev.regs gtCfgsReg < 0x60 then
            Slave.storeAll (Function.update b.dev.regs gtCtrlReg 2) gtCfgsReg (cfgBlock 1)
            else Function.update b.dev.regs gtCtrlReg 2 := by
      rw [← hreset₂, ← hregs₃]
      by_cases hver : b.dev.regs gtCfgsReg < 0x60
      · obtain ⟨b₄, hcfg, hb₄, hregs₄⟩ := gt9147SendCfg_slave hb₃ 1
        rw [if_pos hver, if_pos hver, hcfg]
        exact ⟨b₄, rfl, hb₄, hregs₄⟩
      · rw [if_neg hver, if_neg hver]
        exact ⟨b₃, rfl, hb₃, rfl⟩
    obtain ⟨b₅, hend, hb₅, hregs₅⟩ := wrReg_idle hb₄ gtCtrlReg
      (show (1 : UInt8).toNat ≤ ([b.dev.regs gtCfgsReg, 0x31, 0x34, 0x37, 0].set 0 0).length from
        Nat.le_add_left 1 4)
    refine ⟨b₅, ?_, hb₅, ?_⟩
    · unfold gt9147Init
      rw [hpid]
      refine (if_pos (htext.mpr hid)).trans ?_
      dsimp only
      rw [hreset]
      dsimp only
      rw [hver]
      dsimp only
      rw [List.getD_cons_zero, hsend, hend]
    · rw [hregs₅, hregs₄, initRegs, if_pos hid]
      rfl
  · refine ⟨b₁, ?_, hb₁, ?_⟩
    · unfold gt9147Init
      rw [hpid]
      exact if_neg (mt htext.mp hid)
    · rw [hregs₁, initRegs, if_neg hid]

/-! ## The registers afterwards -/

/-- A block with its checksum behind it sums to 0. -/
theorem sum_checksum (vs : List UInt8) : (vs ++ [checksum vs]).foldl (· + ·) 0 = 0 := by
  rw [List.foldl_append, List.foldl_cons, List.foldl_nil, checksum, ← UInt8.neg_eq_not_add,
    ← UInt8.sub_eq_add_neg, UInt8.sub_self]

theorem cfgBlock_length (mode : UInt8) : (cfgBlock mode).length = 186 := by
  rw [cfgBlock, List.length_append, cfgTbl_length]
  rfl

theorem cfgs_toNat {i : Nat} (hi : i < 186) :
    (gtCfgsReg + UInt16.ofNat i).toNat = 0x8047 + i := by
  rw [UInt16.toNat_add, UInt16.toNat_ofNat_of_lt' (show i < 2 ^ 16 by omega)]
  show (0x8047 + i) % 2 ^ 16 = _
  omega

theorem cfgs_ne {i : Nat} (hi : i < 186) (h : a.toNat < 0x8047 ∨ 0x8101 ≤ a.toNat) :
    a ≠ gtCfgsReg + UInt16.ofNat i := by
  intro heq
  rw [heq, cfgs_toNat hi] at h
  omega

theorem pid_toNat {k : Nat} (hk : k < 4) : (gtPidReg + UInt16.ofNat k).toNat = 0x8140 + k := by
  rw [UInt16.toNat_add, UInt16.toNat_ofNat_of_lt' (show k < 2 ^ 16 by omega)]
  show (0x8140 + k) % 2 ^ 16 = _
  omega

theorem initRegs_ctrl (h : Is9147 regs) : initRegs regs gtCtrlReg = 0 := by
  rw [initRegs, if_pos h]
  exact Function.update_self _ _ _

theorem initRegs_of_new (h : Is9147 regs) (hv : ¬regs gtCfgsReg < 0x60) (ha : a ≠ gtCtrlReg) :
    initRegs regs a = regs a := by
  simp only [initRegs, if_pos h, if_neg hv, Function.update_of_ne ha]

theorem initRegs_block (h : Is9147 regs) (hv : regs gtCfgsReg < 0x60) {i : Nat}
    (hi : i < (cfgBlock 1).length) :
    initRegs regs (gtCfgsReg + UInt16.ofNat i) = (cfgBlock 1)[i] := by
  have hi' : i < 186 := by rwa [← cfgBlock_length 1]
  have hne : gtCfgsReg + UInt16.ofNat i ≠ gtCtrlReg := (cfgs_ne hi' (.inl (by decide))).symm
  simp only [initRegs, if_pos h, if_pos hv, Function.update_of_ne hne]
  exact Slave.storeAll_get (by rw [cfgBlock_length]; decide) hi

theorem initRegs_of_ne (h : Is9147 regs) (hv : regs gtCfgsReg < 0x60) (ha : a ≠ gtCtrlReg)
    (hne : ∀ i < 186, a ≠ gtCfgsReg + UInt16.ofNat i) : initRegs regs a = regs a := by
  simp only [initRegs, if_pos h, if_pos hv, Function.update_of_ne ha]
  rw [Slave.storeAll, Store.storeAlong_of_ne, Function.update_of_ne ha]
  rwa [cfgBlock_length]

/-- The ID survives the set-up. -/
theorem is9147_initRegs (h : Is9147 regs) : Is9147 (initRegs regs) := by
  have hpid : pidBytes (initRegs regs) = pidBytes regs := by
    refine List.map_congr_left (fun k hk => ?_)
    have hat := pid_toNat (List.mem_range.mp hk)
    have hctrl : gtPidReg + UInt16.ofNat k ≠ gtCtrlReg := by
      intro heq
      rw [heq, show gtCtrlReg.toNat = 0x8040 from rfl] at hat
      omega
    have hcfg : ∀ i < 186, gtPidReg + UInt16.ofNat k ≠ gtCfgsReg + UInt16.ofNat i :=
      fun i hi => cfgs_ne hi (.inr (by omega))
    by_cases hv : regs gtCfgsReg < 0x60
    · exact initRegs_of_ne h hv hctrl hcfg
    · exact initRegs_of_new h hv hctrl
  exact hpid.trans h

/-- Behind the set-up the configuration is a new one. -/
theorem initRegs_version (h : Is9147 regs) : ¬initRegs regs gtCfgsReg < 0x60 := by
  by_cases hv : regs gtCfgsReg < 0x60
  · have hfirst := initRegs_block h hv (i := 0) (by rw [cfgBlock_length]; decide)
    rw [show gtCfgsReg + UInt16.ofNat 0 = gtCfgsReg from rfl] at hfirst
    rw [hfirst]
    show ¬(0x62 : UInt8) < 0x60
    decide
  · rwa [initRegs_of_new h hv (by decide)]

/-- The second call finds the new configuration and writes none. -/
theorem initRegs_initRegs (regs : UInt16 → UInt8) : initRegs (initRegs regs) = initRegs regs := by
  by_cases h : Is9147 regs
  · have h' := is9147_initRegs h
    funext a
    by_cases ha : a = gtCtrlReg
    · rw [ha, initRegs_ctrl h', initRegs_ctrl h]
    · exact initRegs_of_new h' (initRegs_version h) ha
  · have hsame : initRegs regs = regs := by rw [initRegs, if_neg h]
    rw [hsame, hsame]

/-- **The set-up of the chip.** From an idle bus, for all contents of the registers: the registers of
another chip are left as they are; a GT9147 is left with the control register 0. One with an old
configuration then holds the table, a checksum with which the block sums to 0, and the flag that
saves it; nothing else has changed. A second call changes nothing. -/
theorem gt9147Init_config (hb : Idle b) :
    let after := (gt9147Init gt9147 b).2
    Idle after ∧ (gt9147Init gt9147 after).2.dev.regs = after.dev.regs ∧
      (¬Is9147 b.dev.regs → after.dev.regs = b.dev.regs) ∧
      (Is9147 b.dev.regs → after.dev.regs gtCtrlReg = 0 ∧
        (¬b.dev.regs gtCfgsReg < 0x60 → ∀ a ≠ gtCtrlReg, after.dev.regs a = b.dev.regs a) ∧
        (b.dev.regs gtCfgsReg < 0x60 →
          (List.range 184).map (fun i => after.dev.regs (gtCfgsReg + UInt16.ofNat i)) =
            gt9147CfgTbl ∧
          ((List.range 185).map (fun i => after.dev.regs (gtCfgsReg + UInt16.ofNat i))).foldl
            (· + ·) 0 = 0 ∧
          after.dev.regs 0x8100 = 1 ∧
          ∀ a ≠ gtCtrlReg, (∀ i < 186, a ≠ gtCfgsReg + UInt16.ofNat i) →
            after.dev.regs a = b.dev.regs a)) := by
  obtain ⟨b', hinit, hb', hregs⟩ := gt9147Init_slave hb
  obtain ⟨b'', hagain, -, hregs'⟩ := gt9147Init_slave hb'
  intro after
  have hafter : after = b' := by rw [show after = (gt9147Init gt9147 b).2 from rfl, hinit]
  rw [hafter, hagain, hregs', hregs]
  refine ⟨hb', initRegs_initRegs _, fun h => by rw [initRegs, if_neg h], fun h => ?_⟩
  refine ⟨initRegs_ctrl h, fun hv a ha => initRegs_of_new h hv ha, fun hv => ?_⟩
  have hblock : ∀ n ≤ 186, (List.range n).map
      (fun i => initRegs b.dev.regs (gtCfgsReg + UInt16.ofNat i)) = (cfgBlock 1).take n := by
    intro n hn
    apply List.ext_getElem
    · simp [cfgBlock_length, hn]
    · intro i hi _
      rw [List.length_map, List.length_range] at hi
      rw [List.getElem_map, List.getElem_range, initRegs_block h hv (by rw [cfgBlock_length]; omega),
        List.getElem_take]
  refine ⟨?_, ?_, ?_, fun a ha hne => initRegs_of_ne h hv ha hne⟩
  · rw [hblock 184 (by decide), cfgBlock]
    exact List.take_left' cfgTbl_length
  · have hcons : cfgBlock 1 = gt9147CfgTbl ++ [checksum gt9147CfgTbl] ++ [1] := by simp [cfgBlock]
    rw [hblock 185 (by decide), hcons, List.take_left' (by simp [cfgTbl_length])]
    exact sum_checksum gt9147CfgTbl
  · have hlast := initRegs_block h hv (i := 185) (by rw [cfgBlock_length]; decide)
    rw [show (0x8100 : UInt16) = gtCfgsReg + UInt16.ofNat 185 from rfl, hlast]
    simp [cfgBlock, cfgTbl_length]

/-- A GT9147 with an empty configuration. -/
theorem gt9147Init_config_empty :
    let regs := Slave.storeAll (fun _ => 0) gtPidReg pid9147
    let after := (gt9147Init gt9147 ⟨⟨true, true, true⟩, ⟨regs, 0, .idle, true⟩⟩).2.dev.regs
    after gtCtrlReg = 0 ∧ after 0x8100 = 1 := by
  intro regs after
  have h := (gt9147Init_config (b := ⟨⟨true, true, true⟩, ⟨regs, 0, .idle, true⟩⟩) idle_mk).2.2.2
  obtain ⟨hctrl, -, hold⟩ := h (by decide)
  exact ⟨hctrl, (hold (by decide)).2.2.1⟩

end AtkOnenet
