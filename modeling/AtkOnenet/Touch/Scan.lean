import AtkOnenet.Lcd.Driver
import Mathlib.Algebra.GroupWithZero.Nat
import Mathlib.Logic.Function.Basic
import Mathlib.Order.Fin.Basic

/-!
# Scanning the touch panel (`HARDWARE/TOUCH/gt9147.c`, `touch.c`)

`gt9147Scan` is `GT9147_Scan(0)` as a function on the touch state `tp_dev` and the static counter
`t`. What the controller answers is an argument (`Reply`): the status byte and the four bytes of
each touch point. The register accesses are listed in the result.

The body is cut where the source nests: `readFingers` is the loop over the five points, `takeReport`
the block of a status with one to five fingers, `release` the block of a status without one.
`scan_case` says what a call does to the touch state, once and for all.
-/

namespace AtkOnenet

open Word

def tpPresDown : UInt8 := 0x80
def tpCathPres : UInt8 := 0x40
def gtGstidReg : UInt16 := 0x814E

/-- `CT_MAX_TOUCH`. -/
abbrev ctMaxTouch : Nat := 5

instance : NeZero ctMaxTouch := ⟨Nat.succ_ne_zero 4⟩

/-- `GT9147_TPX_TBL`. -/
def gt9147TpxTbl : Fin ctMaxTouch → UInt16
  | 0 => 0x8150
  | 1 => 0x8158
  | 2 => 0x8160
  | 3 => 0x8168
  | 4 => 0x8170

/-- `tp_dev`: the fields that the scan reads and writes. -/
structure TpDev where
  x : Fin ctMaxTouch → UInt16
  y : Fin ctMaxTouch → UInt16
  sta : UInt8
  touchtype : UInt8

/-- `tp_dev` as it is declared. -/
def TpDev.init : TpDev := ⟨fun _ => 0, fun _ => 0, 0, 0⟩

/-- `TP_Init`, where `GT9147_Init` always gives 0. -/
def tpInit (d : LcdDev) (p : TpDev) : UInt8 × TpDev :=
  if d.id = 0x5510 then (0, { p with touchtype := p.touchtype ||| 0x80 ||| (d.dir &&& 0x01) })
  else (1, p)

/-- What the controller answers in a call: the status register and the registers of each point. -/
structure Reply where
  status : UInt8
  buf : Fin ctMaxTouch → Fin 4 → UInt8

/-- A register access of the scan. -/
inductive Access where
  | rdReg (reg : UInt16) (len : UInt8)
  | wrReg (reg : UInt16) (v : UInt8)
  deriving DecidableEq, Repr

/-- The fingers that the status counts. -/
def Reply.count (r : Reply) : UInt8 := r.status &&& 0xF

/-- The position of a finger on the screen, with the touch panel's orientation. -/
def Reply.point (r : Reply) (touchtype : UInt8) (i : Fin ctMaxTouch) : UInt16 × UInt16 :=
  let first := wordOf (r.buf i 1) (r.buf i 0)
  let second := wordOf (r.buf i 3) (r.buf i 2)
  if touchtype &&& 0x01 ≠ 0 then (800 - second, first) else (first, second)

/-- The point fails the driver's test. -/
def LcdDev.Illegal (d : LcdDev) (p : UInt16 × UInt16) : Prop := p.1 > d.width ∨ p.2 > d.height

instance (d : LcdDev) (p : UInt16 × UInt16) : Decidable (d.Illegal p) :=
  inferInstanceAs (Decidable (_ ∨ _))

/-- Slot `i` of the touch state. -/
def TpDev.slot (p : TpDev) (i : Fin ctMaxTouch) : UInt16 × UInt16 := (p.x i, p.y i)

def TpDev.setSlot (p : TpDev) (i : Fin ctMaxTouch) (v : UInt16 × UInt16) : TpDev :=
  { p with x := Function.update p.x i v.1, y := Function.update p.y i v.2 }

/-- One turn of the loop over the points. -/
def readFinger (r : Reply) (p : TpDev) (i : Fin ctMaxTouch) : TpDev :=
  if p.sta &&& (1 <<< UInt8.ofNat i) ≠ 0 then p.setSlot i (r.point p.touchtype i) else p

/-- The loop over the points. -/
def readFingers (r : Reply) (p : TpDev) : TpDev := (List.finRange ctMaxTouch).foldl (readFinger r) p

/-- The accesses of the loop. -/
def fingerAccesses (p : TpDev) : List Access :=
  let touched (i : Fin ctMaxTouch) : Bool := p.sta &&& (1 <<< UInt8.ofNat i) ≠ 0
  ((List.finRange ctMaxTouch).filter touched).map fun i => .rdReg (gt9147TpxTbl i) 4

/-- `tp_dev.sta` with the fingers of a report. -/
def staOf (count : UInt8) : UInt8 := ~~~(0xFF <<< count) ||| tpPresDown ||| tpCathPres

/-- The block of a status with one to five fingers: `mode`, `t` and `tp_dev`. -/
def takeReport (d : LcdDev) (r : Reply) (t : UInt8) (p : TpDev) : UInt8 × UInt8 × TpDev :=
  let tempsta := p.sta
  let p := { p with sta := staOf r.count }
  -- The point before the report, in case that this one is not legal.
  let p := p.setSlot 4 (p.slot 0)
  let p := readFingers r p
  if d.Illegal (p.slot 0) then
    if r.count > 1 then (r.status, 0, p.setSlot 0 (p.slot 1))
    else (0x80, t, { p.setSlot 0 (p.slot 4) with sta := tempsta })
  else (r.status, 0, p)

/-- The block of a status without a finger. -/
def release (p : TpDev) : TpDev :=
  if p.sta &&& tpPresDown ≠ 0 then { p with sta := p.sta &&& ~~~((1 : UInt8) <<< 7) }
  else { p.setSlot 0 (0xffff, 0xffff) with sta := p.sta &&& 0xE0 }

/-- `tp_dev` and the static counter of `GT9147_Scan`. -/
structure Scanner where
  tpDev : TpDev
  t : UInt8

/-- The next call polls the controller. -/
def Scanner.Polls (s : Scanner) : Prop := (s.t + 1) % 10 = 0 ∨ s.t + 1 < 10

instance (s : Scanner) : Decidable s.Polls := inferInstanceAs (Decidable (_ ∨ _))

/-- `GT9147_Scan(0)`: the result, the register accesses, and the new state. -/
def gt9147Scan (d : LcdDev) (r : Reply) (s : Scanner) : UInt8 × List Access × Scanner :=
  let t := s.t + 1
  let (res, accesses, mode, t, p) :=
    if t % 10 = 0 ∨ t < 10 then
      let mode := r.status
      let clear : List Access :=
        if mode &&& 0x80 ≠ 0 ∧ mode &&& 0xF < 6 then [.wrReg gtGstidReg 0] else []
      if mode &&& 0xF ≠ 0 ∧ mode &&& 0xF < 6 then
        let fingers := fingerAccesses { s.tpDev with sta := staOf r.count }
        (1, .rdReg gtGstidReg 1 :: clear ++ fingers, takeReport d r t s.tpDev)
      else (0, .rdReg gtGstidReg 1 :: clear, mode, t, s.tpDev)
    else (0, [], 0, t, s.tpDev)
  let p := if mode &&& 0x8F = 0x80 then release p else p
  let t := if t > 240 then 10 else t
  (res, accesses, ⟨p, t⟩)

/-- A call polls exactly if it makes a register access. -/
theorem accesses_ne_nil_iff (d : LcdDev) (r : Reply) (s : Scanner) :
    (gt9147Scan d r s).2.1 ≠ [] ↔ s.Polls := by
  by_cases hp : s.Polls
  · have hp' : (s.t + 1) % 10 = 0 ∨ s.t + 1 < 10 := hp
    refine iff_of_true ?_ hp
    simp only [gt9147Scan, if_pos hp']
    split_ifs <;> exact List.cons_ne_nil _ _
  · have hp' : ¬ ((s.t + 1) % 10 = 0 ∨ s.t + 1 < 10) := hp
    refine iff_of_false ?_ hp
    simp only [gt9147Scan, if_neg hp']
    exact fun h => h rfl

/-! ## One report -/

/-- The report has one to five fingers. -/
def Reply.Counts (r : Reply) : Prop := r.count ≠ 0 ∧ r.count < 6

instance (r : Reply) : Decidable r.Counts := inferInstanceAs (Decidable (_ ∧ _))

theorem Reply.Counts.cases {r : Reply} (h : r.Counts) :
    r.count = 1 ∨ r.count = 2 ∨ r.count = 3 ∨ r.count = 4 ∨ r.count = 5 := by
  have h₀ : r.count.toNat ≠ 0 := fun h' => h.1 (UInt8.toNat_inj.mp h')
  have h₁ : r.count.toNat < 6 := h.2
  simp only [← UInt8.toNat_inj]
  simp
  omega

theorem Reply.Counts.one_or {r : Reply} (h : r.Counts) : r.count = 1 ∨ r.count > 1 := by
  rcases h.cases with h | h | h | h | h <;> rw [h] <;> decide

@[simp]
theorem TpDev.slot_setSlot (p : TpDev) (i : Fin ctMaxTouch) (v : UInt16 × UInt16)
    (j : Fin ctMaxTouch) : (p.setSlot i v).slot j = if j = i then v else p.slot j := by
  unfold slot setSlot Function.update
  split
  · subst j
    simp
  · simp_all

theorem TpDev.ext_slot {p q : TpDev} (hslot : ∀ i, p.slot i = q.slot i) (hsta : p.sta = q.sta)
    (htype : p.touchtype = q.touchtype) : p = q := by
  obtain ⟨x, y, sta, type⟩ := p
  obtain ⟨x', y', sta', type'⟩ := q
  simp only [slot, Prod.mk.injEq] at hslot
  obtain rfl : x = x' := funext fun i => (hslot i).1
  obtain rfl : y = y' := funext fun i => (hslot i).2
  simp only at hsta htype
  rw [hsta, htype]

theorem readFinger_sta (r : Reply) (p : TpDev) (i : Fin ctMaxTouch) :
    (readFinger r p i).sta = p.sta ∧ (readFinger r p i).touchtype = p.touchtype := by
  unfold readFinger
  split <;> exact ⟨rfl, rfl⟩

theorem readFinger_slot (r : Reply) (p : TpDev) (i j : Fin ctMaxTouch) :
    (readFinger r p i).slot j =
      if j = i ∧ p.sta &&& (1 <<< UInt8.ofNat j) ≠ 0 then r.point p.touchtype j else p.slot j := by
  unfold readFinger
  split
  · rw [TpDev.slot_setSlot]
    by_cases h : j = i
    · subst h
      simp_all
    · simp [h]
  · by_cases h : j = i
    · subst h
      simp_all
    · simp [h]

/-- The loop reads the slots whose bit is set. -/
theorem foldl_readFinger (r : Reply) (is : List (Fin ctMaxTouch)) (p : TpDev) :
    (is.foldl (readFinger r) p).sta = p.sta ∧
      (is.foldl (readFinger r) p).touchtype = p.touchtype ∧
      ∀ j, (is.foldl (readFinger r) p).slot j =
        if j ∈ is ∧ p.sta &&& (1 <<< UInt8.ofNat j) ≠ 0 then r.point p.touchtype j
        else p.slot j := by
  induction is generalizing p with
  | nil => simp
  | cons i is ih =>
    obtain ⟨hsta, htype⟩ := readFinger_sta r p i
    obtain ⟨h₁, h₂, h₃⟩ := ih (readFinger r p i)
    refine ⟨h₁.trans hsta, h₂.trans htype, fun j => ?_⟩
    rw [List.foldl_cons, h₃, hsta, htype, readFinger_slot]
    by_cases hb : p.sta &&& (1 <<< UInt8.ofNat j) ≠ 0 <;> by_cases hi : j = i <;>
      by_cases his : j ∈ is <;> simp_all

/-- The bits of a report: bits 7 and 6, and one bit for each finger. -/
theorem staOf_bits {r : Reply} (h : r.Counts) :
    staOf r.count &&& tpPresDown ≠ 0 ∧ staOf r.count &&& tpCathPres ≠ 0 ∧
      staOf r.count &&& 0x20 = 0 ∧ (staOf r.count &&& 0x1F).toNat = 2 ^ r.count.toNat - 1 ∧
      ∀ i : Fin ctMaxTouch,
        staOf r.count &&& (1 <<< UInt8.ofNat i) ≠ 0 ↔ (i : Nat) < r.count.toNat := by
  rcases h.cases with h | h | h | h | h <;> rw [h] <;> decide

/-- The touch state with a report in it. -/
def TpDev.report (p : TpDev) (r : Reply) : TpDev :=
  readFingers r ({ p with sta := staOf r.count }.setSlot 4 (p.slot 0))

theorem TpDev.report_sta (p : TpDev) (r : Reply) :
    (p.report r).sta = staOf r.count ∧ (p.report r).touchtype = p.touchtype :=
  ⟨(foldl_readFinger r _ _).1, (foldl_readFinger r _ _).2.1⟩

theorem TpDev.report_slot (p : TpDev) {r : Reply} (h : r.Counts) (i : Fin ctMaxTouch) :
    (p.report r).slot i = if (i : Nat) < r.count.toNat then r.point p.touchtype i
      else if i = 4 then p.slot 0 else p.slot i := by
  rw [report, readFingers, (foldl_readFinger r _ _).2.2]
  simp only [List.mem_finRange, true_and, TpDev.slot_setSlot]
  exact if_congr ((staOf_bits h).2.2.2.2 i) rfl rfl

/-- A report has its first finger in slot 0. -/
theorem TpDev.report_setSlot (p : TpDev) {r : Reply} (h : r.Counts) :
    (p.report r).setSlot 0 (r.point p.touchtype 0) = p.report r := by
  refine ext_slot (fun i => ?_) rfl rfl
  rw [slot_setSlot]
  split
  case isTrue hi =>
    have hpos : ((0 : Fin ctMaxTouch) : Nat) < r.count.toNat := by
      rcases h.cases with h | h | h | h | h <;> rw [h] <;> decide
    rw [hi, p.report_slot h, if_pos hpos]
  case isFalse => rfl

/-! ## What a call does -/

/-- The counter at the end of a call. -/
def foldT (t : UInt8) : UInt8 := if t > 240 then 10 else t

/-- The ways of a call from `s` with the answer `r`. -/
inductive ScanCase (d : LcdDev) (r : Reply) (s : Scanner) : Scanner → Prop where
  | skip (hp : ¬ s.Polls) : ScanCase d r s ⟨s.tpDev, foldT (s.t + 1)⟩
  | noFinger (hp : s.Polls) (hst : r.status &&& 0x8F = 0x80) :
    ScanCase d r s ⟨release s.tpDev, foldT (s.t + 1)⟩
  | stale (hp : s.Polls) (hst : r.status &&& 0x8F ≠ 0x80) (hc : ¬ r.Counts) :
    ScanCase d r s ⟨s.tpDev, foldT (s.t + 1)⟩
  | first (hp : s.Polls) (hc : r.Counts) (hl : ¬ d.Illegal (r.point s.tpDev.touchtype 0)) :
    ScanCase d r s ⟨s.tpDev.report r, 0⟩
  | second (hp : s.Polls) (hc : r.Counts) (hl : d.Illegal (r.point s.tpDev.touchtype 0))
      (h1 : 1 < r.count) :
    ScanCase d r s ⟨(s.tpDev.report r).setSlot 0 (r.point s.tpDev.touchtype 1), 0⟩
  | reject (hp : s.Polls) (hc : r.Counts) (hl : d.Illegal (r.point s.tpDev.touchtype 0))
      (h1 : r.count = 1) :
    ScanCase d r s ⟨release (s.tpDev.setSlot 4 (s.tpDev.slot 0)), foldT (s.t + 1)⟩

/-- A status with a finger is no release. -/
theorem status_ne_of_counts {r : Reply} (h : r.Counts) : r.status &&& 0x8F ≠ 0x80 := by
  intro h'
  refine h.1 ?_
  have : r.status &&& 0xF = (r.status &&& 0x8F) &&& 0xF := by
    rw [UInt8.and_assoc]
    rfl
  rw [Reply.count, this, h']
  rfl

theorem takeReport_eq {d : LcdDev} {r : Reply} (hc : r.Counts) (t : UInt8) (p : TpDev) :
    takeReport d r t p =
      if d.Illegal (r.point p.touchtype 0) then
        if r.count > 1 then (r.status, 0, (p.report r).setSlot 0 (r.point p.touchtype 1))
        else (0x80, t, p.setSlot 4 (p.slot 0))
      else (r.status, 0, p.report r) := by
  have hslot := p.report_slot hc
  have hpos : 0 < r.count.toNat := by
    rcases hc.cases with h | h | h | h | h <;> rw [h] <;> decide
  have h0 : (p.report r).slot 0 = r.point p.touchtype 0 := (hslot 0).trans (if_pos hpos)
  change (if d.Illegal ((p.report r).slot 0) then
      if r.count > 1 then (r.status, 0, (p.report r).setSlot 0 ((p.report r).slot 1))
      else (0x80, t, { (p.report r).setSlot 0 ((p.report r).slot 4) with sta := p.sta })
    else (r.status, 0, p.report r)) = _
  rw [h0]
  by_cases hl : d.Illegal (r.point p.touchtype 0)
  · simp only [if_pos hl]
    obtain h1 | h1 := hc.one_or
    · -- One finger: slot 4 is the old point, so everything but slot 4 is as before.
      have hback : { (p.report r).setSlot 0 ((p.report r).slot 4) with sta := p.sta } =
          p.setSlot 4 (p.slot 0) := by
        refine TpDev.ext_slot (fun i => ?_) rfl (p.report_sta r).2
        change ((p.report r).setSlot 0 ((p.report r).slot 4)).slot i = _
        rw [TpDev.slot_setSlot, TpDev.slot_setSlot, hslot, hslot, h1]
        revert i
        simp [Fin.forall_fin_succ]
      rw [if_neg (by rw [h1]; decide), if_neg (by rw [h1]; decide), hback]
    · have h1' : ((1 : Fin ctMaxTouch) : Nat) < r.count.toNat := h1
      rw [if_pos h1, if_pos h1, hslot 1, if_pos h1']
  · simp only [if_neg hl]

/-- Every call goes one of these ways. -/
theorem scan_case (d : LcdDev) (r : Reply) (s : Scanner) :
    ScanCase d r s (gt9147Scan d r s).2.2 := by
  by_cases hp : s.Polls
  · have hp' : (s.t + 1) % 10 = 0 ∨ s.t + 1 < 10 := hp
    by_cases hc : r.Counts
    · have hc' : r.status &&& 0xF ≠ 0 ∧ r.status &&& 0xF < 6 := hc
      have hst := status_ne_of_counts hc
      simp only [gt9147Scan, if_pos hp', if_pos hc', takeReport_eq hc]
      by_cases hl : d.Illegal (r.point s.tpDev.touchtype 0)
      · obtain h1 | h1 := hc.one_or
        · have h1' : ¬ r.count > 1 := by
            rw [h1]
            decide
          simp only [if_pos hl, if_neg h1']
          exact .reject hp hc hl h1
        · simp only [if_pos hl, if_pos h1, if_neg hst]
          exact .second hp hc hl h1
      · simp only [if_neg hl, if_neg hst]
        exact .first hp hc hl
    · have hc' : ¬ (r.status &&& 0xF ≠ 0 ∧ r.status &&& 0xF < 6) := hc
      simp only [gt9147Scan, if_pos hp', if_neg hc']
      by_cases hst : r.status &&& 0x8F = 0x80
      · simp only [if_pos hst]
        exact .noFinger hp hst
      · simp only [if_neg hst]
        exact .stale hp hst hc
  · have hp' : ¬ ((s.t + 1) % 10 = 0 ∨ s.t + 1 < 10) := hp
    simp only [gt9147Scan, if_neg hp']
    exact .skip hp

end AtkOnenet
