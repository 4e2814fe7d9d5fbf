import AtkOnenet.Touch.Report

/-!
# The touch pad of the GUI (`GUI/lvgl_driver/lv_port_indev.c`)

`touchpad_read` hands the touch state to the GUI. The system is the scanner, the two static
variables of `touchpad_read` and the controller, whose answers are arbitrary; its events are calls
of `GT9147_Scan(0)` and of `touchpad_read` in any order.

`reads_good_iff`: every report to the GUI is good, that is a pixel of the screen while the panel is
pressed and the last such pixel afterwards, exactly if every report taken from the controller puts a
pixel of the screen into slot 0 (`LegalReport`). The driver's test lets a point pass that is one
column or row behind the last one, and does not look at a second finger.
-/

namespace AtkOnenet

open Run

inductive LvIndevState where
  | rel
  | pr
  deriving DecidableEq, Repr

/-- `lv_indev_data_t`, with 16-bit `lv_coord_t`. -/
structure LvIndevData where
  x : Int16
  y : Int16
  state : LvIndevState
  deriving DecidableEq, Repr

/-- `touchpad_read`: the result, the data, and the static variables `last_x` and `last_y`. -/
def touchpadRead (p : TpDev) (last : UInt16 × UInt16) : Bool × LvIndevData × (UInt16 × UInt16) :=
  if p.Pressed then
    let last := (p.x 0, p.y 0)
    (false, ⟨last.1.toInt16, last.2.toInt16, .pr⟩, last)
  else (false, ⟨last.1.toInt16, last.2.toInt16, .rel⟩, last)

/-- `lastPr` is the point of the last report in which the panel was pressed. -/
structure Touchpad where
  scanner : Scanner
  last : UInt16 × UInt16
  lastPr : Int16 × Int16

inductive PadEvent where
  | scan (r : Reply)
  | read

/-- What `touchpad_read` reports in this state. -/
def Touchpad.data (s : Touchpad) : LvIndevData := (touchpadRead s.scanner.tpDev s.last).2.1

def Touchpad.step (d : LcdDev) (s : Touchpad) : PadEvent → Touchpad
  | .scan r => { s with scanner := (gt9147Scan d r s.scanner).2.2 }
  | .read => { s with
      last := (touchpadRead s.scanner.tpDev s.last).2.2
      lastPr := if s.data.state = .pr then (s.data.x, s.data.y) else s.lastPr }

/-- After `TP_Init`. -/
def Touchpad.start (d : LcdDev) : Touchpad := ⟨⟨(tpInit d .init).2, 0⟩, (0, 0), (0, 0)⟩

/-- The point of a report is a pixel of the screen. -/
def LvIndevData.OnScreen (d : LcdDev) (a : LvIndevData) : Prop :=
  (0 ≤ a.x.toInt ∧ a.x.toInt < d.width.toNat) ∧ 0 ≤ a.y.toInt ∧ a.y.toInt < d.height.toNat

instance LvIndevData.decidableOnScreen (d : LcdDev) (a : LvIndevData) :
    Decidable (a.OnScreen d) :=
  inferInstanceAs (Decidable (_ ∧ _))

/-- A read in this state reports a pixel of the screen, or the last one while not pressed. -/
def Touchpad.ReadGood (d : LcdDev) (s : Touchpad) : Prop :=
  (s.data.state = .pr → s.data.OnScreen d) ∧
    (s.data.state = .rel → (s.data.x, s.data.y) = s.lastPr)

instance (d : LcdDev) (s : Touchpad) : Decidable (s.ReadGood d) :=
  inferInstanceAs (Decidable (_ ∧ _))

/-- The point is a pixel of the screen. -/
def LcdDev.Inside (d : LcdDev) (p : UInt16 × UInt16) : Prop := p.1 < d.width ∧ p.2 < d.height

instance (d : LcdDev) (p : UInt16 × UInt16) : Decidable (d.Inside p) :=
  inferInstanceAs (Decidable (_ ∧ _))

/-- The point that the report puts into slot 0, if it puts one there, is a pixel of the screen. -/
def LegalReport (d : LcdDev) (touchtype : UInt8) (r : Reply) : Prop :=
  r.Counts →
    if d.Illegal (r.point touchtype 0) then 1 < r.count → d.Inside (r.point touchtype 1)
    else d.Inside (r.point touchtype 0)

/-- The condition on the events: every polled report is legal. -/
def Touchpad.LegalEvent (d : LcdDev) (s : Touchpad) : PadEvent → Prop
  | .scan r => s.scanner.Polls → LegalReport d s.scanner.tpDev.touchtype r
  | .read => True

variable {d : LcdDev} {s : Touchpad}

theorem touchpad_data (s : Touchpad) :
    s.data = if s.scanner.tpDev.Pressed then
      ⟨(s.scanner.tpDev.slot 0).1.toInt16, (s.scanner.tpDev.slot 0).2.toInt16, .pr⟩
      else ⟨s.last.1.toInt16, s.last.2.toInt16, .rel⟩ := by
  unfold Touchpad.data touchpadRead
  by_cases h : s.scanner.tpDev.Pressed
  · rw [if_pos h, if_pos h]
    rfl
  · rw [if_neg h, if_neg h]

/-- As a `lv_coord_t`, a coordinate is on the screen exactly if it is. -/
theorem toInt16_inside_iff {v w : UInt16} (hw : w ≤ 800) :
    (0 ≤ v.toInt16.toInt ∧ v.toInt16.toInt < w.toNat) ↔ v < w := by
  have hw' : w.toNat ≤ 800 := hw
  have hv := v.toNat_lt
  have hint : v.toInt16.toInt = if 2 * v.toNat < 2 ^ 16 then (v.toNat : Int)
      else (v.toNat : Int) - (2 ^ 16 : Nat) := BitVec.toInt_eq_toNat_cond v.toBitVec
  rw [hint, UInt16.lt_iff_toNat_lt]
  split <;> omega

/-- The invariant: a pressed panel is pressed on the screen, and `last` is the last point
reported so. -/
structure Touchpad.Inv (d : LcdDev) (s : Touchpad) : Prop where
  inside : s.scanner.tpDev.Pressed → d.Inside (s.scanner.tpDev.slot 0)
  last : s.lastPr = (s.last.1.toInt16, s.last.2.toInt16)

theorem readGood_iff (hw : d.width ≤ 800) (hh : d.height ≤ 800)
    (hlast : s.lastPr = (s.last.1.toInt16, s.last.2.toInt16)) :
    s.ReadGood d ↔ (s.scanner.tpDev.Pressed → d.Inside (s.scanner.tpDev.slot 0)) := by
  unfold Touchpad.ReadGood
  rw [touchpad_data]
  by_cases hp : s.scanner.tpDev.Pressed
  · simp only [if_pos hp, LvIndevData.OnScreen, toInt16_inside_iff hw, toInt16_inside_iff hh]
    constructor
    · intro h _
      exact h.1 trivial
    · intro h
      exact ⟨fun _ => h hp, nofun⟩
  · simp only [if_neg hp, hlast]
    constructor
    · intro _ h
      exact absurd h hp
    · intro _
      exact ⟨nofun, fun _ => trivial⟩

theorem report_pressed (p : TpDev) {r : Reply} (hc : r.Counts) (v : UInt16 × UInt16) :
    ((p.report r).setSlot 0 v).Pressed := by
  have hsta : ((p.report r).setSlot 0 v).sta = staOf r.count := (p.report_sta r).1
  rw [TpDev.Pressed, hsta]
  exact (staOf_bits hc).1

theorem Touchpad.step_last (hs : s.lastPr = (s.last.1.toInt16, s.last.2.toInt16))
    (ev : PadEvent) :
    (s.step d ev).lastPr = ((s.step d ev).last.1.toInt16, (s.step d ev).last.2.toInt16) := by
  cases ev with
  | scan r => exact hs
  | read =>
    by_cases h : s.scanner.tpDev.Pressed
    · simp only [step, touchpad_data, touchpadRead, if_pos h]
      rfl
    · simp only [step, touchpad_data, touchpadRead, if_neg h]
      exact hs

/-- A call of the scan leaves a pressed panel on the screen exactly if the report is legal. -/
theorem scan_inside_iff {s : Scanner} (r : Reply)
    (hs : s.tpDev.Pressed → d.Inside (s.tpDev.slot 0)) :
    let p := (gt9147Scan d r s).2.2.tpDev
    (p.Pressed → d.Inside (p.slot 0)) ↔ (s.Polls → LegalReport d s.tpDev.touchtype r) := by
  intro p
  have h := scan_case d r s
  simp only [p]
  generalize (gt9147Scan d r s).2.2 = s' at h ⊢
  cases h with
  | skip hp =>
    constructor
    · intro _ hpolls
      exact absurd hpolls hp
    · intro _
      exact hs
  | noFinger _ hst =>
    constructor
    · intro _ _ hc
      exact absurd hst (status_ne_of_counts hc)
    · intro _ hpressed
      exact absurd hpressed (release_not_pressed _)
  | stale _ _ hc =>
    constructor
    · intro _ _ hc'
      exact absurd hc' hc
    · intro _
      exact hs
  | first hp hc hl =>
    have hpressed := report_pressed s.tpDev hc (r.point s.tpDev.touchtype 0)
    rw [s.tpDev.report_setSlot hc] at hpressed
    have hslot : (s.tpDev.report r).slot 0 = r.point s.tpDev.touchtype 0 := by
      rw [← s.tpDev.report_setSlot hc]
      simp
    rw [hslot, LegalReport, if_neg hl]
    constructor
    · intro h _ _
      exact h hpressed
    · intro h _
      exact h hp hc
  | second hp hc hl h1 =>
    have hpressed := report_pressed s.tpDev hc (r.point s.tpDev.touchtype 1)
    have hslot : ((s.tpDev.report r).setSlot 0 (r.point s.tpDev.touchtype 1)).slot 0 =
        r.point s.tpDev.touchtype 1 := by simp
    rw [hslot, LegalReport, if_pos hl]
    constructor
    · intro h _ _ _
      exact h hpressed
    · intro h _
      exact h hp hc h1
  | reject hp hc hl h1 =>
    constructor
    · -- The report puts no point into slot 0.
      intro _ _ _
      rw [if_pos hl, h1]
      intro h
      exact absurd h (by decide)
    · intro _ hpressed
      exact absurd hpressed (release_not_pressed _)

theorem Touchpad.readGood_step_iff (hw : d.width ≤ 800) (hh : d.height ≤ 800) (hs : s.Inv d)
    (ev : PadEvent) : (s.step d ev).ReadGood d ↔ s.LegalEvent d ev := by
  cases ev with
  | scan r =>
    exact (readGood_iff hw hh (step_last hs.last (.scan r))).trans (scan_inside_iff r hs.inside)
  | read =>
    -- A read leaves the touch state alone.
    refine (readGood_iff hw hh (step_last hs.last .read)).trans ?_
    constructor
    · intro _
      trivial
    · intro _
      exact hs.inside

theorem Touchpad.start_inv (d : LcdDev) : (Touchpad.start d).Inv d := by
  have hsta : (Touchpad.start d).scanner.tpDev.sta = 0 := by
    unfold Touchpad.start tpInit
    split <;> rfl
  refine ⟨fun h => absurd h ?_, rfl⟩
  rw [TpDev.Pressed, hsta]
  decide

theorem Touchpad.Inv.step (hw : d.width ≤ 800) (hh : d.height ≤ 800) (hs : s.Inv d)
    (ev : PadEvent) (hev : s.LegalEvent d ev) : (s.step d ev).Inv d := by
  have hlast := Touchpad.step_last (d := d) hs.last ev
  exact ⟨(readGood_iff hw hh hlast).mp ((Touchpad.readGood_step_iff hw hh hs ev).mpr hev), hlast⟩

/-- **Reports to the GUI.** From `TP_Init` on, in a run of scans and reads in any order, a read
reports a pixel of the screen, or the last one while the panel is not pressed, in every state that
is reached, exactly if every polled report is legal. -/
theorem reads_good_iff (dir : UInt8) (events : List PadEvent) :
    let d := ChipKind.nt35510.lcddev dir
    Always (Touchpad.step d) (Touchpad.ReadGood d) (.start d) events ↔
      Along (Touchpad.step d) (Touchpad.LegalEvent d) (.start d) events := by
  intro d
  obtain ⟨hw, hh⟩ : d.width ≤ 800 ∧ d.height ≤ 800 := ChipKind.lcddev_le .nt35510 dir
  clear_value d
  apply always_iff_along (Touchpad.Inv d)
  · intro s hs
    exact (readGood_iff hw hh hs.last).mpr hs.inside
  · intro s ev hs
    exact Touchpad.readGood_step_iff hw hh hs ev
  · intro s ev hs hev
    exact hs.step hw hh ev hev
  · exact Touchpad.start_inv d

/-- A finger on the left edge of a landscape screen, at the word 0: the report to the GUI is the
column 800, which the screen does not have. -/
theorem reads_behind_last_column :
    let d := ChipKind.nt35510.lcddev 1
    let ev : PadEvent := .scan (.ofWords 0x81 fun _ => (0, 0))
    d.width = 800 ∧ (((Touchpad.start d).step d ev).step d .read).data = ⟨800, 0, .pr⟩ ∧
      ¬ Always (Touchpad.step d) (Touchpad.ReadGood d) (.start d) [ev, .read] :=
  ⟨by decide, by decide +kernel, fun h => absurd (h _ List.prefix_rfl) (by decide +kernel)⟩

end AtkOnenet
