import AtkOnenet.Lcd.Driver

/-!
# The window that the driver programs

`LCD_Display_Dir` makes the panel ready (`Ready`): the driver's record is that of the controller and
the direction (`ChipKind.lcddev`), the panel walks the window in that direction, and where the
cursor functions set start addresses only, the end addresses are those of the whole screen. Every
function of the driver keeps this.

* `lcdSetCursor_aim`: whichever of its four ways the controller needs, `LCD_SetCursor` leaves a
  window that begins in the given pixel and reaches to the last column and row of the screen.
* `lcdFastDrawPoint_aim`: `LCD_Fast_DrawPoint` leaves such a window, or one of a single cell, and
  writes its colour to the first cell.
-/

namespace AtkOnenet

open Raster Word

/-! ## The driver's record -/

/-- Portrait mode: the directions in which the screen is higher than wide. -/
def ChipKind.Portrait (k : ChipKind) (dir : UInt8) : Prop := dir = 0 ∨ dir ≠ 1 ∧ k ≠ .ssd1963

instance (k : ChipKind) (dir : UInt8) : Decidable (k.Portrait dir) :=
  inferInstanceAs (Decidable (_ ∨ _))

/-- The short and the long side of the screen. -/
def ChipKind.sides : ChipKind → UInt16 × UInt16
  | ili9341 => (240, 320)
  | nt35310 => (320, 480)
  | nt35510 | ssd1963 => (480, 800)

/-- The commands of the column and of the page address. -/
def ChipKind.axisCmds : ChipKind → UInt16 × UInt16
  | nt35510 => (0x2A00, 0x2B00)
  | _ => (0x2A, 0x2B)

/-- The SSD1963 in portrait mode walks along the page address, from its end. -/
def ChipKind.mirrored (k : ChipKind) (dir : UInt8) : Bool := k = .ssd1963 ∧ dir = 0

/-- The driver's record after `LCD_Display_Dir(dir)`. -/
def ChipKind.lcddev (k : ChipKind) (dir : UInt8) : LcdDev where
  width := if k.Portrait dir then k.sides.1 else k.sides.2
  height := if k.Portrait dir then k.sides.2 else k.sides.1
  id := k.id
  dir := dir
  wramcmd := k.wramcmd
  setxcmd := if k.mirrored dir then k.axisCmds.2 else k.axisCmds.1
  setycmd := if k.mirrored dir then k.axisCmds.1 else k.axisCmds.2

/-- What `LCD_Display_Dir` writes to the scan direction register. -/
def ChipKind.scan (k : ChipKind) (dir : UInt8) : UInt16 :=
  match k with
  | .ili9341 => if dir = 1 then 0xA8 else 0x08
  | .nt35310 | .nt35510 => if dir = 1 then 0xA0 else 0x00
  | .ssd1963 => if dir = 0 then 0xA0 else 0x00

theorem ChipKind.lcddev_pos (k : ChipKind) (dir : UInt8) :
    0 < (k.lcddev dir).width ∧ 0 < (k.lcddev dir).height := by
  cases k <;> simp only [lcddev, sides] <;> constructor <;> split <;> decide

theorem ChipKind.lcddev_le (k : ChipKind) (dir : UInt8) :
    (k.lcddev dir).width ≤ 800 ∧ (k.lcddev dir).height ≤ 800 := by
  cases k <;> simp only [lcddev, sides] <;> constructor <;> split <;> decide

/-! ## Windows as spans -/

/-- The parameters that set an axis to `a..b`. -/
def Span.ofWords (a b : UInt16) : Span :=
  ⟨(a >>> 8).toUInt8, (a &&& 0xFF).toUInt8, (b >>> 8).toUInt8, (b &&& 0xFF).toUInt8⟩

/-- The end address of the span is `b`. -/
def Span.EndsAt (s : Span) (b : UInt16) : Prop :=
  s.p2 = (b >>> 8).toUInt8 ∧ s.p3 = (b &&& 0xFF).toUInt8

theorem Span.ofWords_start (a b : UInt16) : (ofWords a b).start = a.toNat := by
  rw [start, ofWords, wordOf_split]

theorem Span.ofWords_stop (a b : UInt16) : (ofWords a b).stop = b.toNat := by
  rw [stop, ofWords, wordOf_split]

/-- The span of the axis that the walk changes first is `fast`, and of the other one `slow`. -/
def Panel.setWindow (c : Controller) (fast slow : Span) (reg : UInt16) (nparam : Nat)
    (p : Panel) : Panel :=
  { p with
    reg := reg
    nparam := nparam
    col := if p.swapped c then slow else fast
    page := if p.swapped c then fast else slow }

theorem Panel.window_setWindow (c : Controller) (fast slow : Span) (reg : UInt16) (nparam : Nat)
    (p : Panel) : (p.setWindow c fast slow reg nparam).window c =
      ⟨fast.start, fast.stop, slow.start, slow.stop, p.reversed c⟩ := by
  have hs : (p.setWindow c fast slow reg nparam).swapped c = p.swapped c := rfl
  have hr : (p.setWindow c fast slow reg nparam).reversed c = p.reversed c := rfl
  rw [window, hs, hr, setWindow]
  cases p.swapped c <;> rfl

/-- The `w` columns from `x` on and the `h` rows from `y` on, on a screen of `W` columns. On a
reversed panel the address `a` is the column `W - 1 - a`. -/
def screenWindow (rev : Bool) (W x y w h : Nat) : Window :=
  ⟨if rev then W - x - w else x, if rev then W - 1 - x else x + w - 1, y, y + h - 1, rev⟩

variable {c : Controller} {s : Lcd}

/-- The panel is set up for the direction in the driver's record. -/
structure Ready (c : Controller) (s : Lcd) : Prop where
  dev : s.lcddev = c.kind.lcddev s.lcddev.dir
  swapped : s.panel.swapped c = c.kind.mirrored s.lcddev.dir
  reversed : s.panel.reversed c = c.kind.mirrored s.lcddev.dir
  ends : c.kind ≠ .ssd1963 →
    s.panel.col.EndsAt (s.lcddev.width - 1) ∧ s.panel.page.EndsAt (s.lcddev.height - 1)

theorem Ready.wramcmd (hr : Ready c s) : s.lcddev.wramcmd = c.kind.wramcmd := by
  rw [hr.dev]
  rfl

theorem Ready.id (hr : Ready c s) : s.lcddev.id = c.kind.id := by
  rw [hr.dev]
  rfl

/-! ## `LCD_Display_Dir` -/

/-- The panel after `LCD_Display_Dir`: the scan direction is written, and the window is the whole
screen. -/
theorem lcdDisplayDir_eq (dir : UInt8) (hid : s.lcddev.id = c.kind.id) :
    ∃ reg nparam x₀ x₁ y₀ y₁,
      let d := c.kind.lcddev dir
      let fast : Span := ⟨x₀, x₁, ((d.width - 1) >>> 8).toUInt8, ((d.width - 1) &&& 0xFF).toUInt8⟩
      let slow : Span :=
        ⟨y₀, y₁, ((d.height - 1) >>> 8).toUInt8, ((d.height - 1) &&& 0xFF).toUInt8⟩
      let madctl := c.kind.scan dir
      lcdDisplayDir c dir s = ⟨d, { s.panel with
        reg, nparam, madctl, gram := c.turn madctl s.panel.gram
        col := if c.kind.mirrored dir then slow else fast
        page := if c.kind.mirrored dir then fast else slow }⟩ := by
  obtain ⟨k, turn, pad⟩ := c
  obtain ⟨⟨w, h, id, dir', a, b, e⟩, p⟩ := s
  simp only at hid
  subst hid
  have e1 : (8 : UInt16) &&& 32 = 0 := rfl
  have e2 : (160 : UInt16) &&& 32 = 32 := rfl
  have e3 : (168 : UInt16) &&& 32 = 32 := rfl
  have e4 : (160 : UInt16) ||| 8 = 168 := rfl
  have e5 : (0 : UInt16) ||| 8 = 8 := rfl
  by_cases h0 : dir = 0 <;> by_cases h1 : dir = 1 <;> cases k <;>
    simp [lcdDisplayDir, lcdScanDir, lcdTurnDir, dftScanDir, lcdScanBits, ChipKind.id, lcdWriteReg,
      lcdWrReg, lcdWrData, Panel.writeReg, Panel.writeData, ChipKind.wramcmd, ChipKind.rramcmd,
      ChipKind.madctlcmd, ChipKind.param, Span.set, ChipKind.lcddev, ChipKind.Portrait,
      ChipKind.sides, ChipKind.axisCmds, ChipKind.scan, ChipKind.mirrored, e1, e2, e3, e4, e5, h0,
      h1, -UInt16.toUInt8_and]

theorem lcdDisplayDir_ready (dir : UInt8) (hid : s.lcddev.id = c.kind.id) :
    Ready c (lcdDisplayDir c dir s) := by
  obtain ⟨reg, nparam, x₀, x₁, y₀, y₁, h⟩ := lcdDisplayDir_eq dir hid
  have hbits : (0xA0 : UInt16) &&& 0x20 ≠ 0 ∧ (0xA0 : UInt16) &&& 0x80 ≠ 0 := by decide
  rw [h]
  constructor
  case dev => rfl
  case ends =>
    intro hk
    have hm : c.kind.mirrored dir = false := by simp [ChipKind.mirrored, hk]
    simp [hm, Span.EndsAt, ChipKind.lcddev]
  all_goals
    cases hk : c.kind <;> by_cases h0 : dir = 0 <;>
      simp [Panel.reversed, Panel.swapped, ChipKind.scan, ChipKind.mirrored, ChipKind.lcddev, hk,
        h0, hbits]

/-! ## `LCD_SetCursor` -/

/-- The span of the columns from `x` to the end of the row. -/
def LcdDev.columnsFrom (k : ChipKind) (d : LcdDev) (x : UInt16) : Span :=
  if k.mirrored d.dir then .ofWords 0 (d.width - 1 - x) else .ofWords x (d.width - 1)

/-- The four ways of `LCD_SetCursor` set the same window. -/
theorem lcdSetCursor_eq (hr : Ready c s) (x y : UInt16) :
    ∃ reg nparam, lcdSetCursor c x y s =
      ⟨s.lcddev, s.panel.setWindow c (s.lcddev.columnsFrom c.kind x)
        (.ofWords y (s.lcddev.height - 1)) reg nparam⟩ := by
  obtain ⟨hd, hs, -, he⟩ := hr
  obtain ⟨k, turn, pad⟩ := c
  obtain ⟨⟨w, h, id, dir, a, b, e⟩, p⟩ := s
  simp only at hd hs he
  cases k <;> by_cases h0 : dir = 0 <;>
    simp [ChipKind.lcddev, ChipKind.id, ChipKind.wramcmd, ChipKind.axisCmds, ChipKind.mirrored,
      h0] at hd <;>
    simp [ChipKind.mirrored, Span.EndsAt, h0, -UInt16.toUInt8_and] at he hs <;>
    simp [lcdSetCursor, lcdWrReg, lcdWrData, Panel.writeReg, Panel.writeData, ChipKind.wramcmd,
      ChipKind.rramcmd, ChipKind.param, Span.set, Panel.setWindow, hs, Span.ofWords,
      LcdDev.columnsFrom, ChipKind.mirrored, h0, he, hd, -UInt16.toUInt8_and]

/-- `t` is `s` with the window `win`, the cursor in its first cell, and the command `cmd`. -/
structure Aimed (c : Controller) (s : Lcd) (win : Window) (cmd : UInt16) (t : Lcd) : Prop where
  ready : Ready c t
  lcddev : t.lcddev = s.lcddev
  madctl : t.panel.madctl = s.panel.madctl
  gram : t.panel.gram = s.panel.gram
  window : t.panel.window c = win
  cur : t.panel.cur = win.home
  reg : t.panel.reg = cmd
  nparam : t.panel.nparam = 0

/-- A memory command after new spans. -/
theorem aimed_of_spans (hr : Ready c s) {win : Window} {fast slow : Span} {cmd reg : UInt16}
    {nparam : Nat} (hcmd : cmd = c.kind.wramcmd ∨ cmd = c.kind.rramcmd)
    (hwin : win = ⟨fast.start, fast.stop, slow.start, slow.stop, s.panel.reversed c⟩)
    (hf : c.kind ≠ .ssd1963 → fast.EndsAt (s.lcddev.width - 1))
    (hs : c.kind ≠ .ssd1963 → slow.EndsAt (s.lcddev.height - 1)) :
    Aimed c s win cmd (lcdWrReg c cmd ⟨s.lcddev, s.panel.setWindow c fast slow reg nparam⟩) := by
  have hw := Panel.window_setWindow c fast slow reg nparam s.panel
  rw [← hwin] at hw
  simp only [lcdWrReg, Panel.writeReg, if_pos hcmd]
  refine ⟨⟨hr.dev, hr.swapped, hr.reversed, fun hk => ?_⟩, rfl, rfl, rfl, hw, ?_, rfl, rfl⟩
  · have hm : s.panel.swapped c = false := by rw [Panel.swapped]; simp [hk]
    simp only [Panel.setWindow, hm]
    exact ⟨hf hk, hs hk⟩
  · rw [← hw]
    rfl

theorem toNat_pred {x n : UInt16} (h : x < n) : (n - 1).toNat = n.toNat - 1 := by
  have h' : x.toNat < n.toNat := h
  rw [UInt16.toNat_sub_of_le _ _ (UInt16.le_iff_toNat_le.mpr (by simp; omega))]
  rfl

theorem toNat_pred_sub {x n : UInt16} (h : x < n) : (n - 1 - x).toNat = n.toNat - 1 - x.toNat := by
  have h' : x.toNat < n.toNat := h
  rw [UInt16.toNat_sub_of_le _ _ (UInt16.le_iff_toNat_le.mpr (by rw [toNat_pred h]; omega)),
    toNat_pred h]

theorem Span.endsAt_ofWords (a b : UInt16) : (Span.ofWords a b).EndsAt b := ⟨rfl, rfl⟩

/-- A memory command after `LCD_SetCursor`, wherever the cursor is set. -/
theorem lcdSetCursor_aimed (hr : Ready c s) (x y : UInt16) {cmd : UInt16}
    (hcmd : cmd = c.kind.wramcmd ∨ cmd = c.kind.rramcmd) :
    let fast := s.lcddev.columnsFrom c.kind x
    Aimed c s ⟨fast.start, fast.stop, y.toNat, (s.lcddev.height - 1).toNat, s.panel.reversed c⟩ cmd
      (lcdWrReg c cmd (lcdSetCursor c x y s)) := by
  obtain ⟨reg, nparam, h⟩ := lcdSetCursor_eq hr x y
  rw [h]
  apply aimed_of_spans hr hcmd
  · rw [Span.ofWords_start, Span.ofWords_stop]
  · intro hk
    rw [LcdDev.columnsFrom, if_neg (by simp [ChipKind.mirrored, hk])]
    exact Span.endsAt_ofWords ..
  · intro _
    exact Span.endsAt_ofWords ..

/-- **The cursor.** `LCD_SetCursor` leaves the window from the pixel `(x, y)` to the end of the
screen. -/
theorem lcdSetCursor_aim (hr : Ready c s) {x y cmd : UInt16}
    (hcmd : cmd = c.kind.wramcmd ∨ cmd = c.kind.rramcmd)
    (hx : x < s.lcddev.width) (hy : y < s.lcddev.height) :
    Aimed c s (screenWindow (s.panel.reversed c) s.lcddev.width.toNat x.toNat y.toNat
      (s.lcddev.width.toNat - x.toNat) (s.lcddev.height.toNat - y.toNat)) cmd
      (lcdWrReg c cmd (lcdSetCursor c x y s)) := by
  have hx' : x.toNat < s.lcddev.width.toNat := hx
  have hy' : y.toNat < s.lcddev.height.toNat := hy
  have ha := lcdSetCursor_aimed hr x y hcmd
  have hwin : screenWindow (s.panel.reversed c) s.lcddev.width.toNat x.toNat y.toNat
        (s.lcddev.width.toNat - x.toNat) (s.lcddev.height.toNat - y.toNat) =
      ⟨(s.lcddev.columnsFrom c.kind x).start, (s.lcddev.columnsFrom c.kind x).stop, y.toNat,
        (s.lcddev.height - 1).toNat, s.panel.reversed c⟩ := by
    rw [screenWindow, LcdDev.columnsFrom, hr.reversed]
    cases c.kind.mirrored s.lcddev.dir <;>
      simp [Span.ofWords_start, Span.ofWords_stop, toNat_pred hx, toNat_pred hy,
        toNat_pred_sub hx] <;> omega
  rw [hwin]
  exact ha

theorem lcdSetCursor_lcddev (hr : Ready c s) (x y : UInt16) :
    (lcdSetCursor c x y s).lcddev = s.lcddev := by
  obtain ⟨reg, nparam, h⟩ := lcdSetCursor_eq hr x y
  rw [h]

/-! ## `LCD_Fast_DrawPoint` -/

/-- Without the SSD1963, `LCD_Fast_DrawPoint` sends what `LCD_SetCursor` sends. -/
theorem lcdFastDrawPoint_cursor (hr : Ready c s) (hk : c.kind ≠ .ssd1963) (pixel x y : UInt16) :
    lcdFastDrawPoint c pixel x.toNat y.toNat s =
      lcdWrData c pixel (lcdWrReg c c.kind.wramcmd (lcdSetCursor c x y s)) := by
  have hid := hr.id
  have hram := hr.wramcmd
  rw [lcdFastDrawPoint, lcdSetCursor]
  simp only [ofInt_shift, ofInt_mod, hram]
  cases h : c.kind with
  | ssd1963 => exact absurd h hk
  | _ =>
    rw [h, ChipKind.id] at hid
    simp [hid]

/-- A command with the four parameters of an axis. -/
theorem lcdWrData_axis {cmd : UInt16} {ax : ChipKind.Axis}
    (hram : ¬ (cmd = c.kind.wramcmd ∨ cmd = c.kind.rramcmd))
    (hax : ∀ n, c.kind.param cmd n = some (ax, n)) (v0 v1 v2 v3 : UInt16) (s : Lcd) :
    lcdWrData c v3 (lcdWrData c v2 (lcdWrData c v1 (lcdWrData c v0 (lcdWrReg c cmd s)))) =
      let span : Span := ⟨v0.toUInt8, v1.toUInt8, v2.toUInt8, v3.toUInt8⟩
      ⟨s.lcddev, match ax with
        | .col => { s.panel with reg := cmd, nparam := 4, col := span }
        | .page => { s.panel with reg := cmd, nparam := 4, page := span }⟩ := by
  have hw : cmd ≠ c.kind.wramcmd := fun h => hram (.inl h)
  cases ax <;>
    simp only [lcdWrReg, lcdWrData, Panel.writeReg, Panel.writeData, if_neg hram, if_neg hw, hax,
      Span.set]

/-- On the SSD1963 the window is the pixel alone. -/
theorem lcdFastDrawPoint_cell (hr : Ready c s) (hk : c.kind = .ssd1963) (pixel : UInt16)
    {x y : UInt16} (hx : x < s.lcddev.width) :
    ∃ reg nparam, lcdFastDrawPoint c pixel x.toNat y.toNat s =
      let x' := if c.kind.mirrored s.lcddev.dir then s.lcddev.width - 1 - x else x
      lcdWrData c pixel (lcdWrReg c c.kind.wramcmd
        ⟨s.lcddev, s.panel.setWindow c (.ofWords x' x') (.ofWords y y) reg nparam⟩) := by
  have hx' : ((s.lcddev.width.toNat : Int) - 1 - x.toNat) = (s.lcddev.width - 1 - x).toNat := by
    have : x.toNat < s.lcddev.width.toNat := hx
    rw [toNat_pred_sub hx]
    omega
  have hid : s.lcddev.id = 0x1963 := by rw [hr.id, hk]; rfl
  have hram := hr.wramcmd
  have hsw := hr.swapped
  have hcol (n : Nat) : c.kind.param 0x2A n = some (.col, n) := by rw [hk]; rfl
  have hpage (n : Nat) : c.kind.param 0x2B n = some (.page, n) := by rw [hk]; rfl
  have hncol : ¬ ((0x2A : UInt16) = c.kind.wramcmd ∨ 0x2A = c.kind.rramcmd) := by
    rw [hk]; decide
  have hnpage : ¬ ((0x2B : UInt16) = c.kind.wramcmd ∨ 0x2B = c.kind.rramcmd) := by
    rw [hk]; decide
  have hsetx : s.lcddev.setxcmd = if c.kind.mirrored s.lcddev.dir then 0x2B else 0x2A := by
    rw [hr.dev, hk]
    rfl
  have hsety : s.lcddev.setycmd = if c.kind.mirrored s.lcddev.dir then 0x2A else 0x2B := by
    rw [hr.dev, hk]
    rfl
  have hdir : c.kind.mirrored s.lcddev.dir = decide (s.lcddev.dir = 0) := by
    simp [ChipKind.mirrored, hk]
  rw [lcdFastDrawPoint, hx']
  simp only [hid, hram, hsetx, hsety, hdir, Panel.setWindow, hsw]
  by_cases h0 : s.lcddev.dir = 0
  · refine ⟨0x2A, 4, ?_⟩
    simp [h0, lcdWrData_axis hncol hcol, lcdWrData_axis hnpage hpage, ofInt_shift, ofInt_mod,
      Span.ofWords, -UInt16.toUInt8_and]
  · refine ⟨0x2B, 4, ?_⟩
    simp [h0, lcdWrData_axis hncol hcol, lcdWrData_axis hnpage hpage, ofInt_shift, ofInt_mod,
      Span.ofWords, -UInt16.toUInt8_and]

/-- `LCD_Fast_DrawPoint` writes to the first cell of a window that begins in the pixel. -/
theorem lcdFastDrawPoint_aim (hr : Ready c s) (pixel : UInt16) {x y : UInt16}
    (hx : x < s.lcddev.width) (hy : y < s.lcddev.height) :
    ∃ w h t, 0 < w ∧ 0 < h ∧ x.toNat + w ≤ s.lcddev.width.toNat ∧
      Aimed c s (screenWindow (s.panel.reversed c) s.lcddev.width.toNat x.toNat y.toNat w h)
        c.kind.wramcmd t ∧
      lcdFastDrawPoint c pixel x.toNat y.toNat s = lcdWrData c pixel t := by
  have hx' : x.toNat < s.lcddev.width.toNat := hx
  have hy' : y.toNat < s.lcddev.height.toNat := hy
  by_cases hk : c.kind = .ssd1963
  · obtain ⟨reg, nparam, h⟩ := lcdFastDrawPoint_cell hr hk pixel (y := y) hx
    refine ⟨1, 1, _, Nat.one_pos, Nat.one_pos, hx', ?_, h⟩
    apply aimed_of_spans hr (.inl rfl)
    · rw [screenWindow, hr.reversed]
      cases c.kind.mirrored s.lcddev.dir with
      | false => simp [Span.ofWords_start, Span.ofWords_stop]
      | true =>
        simp [Span.ofWords_start, Span.ofWords_stop, toNat_pred_sub hx]
        omega
    · intro h
      exact absurd hk h
    · intro h
      exact absurd hk h
  · exact ⟨_, _, _, by omega, by omega, by omega, lcdSetCursor_aim hr (.inl rfl) hx hy,
      lcdFastDrawPoint_cursor hr hk pixel x y⟩

end AtkOnenet
