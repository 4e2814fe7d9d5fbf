import AtkOnenet.Lcd.Panel

/-!
# The display driver (`applications/drv_lcd.c`)

The functions of `drv_lcd.c` that draw and read pixels, as functions on the driver's record
`lcddev` and the panel behind the bus. A write to `LCD->REG` or `LCD->RAM` is `lcdWrReg` or
`lcdWrData`. The `int` coordinates are integers, converted to 16 bits where the source passes them
on as `uint16_t` (`UInt16.ofInt`).
-/

namespace AtkOnenet

/-- `_lcd_dev`. -/
structure LcdDev where
  width : UInt16
  height : UInt16
  id : UInt16
  dir : UInt8
  wramcmd : UInt16
  setxcmd : UInt16
  setycmd : UInt16
  deriving DecidableEq, Repr

structure Lcd where
  lcddev : LcdDev
  panel : Panel

variable (c : Controller)

def lcdWrReg (regval : UInt16) (s : Lcd) : Lcd := { s with panel := s.panel.writeReg c regval }

def lcdWrData (data : UInt16) (s : Lcd) : Lcd := { s with panel := s.panel.writeData c data }

def lcdRdData (s : Lcd) : UInt16 × Lcd :=
  let (v, panel) := s.panel.readData c
  (v, { s with panel })

def lcdWriteReg (reg regValue : UInt16) (s : Lcd) : Lcd :=
  s |> lcdWrReg c reg |> lcdWrData c regValue

def lcdWriteRamPrepare (s : Lcd) : Lcd := lcdWrReg c s.lcddev.wramcmd s

def lcdSetCursor (xpos ypos : UInt16) (s : Lcd) : Lcd :=
  let d := s.lcddev
  if d.id = 0x9341 ∨ d.id = 0x5310 then
    s |> lcdWrReg c d.setxcmd |> lcdWrData c (xpos >>> 8) |> lcdWrData c (xpos &&& 0xFF)
      |> lcdWrReg c d.setycmd |> lcdWrData c (ypos >>> 8) |> lcdWrData c (ypos &&& 0xFF)
  else if d.id = 0x1963 then
    let s :=
      if d.dir = 0 then
        let xpos := d.width - 1 - xpos
        s |> lcdWrReg c d.setxcmd |> lcdWrData c 0 |> lcdWrData c 0
          |> lcdWrData c (xpos >>> 8) |> lcdWrData c (xpos &&& 0xFF)
      else
        s |> lcdWrReg c d.setxcmd |> lcdWrData c (xpos >>> 8) |> lcdWrData c (xpos &&& 0xFF)
          |> lcdWrData c ((d.width - 1) >>> 8) |> lcdWrData c ((d.width - 1) &&& 0xFF)
    s |> lcdWrReg c d.setycmd |> lcdWrData c (ypos >>> 8) |> lcdWrData c (ypos &&& 0xFF)
      |> lcdWrData c ((d.height - 1) >>> 8) |> lcdWrData c ((d.height - 1) &&& 0xFF)
  else if d.id = 0x5510 then
    s |> lcdWrReg c d.setxcmd |> lcdWrData c (xpos >>> 8)
      |> lcdWrReg c (d.setxcmd + 1) |> lcdWrData c (xpos &&& 0xFF)
      |> lcdWrReg c d.setycmd |> lcdWrData c (ypos >>> 8)
      |> lcdWrReg c (d.setycmd + 1) |> lcdWrData c (ypos &&& 0xFF)
  else s

/-- `color` is the pixel buffer that the pointer leads to. -/
def lcdColorFill (sx sy ex ey : UInt16) (color : Nat → UInt16) (s : Lcd) : Lcd :=
  let width := ex - sx + 1
  let height := ey - sy + 1
  (List.range height.toNat).foldl (fun s i =>
    let s := s |> lcdSetCursor c sx (sy + UInt16.ofNat i) |> lcdWriteRamPrepare c
    (List.range width.toNat).foldl (fun s j => lcdWrData c (color (i * width.toNat + j)) s) s) s

def lcdReadPoint (x y : Int) (s : Lcd) : UInt16 × Lcd :=
  let d := s.lcddev
  if x ≥ d.width.toNat ∨ y ≥ d.height.toNat then (0, s)
  else
    let s := lcdSetCursor c (UInt16.ofInt x) (UInt16.ofInt y) s
    let s :=
      if d.id = 0x9341 ∨ d.id = 0x5310 ∨ d.id = 0x1963 then lcdWrReg c 0x2E s
      else if d.id = 0x5510 then lcdWrReg c 0x2E00 s
      else s
    let (r, s) := lcdRdData c s
    if d.id = 0x1963 then (r, s)
    else
      let (r, s) := lcdRdData c s
      let (b, s) := lcdRdData c s
      let g := (r &&& 0xFF) <<< 8
      ((r >>> 11) <<< 11 ||| (g >>> 10) <<< 5 ||| b >>> 11, s)

/-- The scan direction in the other screen orientation: the first `switch` of `LCD_Scan_Dir`. -/
def lcdTurnDir (dir : UInt8) : UInt8 :=
  if dir = 0 then 6 else if dir = 1 then 7 else if dir = 2 then 4 else if dir = 3 then 5
  else if dir = 4 then 1 else if dir = 5 then 0 else if dir = 6 then 3 else if dir = 7 then 2
  else dir

/-- The bits 7, 6 and 5 of a scan direction: the second `switch` of `LCD_Scan_Dir`. -/
def lcdScanBits (dir : UInt8) : UInt16 :=
  if dir = 0 then 0x00 else if dir = 1 then 0x80 else if dir = 2 then 0x40
  else if dir = 3 then 0xC0 else if dir = 4 then 0x20 else if dir = 5 then 0x60
  else if dir = 6 then 0xA0 else if dir = 7 then 0xE0 else 0

/-- `L2R_U2D`. -/
def dftScanDir : UInt8 := 0

def lcdScanDir (dir : UInt8) (s : Lcd) : Lcd :=
  let d := s.lcddev
  let dir := if (d.dir = 1 ∧ d.id ≠ 0x1963) ∨ (d.dir = 0 ∧ d.id = 0x1963) then lcdTurnDir dir
    else dir
  if d.id = 0x9341 ∨ d.id = 0x5310 ∨ d.id = 0x5510 ∨ d.id = 0x1963 then
    let regval := lcdScanBits dir
    let dirreg : UInt16 := if d.id = 0x5510 then 0x3600 else 0x36
    let regval :=
      if d.id ≠ 0x5310 ∧ d.id ≠ 0x5510 ∧ d.id ≠ 0x1963 then regval ||| 0x08 else regval
    let s := lcdWriteReg c dirreg regval s
    let d :=
      if d.id ≠ 0x1963 then
        -- Swap the sides of the screen where they do not fit the direction.
        if (regval &&& 0x20 ≠ 0 ∧ d.width < d.height) ∨ (regval &&& 0x20 = 0 ∧ d.width > d.height)
        then { d with width := d.height, height := d.width } else d
      else d
    let s := { s with lcddev := d }
    if d.id = 0x5510 then
      s |> lcdWrReg c d.setxcmd |> lcdWrData c 0
        |> lcdWrReg c (d.setxcmd + 1) |> lcdWrData c 0
        |> lcdWrReg c (d.setxcmd + 2) |> lcdWrData c ((d.width - 1) >>> 8)
        |> lcdWrReg c (d.setxcmd + 3) |> lcdWrData c ((d.width - 1) &&& 0xFF)
        |> lcdWrReg c d.setycmd |> lcdWrData c 0
        |> lcdWrReg c (d.setycmd + 1) |> lcdWrData c 0
        |> lcdWrReg c (d.setycmd + 2) |> lcdWrData c ((d.height - 1) >>> 8)
        |> lcdWrReg c (d.setycmd + 3) |> lcdWrData c ((d.height - 1) &&& 0xFF)
    else
      s |> lcdWrReg c d.setxcmd |> lcdWrData c 0 |> lcdWrData c 0
        |> lcdWrData c ((d.width - 1) >>> 8) |> lcdWrData c ((d.width - 1) &&& 0xFF)
        |> lcdWrReg c d.setycmd |> lcdWrData c 0 |> lcdWrData c 0
        |> lcdWrData c ((d.height - 1) >>> 8) |> lcdWrData c ((d.height - 1) &&& 0xFF)
  else s

/-- `pixel` points to one colour. -/
def lcdFastDrawPoint (pixel : UInt16) (x y : Int) (s : Lcd) : Lcd :=
  let d := s.lcddev
  let s :=
    if d.id = 0x9341 ∨ d.id = 0x5310 then
      s |> lcdWrReg c d.setxcmd |> lcdWrData c (UInt16.ofInt (x >>> (8 : Nat)))
        |> lcdWrData c (UInt16.ofInt (x % 256))
        |> lcdWrReg c d.setycmd |> lcdWrData c (UInt16.ofInt (y >>> (8 : Nat)))
        |> lcdWrData c (UInt16.ofInt (y % 256))
    else if d.id = 0x5510 then
      s |> lcdWrReg c d.setxcmd |> lcdWrData c (UInt16.ofInt (x >>> (8 : Nat)))
        |> lcdWrReg c (d.setxcmd + 1) |> lcdWrData c (UInt16.ofInt (x % 256))
        |> lcdWrReg c d.setycmd |> lcdWrData c (UInt16.ofInt (y >>> (8 : Nat)))
        |> lcdWrReg c (d.setycmd + 1) |> lcdWrData c (UInt16.ofInt (y % 256))
    else if d.id = 0x1963 then
      let x := if d.dir = 0 then (d.width.toNat : Int) - 1 - x else x
      s |> lcdWrReg c d.setxcmd |> lcdWrData c (UInt16.ofInt (x >>> (8 : Nat)))
        |> lcdWrData c (UInt16.ofInt (x % 256))
        |> lcdWrData c (UInt16.ofInt (x >>> (8 : Nat))) |> lcdWrData c (UInt16.ofInt (x % 256))
        |> lcdWrReg c d.setycmd |> lcdWrData c (UInt16.ofInt (y >>> (8 : Nat)))
        |> lcdWrData c (UInt16.ofInt (y % 256))
        |> lcdWrData c (UInt16.ofInt (y >>> (8 : Nat))) |> lcdWrData c (UInt16.ofInt (y % 256))
    else s
  s |> lcdWrReg c d.wramcmd |> lcdWrData c pixel

def lcdDisplayDir (dir : UInt8) (s : Lcd) : Lcd :=
  let d := { s.lcddev with dir }
  let d :=
    if dir = 0 then
      let d := { d with width := 240, height := 320 }
      if d.id = 0x9341 ∨ d.id = 0x5310 then
        let d := { d with wramcmd := 0x2C, setxcmd := 0x2A, setycmd := 0x2B }
        if d.id = 0x5310 then { d with width := 320, height := 480 } else d
      else if d.id = 0x5510 then
        { d with
          wramcmd := 0x2C00, setxcmd := 0x2A00, setycmd := 0x2B00, width := 480, height := 800 }
      else if d.id = 0x1963 then
        { d with wramcmd := 0x2C, setxcmd := 0x2B, setycmd := 0x2A, width := 480, height := 800 }
      else d
    else
      let d := { d with width := 320, height := 240 }
      let d :=
        if d.id = 0x9341 ∨ d.id = 0x5310 then
          { d with wramcmd := 0x2C, setxcmd := 0x2A, setycmd := 0x2B }
        else if d.id = 0x5510 then
          { d with
            wramcmd := 0x2C00, setxcmd := 0x2A00, setycmd := 0x2B00, width := 800, height := 480 }
        else if d.id = 0x1963 then
          { d with wramcmd := 0x2C, setxcmd := 0x2A, setycmd := 0x2B, width := 800, height := 480 }
        else d
      if d.id = 0x5310 then { d with width := 480, height := 320 } else d
  lcdScanDir c dftScanDir { s with lcddev := d }

def lcdClear (color : UInt32) (s : Lcd) : Lcd :=
  let totalpoint : UInt32 := s.lcddev.width.toUInt32 * s.lcddev.height.toUInt32
  let s := s |> lcdSetCursor c 0 0 |> lcdWriteRamPrepare c
  (List.range totalpoint.toNat).foldl (fun s _ => lcdWrData c color.toUInt16 s) s

def lcdHLine (pixel : UInt16) (x1 x2 y : Int) (s : Lcd) : Lcd :=
  let xsize := x2 - x1 + 1
  let s := s |> lcdSetCursor c (UInt16.ofInt x1) (UInt16.ofInt y) |> lcdWriteRamPrepare c
  (List.range xsize.toNat).foldl (fun s _ => lcdWrData c pixel s) s

/-- `pixel` is the pixel buffer that the pointer leads to. -/
def lcdBlitLine (pixel : Nat → UInt16) (x y : Int) (size : Nat) (s : Lcd) : Lcd :=
  let s := s |> lcdSetCursor c (UInt16.ofInt x) (UInt16.ofInt y) |> lcdWriteRamPrepare c
  (List.range size).foldl (fun s i => lcdWrData c (pixel i) s) s

end AtkOnenet
