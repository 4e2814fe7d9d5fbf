import AtkOnenet.Lib.Raster
import AtkOnenet.Lib.Store
import AtkOnenet.Lib.Word

/-!
# The display controller

The controllers that `drv_lcd.c` supports, as address-window devices behind the two registers `REG`
(a command) and `RAM` (its data) of the bus.

* `ChipKind`: the four controllers, with their command codes. The addresses are the column and the
  page address. On the SSD1963 the scan direction tells which of them the walk over the window
  changes first, and from which end; the others apply it between their addresses and the glass.
* `Span`: the start and the end address of one axis, as the four parameters that set them. On the
  NT35510 every parameter is a command of its own, `setxcmd + k` and `setycmd + k`.
* `Controller`: a controller with the two things that the driver cannot know, and that nothing is
  assumed about: `turn` is what a new scan direction does to the cells behind the addresses, `pad`
  the bits of the read words that carry no colour.
* `Panel`: the state. `writeReg` and `writeData` are writes to `REG` and `RAM`, `readData` is a read
  of `RAM`.
-/

namespace AtkOnenet

open Raster Store Word

inductive ChipKind where
  | ili9341
  | nt35310
  | nt35510
  | ssd1963
  deriving DecidableEq, Repr

namespace ChipKind

/-- `lcddev.id` of the controller. -/
def id : ChipKind → UInt16
  | ili9341 => 0x9341
  | nt35310 => 0x5310
  | nt35510 => 0x5510
  | ssd1963 => 0x1963

/-- The command that writes the display memory. -/
def wramcmd : ChipKind → UInt16
  | nt35510 => 0x2C00
  | _ => 0x2C

/-- The command that reads the display memory. -/
def rramcmd : ChipKind → UInt16
  | nt35510 => 0x2E00
  | _ => 0x2E

/-- The command that sets the scan direction. -/
def madctlcmd : ChipKind → UInt16
  | nt35510 => 0x3600
  | _ => 0x36

/-- The axes of the window: the column address (`0x2A`) and the page address (`0x2B`). -/
inductive Axis where
  | col
  | page
  deriving DecidableEq, Repr

/-- The address parameter that the `n`-th data word of the command `reg` is. -/
def param (k : ChipKind) (reg : UInt16) (n : Nat) : Option (Axis × Nat) :=
  match k with
  | nt35510 =>
    if n ≠ 0 then none
    else if reg = 0x2A00 then some (.col, 0) else if reg = 0x2A01 then some (.col, 1)
    else if reg = 0x2A02 then some (.col, 2) else if reg = 0x2A03 then some (.col, 3)
    else if reg = 0x2B00 then some (.page, 0) else if reg = 0x2B01 then some (.page, 1)
    else if reg = 0x2B02 then some (.page, 2) else if reg = 0x2B03 then some (.page, 3)
    else none
  | _ =>
    if reg = 0x2A then some (.col, n) else if reg = 0x2B then some (.page, n) else none

end ChipKind

/-- The four parameters of one axis. -/
structure Span where
  p0 : UInt8
  p1 : UInt8
  p2 : UInt8
  p3 : UInt8
  deriving DecidableEq, Repr

namespace Span

def start (s : Span) : Nat := (wordOf s.p0 s.p1).toNat

def stop (s : Span) : Nat := (wordOf s.p2 s.p3).toNat

def set (s : Span) (n : Nat) (v : UInt8) : Span :=
  match n with
  | 0 => { s with p0 := v }
  | 1 => { s with p1 := v }
  | 2 => { s with p2 := v }
  | 3 => { s with p3 := v }
  | _ => s

end Span

/-- The cells of the display memory, by column and page address. -/
abbrev Gram := Nat × Nat → UInt16

structure Controller where
  kind : ChipKind
  turn : UInt16 → Gram → Gram
  pad : Nat → UInt16

structure Panel where
  /-- The command written last, and the number of data words since. -/
  reg : UInt16
  nparam : Nat
  col : Span
  page : Span
  madctl : UInt16
  /-- The cursor: the address that changes first, and the other one. -/
  cur : Nat × Nat
  gram : Gram
  /-- The number of data words read so far. -/
  nread : Nat

namespace Panel

variable (c : Controller) (p : Panel)

/-- The walk changes the page address first. -/
def swapped : Bool := c.kind = .ssd1963 ∧ p.madctl &&& 0x20 ≠ 0

/-- The walk goes from the end address to the start address. -/
def reversed : Bool :=
  c.kind = .ssd1963 ∧ p.madctl &&& (if p.swapped c then 0x80 else 0x40) ≠ 0

/-- The window as the cursor walks over it. -/
def window : Window :=
  let (fast, slow) := if p.swapped c then (p.page, p.col) else (p.col, p.page)
  ⟨fast.start, fast.stop, slow.start, slow.stop, p.reversed c⟩

/-- The memory cell at a cursor. -/
def cell (a : Nat × Nat) : Nat × Nat := if p.swapped c then a.swap else a

/-- The value of a memory cell on the data bus, `n` words after the read command: the SSD1963 sends
the colour; the others send a dummy word, red and green, then blue, each in the upper bits of a
byte. -/
def readWord (v pad : UInt16) (n : Nat) : UInt16 :=
  match c.kind, n with
  | .ssd1963, 0 => v
  | .ssd1963, _ => pad
  | _, 1 => (v &&& 0xF800 : UInt16) ||| (v &&& 0x07E0 : UInt16) >>> 3 ||| (pad &&& 0x0703 : UInt16)
  | _, 2 => (v &&& 0x001F : UInt16) <<< 11 ||| (pad &&& 0x07FF : UInt16)
  | _, _ => pad

/-- A write to `REG`. -/
def writeReg (r : UInt16) : Panel :=
  let q := { p with reg := r, nparam := 0 }
  if r = c.kind.wramcmd ∨ r = c.kind.rramcmd then { q with cur := (q.window c).home } else q

/-- A write to `RAM`. -/
def writeData (v : UInt16) : Panel :=
  if p.reg = c.kind.wramcmd then
    { p with
      gram := Function.update p.gram (p.cell c p.cur) v, cur := (p.window c).next p.cur }
  else
    let q := { p with nparam := p.nparam + 1 }
    match c.kind.param p.reg p.nparam with
    | some (.col, n) => { q with col := p.col.set n v.toUInt8 }
    | some (.page, n) => { q with page := p.page.set n v.toUInt8 }
    | none =>
      if p.reg = c.kind.madctlcmd ∧ p.nparam = 0 then
        { q with madctl := v, gram := c.turn v p.gram }
      else q

/-- A read of `RAM`. -/
def readData : UInt16 × Panel :=
  let v := if p.reg = c.kind.rramcmd
    then readWord c (p.gram (p.cell c p.cur)) (c.pad p.nread) p.nparam else c.pad p.nread
  (v, { p with nparam := p.nparam + 1, nread := p.nread + 1 })

end Panel

end AtkOnenet
