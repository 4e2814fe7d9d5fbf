/-!
# A two-wire bus with one bit-banged master

The generic part of a two-wire (I2C) bus, over any device.

* `Lines`: the levels of the clock and the data line. `Lines.cond`: a change of the data line while
  the clock stays high is a START (falling) or a STOP (rising) condition.
* `Device σ`: a device with states `σ`. `drive` is its side of the wired-AND (`false` pulls the data
  line low); `react` sees every action of the master, as the lines before and after it.
* `Pins`, `Bus`: the master's output latches and the direction of its data pin; it drives the data
  line only in output mode. `Bus.act` is one action of the master: new pins, then the device reacts.
* `Device.probed`: the same device with a probe on the lines, which records every level.
  `conditions` reads the START and STOP conditions off a record.
-/

namespace TwoWire

/-- The levels of the two lines. -/
structure Lines where
  scl : Bool
  sda : Bool
  deriving DecidableEq, Repr

/-- A change of the data line while the clock is high. -/
inductive Cond where
  | start
  | stop
  deriving DecidableEq, Repr

/-- The condition that a change of the lines from `old` to `new` is. -/
def Lines.cond (old new : Lines) : Option Cond :=
  match old.scl && new.scl, old.sda, new.sda with
  | true, true, false => some .start
  | true, false, true => some .stop
  | _, _, _ => none

@[simp] theorem Lines.cond_self (x : Lines) : x.cond x = none := by
  obtain ⟨scl, sda⟩ := x
  cases scl <;> cases sda <;> rfl

/-- A device on the bus (module doc). -/
structure Device (σ : Type) where
  drive : σ → Bool
  react : (old new : Lines) → σ → σ

/-- The master's pins: the latches of both lines, and the direction of the data pin. -/
structure Pins where
  scl : Bool
  sdaOut : Bool
  sda : Bool
  deriving DecidableEq, Repr

structure Bus (σ : Type) where
  pins : Pins
  dev : σ

variable {σ : Type} (d : Device σ)

/-- The wired-AND of the device and the master, which drives the data line in output mode only. -/
def Bus.lines (b : Bus σ) : Lines :=
  ⟨b.pins.scl, d.drive b.dev && (!b.pins.sdaOut || b.pins.sda)⟩

/-- One action of the master. With the pins unchanged it is a delay. -/
def Bus.act (p : Pins) (b : Bus σ) : Bus σ :=
  ⟨p, d.react (b.lines d) (Bus.lines d ⟨p, b.dev⟩) b.dev⟩

@[simp] theorem Bus.act_pins (p : Pins) (b : Bus σ) : (b.act d p).pins = p := rfl

/-- The device changes its drive only while the clock is low. -/
def Device.Quiet : Prop :=
  ∀ old new s, new.scl = true → d.drive (d.react old new s) = d.drive s

variable {d}

/-! ## The probe -/

/-- The device `d` with a probe: the levels of the lines that it has seen, the newest first. -/
def Device.probed (d : Device σ) : Device (σ × List Lines) where
  drive s := d.drive s.1
  react old new s := (d.react old new s.1, new :: old :: s.2)

/-- The record of a probe, with the lines as they are now. -/
def Bus.record (d : Device σ) (b : Bus (σ × List Lines)) : List Lines :=
  b.lines d.probed :: b.dev.2

/-- The START and STOP conditions of a record, the newest first like the record itself. -/
def conditions : List Lines → List Cond
  | new :: old :: t => (old.cond new).toList ++ conditions (old :: t)
  | _ => []

/-- The levels since the clock was low for the last time, the newest first. -/
def sinceLow (r : List Lines) : List Lines := r.takeWhile (·.scl)

/-- With the clock high a quiet device keeps its side of the data line. -/
theorem Device.Quiet.drive_act (hq : d.Quiet) (p : Pins) (b : Bus (σ × List Lines))
    (hp : p.scl = true) : d.drive (b.act d.probed p).dev.1 = d.drive b.dev.1 :=
  hq _ _ _ hp

/-- With the clock high an action puts two equal levels in front of the record. -/
theorem Device.Quiet.record_act (hq : d.Quiet) (p : Pins) (b : Bus (σ × List Lines))
    (hp : p.scl = true) :
    let x : Lines := ⟨true, d.drive b.dev.1 && (!p.sdaOut || p.sda)⟩
    (b.act d.probed p).record d = x :: x :: b.record d := by
  have hd := hq.drive_act p b hp
  simp only [Bus.record, Bus.lines, Device.probed, Bus.act, hp] at hd ⊢
  rw [hd]

end TwoWire
