import AtkOnenet.Lcd.Aim
import AtkOnenet.Lib.Run

/-!
# The frame buffer

What the drawing functions are for, with no controller in it: a picture of `width × height` pixels.

* `Call`: a call of a function of the driver. `Call.drawn` is the colour that the call gives to a
  pixel, and `Call.OnScreen` says that it stays on the screen.
* `Frame.Step`: a call draws over the picture; `LCD_Display_Dir` gives a screen with the sides of
  the direction and any picture.
* `lastDrawn`: the colour most recently drawn on a pixel, which is the pixel of the frame buffer
  (`pixel_of_lastDrawn`).
-/

namespace AtkOnenet

open Run

inductive Call where
  | displayDir (dir : UInt8)
  | fastDrawPoint (pixel : UInt16) (x y : Int)
  | hLine (pixel : UInt16) (x1 x2 y : Int)
  | blitLine (pixel : Nat → UInt16) (x y : Int) (size : Nat)
  | colorFill (sx sy ex ey : UInt16) (color : Nat → UInt16)
  | clear (color : UInt32)
  | readPoint (x y : Int)

/-- A picture with transparent pixels. -/
abbrev Layer := Nat → Nat → Option UInt16

namespace Call

/-- The colours that the call draws. -/
def drawn : Call → Layer
  | displayDir _, _, _ => none
  | fastDrawPoint pixel px py, x, y => if px = x ∧ py = y then some pixel else none
  | hLine pixel x1 x2 py, x, y => if x1 ≤ x ∧ (x : Int) ≤ x2 ∧ py = y then some pixel else none
  | blitLine pixel px py size, x, y =>
    if px ≤ x ∧ (x : Int) < px + size ∧ py = y then some (pixel (x - px).toNat) else none
  | colorFill sx sy ex ey color, x, y =>
    if sx.toNat ≤ x ∧ x ≤ ex.toNat ∧ sy.toNat ≤ y ∧ y ≤ ey.toNat then
      some (color ((y - sy.toNat) * (ex.toNat - sx.toNat + 1) + (x - sx.toNat))) else none
  | clear color, _, _ => some color.toUInt16
  | readPoint _ _, _, _ => none

/-- The call stays on a screen of `w` columns and `h` rows. An empty line is anywhere. -/
def OnScreen (w h : Int) : Call → Prop
  | displayDir _ => True
  | fastDrawPoint _ x y => 0 ≤ x ∧ x < w ∧ 0 ≤ y ∧ y < h
  | hLine _ x1 x2 y => x1 ≤ x2 → 0 ≤ x1 ∧ x2 < w ∧ 0 ≤ y ∧ y < h
  | blitLine _ x y size => 0 < size → 0 ≤ x ∧ x + size ≤ w ∧ 0 ≤ y ∧ y < h
  | colorFill sx sy ex ey _ => sx ≤ ex ∧ (ex.toNat : Int) < w ∧ sy ≤ ey ∧ (ey.toNat : Int) < h
  | clear _ => True
  | readPoint x y => 0 ≤ x ∧ x < w ∧ 0 ≤ y ∧ y < h

instance (w h : Int) : (call : Call) → Decidable (call.OnScreen w h)
  | displayDir _ | clear _ => inferInstanceAs (Decidable True)
  | fastDrawPoint .. | readPoint .. => inferInstanceAs (Decidable (_ ∧ _))
  | hLine .. | blitLine .. => inferInstanceAs (Decidable (_ → _))
  | colorFill .. => inferInstanceAs (Decidable (_ ∧ _))

end Call

structure Frame where
  width : Nat
  height : Nat
  pixel : Nat → Nat → UInt16

namespace Frame

/-- The picture with a layer on top. -/
def draw (l : Layer) (f : Frame) : Frame :=
  { f with pixel := fun x y => (l x y).getD (f.pixel x y) }

/-- A call on the frame buffer. What a new direction makes of the picture is left open. -/
inductive Step (k : ChipKind) : Frame → Call → Frame → Prop where
  | displayDir (f : Frame) (dir : UInt8) (pixel : Nat → Nat → UInt16) :
    Step k f (.displayDir dir)
      ⟨(k.lcddev dir).width.toNat, (k.lcddev dir).height.toNat, pixel⟩
  | draw (f : Frame) {call : Call} (h : ∀ dir, call ≠ .displayDir dir) :
    Step k f call (f.draw call.drawn)

end Frame

/-- The colour most recently drawn on the pixel `(x, y)`, after one more call. -/
def Call.last (x y : Nat) (old : Option UInt16) : Call → Option UInt16
  | displayDir _ => none
  | call => (call.drawn x y).or old

/-- The colour most recently drawn on the pixel since the last `LCD_Display_Dir`. -/
def lastDrawn (x y : Nat) (calls : List Call) : Option UInt16 := calls.foldl (Call.last x y) none

theorem Frame.Step.last {k : ChipKind} {f f' : Frame} {call : Call} (h : Step k f call f')
    {x y : Nat} {old : Option UInt16} (hold : ∀ v, old = some v → f.pixel x y = v) :
    ∀ v, call.last x y old = some v → f'.pixel x y = v := by
  intro v hv
  cases h with
  | displayDir dir pixel => cases hv
  | draw hc =>
    have hlast : call.last x y old = (call.drawn x y).or old := by
      cases call with
      | displayDir dir => exact absurd rfl (hc dir)
      | _ => rfl
    rw [hlast] at hv
    simp only [Frame.draw]
    cases hd : call.drawn x y with
    | none => exact hold v (by rwa [hd] at hv)
    | some w =>
      rw [hd] at hv
      exact Option.some_inj.mp hv

/-- The pixel of the frame buffer has the colour most recently drawn there. -/
theorem pixel_of_lastDrawn {k : ChipKind} {f f' : Frame} {calls : List Call}
    (h : Path (Frame.Step k) f calls f') {x y : Nat} {v : UInt16}
    (hv : lastDrawn x y calls = some v) : f'.pixel x y = v := by
  have hrun {old : Option UInt16} (hold : ∀ v, old = some v → f.pixel x y = v) :
      ∀ v, calls.foldl (Call.last x y) old = some v → f'.pixel x y = v := by
    clear hv
    induction h generalizing old with
    | nil f => exact hold
    | cons hstep _ ih => exact ih (hstep.last hold)
  exact hrun (fun _ h => by cases h) v hv

end AtkOnenet
