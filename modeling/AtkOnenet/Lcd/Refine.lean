import AtkOnenet.Lcd.Draw
import Mathlib.Tactic.IntervalCases

/-!
# The display is a frame buffer

Every call of the driver draws the layer of its call on the screen (`Call.draws`), so the screen
shows what the calls draw on a frame buffer (`screen_refines_frame`), for every controller and in
any order of calls. `LCD_ReadPoint` draws nothing and gives the colour of the pixel
(`lcdReadPoint_spec`), so it gives the colour most recently drawn there (`lcdReadPoint_lastDrawn`).
-/

namespace AtkOnenet

open Raster Word Run

variable {c : Controller} {s t : Lcd}

/-! ## `LCD_ReadPoint` -/

/-- The two words of a colour on the data bus and what `LCD_ReadPoint` makes of them: the bits that
carry no colour cancel out. -/
theorem rgb565_of_words {v p q r g b : UInt16}
    (hr : r = (v &&& 0xF800 : UInt16) ||| (v &&& 0x07E0 : UInt16) >>> 3 ||| (p &&& 0x0703 : UInt16))
    (hb : b = (v &&& 0x001F : UInt16) <<< 11 ||| (q &&& 0x07FF : UInt16))
    (hg : g = (r &&& 0xFF) <<< 8) :
    (r >>> 11) <<< 11 ||| (g >>> 10) <<< 5 ||| b >>> 11 = v := by
  subst hg hr hb
  apply UInt16.toBitVec_inj.mp
  apply BitVec.eq_of_getLsbD_eq
  intro i hi
  interval_cases i <;> simp

/-- The colour under the cursor. -/
def Lcd.pointed (c : Controller) (t : Lcd) : UInt16 :=
  t.panel.gram (t.panel.cell c t.panel.cur)

/-- The cursor behind `LCD_SetCursor` is on the pixel. -/
theorem Aimed.shown {x y w h : Nat} {cmd : UInt16} (ha : Aimed c s
      (screenWindow (s.panel.reversed c) s.lcddev.width.toNat x y w h) cmd t)
    (hw : 0 < w) (hh : 0 < h) (hx : x + w ≤ s.lcddev.width.toNat) :
    t.pointed c = s.shown c x y := by
  have hpos := screenWindow_pos (s.panel.reversed c) (y := y) hw hh hx 0
  rw [Window.pos_zero, Nat.zero_mod, Nat.zero_div] at hpos
  rw [Lcd.pointed, ha.gram, ha.cur, hpos, Lcd.shown]
  unfold Panel.cell Panel.swapped
  rw [ha.madctl]
  rfl

theorem Draws.rdData {l : Layer} (h : Draws c s t l) : Draws c s (lcdRdData c t).2 l :=
  ⟨⟨h.ready.dev, h.ready.swapped, h.ready.reversed, h.ready.ends⟩, h.lcddev, h.shown⟩

theorem lcdRdData_fst (hreg : t.panel.reg = c.kind.rramcmd) :
    (lcdRdData c t).1 = Panel.readWord c (t.pointed c) (c.pad t.panel.nread) t.panel.nparam :=
  if_pos hreg

theorem lcdRdData_colour (hreg : t.panel.reg = c.kind.rramcmd) (hk : c.kind = .ssd1963)
    (hn : t.panel.nparam = 0) : (lcdRdData c t).1 = t.pointed c := by
  rw [lcdRdData_fst hreg, hn]
  simp [Panel.readWord, hk]

theorem lcdRdData_redGreen (hreg : t.panel.reg = c.kind.rramcmd) (hk : c.kind ≠ .ssd1963)
    (hn : t.panel.nparam = 1) : (lcdRdData c t).1 =
      (t.pointed c &&& 0xF800 : UInt16) ||| (t.pointed c &&& 0x07E0 : UInt16) >>> 3 |||
        (c.pad t.panel.nread &&& 0x0703 : UInt16) := by
  rw [lcdRdData_fst hreg, hn]
  unfold Panel.readWord
  cases h : c.kind
  case ssd1963 => exact absurd h hk
  all_goals rfl

theorem lcdRdData_blue (hreg : t.panel.reg = c.kind.rramcmd) (hk : c.kind ≠ .ssd1963)
    (hn : t.panel.nparam = 2) : (lcdRdData c t).1 =
      (t.pointed c &&& 0x001F : UInt16) <<< 11 ||| (c.pad t.panel.nread &&& 0x07FF : UInt16) := by
  rw [lcdRdData_fst hreg, hn]
  unfold Panel.readWord
  cases h : c.kind
  case ssd1963 => exact absurd h hk
  all_goals rfl

/-- The read command of each controller. -/
theorem readCommand (hid : s.lcddev.id = c.kind.id) :
    (if s.lcddev.id = 0x9341 ∨ s.lcddev.id = 0x5310 ∨ s.lcddev.id = 0x1963 then lcdWrReg c 0x2E t
      else if s.lcddev.id = 0x5510 then lcdWrReg c 0x2E00 t else t) =
      lcdWrReg c c.kind.rramcmd t := by
  rw [hid]
  cases c.kind <;> rfl

/-- **Reading back.** `LCD_ReadPoint` gives the colour of the pixel and changes none. -/
theorem lcdReadPoint_spec (hr : Ready c s) {x y : UInt16} (hx : x < s.lcddev.width)
    (hy : y < s.lcddev.height) :
    (lcdReadPoint c x.toNat y.toNat s).1 = s.shown c x.toNat y.toNat ∧
      Draws c s (lcdReadPoint c x.toNat y.toNat s).2 fun _ _ => none := by
  have hx' : x.toNat < s.lcddev.width.toNat := hx
  have hy' : y.toNat < s.lcddev.height.toNat := hy
  have hon : ¬((x.toNat : Int) ≥ s.lcddev.width.toNat ∨
      (y.toNat : Int) ≥ s.lcddev.height.toNat) := by
    omega
  simp only [lcdReadPoint, if_neg hon, ofInt_word, readCommand hr.id]
  have ha := lcdSetCursor_aim hr (.inr rfl) hx hy
  have hshown := ha.shown (by omega) (by omega) (by omega)
  have hdraw := ha.draws_none
  have hreg := ha.reg
  have hnparam := ha.nparam
  generalize lcdWrReg c c.kind.rramcmd (lcdSetCursor c x y s) = t at *
  rw [← hshown]
  by_cases hk : c.kind = .ssd1963
  · rw [if_pos (by rw [hr.id, hk]; rfl)]
    refine ⟨?_, hdraw.rdData⟩
    exact lcdRdData_colour hreg hk hnparam
  · rw [if_neg (by rw [hr.id]; cases h : c.kind <;> simp_all [ChipKind.id])]
    refine ⟨?_, hdraw.rdData.rdData.rdData⟩
    -- A dummy word, then the two words of the colour.
    let t₁ := (lcdRdData c t).2
    let t₂ := (lcdRdData c t₁).2
    have h₁ : t₁.panel.nparam = 1 := congrArg (· + 1) hnparam
    have h₂ : t₂.panel.nparam = 2 := congrArg (· + 2) hnparam
    exact rgb565_of_words (lcdRdData_redGreen (t := t₁) hreg hk h₁)
      (lcdRdData_blue (t := t₂) hreg hk h₂) rfl

/-! ## Calls -/

/-- A call of the driver. -/
def Call.run (c : Controller) (s : Lcd) : Call → Lcd
  | displayDir dir => lcdDisplayDir c dir s
  | fastDrawPoint pixel x y => lcdFastDrawPoint c pixel x y s
  | hLine pixel x1 x2 y => lcdHLine c pixel x1 x2 y s
  | blitLine pixel x y size => lcdBlitLine c pixel x y size s
  | colorFill sx sy ex ey color => lcdColorFill c sx sy ex ey color s
  | clear color => lcdClear c color s
  | readPoint x y => (lcdReadPoint c x y s).2

/-- The call stays on the screen of the driver's record. -/
def Lcd.OnScreen (s : Lcd) (call : Call) : Prop :=
  call.OnScreen s.lcddev.width.toNat s.lcddev.height.toNat

instance (s : Lcd) (call : Call) : Decidable (s.OnScreen call) :=
  inferInstanceAs (Decidable (call.OnScreen _ _))

theorem Call.draws (hr : Ready c s) {call : Call} (hon : s.OnScreen call)
    (h : ∀ dir, call ≠ .displayDir dir) : Draws c s (call.run c s) call.drawn := by
  cases call with
  | displayDir dir => exact absurd rfl (h dir)
  | fastDrawPoint pixel x y => exact lcdFastDrawPoint_draws hr pixel hon
  | hLine pixel x1 x2 y => exact lcdHLine_draws hr pixel hon
  | blitLine pixel x y size => exact lcdBlitLine_draws hr pixel hon
  | colorFill sx sy ex ey color => exact lcdColorFill_draws hr color hon
  | clear color => exact lcdClear_draws hr color
  | readPoint x y =>
    obtain ⟨hx₀, hx₁, hy₀, hy₁⟩ := hon
    obtain ⟨x, rfl, hx⟩ := exists_word hx₀ hx₁
    obtain ⟨y, rfl, hy⟩ := exists_word hy₀ hy₁
    exact (lcdReadPoint_spec hr hx hy).2

/-! ## Runs -/

/-- The frame buffer that the screen shows. -/
def Lcd.frame (c : Controller) (s : Lcd) : Frame :=
  ⟨s.lcddev.width.toNat, s.lcddev.height.toNat, s.shown c⟩

/-- The screen shows the frame buffer. -/
structure Shows (c : Controller) (s : Lcd) (f : Frame) : Prop where
  ready : Ready c s
  width : f.width = s.lcddev.width.toNat
  height : f.height = s.lcddev.height.toNat
  pixel : ∀ x y, x < f.width → y < f.height → s.shown c x y = f.pixel x y

theorem shows_displayDir (dir : UInt8) (hid : s.lcddev.id = c.kind.id) :
    Shows c (lcdDisplayDir c dir s) ((lcdDisplayDir c dir s).frame c) :=
  ⟨lcdDisplayDir_ready dir hid, rfl, rfl, fun _ _ _ _ => rfl⟩

theorem step_displayDir (dir : UInt8) (hid : s.lcddev.id = c.kind.id) (f : Frame) :
    Frame.Step c.kind f (.displayDir dir) ((lcdDisplayDir c dir s).frame c) := by
  have hdev : (lcdDisplayDir c dir s).lcddev = c.kind.lcddev dir := by
    obtain ⟨reg, nparam, x₀, x₁, y₀, y₁, h⟩ := lcdDisplayDir_eq dir hid
    rw [h]
  rw [Lcd.frame, hdev]
  exact .displayDir f dir _

/-- One call on the screen and on the frame buffer. -/
theorem Shows.step {f : Frame} (hs : Shows c s f) {call : Call} (hon : s.OnScreen call) :
    ∃ f', Frame.Step c.kind f call f' ∧ Shows c (call.run c s) f' := by
  by_cases h : ∃ dir, call = .displayDir dir
  · obtain ⟨dir, rfl⟩ := h
    exact ⟨_, step_displayDir dir hs.ready.id f, shows_displayDir dir hs.ready.id⟩
  · have hd := Call.draws hs.ready hon fun dir hc => h ⟨dir, hc⟩
    refine ⟨_, .draw f fun dir hc => h ⟨dir, hc⟩, hd.ready, ?_, ?_, fun x y hx hy => ?_⟩
    · rw [hd.lcddev]
      exact hs.width
    · rw [hd.lcddev]
      exact hs.height
    · rw [hd.shown x y (hs.width ▸ hx) (hs.height ▸ hy), hs.pixel x y hx hy]
      rfl

/-- **The screen refines the frame buffer.** From `LCD_Display_Dir` on, calls that stay on the
screen and a run of the frame buffer on the same calls go in lockstep: after each call the screen
shows the frame buffer, pixel by pixel. -/
theorem screen_refines_frame (c : Controller) (s : Lcd) (hid : s.lcddev.id = c.kind.id)
    (dir : UInt8) (calls : List Call)
    (hon : Along (Call.run c) Lcd.OnScreen (lcdDisplayDir c dir s) calls) :
    ∃ f, Lockstep (Call.run c) (Frame.Step c.kind) (Shows c) (lcdDisplayDir c dir s)
      ((lcdDisplayDir c dir s).frame c) calls f := by
  refine simulate ?_ (shows_displayDir dir hid) hon
  intro s f call hs hon
  exact hs.step hon

/-- A controller that keeps its memory under a new direction, and has no padding. -/
def plainController (k : ChipKind) : Controller := ⟨k, fun _ gram => gram, fun _ => 0⟩

/-- The driver before the first `LCD_Display_Dir`. -/
def Lcd.blank (k : ChipKind) : Lcd :=
  ⟨⟨0, 0, k.id, 0, 0, 0, 0⟩, ⟨0, 0, ⟨0, 0, 0, 0⟩, ⟨0, 0, 0, 0⟩, 0, (0, 0), fun _ => 0, 0⟩⟩

/-- The mirrored screen of the SSD1963, which is turned after two calls. -/
theorem screen_refines_frame_ssd1963 :
    let c := plainController .ssd1963
    let s := lcdDisplayDir c 0 (.blank .ssd1963)
    let calls := [.hLine 7 3 5 2, .colorFill 3 2 4 3 fun _ => 9, .displayDir 1,
      .fastDrawPoint 5 799 0]
    ∃ f, Lockstep (Call.run c) (Frame.Step .ssd1963) (Shows c) s (s.frame c) calls f :=
  screen_refines_frame (plainController .ssd1963) (.blank .ssd1963) rfl 0
    [.hLine 7 3 5 2, .colorFill 3 2 4 3 fun _ => 9, .displayDir 1, .fastDrawPoint 5 799 0]
    ⟨by decide +kernel, by decide +kernel, by decide +kernel, by decide +kernel, trivial⟩

/-- **Reading back.** After `LCD_Display_Dir` and any calls that stay on the screen,
`LCD_ReadPoint` gives the colour most recently drawn on the pixel, and changes no pixel. -/
theorem lcdReadPoint_lastDrawn (c : Controller) (s : Lcd) (hid : s.lcddev.id = c.kind.id)
    (dir : UInt8) (calls : List Call)
    (hon : Along (Call.run c) Lcd.OnScreen (lcdDisplayDir c dir s) calls) (x y : Int) :
    let t := calls.foldl (Call.run c) (lcdDisplayDir c dir s)
    t.OnScreen (.readPoint x y) →
      (∀ v, lastDrawn x.toNat y.toNat calls = some v → (lcdReadPoint c x y t).1 = v) ∧
      (lcdReadPoint c x y t).2.lcddev = t.lcddev ∧
      ∀ x' y', x' < t.lcddev.width.toNat → y' < t.lcddev.height.toNat →
        (lcdReadPoint c x y t).2.shown c x' y' = t.shown c x' y' := by
  intro t hread
  obtain ⟨f, hrun⟩ := simulate (fun _ _ _ hs hon => hs.step hon) (shows_displayDir dir hid) hon
  have hs := hrun.last
  obtain ⟨hx₀, hx₁, hy₀, hy₁⟩ := hread
  obtain ⟨x, rfl, hx⟩ := exists_word hx₀ hx₁
  obtain ⟨y, rfl, hy⟩ := exists_word hy₀ hy₁
  obtain ⟨hval, hdraws⟩ := lcdReadPoint_spec hs.ready hx hy
  refine ⟨?_, hdraws.lcddev, hdraws.shown⟩
  intro v hv
  rw [hval, hs.pixel x.toNat y.toNat (hs.width ▸ hx) (hs.height ▸ hy)]
  exact pixel_of_lastDrawn hrun.path hv

/-- A pixel under a line and a rectangle. -/
theorem lcdReadPoint_lastDrawn_ssd1963 :
    let c := plainController .ssd1963
    let t := [Call.hLine 7 3 5 2, .colorFill 3 2 4 3 fun _ => 9].foldl (Call.run c)
      (lcdDisplayDir c 0 (.blank .ssd1963))
    (lcdReadPoint c 3 2 t).1 = 9 :=
  (lcdReadPoint_lastDrawn (plainController .ssd1963) (.blank .ssd1963) rfl 0
    [.hLine 7 3 5 2, .colorFill 3 2 4 3 fun _ => 9]
    ⟨by decide +kernel, by decide +kernel, trivial⟩ 3 2 (by decide +kernel)).1 9 rfl

end AtkOnenet
