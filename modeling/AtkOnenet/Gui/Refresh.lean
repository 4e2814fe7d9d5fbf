import AtkOnenet.Gui.Edit
import AtkOnenet.Lcd.Draw
import AtkOnenet.Lib.Retained

/-!
# Refreshing the screen (`lv_core/lv_refr.c`, `lvgl_driver/lv_port_disp.c`)

`lvDispRefrTask` joins the invalid areas, draws the objects on each of them into the draw buffer and
flushes the buffer to the panel with `LCD_Color_Fill`. A tile that does not fit into the memory of
the draw buffer, or a loop that does not end, is `none`.

* `lvDispRefrTask_spec`: a refresh leaves no area invalid. If the screen covers the display, it gives
  the invalid pixels the colours of the objects and changes pixels only to these colours.
-/

namespace AtkOnenet

/-- A display of the GUI with its panel. `vdb` are the words of the draw buffer. -/
structure Gui where
  disp : LvDisp
  inv : LvInv
  scrAct : LvObj
  layerTop : LvObj
  layerSys : LvObj
  vdb : Nat → LvColor
  lcd : Lcd

/-- The draw buffer holds its area row by row. -/
def vdbPic (area : LvArea) (vdb : Nat → LvColor) : Pic :=
  fun p => vdb ((p.2 - area.y1).toNat * area.width.toNat + (p.1 - area.x1).toNat)

/-- The draw buffer behind the drawing of the picture. -/
def vdbWords (area : LvArea) (pic : Pic) (vdb : Nat → LvColor) : Nat → LvColor := fun k =>
  if k < area.count then
    let i := k % area.width.toNat
    let j := k / area.width.toNat
    pic (area.x1 + i, area.y1 + j)
  else vdb k

/-- `disp_flush`. -/
def dispFlush (c : Controller) (area : LvArea) (colorP : Nat → LvColor) (lcd : Lcd) : Lcd :=
  lcdColorFill c (UInt16.ofInt area.x1) (UInt16.ofInt area.y1) (UInt16.ofInt area.x2)
    (UInt16.ofInt area.y2) colorP lcd

/-- The drawing in `lv_refr_area_part`: the active screen from its topmost object on, and the
layers over it. -/
def Gui.drawObjs (g : Gui) (startMask : LvArea) (pic : Pic) : Pic :=
  let topP := lvRefrGetTopObj startMask g.scrAct
  pic |> lvRefrObjAndChildren topP g.scrAct startMask
    |> lvRefrObjAndChildren (some ⟨g.layerTop, []⟩) g.scrAct startMask
    |> lvRefrObjAndChildren (some ⟨g.layerSys, []⟩) g.scrAct startMask

/-- The memory of the draw buffer holds the tile. -/
def Gui.Fits (g : Gui) (area : LvArea) : Prop := area.bytes ≤ g.disp.buffer.buf1.bytes

instance (g : Gui) (area : LvArea) : Decidable (g.Fits area) := inferInstanceAs (Decidable (_ ≤ _))

/-- `lv_refr_area_part`, with `vdbArea` as the area of the draw buffer. -/
def lvRefrAreaPart (c : Controller) (areaP vdbArea : LvArea) (g : Gui) : Option Gui :=
  if g.Fits vdbArea then
    let startMask := (lvAreaIntersect areaP vdbArea).1
    let pic := g.drawObjs startMask (vdbPic vdbArea g.vdb)
    let vdb := vdbWords vdbArea pic g.vdb
    some { g with vdb, lcd := dispFlush c vdbArea vdb g.lcd }
  else none

/-- The body of the loop of `lv_refr_areas`. -/
def lvRefrAreasStep (c : Controller) (g : Gui) (i : Nat) : Option Gui :=
  if g.inv.invAreaJoined i then some g
  else do
    let tiles ← lvRefrArea g.disp (g.inv.invAreas i)
    tiles.foldlM (fun g vdbArea => lvRefrAreaPart c (g.inv.invAreas i) vdbArea g) g

/-- `lv_refr_areas`. -/
def lvRefrAreas (c : Controller) (g : Gui) : Option Gui :=
  (List.range g.inv.invP).foldlM (lvRefrAreasStep c) g

/-- `lv_disp_refr_task`. The port has no `monitor_cb`. -/
def lvDispRefrTask (c : Controller) (g : Gui) : Option Gui := do
  let g := { g with inv := lvRefrJoinArea g.inv }
  let g ← lvRefrAreas c g
  return if g.inv.invP ≠ 0 then { g with inv := LvInv.cleared } else g

namespace Gui

/-- The colour of a pixel of the objects, over any colour before. -/
def scene (g : Gui) (p : Pixel) : LvColor :=
  g.layerSys.paint p (g.layerTop.paint p (g.scrAct.paint p 0))

/-- The colour of a pixel of the panel. -/
def shown (c : Controller) (g : Gui) (p : Pixel) : LvColor := g.lcd.shown c p.1.toNat p.2.toNat

end Gui

variable {c : Controller} {g : Gui} {area : LvArea} {p : Pixel}

/-! ## One area -/

/-- From `s` to `t` the pixels of a set get the colours of a picture, and no other pixel changes. -/
structure Redraws (c : Controller) (pic : Pic) (s t : Lcd) (S : Set Pixel) : Prop where
  ready : Ready c t
  lcddev : t.lcddev = s.lcddev
  inside : ∀ x y : Nat, x < s.lcddev.width.toNat → y < s.lcddev.height.toNat →
    ((x : Int), (y : Int)) ∈ S → t.shown c x y = pic (x, y)
  outside : ∀ x y : Nat, x < s.lcddev.width.toNat → y < s.lcddev.height.toNat →
    ((x : Int), (y : Int)) ∉ S → t.shown c x y = s.shown c x y

section Redraws

variable {pic : Pic} {s t u : Lcd} {S S' : Set Pixel}

theorem Redraws.refl (hr : Ready c s) : Redraws c pic s s ∅ :=
  ⟨hr, rfl, fun _ _ _ _ h => h.elim, fun _ _ _ _ _ => rfl⟩

theorem Redraws.trans (h : Redraws c pic s t S) (h' : Redraws c pic t u S') :
    Redraws c pic s u (S ∪ S') := by
  refine ⟨h'.ready, h'.lcddev.trans h.lcddev, fun x y hx hy hin => ?_, fun x y hx hy hout => ?_⟩
  · by_cases hin' : ((x : Int), (y : Int)) ∈ S'
    · exact h'.inside x y (by rwa [h.lcddev]) (by rwa [h.lcddev]) hin'
    · rw [h'.outside x y (by rwa [h.lcddev]) (by rwa [h.lcddev]) hin']
      exact h.inside x y hx hy (hin.resolve_right hin')
  · rw [h'.outside x y (by rwa [h.lcddev]) (by rwa [h.lcddev]) fun h => hout (.inr h)]
    exact h.outside x y hx hy fun h => hout (.inl h)

/-- The word of a pixel in the draw buffer. -/
theorem vdbWords_apply (pic : Pic) (vdb : Nat → LvColor) {x y : Nat}
    (h : ((x : Int), (y : Int)) ∈ area.pixels) :
    vdbWords area pic vdb ((y - area.y1).toNat * area.width.toNat + (x - area.x1).toNat) =
      pic (x, y) := by
  obtain ⟨⟨hx1, hy1⟩, hx2, hy2⟩ := LvArea.mem_pixels.mp h
  have hw : (x - area.x1).toNat < area.width.toNat := by
    unfold LvArea.width
    omega
  have hh : (y - area.y1).toNat < area.height.toNat := by
    unfold LvArea.height
    omega
  have hlt : (y - area.y1).toNat * area.width.toNat + (x - area.x1).toNat < area.count :=
    calc (y - area.y1).toNat * area.width.toNat + (x - area.x1).toNat
        < ((y - area.y1).toNat + 1) * area.width.toNat := by rw [Nat.succ_mul]; omega
      _ ≤ area.height.toNat * area.width.toNat := Nat.mul_le_mul_right _ hh
      _ = area.count := Nat.mul_comm ..
  have hmod : ((y - area.y1).toNat * area.width.toNat + (x - area.x1).toNat) % area.width.toNat =
      (x - area.x1).toNat := by
    rw [Nat.mul_comm, Nat.mul_add_mod, Nat.mod_eq_of_lt hw]
  have hdiv : ((y - area.y1).toNat * area.width.toNat + (x - area.x1).toNat) / area.width.toNat =
      (y - area.y1).toNat := by
    rw [Nat.mul_comm, Nat.mul_add_div (by omega), Nat.div_eq_of_lt hw, Nat.add_zero]
  rw [vdbWords, if_pos hlt]
  simp only [hmod, hdiv]
  congr 2 <;> omega

/-- Flushing the draw buffer puts its picture on the panel. -/
theorem dispFlush_redraws (hr : Ready c s) (ha : area.Inside s.lcddev) (pic : Pic)
    (vdb : Nat → LvColor) :
    Redraws c pic s (dispFlush c area (vdbWords area pic vdb) s) area.pixels := by
  obtain ⟨hx1, hx, hx2, hy1, hy, hy2⟩ := ha
  obtain ⟨sx, hsx, -⟩ := exists_word hx1 (by omega : area.x1 < s.lcddev.width.toNat)
  obtain ⟨ex, hex, hexw⟩ := exists_word (by omega : 0 ≤ area.x2) hx2
  obtain ⟨sy, hsy, -⟩ := exists_word hy1 (by omega : area.y1 < s.lcddev.height.toNat)
  obtain ⟨ey, hey, heyw⟩ := exists_word (by omega : 0 ≤ area.y2) hy2
  have hon : (Call.colorFill sx sy ex ey (vdbWords area pic vdb)).OnScreen
      s.lcddev.width.toNat s.lcddev.height.toNat :=
    ⟨UInt16.le_iff_toNat_le.mpr (by omega), by omega, UInt16.le_iff_toNat_le.mpr (by omega),
      by omega⟩
  have hd := lcdColorFill_draws hr (vdbWords area pic vdb) hon
  have hflush : dispFlush c area (vdbWords area pic vdb) s =
      lcdColorFill c sx sy ex ey (vdbWords area pic vdb) s := by
    rw [dispFlush, hsx, hsy, hex, hey, Word.ofInt_word, Word.ofInt_word, Word.ofInt_word,
      Word.ofInt_word]
  rw [hflush]
  refine ⟨hd.ready, hd.lcddev, fun x y hxw hyw hin => ?_, fun x y hxw hyw hout => ?_⟩
  · obtain ⟨⟨h1, h2⟩, h3, h4⟩ := LvArea.mem_pixels.mp hin
    simp only at h1 h2 h3 h4
    rw [hd.shown x y hxw hyw, Call.drawn, if_pos (by omega), Option.getD_some]
    have hidx : (y - sy.toNat) * (ex.toNat - sx.toNat + 1) + (x - sx.toNat) =
        ((y : Int) - area.y1).toNat * area.width.toNat + ((x : Int) - area.x1).toNat := by
      have hw : area.width.toNat = ex.toNat - sx.toNat + 1 := by
        unfold LvArea.width
        omega
      have hrow : ((y : Int) - area.y1).toNat = y - sy.toNat := by omega
      have hcol : ((x : Int) - area.x1).toNat = x - sx.toNat := by omega
      rw [hw, hrow, hcol]
    rw [hidx, vdbWords_apply pic vdb hin]
  · rw [hd.shown x y hxw hyw, Call.drawn, if_neg, Option.getD_none]
    rintro ⟨h1, h3, h2, h4⟩
    exact hout (LvArea.mem_pixels.mpr ⟨⟨by simp only; omega, by simp only; omega⟩,
      by simp only; omega, by simp only; omega⟩)

end Redraws

/-- A screen that covers the display. -/
structure Solid (disp : LvDisp) (scr : LvObj) : Prop where
  hidden : scr.attr.hidden = false
  isIn : lvAreaIsIn disp.scrArea scr.attr.coords = true
  covers : scr.attr.covers disp.scrArea = true

theorem Solid.top {disp : LvDisp} {scr : LvObj} (h : Solid disp scr) :
    (lvRefrGetTopObj disp.scrArea scr).isSome := by
  obtain ⟨hhid, hin, hcov⟩ := h
  cases scr with
  | mk attr childLl =>
    have hin' : (lvAreaIsIn disp.scrArea attr.coords && !attr.hidden) = true := by
      rw [Bool.and_eq_true, Bool.not_eq_true']
      exact ⟨hin, hhid⟩
    rw [lvRefrGetTopObj, if_pos hin']
    split
    · rfl
    · rw [if_pos (show attr.covers disp.scrArea = true from hcov)]
      rfl

/-- The screen covers the display, and its objects answer the check for a covered mask rightly. -/
structure Gui.Covered (g : Gui) : Prop where
  solid : Solid g.disp g.scrAct
  right : g.scrAct.All LvDesign.CoverRight

/-- The display can be refreshed. -/
structure Gui.Drawable (c : Controller) (g : Gui) : Prop where
  ready : Ready c g.lcd
  disp : g.disp = lvPortDispInit g.lcd.lcddev

/-- From `g` to `g'` the objects were drawn on a set of pixels and flushed. -/
structure Flushes (c : Controller) (g g' : Gui) (S : Set Pixel) : Prop where
  same : g' = { g with vdb := g'.vdb, lcd := g'.lcd }
  ready : Ready c g'.lcd
  lcddev : g'.lcd.lcddev = g.lcd.lcddev
  redraws : g.Covered → Redraws c g.scene g.lcd g'.lcd S

theorem Flushes.refl (hr : Ready c g.lcd) : Flushes c g g ∅ := ⟨rfl, hr, rfl, fun _ => .refl hr⟩

theorem Flushes.covered {g' : Gui} {S : Set Pixel} (h : Flushes c g g' S) (hg : g.Covered) :
    g'.Covered := by
  rw [h.same]
  exact ⟨hg.solid, hg.right⟩

theorem Flushes.trans {g' g'' : Gui} {S S' : Set Pixel} (h : Flushes c g g' S)
    (h' : Flushes c g' g'' S') : Flushes c g g'' (S ∪ S') := by
  have hscene : g'.scene = g.scene := by rw [h.same]; rfl
  refine ⟨by rw [h'.same, h.same], h'.ready, h'.lcddev.trans h.lcddev, fun hg => ?_⟩
  have hredraws := h'.redraws (h.covered hg)
  rw [hscene] at hredraws
  exact (h.redraws hg).trans hredraws

theorem Flushes.drawable {g' : Gui} {S : Set Pixel} (h : Flushes c g g' S) (hg : g.Drawable c) :
    g'.Drawable c := by
  have hdisp : g'.disp = g.disp := by rw [h.same]
  refine ⟨h.ready, ?_⟩
  rw [hdisp, h.lcddev]
  exact hg.disp

theorem Gui.Drawable.inside (hg : g.Drawable c) (ha : g.disp.Holds area) :
    area.Inside g.lcd.lcddev := by
  obtain ⟨⟨h1, h2⟩, h⟩ := ha
  obtain ⟨⟨h3, h4⟩, h5, h6⟩ := LvArea.isIn_iff.mp h
  rw [hg.disp] at h3 h4 h5 h6
  simp only [LvDisp.scrArea, lvPortDispInit] at h3 h4 h5 h6
  exact ⟨h3, h1, by omega, h4, h2, by omega⟩

/-- The picture that an area is flushed with. -/
theorem drawObjs_apply (hg : g.Covered) (ha : g.disp.Holds area) (pic : Pic)
    (hp : p ∈ area.pixels) : g.drawObjs area pic p = g.scene p := by
  have hlayer (layer : LvObj) (v : LvColor) :
      ((some (⟨layer, []⟩ : LvPlace)).getD ⟨g.scrAct, []⟩).paint p v = layer.paint p v := rfl
  simp only [Gui.drawObjs]
  rw [lvRefrObjAndChildren_apply, if_pos hp, lvRefrObjAndChildren_apply, if_pos hp,
    lvRefrObjAndChildren_apply, if_pos hp, hlayer, hlayer, topPlace_paint hg.right hp, Gui.scene,
    paint_congr_of_top hg.right hg.solid.top (ha.mem hp) (pic p) 0]

/-- Drawing and flushing an area as one tile. -/
theorem lvRefrAreaPart_spec (hg : g.Drawable c) (ha : g.disp.Holds area) :
    (g.Fits area → ∃ g', lvRefrAreaPart c area area g = some g' ∧ Flushes c g g' area.pixels) ∧
      (¬ g.Fits area → lvRefrAreaPart c area area g = none) := by
  refine ⟨fun hfits => ?_, fun hfits => if_neg hfits⟩
  have hmask : (lvAreaIntersect area area).1 = area := by simp [lvAreaIntersect]
  let pic := g.drawObjs area (vdbPic area g.vdb)
  let vdb := vdbWords area pic g.vdb
  have hflush := dispFlush_redraws hg.ready (hg.inside ha) pic g.vdb
  refine ⟨{ g with vdb, lcd := dispFlush c area vdb g.lcd }, ?_, rfl, hflush.ready, hflush.lcddev, ?_⟩
  · rw [lvRefrAreaPart, if_pos hfits, hmask]
  · intro hcovered
    refine ⟨hflush.ready, hflush.lcddev, fun x y hx hy hin => ?_, hflush.outside⟩
    rw [← drawObjs_apply hcovered ha _ hin]
    exact hflush.inside x y hx hy hin

/-! ## All areas -/

theorem ChipKind.lcddev_pixels (k : ChipKind) (dir : UInt8) :
    (k.lcddev dir).width.toNat * (k.lcddev dir).height.toNat ≤ 800 * 480 := by
  have hsides : k.sides.1.toNat * k.sides.2.toNat ≤ 800 * 480 := by cases k <;> decide
  rw [lcddev]
  split
  · exact hsides
  · rwa [Nat.mul_comm] at hsides

/-- An area that fits on the panel is one tile. -/
theorem Gui.Drawable.tiles (hg : g.Drawable c) (ha : g.disp.Holds area) :
    lvRefrArea g.disp area = some [area] := by
  obtain ⟨h1, h2, h3, h4, h5, h6⟩ := hg.inside ha
  have hpanel : g.lcd.lcddev.width.toNat * g.lcd.lcddev.height.toNat ≤ 800 * 480 := by
    rw [hg.ready.dev]
    exact c.kind.lcddev_pixels _
  have hw : area.width.toNat ≤ g.lcd.lcddev.width.toNat := by
    unfold LvArea.width
    omega
  have hh : area.height.toNat ≤ g.lcd.lcddev.height.toNat := by
    unfold LvArea.height
    omega
  have hsize : area.width * area.height ≤ 800 * 480 :=
    calc area.width * area.height = area.width.toNat * area.height.toNat := by
          rw [Int.toNat_of_nonneg (by unfold LvArea.width; omega),
            Int.toNat_of_nonneg (by unfold LvArea.height; omega)]
      _ = ((area.width.toNat * area.height.toNat : Nat) : Int) := (Int.natCast_mul _ _).symm
      _ ≤ 800 * 480 := Int.ofNat_le.mpr ((Nat.mul_le_mul hw hh).trans hpanel)
  rw [hg.disp]
  refine lvRefrArea_whole rfl ?_ ?_ h6 hsize
  · unfold LvArea.width
    omega
  · unfold LvArea.height
    omega

/-- The areas of a list of indices fit into the memory. -/
def Gui.AllFit (g : Gui) (is : List Nat) : Prop :=
  ∀ i ∈ is, g.inv.invAreaJoined i = false → g.Fits (g.inv.invAreas i)

/-- The pixels of the areas of a list of indices. -/
def LvInv.pixels (inv : LvInv) (is : List Nat) : Set Pixel :=
  { p | ∃ i ∈ is, inv.invAreaJoined i = false ∧ p ∈ (inv.invAreas i).pixels }

theorem lvRefrAreasStep_spec (hg : g.Drawable c) {i : Nat} (ha : g.disp.Holds (g.inv.invAreas i)) :
    (g.AllFit [i] → ∃ g', lvRefrAreasStep c g i = some g' ∧ Flushes c g g' (g.inv.pixels [i])) ∧
      (¬ g.AllFit [i] → lvRefrAreasStep c g i = none) := by
  have hfit : g.AllFit [i] ↔ (g.inv.invAreaJoined i = false → g.Fits (g.inv.invAreas i)) :=
    List.forall_mem_singleton
  have hset : g.inv.pixels [i] =
      { p | g.inv.invAreaJoined i = false ∧ p ∈ (g.inv.invAreas i).pixels } := by
    simp only [LvInv.pixels, List.mem_singleton, exists_eq_left]
  rw [hfit, hset]
  cases hj : g.inv.invAreaJoined i with
  | true =>
    refine ⟨fun _ => ⟨g, by rw [lvRefrAreasStep, if_pos hj], ?_⟩, fun h => absurd ?_ h⟩
    · convert Flushes.refl hg.ready using 1
      simp
    · intro h
      cases h
  | false =>
    obtain ⟨hsome, hnone⟩ := lvRefrAreaPart_spec hg ha
    have hstep : lvRefrAreasStep c g i =
        lvRefrAreaPart c (g.inv.invAreas i) (g.inv.invAreas i) g := by
      rw [lvRefrAreasStep, hj, if_neg Bool.false_ne_true, hg.tiles ha]
      exact Option.bind_fun_some _
    rw [hstep]
    simp only [true_imp_iff, true_and]
    exact ⟨hsome, hnone⟩

theorem Gui.allFit_cons {i : Nat} {is : List Nat} :
    g.AllFit (i :: is) ↔ g.AllFit [i] ∧ g.AllFit is := by
  rw [AllFit, AllFit, AllFit, List.forall_mem_cons, List.forall_mem_singleton]

theorem LvInv.pixels_cons (inv : LvInv) (i : Nat) (is : List Nat) :
    inv.pixels (i :: is) = inv.pixels [i] ∪ inv.pixels is := by
  ext p
  simp only [pixels, List.mem_cons, List.not_mem_nil, or_false, Set.mem_union, Set.mem_ofPred_eq,
    or_and_right, exists_or]

/-- The loop of `lv_refr_areas`. -/
theorem foldlM_areas (is : List Nat) (hg : g.Drawable c)
    (hs : ∀ i ∈ is, g.disp.Holds (g.inv.invAreas i)) :
    (g.AllFit is → ∃ g', is.foldlM (lvRefrAreasStep c) g = some g' ∧
      Flushes c g g' (g.inv.pixels is)) ∧
      (¬ g.AllFit is → is.foldlM (lvRefrAreasStep c) g = none) := by
  induction is generalizing g with
  | nil =>
    refine ⟨fun _ => ⟨g, rfl, ?_⟩, fun h => absurd (fun i hi => absurd hi List.not_mem_nil) h⟩
    have hnone : g.inv.pixels [] = ∅ := by simp [LvInv.pixels]
    rw [hnone]
    exact .refl hg.ready
  | cons i is ih =>
    rw [List.forall_mem_cons] at hs
    obtain ⟨hsome, hnone⟩ := lvRefrAreasStep_spec hg hs.1
    rw [Gui.allFit_cons, LvInv.pixels_cons, List.foldlM_cons]
    by_cases hfit : g.AllFit [i]
    · obtain ⟨g₁, hstep, hflush⟩ := hsome hfit
      have hinv : g₁.inv = g.inv := by rw [hflush.same]
      have hdisp : g₁.disp = g.disp := by rw [hflush.same]
      have hfits : g₁.AllFit is ↔ g.AllFit is := by
        unfold Gui.AllFit Gui.Fits
        rw [hinv, hdisp]
      have hrest := ih (hflush.drawable hg) (by rw [hdisp, hinv]; exact hs.2)
      rw [hfits, hinv] at hrest
      rw [hstep]
      refine ⟨fun h => ?_, fun h => hrest.2 fun h' => h ⟨hfit, h'⟩⟩
      obtain ⟨g', hrun, hflush'⟩ := hrest.1 h.2
      exact ⟨g', hrun, hflush.trans hflush'⟩
    · rw [hnone hfit]
      exact ⟨fun h => absurd h.1 hfit, fun _ => rfl⟩

/-- The display between two refreshes. -/
structure Gui.Ok (c : Controller) (g : Gui) : Prop where
  drawable : g.Drawable c
  inv : g.inv.Ok g.disp

/-- The joined areas of a refresh fit into the memory of the draw buffer. -/
def Gui.JoinedFit (g : Gui) : Prop :=
  let inv := lvRefrJoinArea g.inv
  ∀ i < inv.invP, inv.invAreaJoined i = false → g.Fits (inv.invAreas i)

theorem Gui.Ok.joins (hg : g.Ok c) : Joins g.disp g.inv (lvRefrJoinArea g.inv) := by
  obtain ⟨hw, hh⟩ := c.kind.lcddev_le g.lcd.lcddev.dir
  rw [← hg.drawable.ready.dev] at hw hh
  have hw' : g.lcd.lcddev.width.toNat ≤ 800 := hw
  have hh' : g.lcd.lcddev.height.toNat ≤ 800 := hh
  refine lvRefrJoinArea_joins ?_ ?_ hg.inv.holds
  · rw [hg.drawable.disp]
    simp only [lvPortDispInit]
    omega
  · rw [hg.drawable.disp]
    simp only [lvPortDispInit]
    omega

/-- **Refresh.** With areas that fit, the refresh ends, and no area stays invalid. If the screen covers
the display, every invalid pixel of it gets the colour of the objects, and the other pixels keep theirs
or get it too. -/
theorem lvDispRefrTask_spec (hg : g.Ok c) :
    (g.JoinedFit → ∃ g', lvDispRefrTask c g = some g' ∧ g'.Ok c ∧ g'.scene = g.scene ∧
      g'.scrAct = g.scrAct ∧ (∀ p, p ∉ g'.inv.pending) ∧ g'.lcd.lcddev = g.lcd.lcddev ∧
      (g.Covered → Redraws c g.scene g.lcd g'.lcd (lvRefrJoinArea g.inv).pending)) ∧
      (¬ g.JoinedFit → lvDispRefrTask c g = none) := by
  let g₀ : Gui := { g with inv := lvRefrJoinArea g.inv }
  have hjoins := hg.joins
  have hg₀ : g₀.Drawable c := ⟨hg.drawable.ready, hg.drawable.disp⟩
  have hfits : g₀.AllFit (List.range g₀.inv.invP) ↔ g.JoinedFit := by
    unfold Gui.AllFit Gui.JoinedFit
    simp only [List.mem_range]
    exact Iff.rfl
  have hpixels : g₀.inv.pixels (List.range g₀.inv.invP) = (lvRefrJoinArea g.inv).pending := by
    unfold LvInv.pixels LvInv.pending
    simp only [List.mem_range]
    rfl
  obtain ⟨hsome, hnone⟩ := foldlM_areas (List.range g₀.inv.invP) hg₀ fun i hi =>
    hjoins.holds i (List.mem_range.mp hi)
  rw [hfits] at hsome hnone
  rw [hpixels] at hsome
  refine ⟨fun hfit => ?_, fun hfit => ?_⟩
  · obtain ⟨g₁, hrun, hflush⟩ := hsome hfit
    have hinv : g₁.inv = lvRefrJoinArea g.inv := by rw [hflush.same]
    let inv' := if g₁.inv.invP ≠ 0 then LvInv.cleared else g₁.inv
    have htask : lvDispRefrTask c g = some { g₁ with inv := inv' } := by
      have hunfold : lvDispRefrTask c g = (lvRefrAreas c g₀).bind fun g =>
        some (if g.inv.invP ≠ 0 then { g with inv := LvInv.cleared } else g) := rfl
      rw [hunfold, lvRefrAreas, hrun, Option.bind_some]
      simp only [inv']
      split <;> rfl
    have hok : inv'.Ok g₁.disp ∧ ∀ p, p ∉ inv'.pending := by
      simp only [inv']
      split
      · exact ⟨LvInv.cleared_ok, fun p => LvInv.not_mem_cleared⟩
      · rename_i hp
        rw [not_not] at hp
        have hzero : g.inv.invP = 0 := by rw [← hjoins.invP, ← hinv, hp]
        have hsame : g₁.inv = g.inv := by
          rw [hinv, lvRefrJoinArea, hzero]
          rfl
        have hdisp : g₁.disp = g.disp := by rw [hflush.same]
        rw [hsame, hdisp]
        refine ⟨hg.inv, ?_⟩
        rintro p ⟨i, hi, -⟩
        omega
    obtain ⟨hready, hdisp⟩ := hflush.drawable hg₀
    refine ⟨_, htask, ⟨⟨hready, hdisp⟩, hok.1⟩, ?_, ?_, hok.2, hflush.lcddev, fun h => ?_⟩
    · rw [hflush.same]
      rfl
    · rw [hflush.same]
    · exact hflush.redraws ⟨h.solid, h.right⟩
  · have hunfold : lvDispRefrTask c g = (lvRefrAreas c g₀).bind fun g =>
      some (if g.inv.invP ≠ 0 then { g with inv := LvInv.cleared } else g) := rfl
    rw [hunfold, lvRefrAreas, hnone hfit]
    rfl

/-- What a refresh that ends has done. -/
theorem lvDispRefrTask_run {g' : Gui} (hg : g.Ok c) (h : lvDispRefrTask c g = some g') :
    g.JoinedFit ∧ g'.Ok c ∧ g'.scene = g.scene ∧ g'.scrAct = g.scrAct ∧
      (∀ p, p ∉ g'.inv.pending) ∧ g'.lcd.lcddev = g.lcd.lcddev ∧
      (g.Covered → Redraws c g.scene g.lcd g'.lcd (lvRefrJoinArea g.inv).pending) := by
  obtain ⟨hsome, hnone⟩ := lvDispRefrTask_spec hg
  by_cases hfit : g.JoinedFit
  · obtain ⟨g₁, htask, hrest⟩ := hsome hfit
    obtain rfl : g₁ = g' := Option.some_inj.mp (htask.symm.trans h)
    exact ⟨hfit, hrest⟩
  · rw [hnone hfit] at h
    cases h

end AtkOnenet
