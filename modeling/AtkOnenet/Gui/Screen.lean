import AtkOnenet.Gui.Refresh
import AtkOnenet.Lcd.Refine

/-!
# The GUI on the panel

Runs of the GUI from `lv_disp_drv_register` on: objects are created, moved, hidden and deleted in
any order, areas are invalidated, and the screen is refreshed. The GUI with its panel is a retained
picture (`Gui.step_refines`), so a refresh leaves the panel showing the objects.

* `refresh_shows`: in every run the panel shows the objects wherever no area is invalid, and
  everywhere behind a refresh, if the screen covers the display and its objects answer the check for a
  covered mask rightly.
* `runs_complete_iff`: no run overflows the draw buffer exactly on the panels of up to 192000 pixels.
-/

namespace AtkOnenet

open Retained

/-- The trees of objects on a display. -/
inductive LvLayer where
  | act
  | top
  | sys

/-- What happens to the GUI. An object below a root is named by the path `i :: path`. -/
inductive GuiOp where
  | edit (layer : LvLayer) (i : Nat) (path : List Nat) (edit : LvEdit)
  | create (layer : LvLayer) (path : List Nat) (design : LvDesign)
  | invalidate (area : LvArea)
  | refresh

/-- A new object on the screen answers the check for a covered mask rightly. -/
def GuiOp.Right : GuiOp → Prop
  | .edit layer _ _ e => layer = .act → e.All LvDesign.CoverRight
  | .create layer _ design => layer = .act → design.CoverRight
  | _ => True

namespace Gui

def root (g : Gui) : LvLayer → LvObj
  | .act => g.scrAct
  | .top => g.layerTop
  | .sys => g.layerSys

def setRoot (g : Gui) (obj : LvObj) : LvLayer → Gui
  | .act => { g with scrAct := obj }
  | .top => { g with layerTop := obj }
  | .sys => { g with layerSys := obj }

def edit (g : Gui) (layer : LvLayer) (path : List Nat) (edit : LvEdit) : Gui :=
  let (obj, inv) := edit.run g.disp (g.root layer) path g.inv
  { g.setRoot obj layer with inv }

def step (c : Controller) (g : Gui) : GuiOp → Option Gui
  | .edit layer i path edit => some (g.edit layer (i :: path) edit)
  | .create layer path design => some (g.edit layer path (.create design))
  | .invalidate area => some { g with inv := lvInvArea g.disp (some area) g.inv }
  | .refresh => lvDispRefrTask c g

end Gui

/-- `lv_disp_drv_register`: an empty screen and two empty layers, with the designs of their styles.
The screen is invalid. -/
def lvDispDrvRegister (lcd : Lcd) (vdb : Nat → LvColor) (scr transp : LvDesign) : Gui :=
  let disp := lvPortDispInit lcd.lcddev
  let scrAct : LvObj := .mk ⟨disp.scrArea, 0, false, scr⟩ []
  let layer : LvObj := .mk ⟨disp.scrArea, 0, false, transp⟩ []
  ⟨disp, lvObjInvalidate disp scrAct [] LvInv.cleared, scrAct, layer, layer, vdb, lcd⟩

variable {c : Controller} {g g' : Gui} {p : Pixel}

/-! ## A retained picture -/

/-- The GUI and its panel as a retained picture. -/
def Gui.view (c : Controller) (g : Gui) : View Pixel LvColor := ⟨g.scene, g.shown c, g.inv.pending⟩

/-- The pixels of the screen. -/
def Gui.screen (g : Gui) : Set Pixel := g.disp.scrArea.pixels

theorem Gui.edit_scene (h : g.inv.Ok g.disp) (layer : LvLayer) (path : List Nat) (e : LvEdit)
    (hp : p ∈ g.screen) (hout : p ∉ (g.edit layer path e).inv.pending) :
    (g.edit layer path e).scene p = g.scene p := by
  have hpaint := (e.run_marks h (g.root layer) path).paint p hp hout
  cases layer
  case act => exact congrArg _ (congrArg _ (hpaint 0))
  case top => exact congrArg _ (hpaint _)
  case sys => exact hpaint _

theorem Gui.edit_ok (hg : g.Ok c) (layer : LvLayer) (path : List Nat) (e : LvEdit) :
    (g.edit layer path e).Ok c ∧ (g.edit layer path e).disp = g.disp := by
  obtain ⟨⟨hready, hdisp⟩, hinv⟩ := hg
  have hmarks := (e.run_marks hinv (g.root layer) path).grows.ok
  cases layer
  case act => exact ⟨⟨⟨hready, hdisp⟩, hmarks⟩, rfl⟩
  case top => exact ⟨⟨⟨hready, hdisp⟩, hmarks⟩, rfl⟩
  case sys => exact ⟨⟨⟨hready, hdisp⟩, hmarks⟩, rfl⟩

theorem Gui.edit_covered (hg : g.Covered) (layer : LvLayer) (path : List Nat) (e : LvEdit)
    (hattr : (e.run g.disp (g.root layer) path g.inv).1.attr = (g.root layer).attr)
    (he : layer = .act → e.All LvDesign.CoverRight) : (g.edit layer path e).Covered := by
  cases layer
  case act =>
    obtain ⟨⟨hhid, hin, hcov⟩, hright⟩ := hg
    have hattr' : (g.edit .act path e).scrAct.attr = g.scrAct.attr := hattr
    refine ⟨⟨?_, ?_, ?_⟩, LvEdit.run_all hright (he rfl) path⟩
    · rw [hattr']
      exact hhid
    · rw [hattr']
      exact hin
    · rw [hattr']
      exact hcov
  case top => exact ⟨hg.solid, hg.right⟩
  case sys => exact ⟨hg.solid, hg.right⟩

theorem Gui.edit_refines (hg : g.Ok c) (layer : LvLayer) (path : List Nat) (e : LvEdit) :
    Retained.Step g.screen (g.view c) ((g.edit layer path e).view c) := by
  have hmarks := (e.run_marks hg.inv (g.root layer) path).grows
  have hshown : (g.edit layer path e).shown c = g.shown c := by cases layer <;> rfl
  rw [Gui.view, Gui.view, hshown]
  exact .change (v := ⟨g.scene, g.shown c, g.inv.pending⟩) _ _ hmarks.pending
    fun p hp hout => Gui.edit_scene hg.inv layer path e hp hout

/-- A pixel of the screen is a pixel of the panel. -/
theorem Gui.Drawable.panel (hg : g.Drawable c) (hp : p ∈ g.screen) :
    p.1.toNat < g.lcd.lcddev.width.toNat ∧ p.2.toNat < g.lcd.lcddev.height.toNat ∧
      ((p.1.toNat : Int), (p.2.toNat : Int)) = p := by
  obtain ⟨⟨h1, h2⟩, h3, h4⟩ := LvArea.mem_pixels.mp hp
  rw [hg.disp] at h1 h2 h3 h4
  simp only [LvDisp.scrArea, lvPortDispInit] at h1 h2 h3 h4
  refine ⟨by omega, by omega, ?_⟩
  ext
  · exact Int.toNat_of_nonneg h1
  · exact Int.toNat_of_nonneg h2

/-- A step of the GUI keeps the display in order. -/
theorem Gui.step_ok (hg : g.Ok c) (op : GuiOp) (h : g.step c op = some g') :
    g'.Ok c ∧ g'.disp = g.disp := by
  cases op with
  | edit layer i path e =>
    obtain rfl := Option.some_inj.mp h
    exact g.edit_ok hg layer (i :: path) e
  | create layer path design =>
    obtain rfl := Option.some_inj.mp h
    exact g.edit_ok hg layer path (.create design)
  | invalidate area =>
    obtain rfl := Option.some_inj.mp h
    exact ⟨⟨⟨hg.drawable.ready, hg.drawable.disp⟩, lvInvArea_ok hg.inv area⟩, rfl⟩
  | refresh =>
    obtain ⟨-, hok, -, -, -, hdev, -⟩ := lvDispRefrTask_run hg h
    refine ⟨hok, ?_⟩
    rw [hok.drawable.disp, hg.drawable.disp, hdev]

theorem Gui.refresh_refines (hg : g.Ok c) (hcov : g.Covered) (h : lvDispRefrTask c g = some g') :
    g'.scene = g.scene ∧ (∀ p, p ∉ g'.inv.pending) ∧
      Retained.Step g.screen (g.view c) (g'.view c) := by
  obtain ⟨-, -, hscene, -, hclean, -, hredraws⟩ := lvDispRefrTask_run hg h
  have hdirty : g'.inv.pending = ∅ := Set.eq_empty_iff_forall_notMem.mpr hclean
  refine ⟨hscene, hclean, ?_⟩
  rw [Gui.view, Gui.view, hscene, hdirty]
  refine .refresh (v := ⟨g.scene, g.shown c, g.inv.pending⟩) _
    (lvRefrJoinArea g.inv).pending (fun p _ hp => hg.joins.pending hp)
    (fun p hp hin => ?_) fun p hp hout => ?_
  · obtain ⟨hx, hy, heq⟩ := hg.drawable.panel hp
    have := (hredraws hcov).inside p.1.toNat p.2.toNat hx hy (by rwa [heq])
    rwa [heq] at this
  · obtain ⟨hx, hy, heq⟩ := hg.drawable.panel hp
    exact (hredraws hcov).outside p.1.toNat p.2.toNat hx hy (by rwa [heq])

/-- Each step of the GUI is a step of the retained picture. -/
theorem Gui.step_refines (hg : g.Ok c) (hcov : g.Covered) {op : GuiOp} (hop : op.Right)
    (h : g.step c op = some g') :
    g'.Covered ∧ Retained.Step g.screen (g.view c) (g'.view c) := by
  cases op with
  | edit layer i path e =>
    obtain rfl := Option.some_inj.mp h
    exact ⟨g.edit_covered hcov layer (i :: path) e (e.run_attr _ _ _) hop,
      g.edit_refines hg layer (i :: path) e⟩
  | create layer path design =>
    obtain rfl := Option.some_inj.mp h
    exact ⟨g.edit_covered hcov layer path (.create design) (LvEdit.create_attr _ _ _) hop,
      g.edit_refines hg layer path (.create design)⟩
  | invalidate area =>
    obtain rfl := Option.some_inj.mp h
    refine ⟨⟨hcov.solid, hcov.right⟩, ?_⟩
    exact .change (v := ⟨g.scene, g.shown c, g.inv.pending⟩) _ _
      (fun p hp hpend => mem_lvInvArea hg.inv hp (.inl hpend)) fun _ _ _ => rfl
  | refresh =>
    obtain ⟨-, hok, -, hscr, -, hdev, -⟩ := lvDispRefrTask_run hg h
    obtain ⟨-, hdisp⟩ := g.step_ok hg .refresh h
    refine ⟨⟨?_, ?_⟩, (Gui.refresh_refines hg hcov h).2.2⟩
    · rw [hdisp, hscr]
      exact hcov.solid
    · rw [hscr]
      exact hcov.right

/-- A run of the GUI is a run of the retained picture. -/
theorem Gui.run_refines {ops : List GuiOp} (hg : g.Ok c) (hcov : g.Covered)
    (hops : ∀ op ∈ ops, op.Right) (h : ops.foldlM (Gui.step c) g = some g') :
    g'.Ok c ∧ g'.Covered ∧ g'.disp = g.disp ∧
      Relation.ReflTransGen (Retained.Step g.screen) (g.view c) (g'.view c) := by
  induction ops generalizing g with
  | nil =>
    obtain rfl := Option.some_inj.mp h
    exact ⟨hg, hcov, rfl, .refl⟩
  | cons op ops ih =>
    rw [List.foldlM_cons] at h
    rw [List.forall_mem_cons] at hops
    obtain ⟨g₁, hstep, hrun⟩ := Option.bind_eq_some_iff.mp h
    obtain ⟨hok, hdisp⟩ := Gui.step_ok hg op hstep
    obtain ⟨hcov₁, hretained⟩ := Gui.step_refines hg hcov hops.1 hstep
    obtain ⟨hok', hcov', hdisp', hrest⟩ := ih hok hcov₁ hops.2 hrun
    have hscreen : g₁.screen = g.screen := by rw [Gui.screen, hdisp, Gui.screen]
    rw [hscreen] at hrest
    exact ⟨hok', hcov', hdisp'.trans hdisp, .head hretained hrest⟩

/-! ## Runs from the registration of the display -/

section Runs

variable {lcd : Lcd} (hr : Ready c lcd) (vdb : Nat → LvColor) {scr : LvDesign} (transp : LvDesign)

/-- The one invalid area behind the registration. -/
theorem register_inv (hr : Ready c lcd) (scr transp : LvDesign) :
    let g := lvDispDrvRegister lcd vdb scr transp
    g.inv.Ok g.disp ∧ g.inv.invP = 1 ∧ g.inv.invAreas 0 = g.disp.scrArea := by
  intro g
  let a := g.disp.scrArea
  have hpos : 0 < lcd.lcddev.width.toNat ∧ 0 < lcd.lcddev.height.toNat := by
    rw [hr.dev]
    exact c.kind.lcddev_pos _
  have hinv : g.inv = lvInvArea g.disp (some (a.grow 0)) LvInv.cleared := rfl
  have hgrow : a.grow 0 = a := by simp [LvArea.grow]
  have hself : (lvAreaIntersect a a).1 = a := by simp [lvAreaIntersect]
  have hok : (lvAreaIntersect a a).2 = true := by
    rw [LvArea.intersect_ok, hself]
    simp only [a, g, LvArea.Nonempty, lvDispDrvRegister, LvDisp.scrArea, lvPortDispInit]
    omega
  rw [hinv, hgrow]
  refine ⟨lvInvArea_ok LvInv.cleared_ok a, ?_⟩
  obtain ⟨hbad, -⟩ | ⟨i, hi, -⟩ | ⟨-, -, hareas, -, hinvP⟩ | ⟨-, hfull, -⟩ :=
    lvInvArea_cases g.disp a LvInv.cleared
  · rw [hok] at hbad
    cases hbad
  · exact absurd hi (Nat.not_lt_zero _)
  · have hfirst : Function.update LvInv.cleared.invAreas LvInv.cleared.invP
        (lvAreaIntersect a a).1 0 = a := by
      rw [hself]
      exact Function.update_self ..
    exact ⟨hinvP, by rw [hareas]; exact hfirst⟩
  · cases hfull

theorem register_ok (hr : Ready c lcd) (scr transp : LvDesign) :
    (lvDispDrvRegister lcd vdb scr transp).Ok c :=
  ⟨⟨hr, rfl⟩, (register_inv vdb hr scr transp).1⟩

/-- The check for a covered mask tells that the screen covers the display. -/
def ScreenCovers (lcd : Lcd) (scr : LvDesign) : Prop :=
  (LvAttr.mk (lvPortDispInit lcd.lcddev).scrArea 0 false scr).covers
    (lvPortDispInit lcd.lcddev).scrArea = true

theorem register_covered (hcov : ScreenCovers lcd scr) (hscr : scr.CoverRight) :
    (lvDispDrvRegister lcd vdb scr transp).Covered := by
  have hin : lvAreaIsIn (lvPortDispInit lcd.lcddev).scrArea (lvPortDispInit lcd.lcddev).scrArea :=
    LvArea.isIn_iff.mpr ⟨⟨Int.le_refl _, Int.le_refl _⟩, Int.le_refl _, Int.le_refl _⟩
  exact ⟨⟨rfl, hin, hcov⟩, hscr, trivial⟩

/-- Behind the registration the whole screen is invalid. -/
theorem register_dirty (hr : Ready c lcd) (scr transp : LvDesign) :
    UpToDate (lvDispDrvRegister lcd vdb scr transp).screen
      ((lvDispDrvRegister lcd vdb scr transp).view c) := by
  obtain ⟨hok, hinvP, harea⟩ := register_inv vdb hr scr transp
  refine upToDate_of_dirty fun p hp => ?_
  refine ⟨0, by rw [hinvP]; decide, hok.joined 0, ?_⟩
  rw [harea]
  exact hp

/-- An area on a panel of up to 192000 pixels fits into the memory of the draw buffer. -/
theorem Gui.Ok.joinedFit (hg : g.Ok c)
    (hsmall : g.lcd.lcddev.width.toNat * g.lcd.lcddev.height.toNat ≤ 192000) : g.JoinedFit := by
  intro i hi _
  obtain ⟨h1, h2, h3, h4, h5, h6⟩ := hg.drawable.inside (hg.joins.holds i hi)
  generalize (lvRefrJoinArea g.inv).invAreas i = a at *
  have hw : a.width.toNat ≤ g.lcd.lcddev.width.toNat ∧ 0 ≤ a.width := by
    unfold LvArea.width
    omega
  have hh : a.height.toNat ≤ g.lcd.lcddev.height.toNat ∧ 0 ≤ a.height := by
    unfold LvArea.height
    omega
  have hsize : a.width * a.height ≤ 192000 :=
    calc a.width * a.height = (a.width.toNat : Int) * a.height.toNat := by
          rw [Int.toNat_of_nonneg hw.2, Int.toNat_of_nonneg hh.2]
      _ = ((a.width.toNat * a.height.toNat : Nat) : Int) := (Int.natCast_mul _ _).symm
      _ ≤ 192000 := Int.ofNat_le.mpr ((Nat.mul_le_mul hw.1 hh.1).trans hsmall)
  have hbytes : g.disp.buffer.buf1.bytes = 384000 := by
    rw [hg.drawable.disp]
    rfl
  rw [Gui.Fits, hbytes, LvArea.bytes, lvColorSize]
  omega

theorem Gui.step_isSome (hg : g.Ok c)
    (hsmall : g.lcd.lcddev.width.toNat * g.lcd.lcddev.height.toNat ≤ 192000) (op : GuiOp) :
    ∃ g', g.step c op = some g' ∧ g'.lcd.lcddev = g.lcd.lcddev := by
  cases op with
  | edit layer i path e => exact ⟨_, rfl, by cases layer <;> rfl⟩
  | create layer path design => exact ⟨_, rfl, by cases layer <;> rfl⟩
  | invalidate area => exact ⟨_, rfl, rfl⟩
  | refresh =>
    obtain ⟨g', htask, -, -, -, -, hdev, -⟩ := (lvDispRefrTask_spec hg).1 (hg.joinedFit hsmall)
    exact ⟨g', htask, hdev⟩

theorem Gui.run_isSome (hg : g.Ok c)
    (hsmall : g.lcd.lcddev.width.toNat * g.lcd.lcddev.height.toNat ≤ 192000) (ops : List GuiOp) :
    ∃ g', ops.foldlM (Gui.step c) g = some g' ∧ g'.Ok c ∧ g'.lcd.lcddev = g.lcd.lcddev := by
  induction ops generalizing g with
  | nil => exact ⟨g, rfl, hg, rfl⟩
  | cons op ops ih =>
    obtain ⟨g₁, hstep, hdev⟩ := Gui.step_isSome hg hsmall op
    obtain ⟨g', hrun, hok, hdev'⟩ := ih (Gui.step_ok hg op hstep).1 (by rwa [hdev])
    refine ⟨g', ?_, hok, hdev'.trans hdev⟩
    rw [List.foldlM_cons, hstep]
    exact hrun

include hr in
/-- **The GUI on the panel.** Let the screen cover the display, and its objects answer the check for a
covered mask rightly. In every run from the registration of the display on, the panel shows the objects
wherever no area is invalid; a refresh leaves it showing them everywhere, with no area invalid; and on
the panels of up to 192000 pixels a refresh ends. -/
theorem refresh_shows (hcov : ScreenCovers lcd scr) (hscr : scr.CoverRight) {ops : List GuiOp}
    (hops : ∀ op ∈ ops, op.Right)
    (hrun : ops.foldlM (Gui.step c) (lvDispDrvRegister lcd vdb scr transp) = some g) :
    (∀ p ∈ g.screen, p ∉ g.inv.pending → g.shown c p = g.scene p) ∧
      (∀ g', lvDispRefrTask c g = some g' →
        ∀ p ∈ g.screen, g'.shown c p = g.scene p ∧ p ∉ g'.inv.pending) ∧
      (lcd.lcddev.width.toNat * lcd.lcddev.height.toNat ≤ 192000 →
        (lvDispRefrTask c g).isSome) := by
  have hok₀ := register_ok vdb hr scr transp
  obtain ⟨hok, hcov', hdisp, hretained⟩ :=
    Gui.run_refines hok₀ (register_covered vdb transp hcov hscr) hops hrun
  have hscreen : (lvDispDrvRegister lcd vdb scr transp).screen = g.screen := by
    rw [Gui.screen, Gui.screen, hdisp]
  have hup := (register_dirty vdb hr scr transp).run hretained
  rw [hscreen] at hup
  refine ⟨hup, fun g' htask p hp => ?_, fun hsmall => ?_⟩
  · obtain ⟨hscene, hclean, hstep⟩ := Gui.refresh_refines hok hcov' htask
    refine ⟨?_, hclean p⟩
    rw [← hscene]
    exact hup.step hstep p hp (hclean p)
  · obtain ⟨g₁, hrun₁, -, hdev⟩ := Gui.run_isSome hok₀ hsmall ops
    obtain rfl : g₁ = g := Option.some_inj.mp (hrun₁.symm.trans hrun)
    obtain ⟨g', htask, -⟩ := Gui.step_isSome hok (by rw [hdev]; exact hsmall) .refresh
    exact Option.isSome_iff_exists.mpr ⟨g', htask⟩

/-- A red button on a white screen, drawn, moved and drawn again, then hidden. -/
theorem refresh_shows_button :
    let c := plainController .ili9341
    let lcd := lcdDisplayDir c 0 (.blank .ili9341)
    ∃ g, [.create .act [] (.fill 0xF800), .refresh, .edit .act 0 [] (.setPos 30 40), .refresh,
          .edit .act 0 [] (.setHidden true)].foldlM (Gui.step c)
        (lvDispDrvRegister lcd (fun _ => 0) (.fill 0xFFFF) .transp) = some g ∧
      (∀ p ∈ g.screen, p ∉ g.inv.pending → g.shown c p = g.scene p) ∧
      (∀ g', lvDispRefrTask c g = some g' →
        ∀ p ∈ g.screen, g'.shown c p = g.scene p ∧ p ∉ g'.inv.pending) ∧
      (lcd.lcddev.width.toNat * lcd.lcddev.height.toNat ≤ 192000 →
        (lvDispRefrTask c g).isSome) := by
  intro c lcd
  have hr : Ready c lcd := lcdDisplayDir_ready 0 rfl
  obtain ⟨g, hrun, -⟩ := Gui.run_isSome (register_ok (fun _ => 0) hr (.fill 0xFFFF) .transp)
    (by decide +kernel) [.create .act [] (.fill 0xF800), .refresh, .edit .act 0 [] (.setPos 30 40),
      .refresh, .edit .act 0 [] (.setHidden true)]
  have hops : ∀ op ∈ [GuiOp.create .act [] (.fill 0xF800), .refresh, .edit .act 0 [] (.setPos 30 40),
      .refresh, .edit .act 0 [] (.setHidden true)], op.Right := by
    simp only [List.forall_mem_cons, List.not_mem_nil, false_imp_iff, implies_true, and_true]
    exact ⟨fun _ => LvDesign.fill_coverRight _, trivial, fun _ => trivial, trivial, fun _ => trivial⟩
  exact ⟨g, hrun, refresh_shows hr (fun _ => 0) .transp (by unfold ScreenCovers; decide +kernel)
    (LvDesign.fill_coverRight _) hops hrun⟩

/-- Joining leaves a single area as it is. -/
theorem lvRefrJoinArea_one {inv : LvInv} (h : inv.invP = 1) (hfree : inv.invAreaJoined 0 = false) :
    lvRefrJoinArea inv = inv := by
  have hself : lvRefrJoinFrom 0 inv 0 = inv := by
    rw [lvRefrJoinFrom, if_pos]
    rw [hfree]
    rfl
  rw [lvRefrJoinArea, h]
  simp only [List.range_one, List.foldl_cons, List.foldl_nil, hfree, Bool.false_eq_true, if_false,
    h, hself]

/-- On a large panel the first refresh draws behind the end of the draw buffer. -/
theorem first_refresh_none (hr : Ready c lcd) (scr transp : LvDesign)
    (hlarge : 192000 < lcd.lcddev.width.toNat * lcd.lcddev.height.toNat) :
    lvDispRefrTask c (lvDispDrvRegister lcd vdb scr transp) = none := by
  apply (lvDispRefrTask_spec (register_ok vdb hr scr transp)).2
  intro hfit
  obtain ⟨hinv, hinvP, harea⟩ := register_inv vdb hr scr transp
  have hscreen := hfit 0
  rw [lvRefrJoinArea_one hinvP (hinv.joined 0), hinvP, harea] at hscreen
  have hbytes := hscreen Nat.one_pos (hinv.joined 0)
  have hwidth : (lvDispDrvRegister lcd vdb scr transp).disp.scrArea.width =
      lcd.lcddev.width.toNat := by
    simp [LvArea.width, LvDisp.scrArea, lvDispDrvRegister, lvPortDispInit]
  have hheight : (lvDispDrvRegister lcd vdb scr transp).disp.scrArea.height =
      lcd.lcddev.height.toNat := by
    simp [LvArea.height, LvDisp.scrArea, lvDispDrvRegister, lvPortDispInit]
  have hmem : (lvDispDrvRegister lcd vdb scr transp).disp.buffer.buf1.bytes = 384000 := rfl
  rw [Gui.Fits, LvArea.bytes, lvColorSize, hwidth, hheight, hmem, ← Int.natCast_mul] at hbytes
  omega

include hr in
/-- **The draw buffer.** Exactly on the panels of up to 192000 pixels every run of the GUI from the
registration on completes; on a larger one, the first refresh already overflows the draw buffer. -/
theorem runs_complete_iff :
    ((∀ ops : List GuiOp,
      (ops.foldlM (Gui.step c) (lvDispDrvRegister lcd vdb scr transp)).isSome) ↔
      lcd.lcddev.width.toNat * lcd.lcddev.height.toNat ≤ 192000) ∧
      (192000 < lcd.lcddev.width.toNat * lcd.lcddev.height.toNat →
        lvDispRefrTask c (lvDispDrvRegister lcd vdb scr transp) = none) := by
  refine ⟨⟨fun hall => ?_, fun hsmall ops => ?_⟩, first_refresh_none vdb hr scr transp⟩
  · by_contra hlarge
    have htask : Gui.step c (lvDispDrvRegister lcd vdb scr transp) .refresh = none :=
      first_refresh_none vdb hr scr transp (Nat.lt_of_not_le hlarge)
    have hrun := hall [.refresh]
    rw [List.foldlM_cons, htask] at hrun
    cases hrun
  · obtain ⟨g', hrun, -⟩ := Gui.run_isSome (register_ok vdb hr scr transp) hsmall ops
    exact Option.isSome_iff_exists.mpr ⟨g', hrun⟩

end Runs

/-- The small panel, where every run completes. -/
theorem runs_complete_iff_ili9341 :
    let c := plainController .ili9341
    let lcd := lcdDisplayDir c 0 (.blank .ili9341)
    ((∀ ops : List GuiOp, (ops.foldlM (Gui.step c)
      (lvDispDrvRegister lcd (fun _ => 0) (.fill 0xFFFF) .transp)).isSome) ↔
      lcd.lcddev.width.toNat * lcd.lcddev.height.toNat ≤ 192000) ∧
      (192000 < lcd.lcddev.width.toNat * lcd.lcddev.height.toNat →
        lvDispRefrTask c (lvDispDrvRegister lcd (fun _ => 0) (.fill 0xFFFF) .transp) = none) :=
  runs_complete_iff (lcdDisplayDir_ready 0 rfl) (fun _ => 0) .transp

end AtkOnenet
