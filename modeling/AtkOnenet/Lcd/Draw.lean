import AtkOnenet.Lcd.Frame

/-!
# What the drawing functions draw

`Lcd.shown` is the colour of a pixel of the screen: the cell of the display memory that the walk
visits for it. `Draws` says that a function draws a layer and keeps the panel ready. A burst of
writes through an aimed window draws the block of its pixels (`Aimed.draws`); from this, each
function of the driver draws the layer of its call.
-/

namespace AtkOnenet

open Raster Store Word

/-- The address of a column on a screen of `W` columns. -/
def columnAddr (rev : Bool) (W x : Nat) : Nat := if rev then W - 1 - x else x

/-- The colour of a pixel of the screen. -/
def Lcd.shown (c : Controller) (s : Lcd) (x y : Nat) : UInt16 :=
  s.panel.gram (s.panel.cell c (columnAddr (s.panel.reversed c) s.lcddev.width.toNat x, y))

/-- The pixels `vs` in rows of `w` from `(x, y)` on. -/
def block (x y w : Nat) (vs : List UInt16) : Layer := fun x' y' =>
  if x ≤ x' ∧ x' < x + w ∧ y ≤ y' then vs[(y' - y) * w + (x' - x)]? else none

variable {c : Controller} {s t u : Lcd}

/-- The driver goes from `s` to `t` and draws the layer. -/
structure Draws (c : Controller) (s t : Lcd) (l : Layer) : Prop where
  ready : Ready c t
  lcddev : t.lcddev = s.lcddev
  shown : ∀ x y, x < s.lcddev.width.toNat → y < s.lcddev.height.toNat →
    t.shown c x y = (l x y).getD (s.shown c x y)

theorem Draws.refl (hr : Ready c s) : Draws c s s fun _ _ => none :=
  ⟨hr, rfl, fun _ _ _ _ => rfl⟩

theorem Draws.trans {l l' : Layer} (h : Draws c s t l) (h' : Draws c t u l') :
    Draws c s u fun x y => (l' x y).or (l x y) := by
  refine ⟨h'.ready, h'.lcddev.trans h.lcddev, fun x y hx hy => ?_⟩
  rw [h'.shown x y (by rwa [h.lcddev]) (by rwa [h.lcddev]), h.shown x y hx hy]
  cases l' x y <;> rfl

theorem Draws.congr {l l' : Layer} (h : Draws c s t l)
    (hl : ∀ x y, x < s.lcddev.width.toNat → y < s.lcddev.height.toNat → l x y = l' x y) :
    Draws c s t l' :=
  ⟨h.ready, h.lcddev, fun x y hx hy => by rw [h.shown x y hx hy, hl x y hx hy]⟩

/-! ## Bursts -/

theorem Panel.cell_inj (p : Panel) {a b : Nat × Nat} (h : p.cell c a = p.cell c b) : a = b := by
  unfold cell at h
  split at h
  · exact Prod.swap_inj.mp h
  · exact h

theorem screenWindow_sides (rev : Bool) {W x y w h : Nat} (hw : 0 < w) (hh : 0 < h)
    (hx : x + w ≤ W) :
    let win := screenWindow rev W x y w h
    win.x0 ≤ win.x1 ∧ win.width = w ∧ win.height = h := by
  refine ⟨?_, ?_, ?_⟩
  · cases rev <;> simp only [screenWindow, Bool.false_eq_true, ↓reduceIte] <;> omega
  · cases rev <;> simp only [Window.width, screenWindow, Bool.false_eq_true, ↓reduceIte] <;> omega
  · simp only [Window.height, screenWindow]
    omega

theorem screenWindow_pos (rev : Bool) {W x y w h : Nat} (hw : 0 < w) (hh : 0 < h) (hx : x + w ≤ W)
    (k : Nat) :
    (screenWindow rev W x y w h).pos k = (columnAddr rev W (x + k % w), y + k / w) := by
  have hm := Nat.mod_lt k hw
  rw [Window.pos, (screenWindow_sides rev hw hh hx).2.1]
  cases rev <;> simp [Window.column, screenWindow, columnAddr]
  omega

/-- The walk over the window visits its pixels row by row. -/
theorem screenWindow_walk (rev : Bool) {W x y w h : Nat} (hw : 0 < w) (hh : 0 < h)
    (hx : x + w ≤ W) {k : Nat} (hk : k < w * h) :
    let win := screenWindow rev W x y w h
    win.next^[k] win.home = (columnAddr rev W (x + k % w), y + k / w) := by
  intro win
  obtain ⟨hwin, hwidth, hheight⟩ := screenWindow_sides rev (y := y) hw hh hx
  have hk' : k < win.width * win.height := by rwa [hwidth, hheight]
  rw [win.next_iterate hwin hk', screenWindow_pos rev hw hh hx]

/-- `s` with the memory and the cursor `m`. -/
def Lcd.withMemory (s : Lcd) (m : Gram × (Nat × Nat)) : Lcd :=
  { s with panel := { s.panel with gram := m.1, cur := m.2 } }

/-- Data words after the memory write command go along the walk over the window. -/
theorem foldl_lcdWrData (hreg : s.panel.reg = c.kind.wramcmd) (m : Gram × (Nat × Nat))
    (vs : List UInt16) : vs.foldl (fun s v => lcdWrData c v s) (s.withMemory m) =
      s.withMemory (vs.foldl (storeStep (s.panel.cell c) (s.panel.window c).next) m) := by
  induction vs generalizing m with
  | nil => rfl
  | cons v vs ih =>
    have h : lcdWrData c v (s.withMemory m) =
        s.withMemory (storeStep (s.panel.cell c) (s.panel.window c).next m v) := by
      rw [lcdWrData, Panel.writeData, if_pos (show (s.withMemory m).panel.reg = _ from hreg)]
      rfl
    rw [List.foldl_cons, List.foldl_cons, h, ih]

theorem columnAddr_inj {rev : Bool} {W a b : Nat} (ha : a < W) (hb : b < W)
    (h : columnAddr rev W a = columnAddr rev W b) : a = b := by
  unfold columnAddr at h
  split at h <;> omega

/-- The walk over the window comes to a pixel of the screen at one number only, and at none if the
pixel is not in the columns and rows of the window. -/
theorem screenWindow_visits_iff (rev : Bool) {W x y w h : Nat} (hw : 0 < w) (hh : 0 < h)
    (hx : x + w ≤ W) {k : Nat} (hk : k < w * h) {x' : Nat} (hx' : x' < W) (y' : Nat) :
    let win := screenWindow rev W x y w h
    win.next^[k] win.home = (columnAddr rev W x', y') ↔
      (x ≤ x' ∧ x' < x + w ∧ y ≤ y') ∧ k = (y' - y) * w + (x' - x) := by
  intro win
  rw [screenWindow_walk rev hw hh hx hk, Prod.mk.injEq]
  have hm := Nat.mod_lt k hw
  constructor
  · rintro ⟨hcol, hrow⟩
    have hx'' := columnAddr_inj (by omega) hx' hcol
    have hkd := Nat.div_add_mod k w
    have hdiv : y' - y = k / w := by rw [← hrow, Nat.add_sub_cancel_left]
    refine ⟨⟨by omega, by omega, hrow ▸ Nat.le_add_right y _⟩, ?_⟩
    rw [hdiv, ← hx'', Nat.add_sub_cancel_left, Nat.mul_comm, hkd]
  · rintro ⟨hbox, rfl⟩
    have hmod : ((y' - y) * w + (x' - x)) % w = x' - x := by
      rw [Nat.mul_comm, Nat.mul_add_mod, Nat.mod_eq_of_lt (by omega)]
    have hdiv : ((y' - y) * w + (x' - x)) / w = y' - y := by
      rw [Nat.mul_comm, Nat.mul_add_div hw, Nat.div_eq_of_lt (by omega), Nat.add_zero]
    rw [hmod, hdiv, Nat.add_sub_cancel' hbox.1, Nat.add_sub_cancel' hbox.2.2]
    exact ⟨rfl, rfl⟩

theorem screenWindow_cell_inj (p : Panel) (rev : Bool) {W x y w h : Nat} (hw : 0 < w) (hh : 0 < h)
    (hx : x + w ≤ W) {i j : Nat} (hi : i < w * h) (hj : j < w * h) :
    let win := screenWindow rev W x y w h
    p.cell c (win.next^[i] win.home) = p.cell c (win.next^[j] win.home) → i = j := by
  intro win heq
  obtain ⟨hwin, hwidth, hheight⟩ := screenWindow_sides rev (y := y) hw hh hx
  apply win.next_iterate_inj hwin _ _ (p.cell_inj heq)
  · rwa [hwidth, hheight]
  · rwa [hwidth, hheight]

/-- What the walk over a window of `w` columns from `(x, y)` on stores for a pixel. -/
theorem storeAlong_block (p : Panel) (rev : Bool) {W x y w h : Nat} (hw : 0 < w) (hh : 0 < h)
    (hx : x + w ≤ W) {vs : List UInt16} (hlen : vs.length ≤ w * h) (mem : Gram) {x' : Nat}
    (hx' : x' < W) (y' : Nat) :
    let win := screenWindow rev W x y w h
    storeAlong mem (fun k => p.cell c (win.next^[k] win.home)) vs
        (p.cell c (columnAddr rev W x', y')) =
      (block x y w vs x' y').getD (mem (p.cell c (columnAddr rev W x', y'))) := by
  intro win
  have hvisits := fun k (hk : k < vs.length) =>
    screenWindow_visits_iff rev (y := y) hw hh hx (Nat.lt_of_lt_of_le hk hlen) hx' y'
  have hinj : ∀ i j, i < vs.length → j < vs.length →
      p.cell c (win.next^[i] win.home) = p.cell c (win.next^[j] win.home) → i = j := by
    intro i j hi hj
    exact screenWindow_cell_inj p rev hw hh hx (by omega) (by omega)
  -- The pixel is the `k`-th one of the window, or outside of it.
  by_cases hin : (x ≤ x' ∧ x' < x + w ∧ y ≤ y') ∧ (y' - y) * w + (x' - x) < vs.length
  · obtain ⟨hbox, hk⟩ := hin
    rw [← (hvisits _ hk).mpr ⟨hbox, rfl⟩, storeAlong_get hinj hk, block, if_pos hbox,
      List.getElem?_eq_getElem hk]
    rfl
  · have hnone : block x y w vs x' y' = none := by
      unfold block
      split
      · exact List.getElem?_eq_none (by omega)
      · rfl
    rw [storeAlong_of_ne, hnone]
    · rfl
    · intro k hk heq
      obtain ⟨hbox, rfl⟩ := (hvisits k hk).mp (p.cell_inj heq).symm
      exact hin ⟨hbox, hk⟩

/-- **Bursts.** The words written through a window of `w` columns that begins in `(x, y)` are the
pixels of the window, row by row. -/
theorem Aimed.draws {x y w h : Nat} (ha : Aimed c s
      (screenWindow (s.panel.reversed c) s.lcddev.width.toNat x y w h) c.kind.wramcmd t)
    (hw : 0 < w) (hh : 0 < h) (hx : x + w ≤ s.lcddev.width.toNat) {vs : List UInt16}
    (hlen : vs.length ≤ w * h) :
    Draws c s (vs.foldl (fun s v => lcdWrData c v s) t) (block x y w vs) := by
  have hmem := foldl_lcdWrData ha.reg (t.panel.gram, t.panel.cur) vs
  have hself : t.withMemory (t.panel.gram, t.panel.cur) = t := rfl
  have hcell : t.panel.cell c = s.panel.cell c := by
    unfold Panel.cell Panel.swapped
    rw [ha.madctl]
  have hrev : t.panel.reversed c = s.panel.reversed c := by
    unfold Panel.reversed Panel.swapped
    rw [ha.madctl]
  rw [foldl_storeStep, hself, ha.window, ha.cur, ha.gram, hcell] at hmem
  rw [hmem]
  refine ⟨⟨ha.ready.dev, ha.ready.swapped, ha.ready.reversed, ha.ready.ends⟩, ha.lcddev, ?_⟩
  intro x' y' hx' _
  have h := storeAlong_block (c := c) (y := y) s.panel (s.panel.reversed c) hw hh hx hlen
    s.panel.gram hx' y'
  rw [Lcd.shown, Lcd.shown, ← h, ← ha.lcddev, ← hrev, ← hcell]
  rfl

/-- Setting the window draws nothing. -/
theorem Aimed.draws_none {win : Window} {cmd : UInt16} (ha : Aimed c s win cmd t) :
    Draws c s t fun _ _ => none := by
  refine ⟨ha.ready, ha.lcddev, fun x y _ _ => ?_⟩
  rw [Lcd.shown, Lcd.shown, ha.gram, ha.lcddev]
  unfold Panel.cell Panel.reversed Panel.swapped
  rw [ha.madctl]
  rfl

/-! ## The functions of the driver -/

/-- The row of `n` pixels from `(x, y)` on. -/
def row (x y n : Nat) (f : Nat → UInt16) : Layer := fun x' y' =>
  if x ≤ x' ∧ x' < x + n ∧ y' = y then some (f (x' - x)) else none

theorem block_row {x y w n : Nat} (hn : n ≤ w) (f : Nat → UInt16) :
    block x y w ((List.range n).map f) = row x y n f := by
  funext x' y'
  unfold block row
  by_cases hy : y' = y
  · subst hy
    have hidx : (y' - y') * w + (x' - x) = x' - x := by simp
    rw [hidx]
    by_cases hin : x ≤ x' ∧ x' < x + n
    · rw [if_pos ⟨hin.1, by omega, le_rfl⟩, if_pos ⟨hin.1, hin.2, rfl⟩, List.getElem?_map,
        List.getElem?_range (by omega)]
      rfl
    · rw [if_neg (show ¬(x ≤ x' ∧ x' < x + n ∧ y' = y') from fun h => hin ⟨h.1, h.2.1⟩)]
      split
      · exact List.getElem?_eq_none (by rw [List.length_map, List.length_range]; omega)
      · rfl
  · rw [if_neg (show ¬(x ≤ x' ∧ x' < x + n ∧ y' = y) from fun h => hy h.2.2)]
    split
    · -- A later row begins behind the last pixel.
      have hrow : w ≤ (y' - y) * w := Nat.le_mul_of_pos_left _ (by omega)
      exact List.getElem?_eq_none (by rw [List.length_map, List.length_range]; omega)
    · rfl

theorem lcdWriteRamPrepare_eq (hr : Ready c s) (x y : UInt16) :
    lcdWriteRamPrepare c (lcdSetCursor c x y s) =
      lcdWrReg c c.kind.wramcmd (lcdSetCursor c x y s) := by
  rw [lcdWriteRamPrepare, lcdSetCursor_lcddev hr, hr.wramcmd]

/-- A loop of writes behind the cursor. -/
theorem row_draws (hr : Ready c s) {x y : UInt16} (hx : x < s.lcddev.width)
    (hy : y < s.lcddev.height) (f : Nat → UInt16) {n : Nat}
    (hn : x.toNat + n ≤ s.lcddev.width.toNat) :
    Draws c s ((List.range n).foldl (fun s i => lcdWrData c (f i) s)
      (lcdWriteRamPrepare c (lcdSetCursor c x y s))) (row x.toNat y.toNat n f) := by
  have hx' : x.toNat < s.lcddev.width.toNat := hx
  have hy' : y.toNat < s.lcddev.height.toNat := hy
  have hlen : ((List.range n).map f).length ≤
      (s.lcddev.width.toNat - x.toNat) * (s.lcddev.height.toNat - y.toNat) := by
    rw [List.length_map, List.length_range]
    calc n ≤ s.lcddev.width.toNat - x.toNat := by omega
      _ ≤ _ := Nat.le_mul_of_pos_right _ (by omega)
  have h := (lcdSetCursor_aim hr (.inl rfl) hx hy).draws (by omega) (by omega) (by omega) hlen
  rwa [List.foldl_map, ← lcdWriteRamPrepare_eq hr, block_row (by omega)] at h

/-- An empty loop of writes, wherever the cursor is set. -/
theorem row_draws_nil (hr : Ready c s) (x y : UInt16) :
    Draws c s (lcdWriteRamPrepare c (lcdSetCursor c x y s)) fun _ _ => none := by
  rw [lcdWriteRamPrepare_eq hr]
  exact (lcdSetCursor_aimed hr x y (.inl rfl)).draws_none

theorem exists_word {x : Int} {w : UInt16} (h0 : 0 ≤ x) (h : x < w.toNat) :
    ∃ v : UInt16, x = v.toNat ∧ v < w := by
  have hw := w.toNat_lt
  have hx : x.toNat < 2 ^ 16 := by omega
  have hv : (UInt16.ofNat x.toNat).toNat = x.toNat := UInt16.toNat_ofNat_of_lt' hx
  refine ⟨UInt16.ofNat x.toNat, by omega, ?_⟩
  rw [UInt16.lt_iff_toNat_lt, hv]
  omega

theorem lcdFastDrawPoint_draws (hr : Ready c s) (pixel : UInt16) {x y : Int}
    (hon : (Call.fastDrawPoint pixel x y).OnScreen s.lcddev.width.toNat s.lcddev.height.toNat) :
    Draws c s (lcdFastDrawPoint c pixel x y s) (Call.fastDrawPoint pixel x y).drawn := by
  obtain ⟨hx₀, hx₁, hy₀, hy₁⟩ := hon
  obtain ⟨x, rfl, hx⟩ := exists_word hx₀ hx₁
  obtain ⟨y, rfl, hy⟩ := exists_word hy₀ hy₁
  obtain ⟨w, h, t, hw, hh, hxw, ha, heq⟩ := lcdFastDrawPoint_aim hr pixel hx hy
  rw [heq]
  have hlen : [pixel].length ≤ w * h := Nat.mul_pos hw hh
  refine (ha.draws hw hh hxw hlen).congr fun x' y' _ _ => ?_
  rw [show [pixel] = (List.range 1).map fun _ => pixel from rfl, block_row hw]
  exact if_congr (by omega) rfl rfl

theorem lcdHLine_draws (hr : Ready c s) (pixel : UInt16) {x1 x2 y : Int}
    (hon : (Call.hLine pixel x1 x2 y).OnScreen s.lcddev.width.toNat s.lcddev.height.toNat) :
    Draws c s (lcdHLine c pixel x1 x2 y s) (Call.hLine pixel x1 x2 y).drawn := by
  simp only [lcdHLine]
  by_cases hsize : x1 ≤ x2
  · obtain ⟨hx₀, hx₁, hy₀, hy₁⟩ := hon hsize
    obtain ⟨x, rfl, hx⟩ := exists_word hx₀ (by omega : x1 < s.lcddev.width.toNat)
    obtain ⟨y, rfl, hy⟩ := exists_word hy₀ hy₁
    rw [ofInt_word, ofInt_word]
    refine (row_draws hr hx hy (fun _ => pixel) (by omega)).congr fun x' y' _ _ => ?_
    exact if_congr (by omega) rfl rfl
  · have hn : (x2 - x1 + 1).toNat = 0 := by omega
    rw [hn]
    refine (row_draws_nil hr _ _).congr fun x' y' _ _ => ?_
    exact (if_neg (by omega)).symm

theorem lcdBlitLine_draws (hr : Ready c s) (pixel : Nat → UInt16) {x y : Int} {size : Nat}
    (hon : (Call.blitLine pixel x y size).OnScreen s.lcddev.width.toNat s.lcddev.height.toNat) :
    Draws c s (lcdBlitLine c pixel x y size s) (Call.blitLine pixel x y size).drawn := by
  simp only [lcdBlitLine]
  cases size with
  | zero =>
    refine (row_draws_nil hr _ _).congr fun x' y' _ _ => ?_
    exact (if_neg (by omega)).symm
  | succ n =>
    obtain ⟨hx₀, hx₁, hy₀, hy₁⟩ := hon (Nat.succ_pos n)
    obtain ⟨x, rfl, hx⟩ := exists_word hx₀ (by omega : x < s.lcddev.width.toNat)
    obtain ⟨y, rfl, hy⟩ := exists_word hy₀ hy₁
    rw [ofInt_word, ofInt_word]
    refine (row_draws hr hx hy pixel (by omega)).congr fun x' y' _ _ => ?_
    have hidx : ((x' : Int) - x.toNat).toNat = x' - x.toNat := by omega
    simp only [row, Call.drawn, hidx]
    exact if_congr (by omega) rfl rfl

/-- The rows of `LCD_Color_Fill`, one after the other. -/
theorem colorFill_rows (hr : Ready c s) {sx sy : UInt16} (hx : sx < s.lcddev.width) {w h : Nat}
    (hw : sx.toNat + w ≤ s.lcddev.width.toNat) (hh : sy.toNat + h ≤ s.lcddev.height.toNat)
    (color : Nat → UInt16) :
    Draws c s ((List.range h).foldl (fun s i =>
      let s := s |> lcdSetCursor c sx (sy + UInt16.ofNat i) |> lcdWriteRamPrepare c
      (List.range w).foldl (fun s j => lcdWrData c (color (i * w + j)) s) s) s)
      fun x y => if sx.toNat ≤ x ∧ x < sx.toNat + w ∧ sy.toNat ≤ y ∧ y < sy.toNat + h then
        some (color ((y - sy.toNat) * w + (x - sx.toNat))) else none := by
  induction h with
  | zero =>
    refine (Draws.refl hr).congr fun x y _ _ => ?_
    exact (if_neg (by omega)).symm
  | succ h ih =>
    have hrows := ih (by omega)
    have hheight := s.lcddev.height.toNat_lt
    have hy : (sy + UInt16.ofNat h).toNat = sy.toNat + h := by
      rw [UInt16.toNat_add, UInt16.toNat_ofNat_of_lt' (show h < 2 ^ 16 by omega)]
      omega
    rw [List.range_succ, List.foldl_append]
    refine (hrows.trans (row_draws hrows.ready (by rw [hrows.lcddev]; exact hx) ?_
      (fun j => color (h * w + j)) (by rw [hrows.lcddev]; exact hw))).congr fun x y _ _ => ?_
    · rw [UInt16.lt_iff_toNat_lt, hrows.lcddev, hy]
      omega
    · rw [hy]
      unfold row
      by_cases hlast : sx.toNat ≤ x ∧ x < sx.toNat + w ∧ y = sy.toNat + h
      · obtain ⟨hx₀, hx₁, rfl⟩ := hlast
        rw [if_pos ⟨hx₀, hx₁, rfl⟩, Option.some_or, if_pos (by omega), Nat.add_sub_cancel_left]
      · rw [if_neg hlast]
        exact if_congr (by omega) rfl rfl

theorem lcdColorFill_draws (hr : Ready c s) {sx sy ex ey : UInt16} (color : Nat → UInt16)
    (hon : (Call.colorFill sx sy ex ey color).OnScreen s.lcddev.width.toNat
      s.lcddev.height.toNat) :
    Draws c s (lcdColorFill c sx sy ex ey color s) (Call.colorFill sx sy ex ey color).drawn := by
  obtain ⟨hx, hex, hy, hey⟩ := hon
  have hsides (a b : UInt16) (hab : a ≤ b) (n : UInt16) (hb : (b.toNat : Int) < n.toNat) :
      (b - a + 1).toNat = b.toNat - a.toNat + 1 := by
    have hn := n.toNat_lt
    rw [UInt16.toNat_add, UInt16.toNat_sub_of_le _ _ hab]
    simp
    omega
  have hx' : sx.toNat ≤ ex.toNat := hx
  have hy' : sy.toNat ≤ ey.toNat := hy
  simp only [lcdColorFill]
  rw [hsides sx ex hx _ hex, hsides sy ey hy _ hey]
  refine (colorFill_rows hr (UInt16.lt_iff_toNat_lt.mpr (by omega)) (by omega) (by omega)
    color).congr fun x y _ _ => ?_
  exact if_congr (by omega) rfl rfl

theorem lcdClear_draws (hr : Ready c s) (color : UInt32) :
    Draws c s (lcdClear c color s) (Call.clear color).drawn := by
  have hw := s.lcddev.width.toNat_lt
  have hh := s.lcddev.height.toNat_lt
  have hpos : 0 < s.lcddev.width ∧ 0 < s.lcddev.height := by
    rw [hr.dev]
    exact c.kind.lcddev_pos _
  have hpos' : 0 < s.lcddev.width.toNat ∧ 0 < s.lcddev.height.toNat := hpos
  have htotal : (s.lcddev.width.toUInt32 * s.lcddev.height.toUInt32).toNat =
      s.lcddev.width.toNat * s.lcddev.height.toNat := by
    have hlt : s.lcddev.width.toNat * s.lcddev.height.toNat < 2 ^ 32 :=
      calc s.lcddev.width.toNat * s.lcddev.height.toNat < 2 ^ 16 * 2 ^ 16 :=
            Nat.mul_lt_mul'' hw hh
        _ = 2 ^ 32 := rfl
    rw [UInt32.toNat_mul, UInt16.toNat_toUInt32, UInt16.toNat_toUInt32, Nat.mod_eq_of_lt hlt]
  have hlen (n : Nat) : ((List.range n).map fun _ => color.toUInt16).length = n := by simp
  simp only [lcdClear]
  rw [htotal]
  have h := (lcdSetCursor_aim hr (.inl rfl) hpos.1 hpos.2).draws hpos'.1 hpos'.2 (by simp)
    (Nat.le_of_eq (hlen _))
  rw [List.foldl_map, ← lcdWriteRamPrepare_eq hr] at h
  refine h.congr fun x y hx hy => ?_
  have hidx : y * s.lcddev.width.toNat + x < s.lcddev.width.toNat * s.lcddev.height.toNat := by
    calc y * s.lcddev.width.toNat + x < (y + 1) * s.lcddev.width.toNat := by
          rw [Nat.succ_mul]
          omega
      _ ≤ s.lcddev.height.toNat * s.lcddev.width.toNat := Nat.mul_le_mul_right _ hy
      _ = _ := Nat.mul_comm ..
  simp [block, Call.drawn, hx, hidx]

end AtkOnenet
