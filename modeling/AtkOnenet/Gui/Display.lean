import AtkOnenet.Lcd.Aim

/-!
# The display port of the GUI (`GUI/lvgl_driver/lv_port_disp.c`)

`lvPortDispInit` allocates the draw buffer and registers the display; `lvRefrArea` is the renderer's
`lv_refr_area`, which cuts an area into tiles that are drawn into the buffer and flushed one by one.
The port sets no `rounder_cb`, so the rounding of the tiles is left out.

* `lvRefrArea_tiles`: the renderer keeps to the size that it was told. The tiles cover the area row
  by row, and each has at most as many pixels as the buffer is said to hold.
* `tiles_fit_iff`: the port tells the renderer the number of bytes as the number of pixels, and a
  pixel has two bytes. So the tiles fit exactly if the whole area has at most half as many pixels.
-/

namespace AtkOnenet

/-- `lv_area_t`. -/
structure LvArea where
  x1 : Int
  y1 : Int
  x2 : Int
  y2 : Int
  deriving DecidableEq, Repr

namespace LvArea

/-- `lv_area_get_width`. -/
def width (a : LvArea) : Int := a.x2 - a.x1 + 1

/-- `lv_area_get_height`. -/
def height (a : LvArea) : Int := a.y2 - a.y1 + 1

end LvArea

/-- `sizeof(lv_color_t)` with `LV_COLOR_DEPTH` 16. -/
def lvColorSize : Int := 2

/-- The bytes of a buffer that a tile takes. -/
def LvArea.bytes (a : LvArea) : Int := a.width * a.height * lvColorSize

def lvHorResMax : Int := 800
def lvVerResMax : Int := 480

/-- `COLOR_BUF_SIZE`. -/
def colorBufSize : Int := lvHorResMax * lvVerResMax

/-- The memory of a draw buffer, by its number of bytes. -/
structure DrawMem where
  bytes : Int
  deriving DecidableEq, Repr

/-- `lv_disp_buf_t`: the buffers, and their size in pixels. -/
structure LvDispBuf where
  buf1 : DrawMem
  buf2 : Option DrawMem
  size : Int
  deriving DecidableEq, Repr

/-- `lv_disp_t`: the resolution and the buffer of the driver. -/
structure LvDisp where
  horRes : Int
  verRes : Int
  buffer : LvDispBuf
  deriving DecidableEq, Repr

def lvDispBufInit (buf1 : DrawMem) (buf2 : Option DrawMem) (sizeInPxCnt : Int) : LvDispBuf :=
  ⟨buf1, buf2, sizeInPxCnt⟩

/-- `lv_port_disp_init`, where `rt_malloc` has the bytes that it is asked for. -/
def lvPortDispInit (d : LcdDev) : LvDisp :=
  let aMemory1 : DrawMem := ⟨colorBufSize⟩
  ⟨d.width.toNat, d.height.toNat, lvDispBufInit aMemory1 none colorBufSize⟩

/-- `lv_disp_is_true_double_buf`. -/
def lvDispIsTrueDoubleBuf (disp : LvDisp) : Bool :=
  disp.buffer.buf2.isSome && disp.buffer.size == disp.horRes * disp.verRes

/-- The loop over the tiles of `maxRow` rows, from `row` on: the tiles, the row behind them and
`row_last`. `none` where it does not end in `fuel` turns. -/
def lvRefrRows (area : LvArea) (maxRow y2 : Int) : Nat → Int → Int →
    Option (List LvArea × Int × Int)
  | 0, _, _ => none
  | fuel + 1, row, rowLast =>
    if row + maxRow - 1 ≤ y2 then
      let last := if row + maxRow - 1 > y2 then y2 else row + maxRow - 1
      (lvRefrRows area maxRow y2 fuel (row + maxRow) last).map
        fun (ts, row', rowLast) => (⟨area.x1, row, area.x2, last⟩ :: ts, row', rowLast)
    else some ([], row, rowLast)

/-- `lv_refr_area`: the tiles that are rendered and flushed. -/
def lvRefrArea (disp : LvDisp) (area : LvArea) : Option (List LvArea) :=
  if lvDispIsTrueDoubleBuf disp then some [⟨0, 0, disp.horRes - 1, disp.verRes - 1⟩]
  else
    let w := area.width
    let h := area.height
    let y2 := if area.y2 ≥ disp.verRes then disp.verRes - 1 else area.y2
    let maxRow := disp.buffer.size / w
    let maxRow := if maxRow > h then h else maxRow
    let fuel := (y2 - area.y1).toNat + 2
    (lvRefrRows area maxRow y2 fuel area.y1 0).map fun (ts, row, rowLast) =>
      if y2 ≠ rowLast then ts ++ [⟨area.x1, row, area.x2, y2⟩] else ts

/-! ## The tiles -/

variable {area : LvArea} {maxRow y2 : Int}

/-- The tiles have the columns of the area and follow each other from the row `y` to `y2`. -/
def Stacked (area : LvArea) (y2 : Int) : Int → List LvArea → Prop
  | y, [] => y = y2 + 1
  | y, t :: ts => t.x1 = area.x1 ∧ t.x2 = area.x2 ∧ t.y1 = y ∧ y ≤ t.y2 ∧
      Stacked area y2 (t.y2 + 1) ts

/-- The loop ends: with fewer than `maxRow` rows left, behind tiles of `maxRow` rows. -/
theorem lvRefrRows_spec (area : LvArea) (hm : 0 < maxRow) {fuel : Nat} {row : Int} (rowLast : Int)
    (hfuel : (y2 - row + 1).toNat < fuel) (hrow : row ≤ y2 + 1) :
    ∃ ts row' last', lvRefrRows area maxRow y2 fuel row rowLast = some (ts, row', last') ∧
      (∀ t ∈ ts, t.x1 = area.x1 ∧ t.x2 = area.x2 ∧ t.height = maxRow) ∧
      (∀ rest, Stacked area y2 row' rest → Stacked area y2 row (ts ++ rest)) ∧
      row' ≤ y2 + 1 ∧ y2 < row' + maxRow - 1 ∧
      (row + maxRow - 1 ≤ y2 ∨ rowLast = row - 1 → last' = row' - 1) := by
  induction fuel generalizing row rowLast with
  | zero => omega
  | succ fuel ih =>
    by_cases hin : row + maxRow - 1 ≤ y2
    · have hlast : ¬ row + maxRow - 1 > y2 := by omega
      obtain ⟨ts, row', last', hrun, hts, hstack, hle, hend, hl⟩ :=
        @ih (row + maxRow) (row + maxRow - 1) (by omega) (by omega)
      refine ⟨⟨area.x1, row, area.x2, row + maxRow - 1⟩ :: ts, row', last', ?_, ?_, ?_, hle, hend,
        fun _ => hl (.inr rfl)⟩
      · simp only [lvRefrRows, if_pos hin, if_neg hlast, hrun, Option.map_some]
      · intro t ht
        rcases List.mem_cons.mp ht with rfl | ht
        · exact ⟨rfl, rfl, by simp only [LvArea.height]; omega⟩
        · exact hts t ht
      · intro rest hrest
        refine ⟨rfl, rfl, rfl, by simp only; omega, ?_⟩
        rw [Int.sub_add_cancel]
        exact hstack rest hrest
    · exact ⟨[], row, rowLast, by simp only [lvRefrRows, if_neg hin], by simp, fun _ h => h, hrow,
        by omega, fun h => h.resolve_left hin⟩

theorem trueDoubleBuf_none {disp : LvDisp} (hbuf : disp.buffer.buf2 = none) :
    lvDispIsTrueDoubleBuf disp = false := by
  rw [lvDispIsTrueDoubleBuf, hbuf]
  rfl

/-- **Tiling.** With one buffer that holds a row of the area or more, the tiles cover the area row
by row, and none has more pixels than the buffer is said to hold. -/
theorem lvRefrArea_tiles {disp : LvDisp} (hbuf : disp.buffer.buf2 = none) (hw : 0 < area.width)
    (hh : 0 < area.height) (hy : area.y2 < disp.verRes) (hsize : area.width ≤ disp.buffer.size) :
    ∃ tiles, lvRefrArea disp area = some tiles ∧ Stacked area area.y2 area.y1 tiles ∧
      ∀ t ∈ tiles, t.width * t.height ≤ disp.buffer.size := by
  let rows := disp.buffer.size / area.width
  let maxRow := if rows > area.height then area.height else rows
  have hrows : 1 ≤ rows := (Int.le_ediv_iff_mul_le hw).mpr (by omega)
  have hm : 0 < maxRow ∧ maxRow ≤ area.height ∧ maxRow ≤ rows := by
    simp only [maxRow]
    split <;> omega
  have hheight : area.height = area.y2 - area.y1 + 1 := rfl
  have hfuel : (area.y2 - area.y1 + 1).toNat < (area.y2 - area.y1).toNat + 2 := by omega
  obtain ⟨ts, row, last, hrun, hts, hstack, hle, hend, hlast⟩ :=
    lvRefrRows_spec area hm.1 0 hfuel (show area.y1 ≤ area.y2 + 1 by omega)
  have hlast := hlast (.inl (by omega))
  have hy2 : ¬ area.y2 ≥ disp.verRes := by omega
  have hdouble := trueDoubleBuf_none hbuf
  -- A tile of the area's columns with at most `maxRow` rows.
  have hfit (t : LvArea) (h1 : t.x1 = area.x1) (h2 : t.x2 = area.x2) (h : t.height ≤ maxRow) :
      t.width * t.height ≤ disp.buffer.size := by
    have hwidth : t.width = area.width := by rw [LvArea.width, LvArea.width, h1, h2]
    calc t.width * t.height = area.width * t.height := by rw [hwidth]
      _ ≤ area.width * rows := Int.mul_le_mul_of_nonneg_left (by omega) (by omega)
      _ ≤ disp.buffer.size := Int.mul_ediv_self_le (by omega)
  simp only [lvRefrArea, hdouble, Bool.false_eq_true, if_false, if_neg hy2, maxRow, rows] at hrun ⊢
  simp only [hrun, Option.map_some]
  by_cases htail : area.y2 ≠ last
  · rw [if_pos htail]
    have htailTile : Stacked area area.y2 row [⟨area.x1, row, area.x2, area.y2⟩] :=
      ⟨rfl, rfl, rfl, by simp only; omega, rfl⟩
    refine ⟨_, rfl, hstack _ htailTile, fun t ht => ?_⟩
    rcases List.mem_append.mp ht with ht | ht
    · obtain ⟨h1, h2, h3⟩ := hts t ht
      exact hfit t h1 h2 (Int.le_of_eq h3)
    · rw [List.mem_singleton.mp ht]
      exact hfit _ rfl rfl (by simp only [LvArea.height]; omega)
  · rw [if_neg htail]
    have hstack' := hstack [] (by rw [Stacked]; omega)
    rw [List.append_nil] at hstack'
    refine ⟨_, rfl, hstack', fun t ht => ?_⟩
    obtain ⟨h1, h2, h3⟩ := hts t ht
    exact hfit t h1 h2 (Int.le_of_eq h3)

/-- A buffer that is said to hold the area takes it as one tile. -/
theorem lvRefrArea_whole {disp : LvDisp} (hbuf : disp.buffer.buf2 = none) (hw : 0 < area.width)
    (hh : 0 < area.height) (hy : area.y2 < disp.verRes)
    (hsize : area.width * area.height ≤ disp.buffer.size) :
    lvRefrArea disp area = some [area] := by
  have hrows : area.height ≤ disp.buffer.size / area.width :=
    (Int.le_ediv_iff_mul_le hw).mpr (by rwa [Int.mul_comm])
  have hheight : area.height = area.y2 - area.y1 + 1 := rfl
  have hmax : (if disp.buffer.size / area.width > area.height then area.height
      else disp.buffer.size / area.width) = area.height := by
    split <;> omega
  have hdouble := trueDoubleBuf_none hbuf
  simp only [lvRefrArea, hdouble, Bool.false_eq_true, if_false, hmax,
    if_neg (show ¬ area.y2 ≥ disp.verRes by omega), lvRefrRows]
  rw [if_pos (by omega), if_neg (by omega), if_neg (by omega)]
  have hlast : area.y1 + area.height - 1 = area.y2 := by omega
  simp only [Option.map_some, hlast, ne_eq, not_true_eq_false, if_false]

/-- The area is not empty and inside the panel. -/
def LvArea.Inside (d : LcdDev) (a : LvArea) : Prop :=
  0 ≤ a.x1 ∧ a.x1 ≤ a.x2 ∧ a.x2 < d.width.toNat ∧ 0 ≤ a.y1 ∧ a.y1 ≤ a.y2 ∧ a.y2 < d.height.toNat

/-- **The draw buffer.** On every panel of up to 800 × 480 pixels, the tiles of an area fit into the
memory that the port allocated exactly if the area has at most 192000 pixels. -/
theorem tiles_fit_iff (d : LcdDev) (hw : d.width ≤ 800) (hh : d.height ≤ 480) (area : LvArea)
    (ha : area.Inside d) :
    ∃ tiles, lvRefrArea (lvPortDispInit d) area = some tiles ∧
      ((∀ t ∈ tiles, t.bytes ≤ (lvPortDispInit d).buffer.buf1.bytes) ↔
        area.width * area.height ≤ 192000) := by
  obtain ⟨hx1, hx, hx2, hy1, hy, hy2⟩ := ha
  have hw' : d.width.toNat ≤ 800 := hw
  have hh' : d.height.toNat ≤ 480 := hh
  have hwidth : 0 < area.width ∧ area.width ≤ 800 := by
    simp only [LvArea.width]
    omega
  have hheight : 0 < area.height ∧ area.height ≤ 480 := by
    simp only [LvArea.height]
    omega
  have hsize : area.width * area.height ≤ 800 * 480 :=
    Int.mul_le_mul hwidth.2 hheight.2 (Int.le_of_lt hheight.1) (by decide)
  refine ⟨[area], lvRefrArea_whole rfl hwidth.1 hheight.1 hy2 hsize, ?_⟩
  rw [List.forall_mem_singleton]
  have hbytes : (lvPortDispInit d).buffer.buf1.bytes = 384000 := rfl
  rw [hbytes, LvArea.bytes, lvColorSize]
  omega

/-- The landscape screen, and a dialog of 400 × 200 pixels on it. -/
theorem tiles_fit_iff_dialog :
    ∃ tiles, lvRefrArea (lvPortDispInit (ChipKind.nt35510.lcddev 1)) ⟨200, 140, 599, 339⟩ =
        some tiles ∧
      ((∀ t ∈ tiles, t.bytes ≤
          (lvPortDispInit (ChipKind.nt35510.lcddev 1)).buffer.buf1.bytes) ↔
        LvArea.width ⟨200, 140, 599, 339⟩ * LvArea.height ⟨200, 140, 599, 339⟩ ≤ 192000) :=
  tiles_fit_iff (ChipKind.nt35510.lcddev 1) (by decide) (by decide) ⟨200, 140, 599, 339⟩
    (by unfold LvArea.Inside; decide)

/-- The whole landscape screen is one tile, twice the size of the memory. -/
theorem screen_tile_overflows :
    let d := ChipKind.nt35510.lcddev 1
    let screen : LvArea := ⟨0, 0, 799, 479⟩
    screen.Inside d ∧ lvRefrArea (lvPortDispInit d) screen = some [screen] ∧
      screen.bytes = 768000 ∧ ¬ screen.bytes ≤ (lvPortDispInit d).buffer.buf1.bytes := by
  refine ⟨by unfold LvArea.Inside; decide, ?_, by decide, by decide⟩
  exact lvRefrArea_whole rfl (by decide) (by decide) (by decide) (by decide)

end AtkOnenet
