import AtkOnenet.Gui.Display
import Mathlib.Data.Set.Basic

/-!
# Areas (`GUI/lvgl/src/lv_misc/lv_area.c`)

An area stands for the set of its pixels: `lv_area_intersect` gives the pixels that two areas have
in common, and `lv_area_join` an area around both. The coordinates are integers, without the bounds
of `lv_coord_t`.
-/

namespace AtkOnenet

abbrev Pixel := Int × Int

namespace LvArea

/-- The pixels of the area. -/
def pixels (a : LvArea) : Set Pixel :=
  { p | (a.x1 ≤ p.1 ∧ a.y1 ≤ p.2) ∧ p.1 ≤ a.x2 ∧ p.2 ≤ a.y2 }

/-- `lv_area_get_size`. -/
def getSize (a : LvArea) : UInt32 := UInt32.ofInt a.width * UInt32.ofInt a.height

/-- The area with a border of `pad` pixels. -/
def grow (a : LvArea) (pad : Nat) : LvArea := ⟨a.x1 - pad, a.y1 - pad, a.x2 + pad, a.y2 + pad⟩

/-- The area moved by `dx` columns and `dy` rows. -/
def move (a : LvArea) (dx dy : Int) : LvArea := ⟨a.x1 + dx, a.y1 + dy, a.x2 + dx, a.y2 + dy⟩

end LvArea

/-- `lv_area_intersect`: the common part, and whether there is one. -/
def lvAreaIntersect (a b : LvArea) : LvArea × Bool :=
  let res : LvArea := ⟨max a.x1 b.x1, max a.y1 b.y1, min a.x2 b.x2, min a.y2 b.y2⟩
  (res, !(res.x1 > res.x2 || res.y1 > res.y2))

def lvAreaJoin (a b : LvArea) : LvArea :=
  ⟨min a.x1 b.x1, min a.y1 b.y1, max a.x2 b.x2, max a.y2 b.y2⟩

def lvAreaIsOn (a b : LvArea) : Bool :=
  a.x1 ≤ b.x2 && a.x2 ≥ b.x1 && a.y1 ≤ b.y2 && a.y2 ≥ b.y1

def lvAreaIsIn (ain aholder : LvArea) : Bool :=
  ain.x1 ≥ aholder.x1 && ain.y1 ≥ aholder.y1 && ain.x2 ≤ aholder.x2 && ain.y2 ≤ aholder.y2

namespace LvArea

variable {a b : LvArea} {p : Pixel}

theorem mem_pixels : p ∈ a.pixels ↔ (a.x1 ≤ p.1 ∧ a.y1 ≤ p.2) ∧ p.1 ≤ a.x2 ∧ p.2 ≤ a.y2 := Iff.rfl

instance (a : LvArea) (p : Pixel) : Decidable (p ∈ a.pixels) := decidable_of_iff _ mem_pixels.symm

/-- The area has a pixel. -/
def Nonempty (a : LvArea) : Prop := a.x1 ≤ a.x2 ∧ a.y1 ≤ a.y2

theorem nonempty_of_mem (h : p ∈ a.pixels) : a.Nonempty :=
  ⟨Int.le_trans h.1.1 h.2.1, Int.le_trans h.1.2 h.2.2⟩

theorem mem_intersect : p ∈ (lvAreaIntersect a b).1.pixels ↔ p ∈ a.pixels ∧ p ∈ b.pixels := by
  simp only [mem_pixels, lvAreaIntersect]
  omega

/-- The test of `lv_area_intersect` for a common part. -/
theorem intersect_ok : (lvAreaIntersect a b).2 = true ↔ (lvAreaIntersect a b).1.Nonempty := by
  simp only [lvAreaIntersect, Nonempty, Bool.not_eq_true', Bool.or_eq_false_iff,
    decide_eq_false_iff_not]
  omega

theorem intersect_ok_of_mem (ha : p ∈ a.pixels) (hb : p ∈ b.pixels) :
    (lvAreaIntersect a b).2 = true :=
  intersect_ok.mpr (nonempty_of_mem (mem_intersect.mpr ⟨ha, hb⟩))

theorem mem_join_left (h : p ∈ a.pixels) : p ∈ (lvAreaJoin a b).pixels := by
  simp only [mem_pixels, lvAreaJoin] at h ⊢
  omega

theorem mem_join_right (h : p ∈ b.pixels) : p ∈ (lvAreaJoin a b).pixels := by
  simp only [mem_pixels, lvAreaJoin] at h ⊢
  omega

theorem isIn_iff :
    lvAreaIsIn a b = true ↔ (b.x1 ≤ a.x1 ∧ b.y1 ≤ a.y1) ∧ a.x2 ≤ b.x2 ∧ a.y2 ≤ b.y2 := by
  simp only [lvAreaIsIn, Bool.and_eq_true, decide_eq_true_eq, and_assoc, ge_iff_le]

theorem mem_of_isIn (h : lvAreaIsIn a b = true) (hp : p ∈ a.pixels) : p ∈ b.pixels := by
  obtain ⟨h1, h2⟩ := isIn_iff.mp h
  obtain ⟨h3, h4⟩ := mem_pixels.mp hp
  rw [mem_pixels]
  omega

theorem mem_grow (pad : Nat) (h : p ∈ a.pixels) : p ∈ (a.grow pad).pixels := by
  simp only [mem_pixels, grow] at h ⊢
  omega

end LvArea

end AtkOnenet
