import AtkOnenet.Gui.Area

/-!
# Drawing the objects (`GUI/lvgl/src/lv_core/lv_refr.c`)

An object with its children is a tree, the head of a list of children is the youngest one and lies
on top. `lvRefrObj` draws a tree into a picture, from the oldest child to the youngest. Before it
draws a part of the screen, the renderer looks for the topmost object that covers the part
(`lvRefrGetTopObj`), and then draws this object and what lies over it (`lvRefrObjAndChildren`).

* `lvRefrObj_apply`: the colour that a tree gives to a pixel (`LvObj.paint`) does not depend on the
  mask that the pixel is drawn in.
* `lvRefrObjAndChildren_eq`: what starts at the topmost object is the picture of the whole tree, if
  the objects answer the check for a covered mask rightly (`LvDesign.CoverRight`).
-/

namespace AtkOnenet

/-- `lv_color_t`. -/
abbrev LvColor := UInt16

def lvOpaCover : UInt8 := 255
def lvOpaMax : UInt8 := 251

/-- `LV_RADIUS_CIRCLE`, which is `LV_COORD_MAX`. -/
def lvRadiusCircle : Int := 31768

/-- What the style and the `design_cb` of an object with given coordinates make of the colour of a
pixel. -/
structure LvDesign where
  bodyOpa : UInt8
  /-- `lv_obj_get_opa_scale`. -/
  opaScale : UInt8
  coverChk : LvArea → LvArea → Bool
  drawMain : LvArea → Pixel → LvColor → LvColor
  drawPost : LvArea → Pixel → LvColor → LvColor

/-- A positive `LV_DESIGN_COVER_CHK` of a fully solid object is right: nothing shines through. It is not
for an image with a low `image.opa`, which `lv_img_design` does not ask for. -/
def LvDesign.CoverRight (d : LvDesign) : Prop :=
  d.bodyOpa = lvOpaCover → d.opaScale = lvOpaCover → ∀ coords mask, d.coverChk coords mask →
    ∀ p ∈ mask.pixels, ∀ v w, d.drawMain coords p v = d.drawMain coords p w

/-- The attributes of an `lv_obj_t`. -/
structure LvAttr where
  coords : LvArea
  extDrawPad : Nat
  hidden : Bool
  design : LvDesign

/-- `lv_obj_t`. -/
inductive LvObj where
  | mk (attr : LvAttr) (childLl : List LvObj)

mutual

/-- The designs of all objects of the tree have the property. -/
def LvObj.All (P : LvDesign → Prop) : LvObj → Prop
  | .mk attr childLl => P attr.design ∧ allChildren P childLl

def allChildren (P : LvDesign → Prop) : List LvObj → Prop
  | [] => True
  | childP :: older => childP.All P ∧ allChildren P older

end

def LvObj.attr : LvObj → LvAttr
  | mk attr _ => attr

def LvObj.childLl : LvObj → List LvObj
  | mk _ childLl => childLl

/-! ## The design of `lv_obj` (`lv_obj_design`) -/

/-- The coordinates without the rows and the columns of the round corners. -/
def LvArea.shrink (a : LvArea) (r : Int) : LvArea := ⟨a.x1 + r, a.y1 + r, a.x2 - r, a.y2 - r⟩

/-- `lv_obj_design`, with what `lv_draw_rect` draws. -/
def LvDesign.obj (bodyOpa opaScale : UInt8) (radius : Int)
    (drawRect : LvArea → Pixel → LvColor → LvColor) : LvDesign where
  bodyOpa := bodyOpa
  opaScale := opaScale
  coverChk coords mask :=
    lvAreaIsIn mask coords && !(bodyOpa < lvOpaMax) && radius != lvRadiusCircle &&
      lvAreaIsIn mask { coords with x1 := coords.x1 + radius, x2 := coords.x2 - radius } &&
      lvAreaIsIn mask { coords with y1 := coords.y1 + radius, y2 := coords.y2 - radius }
  drawMain := drawRect
  drawPost _ _ v := v

/-- The check of `lv_obj_design` is right if the rectangle is solid between its corners. -/
theorem LvDesign.obj_coverRight {bodyOpa opaScale : UInt8} {radius : Int}
    {drawRect : LvArea → Pixel → LvColor → LvColor}
    (hsolid : bodyOpa = lvOpaCover → opaScale = lvOpaCover → ∀ coords : LvArea,
      ∀ p ∈ (coords.shrink radius).pixels, ∀ v w, drawRect coords p v = drawRect coords p w) :
    (LvDesign.obj bodyOpa opaScale radius drawRect).CoverRight := by
  intro hopa hscale coords mask hcov p hp v w
  refine hsolid hopa hscale coords p ?_ v w
  simp only [obj, Bool.and_eq_true] at hcov
  obtain ⟨⟨-, hx⟩, hy⟩ := hcov
  have hx' := LvArea.mem_of_isIn hx hp
  have hy' := LvArea.mem_of_isIn hy hp
  exact ⟨⟨hx'.1.1, hy'.1.2⟩, hx'.2.1, hy'.2.2⟩

/-- A rectangle of one colour, without a border, a shadow and round corners, as the screen has it. -/
def LvDesign.fill (color : LvColor) : LvDesign :=
  .obj lvOpaCover lvOpaCover 0 fun coords p v => if p ∈ coords.pixels then color else v

theorem LvDesign.fill_coverRight (color : LvColor) : (LvDesign.fill color).CoverRight := by
  refine obj_coverRight fun _ _ coords p hp v w => ?_
  have hin : p ∈ coords.pixels := by
    simpa only [LvArea.shrink, LvArea.mem_pixels, Int.add_zero, Int.sub_zero] using hp
  rw [if_pos hin, if_pos hin]

/-- A style with nothing to see. -/
def LvDesign.transp : LvDesign := .obj 0 lvOpaCover 0 fun _ _ v => v

/-- A picture in the draw buffer. -/
abbrev Pic := Pixel → LvColor

/-- Drawing is confined to the mask. -/
def Pic.draw (f : Pixel → LvColor → LvColor) (mask : LvArea) (pic : Pic) : Pic :=
  fun p => if p ∈ mask.pixels then f p (pic p) else pic p

namespace LvAttr

/-- The coordinates with the extra size for drawing. -/
def extArea (o : LvAttr) : LvArea := o.coords.grow o.extDrawPad

/-- `design_cb` with `LV_DESIGN_DRAW_MAIN`. -/
def drawMain (o : LvAttr) (mask : LvArea) (pic : Pic) : Pic :=
  pic.draw (o.design.drawMain o.coords) mask

/-- `design_cb` with `LV_DESIGN_DRAW_POST`. -/
def drawPost (o : LvAttr) (mask : LvArea) (pic : Pic) : Pic :=
  pic.draw (o.design.drawPost o.coords) mask

/-- The checks of `lv_refr_get_top_obj` on an object. -/
def covers (o : LvAttr) (area : LvArea) : Bool :=
  o.design.bodyOpa == lvOpaCover && o.design.coverChk o.coords area &&
    o.design.opaScale == lvOpaCover

end LvAttr

mutual

/-- `lv_refr_obj`. -/
def lvRefrObj : LvObj → LvArea → Pic → Pic
  | .mk obj childLl, maskOri, pic =>
    if obj.hidden then pic
    else
      let (objExtMask, unionOk) := lvAreaIntersect maskOri obj.extArea
      if unionOk then
        let pic := obj.drawMain objExtMask pic
        let (objMask, unionOk) := lvAreaIntersect maskOri obj.coords
        let pic := if unionOk then lvRefrChildren childLl objMask pic else pic
        obj.drawPost objExtMask pic
      else pic

/-- The loop of `lv_refr_obj` over the children, from the tail to the head. -/
def lvRefrChildren : List LvObj → LvArea → Pic → Pic
  | [], _, pic => pic
  | childP :: older, objMask, pic =>
    let pic := lvRefrChildren older objMask pic
    let (maskChild, unionOk) := lvAreaIntersect objMask childP.attr.extArea
    if unionOk then lvRefrObj childP maskChild pic else pic

end

/-- An object in a tree, with the chain of its parents and, for each, the younger siblings on the
way, from the head of the list on. -/
structure LvPlace where
  top : LvObj
  par : List (LvAttr × List LvObj)

mutual

/-- `lv_refr_get_top_obj`. -/
def lvRefrGetTopObj (area : LvArea) : LvObj → Option LvPlace
  | .mk obj childLl =>
    if lvAreaIsIn area obj.coords && !obj.hidden then
      match lvRefrGetTopChild area obj [] childLl with
      | some foundP => some foundP
      | none => if obj.covers area then some ⟨.mk obj childLl, []⟩ else none
    else none

/-- The loop of `lv_refr_get_top_obj` over the children, behind the `younger` ones. -/
def lvRefrGetTopChild (area : LvArea) (obj : LvAttr) (younger : List LvObj) :
    List LvObj → Option LvPlace
  | [] => none
  | i :: rest =>
    match lvRefrGetTopObj area i with
    | some foundP => some ⟨foundP.top, foundP.par ++ [(obj, younger)]⟩
    | none => lvRefrGetTopChild area obj (younger ++ [i]) rest

end

/-- `lv_refr_obj_and_children`, with the active screen for an object that is not found. -/
def lvRefrObjAndChildren (topP : Option LvPlace) (scrAct : LvObj) (mask : LvArea) (pic : Pic) :
    Pic :=
  let topP := topP.getD ⟨scrAct, []⟩
  topP.par.foldl (fun pic (par, younger) =>
    par.drawPost mask (younger.foldr (fun i pic => lvRefrObj i mask pic) pic))
    (lvRefrObj topP.top mask pic)

/-! ## The colour of a pixel -/

mutual

/-- What the tree makes of the colour of a pixel. -/
def LvObj.paint : LvObj → Pixel → LvColor → LvColor
  | .mk obj childLl, p, v =>
    if obj.hidden = false ∧ p ∈ obj.extArea.pixels then
      let v := obj.design.drawMain obj.coords p v
      obj.design.drawPost obj.coords p
        (if p ∈ obj.coords.pixels then paintChildren childLl p v else v)
    else v

/-- What the children make of the colour of a pixel, the oldest one first. -/
def paintChildren : List LvObj → Pixel → LvColor → LvColor
  | [], _, v => v
  | childP :: older, p, v => childP.paint p (paintChildren older p v)

end

theorem paintChildren_append (cs ds : List LvObj) (p : Pixel) (v : LvColor) :
    paintChildren (cs ++ ds) p v = paintChildren cs p (paintChildren ds p v) := by
  induction cs with
  | nil => rfl
  | cons c cs ih => rw [List.cons_append, paintChildren, ih, paintChildren]

variable {p : Pixel}

theorem LvObj.paint_of_not_mem {obj : LvObj} (h : p ∉ obj.attr.extArea.pixels) (v : LvColor) :
    obj.paint p v = v := by
  cases obj with
  | mk obj childLl => rw [paint, if_neg fun hin => h hin.2]

/-- Drawing through the common part of two areas. -/
theorem clip_apply {mask a : LvArea} {f : LvArea → Pic → Pic} {g : LvColor → LvColor} (pic : Pic)
    (hf : f (lvAreaIntersect mask a).1 pic p =
      if p ∈ (lvAreaIntersect mask a).1.pixels then g (pic p) else pic p) :
    (if (lvAreaIntersect mask a).2 then f (lvAreaIntersect mask a).1 pic else pic) p =
      if p ∈ mask.pixels ∧ p ∈ a.pixels then g (pic p) else pic p := by
  by_cases hok : (lvAreaIntersect mask a).2
  · rw [if_pos hok, hf]
    exact if_congr LvArea.mem_intersect rfl rfl
  · rw [if_neg hok, if_neg]
    rintro ⟨hm, ha⟩
    exact hok (LvArea.intersect_ok_of_mem hm ha)

mutual

/-- Drawing a tree gives its colour to the pixels of the mask, and to no other. -/
theorem lvRefrObj_apply (obj : LvObj) (mask : LvArea) (pic : Pic) (p : Pixel) :
    lvRefrObj obj mask pic p = if p ∈ mask.pixels then obj.paint p (pic p) else pic p := by
  cases obj with
  | mk obj childLl =>
    rw [lvRefrObj, LvObj.paint]
    by_cases hhid : obj.hidden
    · have hout : ¬(obj.hidden = false ∧ p ∈ obj.extArea.pixels) := fun h =>
        Bool.false_ne_true (h.1.symm.trans hhid)
      rw [if_pos hhid, if_neg hout, ite_self]
    rw [if_neg hhid]
    simp only
    rw [clip_apply (f := fun m pic => obj.drawPost m
      (if (lvAreaIntersect mask obj.coords).2 then
        lvRefrChildren childLl (lvAreaIntersect mask obj.coords).1 (obj.drawMain m pic)
      else obj.drawMain m pic)) (g := fun v => obj.design.drawPost obj.coords p
        (if p ∈ obj.coords.pixels then
          paintChildren childLl p (obj.design.drawMain obj.coords p v)
        else obj.design.drawMain obj.coords p v))]
    · by_cases hm : p ∈ mask.pixels <;> by_cases he : p ∈ obj.extArea.pixels <;> simp [hm, he, hhid]
    · -- The children are drawn inside of the object, where it was drawn itself.
      have hchildren := clip_apply (f := lvRefrChildren childLl) (g := paintChildren childLl p)
        (obj.drawMain (lvAreaIntersect mask obj.extArea).1 pic)
        (lvRefrChildren_apply childLl (lvAreaIntersect mask obj.coords).1 _ p)
      by_cases hm : p ∈ (lvAreaIntersect mask obj.extArea).1.pixels
      · have hmask := (LvArea.mem_intersect.mp hm).1
        rw [LvAttr.drawPost, Pic.draw, if_pos hm, if_pos hm, hchildren, LvAttr.drawMain, Pic.draw,
          if_pos hm]
        by_cases hc : p ∈ obj.coords.pixels
        · rw [if_pos ⟨hmask, hc⟩, if_pos hc]
        · rw [if_neg fun h => hc h.2, if_neg hc]
      · have hout : ¬(p ∈ mask.pixels ∧ p ∈ obj.coords.pixels) := fun h =>
          hm (LvArea.mem_intersect.mpr ⟨h.1, LvArea.mem_grow _ h.2⟩)
        rw [LvAttr.drawPost, Pic.draw, if_neg hm, if_neg hm, hchildren, if_neg hout,
          LvAttr.drawMain, Pic.draw, if_neg hm]

theorem lvRefrChildren_apply (childLl : List LvObj) (mask : LvArea) (pic : Pic) (p : Pixel) :
    lvRefrChildren childLl mask pic p =
      if p ∈ mask.pixels then paintChildren childLl p (pic p) else pic p := by
  cases childLl with
  | nil => rw [lvRefrChildren, paintChildren, ite_self]
  | cons childP older =>
    have hrest := lvRefrChildren_apply older mask pic p
    rw [lvRefrChildren, paintChildren]
    simp only
    rw [clip_apply (f := lvRefrObj childP) (g := childP.paint p) _
      (lvRefrObj_apply childP _ _ p), hrest]
    by_cases hm : p ∈ mask.pixels
    · by_cases he : p ∈ childP.attr.extArea.pixels
      · rw [if_pos ⟨hm, he⟩, if_pos hm, if_pos hm]
      · rw [if_neg fun h => he h.2, if_pos hm, if_pos hm, LvObj.paint_of_not_mem he]
    · rw [if_neg fun h => hm h.1, if_neg hm, if_neg hm]

end

/-! ## The topmost object -/

/-- What lies over an object: for each parent, the younger siblings on the way and its own
`LV_DESIGN_DRAW_POST`. -/
def climb (par : List (LvAttr × List LvObj)) (p : Pixel) (v : LvColor) : LvColor :=
  par.foldl (fun v (par, younger) =>
    par.design.drawPost par.coords p (paintChildren younger p v)) v

/-- What a place in a tree makes of the colour of a pixel. -/
def LvPlace.paint (place : LvPlace) (p : Pixel) (v : LvColor) : LvColor :=
  climb place.par p (place.top.paint p v)

theorem foldr_lvRefrObj (younger : List LvObj) (mask : LvArea) (pic : Pic) (p : Pixel) :
    younger.foldr (fun i pic => lvRefrObj i mask pic) pic p =
      if p ∈ mask.pixels then paintChildren younger p (pic p) else pic p := by
  induction younger with
  | nil => rw [List.foldr_nil, paintChildren, ite_self]
  | cons i rest ih =>
    rw [List.foldr_cons, lvRefrObj_apply, ih, paintChildren]
    split <;> rfl

theorem climb_apply (par : List (LvAttr × List LvObj)) (mask : LvArea) (pic : Pic) (p : Pixel) :
    par.foldl (fun pic (par, younger) =>
      par.drawPost mask (younger.foldr (fun i pic => lvRefrObj i mask pic) pic)) pic p =
      if p ∈ mask.pixels then climb par p (pic p) else pic p := by
  induction par generalizing pic with
  | nil => rw [List.foldl_nil, climb, List.foldl_nil, ite_self]
  | cons level par ih =>
    obtain ⟨o, younger⟩ := level
    have hlevel : o.drawPost mask (younger.foldr (fun i pic => lvRefrObj i mask pic) pic) p =
        if p ∈ mask.pixels then o.design.drawPost o.coords p (paintChildren younger p (pic p))
        else pic p := by
      rw [LvAttr.drawPost, Pic.draw, foldr_lvRefrObj]
      split <;> rfl
    rw [List.foldl_cons, ih]
    simp only [hlevel, climb, List.foldl_cons]
    split <;> rfl

theorem lvRefrObjAndChildren_apply (topP : Option LvPlace) (scrAct : LvObj) (mask : LvArea)
    (pic : Pic) (p : Pixel) :
    lvRefrObjAndChildren topP scrAct mask pic p =
      if p ∈ mask.pixels then (topP.getD ⟨scrAct, []⟩).paint p (pic p) else pic p := by
  rw [lvRefrObjAndChildren, climb_apply, lvRefrObj_apply, LvPlace.paint]
  split <;> rfl

theorem LvAttr.drawMain_eq {obj : LvAttr} {area : LvArea} (hright : obj.design.CoverRight)
    (h : obj.covers area = true) (hp : p ∈ area.pixels) (v w : LvColor) :
    obj.design.drawMain obj.coords p v = obj.design.drawMain obj.coords p w := by
  simp only [covers, Bool.and_eq_true, beq_iff_eq] at h
  exact hright h.1.1 h.2 _ _ h.1.2 p hp v w

mutual

/-- The topmost object that covers the area and what lies over it give a pixel of the area the
colour of the whole tree, whatever the colour before was. -/
theorem lvRefrGetTopObj_paint {area : LvArea} (obj : LvObj) {place : LvPlace}
    (hright : obj.All LvDesign.CoverRight) (h : lvRefrGetTopObj area obj = some place)
    (hp : p ∈ area.pixels) (v w : LvColor) :
    place.paint p v = obj.paint p w := by
  cases obj with
  | mk obj childLl =>
    obtain ⟨hobj, hchildren⟩ := hright
    rw [lvRefrGetTopObj] at h
    by_cases hin : lvAreaIsIn area obj.coords && !obj.hidden
    swap
    · rw [if_neg hin] at h
      cases h
    rw [if_pos hin] at h
    simp only [Bool.and_eq_true, Bool.not_eq_true'] at hin
    have hcoords := LvArea.mem_of_isIn hin.1 hp
    have hself (w : LvColor) : (LvObj.mk obj childLl).paint p w =
        obj.design.drawPost obj.coords p
          (paintChildren childLl p (obj.design.drawMain obj.coords p w)) := by
      rw [LvObj.paint, if_pos ⟨hin.2, LvArea.mem_grow _ hcoords⟩]
      simp only [if_pos hcoords]
    cases hchild : lvRefrGetTopChild area obj [] childLl with
    | some foundP =>
      rw [hchild] at h
      obtain rfl := Option.some_inj.mp h
      rw [hself]
      exact lvRefrGetTopChild_paint childLl hchildren hchild hp v _
    | none =>
      rw [hchild] at h
      by_cases hcov : obj.covers area
      · simp only [hcov, if_true, Option.some_inj] at h
        rw [← h, LvPlace.paint, climb, List.foldl_nil, hself, hself,
          LvAttr.drawMain_eq hobj hcov hp v w]
      · simp [hcov] at h

theorem lvRefrGetTopChild_paint {area : LvArea} {obj : LvAttr} {younger : List LvObj}
    (childLl : List LvObj) {place : LvPlace} (hright : allChildren LvDesign.CoverRight childLl)
    (h : lvRefrGetTopChild area obj younger childLl = some place) (hp : p ∈ area.pixels)
    (v w : LvColor) :
    place.paint p v =
      obj.design.drawPost obj.coords p (paintChildren younger p (paintChildren childLl p w)) := by
  cases childLl with
  | nil => cases h
  | cons i rest =>
    obtain ⟨hi, hrest⟩ := hright
    rw [lvRefrGetTopChild] at h
    rw [paintChildren]
    cases htop : lvRefrGetTopObj area i with
    | some foundP =>
      rw [htop] at h
      obtain rfl := Option.some_inj.mp h
      rw [← lvRefrGetTopObj_paint i hi htop hp v, LvPlace.paint, climb, List.foldl_append]
      rfl
    | none =>
      rw [htop] at h
      -- The child joins the younger siblings.
      have ih := lvRefrGetTopChild_paint rest hrest h hp v w
      rw [paintChildren_append] at ih
      exact ih

end

/-- The object that `lv_refr_obj_and_children` starts at, with what lies over it. -/
theorem topPlace_paint {scrAct : LvObj} (hright : scrAct.All LvDesign.CoverRight) {mask : LvArea}
    (hp : p ∈ mask.pixels) (v : LvColor) :
    ((lvRefrGetTopObj mask scrAct).getD ⟨scrAct, []⟩).paint p v = scrAct.paint p v := by
  cases htop : lvRefrGetTopObj mask scrAct with
  | none => rfl
  | some place => exact lvRefrGetTopObj_paint scrAct hright htop hp v v

/-- **The topmost object.** If the checks for a covered mask are right, then starting at the topmost
object that covers the mask, or at the screen if there is none, gives the picture of the whole
tree. -/
theorem lvRefrObjAndChildren_eq {scrAct : LvObj} (hright : scrAct.All LvDesign.CoverRight)
    (mask : LvArea) (pic : Pic) :
    lvRefrObjAndChildren (lvRefrGetTopObj mask scrAct) scrAct mask pic =
      lvRefrObj scrAct mask pic := by
  funext p
  rw [lvRefrObjAndChildren_apply, lvRefrObj_apply]
  by_cases hp : p ∈ mask.pixels
  · rw [if_pos hp, if_pos hp, topPlace_paint hright hp]
  · rw [if_neg hp, if_neg hp]

/-- A mask inside of a red button, under a small green one: the drawing starts at the red button. -/
theorem lvRefrObjAndChildren_eq_button :
    let button : LvObj := .mk ⟨⟨10, 10, 99, 49⟩, 0, false, .fill 0xF800⟩ []
    let small : LvObj := .mk ⟨⟨20, 20, 29, 29⟩, 0, false, .fill 0x07E0⟩ []
    let scr : LvObj := .mk ⟨⟨0, 0, 239, 319⟩, 0, false, .fill 0xFFFF⟩ [small, button]
    let mask : LvArea := ⟨15, 15, 60, 40⟩
    ((lvRefrGetTopObj mask scr).map fun place => place.par.length) = some 1 ∧
      lvRefrObjAndChildren (lvRefrGetTopObj mask scr) scr mask (fun _ => 0) =
        lvRefrObj scr mask fun _ => 0 := by
  intro button small scr mask
  have hright : scr.All LvDesign.CoverRight :=
    ⟨LvDesign.fill_coverRight _, ⟨LvDesign.fill_coverRight _, trivial⟩,
      ⟨LvDesign.fill_coverRight _, trivial⟩, trivial⟩
  exact ⟨by decide +kernel, lvRefrObjAndChildren_eq hright mask _⟩

/-- A covered area has its picture whatever the draw buffer held. -/
theorem paint_congr_of_top {scrAct : LvObj} (hright : scrAct.All LvDesign.CoverRight)
    {area : LvArea} (h : (lvRefrGetTopObj area scrAct).isSome) (hp : p ∈ area.pixels)
    (v w : LvColor) : scrAct.paint p v = scrAct.paint p w := by
  obtain ⟨place, htop⟩ := Option.isSome_iff_exists.mp h
  rw [← lvRefrGetTopObj_paint scrAct hright htop hp v,
    lvRefrGetTopObj_paint scrAct hright htop hp v]

end AtkOnenet
