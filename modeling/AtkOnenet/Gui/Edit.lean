import AtkOnenet.Gui.Invalid
import AtkOnenet.Gui.Object

/-!
# Changing the objects (`GUI/lvgl/src/lv_core/lv_obj.c`)

The setters of an object invalidate its area before and after the change. `lvObjInvalidate` cuts
the area down to what the parents show of it. An object is named by its path from the root of its
tree; `LvObj.find` gives it with the chain of its parents.

What the operations do besides is left out: the signals to the object, its parent and its children, on
the assumption that the signal functions do not change the tree, and the alignment that a new size or
position renews for an object with `realign` set.

* `lvObjChange_marks`: whatever a setter does to an object, every pixel whose colour changes is
  invalid.
* `LvEdit.run_marks`: the same for each of the operations on objects, at any place of the tree.
* `edits_marked`: the same for any number of operations behind a refresh.
-/

namespace AtkOnenet

/-- A parent around one of its children. -/
structure LvFrame where
  attr : LvAttr
  younger : List LvObj
  older : List LvObj

/-- The parent with a list of children in place of the child. -/
def LvFrame.fill (f : LvFrame) (os : List LvObj) : LvObj := .mk f.attr (f.younger ++ os ++ f.older)

/-- The tree with an object at the place, from the nearest parent up to the root. -/
def plug (ctx : List LvFrame) (obj : LvObj) : LvObj := ctx.foldl (fun o f => f.fill [o]) obj

/-- The object at the end of the path, with its parents, the nearest one first. -/
def LvObj.find (obj : LvObj) : List Nat → Option (LvObj × List LvFrame)
  | [] => some (obj, [])
  | i :: path =>
    match obj.childLl[i]? with
    | some child => (child.find path).map fun (o, ctx) =>
        (o, ctx ++ [⟨obj.attr, obj.childLl.take i, obj.childLl.drop (i + 1)⟩])
    | none => none

/-- The loop of `lv_obj_invalidate` over the parents. -/
def lvTruncate : LvArea → List LvFrame → Option LvArea
  | areaTrunc, [] => some areaTrunc
  | areaTrunc, par :: rest =>
    let (areaTrunc, unionOk) := lvAreaIntersect areaTrunc par.attr.coords
    if unionOk then if par.attr.hidden then none else lvTruncate areaTrunc rest else none

/-- `lv_obj_invalidate`, for an object of the active screen or of a layer. -/
def lvObjInvalidate (disp : LvDisp) (obj : LvObj) (ctx : List LvFrame) (inv : LvInv) : LvInv :=
  if obj.attr.hidden then inv
  else match lvTruncate obj.attr.extArea ctx with
    | some areaTrunc => lvInvArea disp (some areaTrunc) inv
    | none => inv

/-- A setter: invalidates the object, changes it, and invalidates it again. -/
def lvObjChange (disp : LvDisp) (f : LvObj → LvObj) (obj : LvObj) (ctx : List LvFrame)
    (inv : LvInv) : LvObj × LvInv :=
  let inv := lvObjInvalidate disp obj ctx inv
  let obj := f obj
  (plug ctx obj, lvObjInvalidate disp obj ctx inv)

mutual

/-- The coordinates of an object and, by `refresh_children_position`, of its children. -/
def LvObj.move (dx dy : Int) : LvObj → LvObj
  | .mk attr childLl =>
    .mk { attr with coords := attr.coords.move dx dy } (refreshChildrenPosition dx dy childLl)

def refreshChildrenPosition (dx dy : Int) : List LvObj → List LvObj
  | [] => []
  | i :: rest => i.move dx dy :: refreshChildrenPosition dx dy rest

end

def LvObj.resize (w h : Int) : LvObj → LvObj
  | .mk attr childLl =>
    let x2 := attr.coords.x1 + w - 1
    let y2 := attr.coords.y1 + h - 1
    .mk { attr with coords := ⟨attr.coords.x1, attr.coords.y1, x2, y2⟩ } childLl

def LvObj.setHidden (en : Bool) : LvObj → LvObj
  | .mk attr childLl => .mk { attr with hidden := en } childLl

def lvObjDefWidth : Int := 60
def lvObjDefHeight : Int := 2 * 60 / 3

/-- A new object: at the left top corner of the parent, with the design of the theme. -/
def lvObjNew (parent : LvObj) (design : LvDesign) : LvObj :=
  let coords := parent.attr.coords
  let x2 := coords.x1 + lvObjDefWidth
  let y2 := coords.y1 + lvObjDefHeight
  .mk ⟨⟨coords.x1, coords.y1, x2, y2⟩, 0, false, design⟩ []

/-! ## The operations: the tree and the invalid areas behind them -/

section Operations

variable (disp : LvDisp) (obj : LvObj) (ctx : List LvFrame) (inv : LvInv)

/-- `lv_obj_set_pos`. Here and below, a screen has no parent and is not an object to work on. -/
def lvObjSetPos (x y : Int) : LvObj × LvInv :=
  match ctx with
  | [] => (plug ctx obj, inv)
  | par :: _ =>
    let dx := x + par.attr.coords.x1 - obj.attr.coords.x1
    let dy := y + par.attr.coords.y1 - obj.attr.coords.y1
    if dx == 0 && dy == 0 then (plug ctx obj, inv)
    else lvObjChange disp (LvObj.move dx dy) obj ctx inv

/-- `lv_obj_set_size`. -/
def lvObjSetSize (w h : Int) : LvObj × LvInv :=
  if obj.attr.coords.width == w && obj.attr.coords.height == h then (plug ctx obj, inv)
  else lvObjChange disp (LvObj.resize w h) obj ctx inv

/-- `lv_obj_set_hidden`. -/
def lvObjSetHidden (en : Bool) : LvObj × LvInv :=
  match ctx with
  | [] => (plug ctx obj, inv)
  | _ =>
    let inv := if !obj.attr.hidden then lvObjInvalidate disp obj ctx inv else inv
    let obj := obj.setHidden en
    let inv := if !obj.attr.hidden then lvObjInvalidate disp obj ctx inv else inv
    (plug ctx obj, inv)

/-- `lv_obj_move_foreground`. -/
def lvObjMoveForeground : LvObj × LvInv :=
  match ctx with
  | [] => (plug ctx obj, inv)
  | parent :: up =>
    if parent.younger.isEmpty then (plug ctx obj, inv)
    else lvObjChange disp (fun _ => .mk parent.attr (obj :: (parent.younger ++ parent.older)))
      (parent.fill [obj]) up inv

/-- `lv_obj_move_background`. -/
def lvObjMoveBackground : LvObj × LvInv :=
  match ctx with
  | [] => (plug ctx obj, inv)
  | parent :: up =>
    if parent.older.isEmpty then (plug ctx obj, inv)
    else lvObjChange disp (fun _ => .mk parent.attr (parent.younger ++ parent.older ++ [obj]))
      (parent.fill [obj]) up inv

/-- `lv_obj_del`. -/
def lvObjDel : LvObj × LvInv :=
  match ctx with
  | [] => (plug ctx obj, inv)
  | par :: up => (plug up (par.fill []), lvObjInvalidate disp obj ctx inv)

/-- `lv_obj_create` with the parent `obj` and no copy. -/
def lvObjCreate (design : LvDesign) : LvObj × LvInv :=
  let newObj := lvObjNew obj design
  let par : LvFrame := ⟨obj.attr, [], obj.childLl⟩
  (plug (par :: ctx) newObj, lvObjInvalidate disp newObj (par :: ctx) inv)

end Operations

/-- An operation on an object. -/
inductive LvEdit where
  | setPos (x y : Int)
  | setSize (w h : Int)
  | setHidden (en : Bool)
  | moveForeground
  | moveBackground
  | del
  | create (design : LvDesign)

/-- The operation on the object at the place. -/
def LvEdit.at (disp : LvDisp) (obj : LvObj) (ctx : List LvFrame) (inv : LvInv) :
    LvEdit → LvObj × LvInv
  | setPos x y => lvObjSetPos disp obj ctx inv x y
  | setSize w h => lvObjSetSize disp obj ctx inv w h
  | setHidden en => lvObjSetHidden disp obj ctx inv en
  | moveForeground => lvObjMoveForeground disp obj ctx inv
  | moveBackground => lvObjMoveBackground disp obj ctx inv
  | del => lvObjDel disp obj ctx inv
  | create design => lvObjCreate disp obj ctx inv design

/-- The operation on the object at the end of the path. -/
def LvEdit.run (disp : LvDisp) (root : LvObj) (path : List Nat) (inv : LvInv) (edit : LvEdit) :
    LvObj × LvInv :=
  match root.find path with
  | some (obj, ctx) => edit.at disp obj ctx inv
  | none => (root, inv)

/-! ## What an operation changes -/

variable {disp : LvDisp} {obj : LvObj} {ctx : List LvFrame} {inv : LvInv} {p : Pixel}

theorem plug_concat (ctx : List LvFrame) (f : LvFrame) (obj : LvObj) :
    plug (ctx ++ [f]) obj = f.fill [plug ctx obj] := by
  rw [plug, List.foldl_append]
  rfl

theorem find_plug {root : LvObj} {path : List Nat} (h : root.find path = some (obj, ctx)) :
    plug ctx obj = root := by
  induction path generalizing root ctx with
  | nil =>
    obtain ⟨rfl, rfl⟩ := Prod.mk.inj (Option.some_inj.mp h)
    rfl
  | cons i path ih =>
    rw [LvObj.find] at h
    cases hchild : root.childLl[i]? with
    | none =>
      rw [hchild] at h
      cases h
    | some child =>
      rw [hchild] at h
      obtain ⟨⟨o, up⟩, hfind, heq⟩ := Option.map_eq_some_iff.mp h
      obtain ⟨rfl, rfl⟩ := Prod.mk.inj heq
      obtain ⟨hi, hget⟩ := List.getElem?_eq_some_iff.mp hchild
      rw [plug_concat, ih hfind]
      have hsplit : root.childLl.take i ++ [child] ++ root.childLl.drop (i + 1) = root.childLl := by
        rw [← hget, List.append_assoc, List.singleton_append, List.cons_getElem_drop_succ,
          List.take_append_drop]
      cases root with
      | mk attr childLl => exact congrArg (LvObj.mk attr) hsplit

/-- The parents show the pixel. -/
def Sees (ctx : List LvFrame) (p : Pixel) : Prop :=
  ∀ f ∈ ctx, p ∈ f.attr.coords.pixels ∧ f.attr.hidden = false

/-- A parent shows its children only on its own coordinates. -/
theorem paint_congr (attr : LvAttr) {cs cs' : List LvObj}
    (h : p ∈ attr.coords.pixels → attr.hidden = false →
      ∀ v, paintChildren cs p v = paintChildren cs' p v) (v : LvColor) :
    (LvObj.mk attr cs).paint p v = (LvObj.mk attr cs').paint p v := by
  rw [LvObj.paint, LvObj.paint]
  by_cases hin : attr.hidden = false ∧ p ∈ attr.extArea.pixels
  · rw [if_pos hin, if_pos hin]
    by_cases hc : p ∈ attr.coords.pixels
    · simp only [if_pos hc, h hc hin.1]
    · simp only [if_neg hc]
  · rw [if_neg hin, if_neg hin]

theorem fill_paint_congr (f : LvFrame) {os os' : List LvObj}
    (h : p ∈ f.attr.coords.pixels → f.attr.hidden = false →
      ∀ v, paintChildren os p v = paintChildren os' p v) (v : LvColor) :
    (f.fill os).paint p v = (f.fill os').paint p v := by
  refine paint_congr f.attr (fun hc hhid w => ?_) v
  simp only [paintChildren_append, h hc hhid]

/-- Two objects in one place look alike if they do where the parents show them. -/
theorem plug_paint_congr {o o' : LvObj} (h : Sees ctx p → ∀ v, o.paint p v = o'.paint p v)
    (v : LvColor) : (plug ctx o).paint p v = (plug ctx o').paint p v := by
  induction ctx generalizing o o' with
  | nil => exact h (fun _ hf => absurd hf List.not_mem_nil) v
  | cons f ctx ih =>
    refine ih fun hsees w => fill_paint_congr f (fun hc hhid w => ?_) w
    exact h (List.forall_mem_cons.mpr ⟨⟨hc, hhid⟩, hsees⟩) w

/-- What the parents show of an area is left of it. -/
theorem mem_lvTruncate {a : LvArea} (hsees : Sees ctx p) (hp : p ∈ a.pixels) :
    ∃ b, lvTruncate a ctx = some b ∧ p ∈ b.pixels := by
  induction ctx generalizing a with
  | nil => exact ⟨a, rfl, hp⟩
  | cons f ctx ih =>
    obtain ⟨⟨hc, hhid⟩, hrest⟩ := List.forall_mem_cons.mp hsees
    obtain ⟨b, hb, hmem⟩ := ih hrest (LvArea.mem_intersect.mpr ⟨hp, hc⟩)
    refine ⟨b, ?_, hmem⟩
    simp only [lvTruncate, LvArea.intersect_ok_of_mem hp hc, if_true, hhid, Bool.false_eq_true,
      if_false, hb]

/-- The invalid areas grow. -/
structure Grows (disp : LvDisp) (inv inv' : LvInv) : Prop where
  ok : inv'.Ok disp
  pending : ∀ p ∈ disp.scrArea.pixels, p ∈ inv.pending → p ∈ inv'.pending

theorem Grows.refl (h : inv.Ok disp) : Grows disp inv inv := ⟨h, fun _ _ hp => hp⟩

theorem Grows.trans {inv' inv'' : LvInv} (h : Grows disp inv inv') (h' : Grows disp inv' inv'') :
    Grows disp inv inv'' :=
  ⟨h'.ok, fun p hp hpend => h'.pending p hp (h.pending p hp hpend)⟩

theorem lvObjInvalidate_grows (h : inv.Ok disp) (obj : LvObj) (ctx : List LvFrame) :
    Grows disp inv (lvObjInvalidate disp obj ctx inv) := by
  unfold lvObjInvalidate
  split
  · exact .refl h
  split
  · exact ⟨lvInvArea_ok h _, fun p hp hpend => mem_lvInvArea h hp (.inl hpend)⟩
  · exact .refl h

/-- An object does nothing to the pixels of the screen that its invalidation leaves out. -/
theorem paint_of_not_pending (h : inv.Ok disp) (hp : p ∈ disp.scrArea.pixels) (hsees : Sees ctx p)
    (hout : p ∉ (lvObjInvalidate disp obj ctx inv).pending) (v : LvColor) :
    obj.paint p v = v := by
  by_cases hext : p ∈ obj.attr.extArea.pixels
  · by_cases hhid : obj.attr.hidden
    · cases obj with
      | mk attr childLl =>
        rw [LvObj.paint, if_neg]
        rintro ⟨hshown, -⟩
        exact Bool.false_ne_true (hshown.symm.trans hhid)
    · obtain ⟨b, hb, hmem⟩ := mem_lvTruncate hsees hext
      rw [lvObjInvalidate, if_neg hhid, hb] at hout
      exact absurd (mem_lvInvArea h hp (.inr hmem)) hout
  · exact LvObj.paint_of_not_mem hext v

/-- Behind an operation, the pixels of the screen whose colour it changed are invalid, with those
that were so before. -/
structure Marks (disp : LvDisp) (root : LvObj) (inv : LvInv) (res : LvObj × LvInv) : Prop where
  grows : Grows disp inv res.2
  paint : ∀ p ∈ disp.scrArea.pixels, p ∉ res.2.pending → ∀ v, res.1.paint p v = root.paint p v

theorem Marks.refl (h : inv.Ok disp) (root : LvObj) : Marks disp root inv (root, inv) :=
  ⟨.refl h, fun _ _ _ _ => rfl⟩

/-- **Setters.** Whatever is done to the object between its two invalidations is marked. -/
theorem lvObjChange_marks (h : inv.Ok disp) (f : LvObj → LvObj) (obj : LvObj)
    (ctx : List LvFrame) : Marks disp (plug ctx obj) inv (lvObjChange disp f obj ctx inv) := by
  have hbefore := lvObjInvalidate_grows h obj ctx
  have hafter := lvObjInvalidate_grows hbefore.ok (f obj) ctx
  refine ⟨hbefore.trans hafter, fun p hp hout v => plug_paint_congr (fun hsees w => ?_) v⟩
  rw [paint_of_not_pending hbefore.ok hp hsees hout,
    paint_of_not_pending h hp hsees fun hpend => hout (hafter.pending p hp hpend)]

theorem lvObjSetHidden_eq (f : LvFrame) (en : Bool) :
    lvObjSetHidden disp obj (f :: ctx) inv en =
      lvObjChange disp (LvObj.setHidden en) obj (f :: ctx) inv := by
  have hguard (o : LvObj) (inv : LvInv) :
      (if !o.attr.hidden then lvObjInvalidate disp o (f :: ctx) inv else inv) =
        lvObjInvalidate disp o (f :: ctx) inv := by
    unfold lvObjInvalidate
    cases o.attr.hidden <;> rfl
  simp only [lvObjSetHidden, lvObjChange, hguard]

theorem lvObjDel_marks (h : inv.Ok disp) (f : LvFrame) (ctx : List LvFrame) :
    Marks disp (plug (f :: ctx) obj) inv (lvObjDel disp obj (f :: ctx) inv) := by
  refine ⟨lvObjInvalidate_grows h obj _, fun p hp hout v => plug_paint_congr (fun hup w => ?_) v⟩
  refine fill_paint_congr f (fun hc hhid u => ?_) w
  have hsees : Sees (f :: ctx) p := List.forall_mem_cons.mpr ⟨⟨hc, hhid⟩, hup⟩
  rw [paintChildren, paintChildren]
  exact (paint_of_not_pending h hp hsees hout u).symm

theorem lvObjCreate_marks (h : inv.Ok disp) (obj : LvObj) (ctx : List LvFrame)
    (design : LvDesign) :
    Marks disp (plug ctx obj) inv (lvObjCreate disp obj ctx inv design) := by
  have hgrows := lvObjInvalidate_grows h (lvObjNew obj design) (⟨obj.attr, [], obj.childLl⟩ :: ctx)
  have htree : (lvObjCreate disp obj ctx inv design).1 =
      plug ctx (.mk obj.attr (lvObjNew obj design :: obj.childLl)) := rfl
  refine ⟨hgrows, fun p hp hout v => ?_⟩
  rw [htree]
  refine plug_paint_congr (fun hup w => ?_) v
  cases obj with
  | mk attr childLl =>
    refine paint_congr attr (fun hc hhid u => ?_) w
    have hsees : Sees (⟨attr, [], childLl⟩ :: ctx) p :=
      List.forall_mem_cons.mpr ⟨⟨hc, hhid⟩, hup⟩
    exact paint_of_not_pending h hp hsees hout _

/-- Each operation marks what it changes. -/
theorem LvEdit.at_marks (h : inv.Ok disp) (obj : LvObj) (ctx : List LvFrame) (edit : LvEdit) :
    Marks disp (plug ctx obj) inv (edit.at disp obj ctx inv) := by
  cases edit with
  | setPos x y =>
    cases ctx with
    | nil => exact .refl h _
    | cons par up =>
      simp only [LvEdit.at, lvObjSetPos]
      split
      · exact .refl h _
      · exact lvObjChange_marks h _ _ _
  | setSize w hh =>
    simp only [LvEdit.at, lvObjSetSize]
    split
    · exact .refl h _
    · exact lvObjChange_marks h _ _ _
  | setHidden en =>
    cases ctx with
    | nil => exact .refl h _
    | cons par up =>
      simp only [LvEdit.at, lvObjSetHidden_eq]
      exact lvObjChange_marks h _ _ _
  | moveForeground =>
    cases ctx with
    | nil => exact .refl h _
    | cons parent up =>
      simp only [LvEdit.at, lvObjMoveForeground]
      split
      · exact .refl h _
      · exact lvObjChange_marks h _ (parent.fill [obj]) up
  | moveBackground =>
    cases ctx with
    | nil => exact .refl h _
    | cons parent up =>
      simp only [LvEdit.at, lvObjMoveBackground]
      split
      · exact .refl h _
      · exact lvObjChange_marks h _ (parent.fill [obj]) up
  | del =>
    cases ctx with
    | nil => exact .refl h _
    | cons par up => exact lvObjDel_marks h par up
  | create design => exact lvObjCreate_marks h obj ctx design

/-- **Operations.** An operation on any object of a tree marks every pixel of the screen whose
colour it changes. -/
theorem LvEdit.run_marks (h : inv.Ok disp) (root : LvObj) (path : List Nat) (edit : LvEdit) :
    Marks disp root inv (edit.run disp root path inv) := by
  unfold LvEdit.run
  cases hfind : root.find path with
  | none => exact .refl h root
  | some place =>
    obtain ⟨obj, ctx⟩ := place
    rw [← find_plug hfind]
    exact edit.at_marks h obj ctx

theorem Marks.trans {root : LvObj} {res res' : LvObj × LvInv} (h : Marks disp root inv res)
    (h' : Marks disp res.1 res.2 res') : Marks disp root inv res' := by
  refine ⟨h.grows.trans h'.grows, fun p hp hout v => ?_⟩
  rw [h'.paint p hp hout]
  exact h.paint p hp (fun hpend => hout (h'.grows.pending p hp hpend)) v

/-- **Many operations.** After any operations behind a refresh, a pixel of the screen whose colour
is not the one that was drawn is in an invalid area. -/
theorem edits_marked (disp : LvDisp) (root : LvObj) (edits : List (List Nat × LvEdit)) :
    let res := edits.foldl (fun res (path, edit) => LvEdit.run disp res.1 path res.2 edit)
      (root, LvInv.cleared)
    ∀ p ∈ disp.scrArea.pixels, ∀ v, res.1.paint p v ≠ root.paint p v → p ∈ res.2.pending := by
  intro res p hp v hne
  have hmarks : Marks disp root LvInv.cleared res := by
    refine List.foldlRecOn edits _ (motive := Marks disp root LvInv.cleared)
      (.refl LvInv.cleared_ok root) fun res h op _ => ?_
    exact h.trans (op.2.run_marks h.grows.ok res.1 op.1)
  by_contra hout
  exact hne (hmarks.paint p hp hout v)

/-! ## The designs of the tree -/

section Designs

variable {P : LvDesign → Prop}

theorem allChildren_append {cs ds : List LvObj} :
    allChildren P (cs ++ ds) ↔ allChildren P cs ∧ allChildren P ds := by
  induction cs with
  | nil => simp [allChildren]
  | cons c cs ih => rw [List.cons_append, allChildren, allChildren, ih, and_assoc]

/-- The designs of a parent and of the other children. -/
def LvFrame.All (P : LvDesign → Prop) (f : LvFrame) : Prop :=
  P f.attr.design ∧ allChildren P f.younger ∧ allChildren P f.older

theorem LvFrame.all_fill {f : LvFrame} {os : List LvObj} :
    (f.fill os).All P ↔ f.All P ∧ allChildren P os := by
  rw [fill, LvObj.All, allChildren_append, allChildren_append, LvFrame.All]
  grind

theorem all_plug : (plug ctx obj).All P ↔ obj.All P ∧ ∀ f ∈ ctx, f.All P := by
  induction ctx generalizing obj with
  | nil => simp [plug]
  | cons f ctx ih =>
    have hplug : plug (f :: ctx) obj = plug ctx (f.fill [obj]) := rfl
    rw [hplug, ih, LvFrame.all_fill, allChildren, allChildren, List.forall_mem_cons]
    grind

mutual

theorem LvObj.all_move (dx dy : Int) (obj : LvObj) : (obj.move dx dy).All P ↔ obj.All P := by
  cases obj with
  | mk attr childLl => exact and_congr_right fun _ => allChildren_move dx dy childLl

theorem allChildren_move (dx dy : Int) (cs : List LvObj) :
    allChildren P (refreshChildrenPosition dx dy cs) ↔ allChildren P cs := by
  cases cs with
  | nil => exact Iff.rfl
  | cons i rest => exact and_congr (i.all_move dx dy) (allChildren_move dx dy rest)

end

theorem LvObj.all_resize {w h : Int} : (obj.resize w h).All P ↔ obj.All P := by
  cases obj with
  | mk attr childLl => exact Iff.rfl

theorem LvObj.all_setHidden {en : Bool} : (obj.setHidden en).All P ↔ obj.All P := by
  cases obj with
  | mk attr childLl => exact Iff.rfl

/-- The design that the operation brings in. -/
def LvEdit.All (P : LvDesign → Prop) : LvEdit → Prop
  | create design => P design
  | _ => True

/-- A setter that keeps the designs of its object keeps those of the tree. -/
theorem all_change {f : LvObj → LvObj} (hf : obj.All P → (f obj).All P)
    (h : (plug ctx obj).All P) : (lvObjChange disp f obj ctx inv).1.All P := by
  obtain ⟨hobj, hctx⟩ := all_plug.mp h
  exact all_plug.mpr ⟨hf hobj, hctx⟩

/-- Where an object goes in the list of the children. -/
theorem all_reorder {f : LvFrame} {cs : List LvObj}
    (hcs : allChildren P (f.younger ++ [obj] ++ f.older) → allChildren P cs)
    (h : (f.fill [obj]).All P) : (LvObj.mk f.attr cs).All P :=
  ⟨h.1, hcs h.2⟩

/-- The designs behind an operation are those of the tree and of the new object. -/
theorem LvEdit.at_all {edit : LvEdit} (h : (plug ctx obj).All P) (he : edit.All P) :
    (edit.at disp obj ctx inv).1.All P := by
  cases edit with
  | setPos x y =>
    cases ctx with
    | nil => exact h
    | cons par up =>
      simp only [LvEdit.at, lvObjSetPos]
      split
      · exact h
      · exact all_change (LvObj.all_move _ _ obj).mpr h
  | setSize w hh =>
    simp only [LvEdit.at, lvObjSetSize]
    split
    · exact h
    · exact all_change LvObj.all_resize.mpr h
  | setHidden en =>
    cases ctx with
    | nil => exact h
    | cons par up =>
      simp only [LvEdit.at, lvObjSetHidden_eq]
      exact all_change LvObj.all_setHidden.mpr h
  | moveForeground =>
    cases ctx with
    | nil => exact h
    | cons parent up =>
      simp only [LvEdit.at, lvObjMoveForeground]
      split
      · exact h
      · refine all_change (all_reorder fun hcs => ?_) h
        simp only [allChildren, allChildren_append] at hcs ⊢
        grind
  | moveBackground =>
    cases ctx with
    | nil => exact h
    | cons parent up =>
      simp only [LvEdit.at, lvObjMoveBackground]
      split
      · exact h
      · refine all_change (all_reorder fun hcs => ?_) h
        simp only [allChildren, allChildren_append] at hcs ⊢
        grind
  | del =>
    cases ctx with
    | nil => exact h
    | cons par up =>
      obtain ⟨-, hctx⟩ := all_plug.mp h
      obtain ⟨hpar, hup⟩ := List.forall_mem_cons.mp hctx
      exact all_plug.mpr ⟨LvFrame.all_fill.mpr ⟨hpar, trivial⟩, hup⟩
  | create design =>
    obtain ⟨hobj, hctx⟩ := all_plug.mp h
    have hpar : LvFrame.All P ⟨obj.attr, [], obj.childLl⟩ := by
      cases obj with
      | mk attr childLl => exact ⟨hobj.1, trivial, hobj.2⟩
    exact all_plug.mpr ⟨⟨he, trivial⟩, List.forall_mem_cons.mpr ⟨hpar, hctx⟩⟩

theorem LvEdit.run_all {root : LvObj} {edit : LvEdit} (h : root.All P) (he : edit.All P)
    (path : List Nat) : (edit.run disp root path inv).1.All P := by
  unfold LvEdit.run
  cases hfind : root.find path with
  | none => exact h
  | some place =>
    rw [← find_plug hfind] at h
    exact at_all h he

end Designs

/-! ## The root of the tree -/

theorem plug_attr (ctx : List LvFrame) {o o' : LvObj} (h : o.attr = o'.attr) :
    (plug ctx o).attr = (plug ctx o').attr := by
  induction ctx generalizing o o' with
  | nil => exact h
  | cons f ctx ih => exact ih rfl

/-- An operation on an object below the root leaves the attributes of the root as they are. -/
theorem LvEdit.at_attr (obj : LvObj) (f : LvFrame) (ctx : List LvFrame) (edit : LvEdit) :
    (edit.at disp obj (f :: ctx) inv).1.attr = (plug (f :: ctx) obj).attr := by
  have hplug (o : LvObj) : (plug (f :: ctx) o).attr = (plug (f :: ctx) obj).attr :=
    plug_attr ctx rfl
  cases edit with
  | setPos x y =>
    simp only [LvEdit.at, lvObjSetPos]
    split
    · rfl
    · exact hplug _
  | setSize w h =>
    simp only [LvEdit.at, lvObjSetSize]
    split
    · rfl
    · exact hplug _
  | setHidden en => exact hplug _
  | moveForeground =>
    simp only [LvEdit.at, lvObjMoveForeground]
    split
    · rfl
    · exact plug_attr ctx rfl
  | moveBackground =>
    simp only [LvEdit.at, lvObjMoveBackground]
    split
    · rfl
    · exact plug_attr ctx rfl
  | del => exact plug_attr ctx rfl
  | create design => exact hplug _

theorem find_ne_nil {root : LvObj} {i : Nat} {path : List Nat}
    (h : root.find (i :: path) = some (obj, ctx)) : ctx ≠ [] := by
  rw [LvObj.find] at h
  split at h
  · obtain ⟨⟨o, up⟩, -, heq⟩ := Option.map_eq_some_iff.mp h
    obtain ⟨-, rfl⟩ := Prod.mk.inj heq
    exact List.concat_ne_nil _ _
  · cases h

theorem LvEdit.run_attr (root : LvObj) (i : Nat) (path : List Nat) (edit : LvEdit) :
    (edit.run disp root (i :: path) inv).1.attr = root.attr := by
  unfold LvEdit.run
  cases hfind : root.find (i :: path) with
  | none => rfl
  | some place =>
    obtain ⟨obj, ctx⟩ := place
    cases ctx with
    | nil => exact absurd rfl (find_ne_nil hfind)
    | cons f ctx =>
      rw [← find_plug hfind]
      exact edit.at_attr obj f ctx

theorem LvEdit.create_attr (root : LvObj) (path : List Nat) (design : LvDesign) :
    ((LvEdit.create design).run disp root path inv).1.attr = root.attr := by
  unfold LvEdit.run
  cases hfind : root.find path with
  | none => rfl
  | some place =>
    rw [← find_plug hfind]
    exact plug_attr place.2 rfl

end AtkOnenet
