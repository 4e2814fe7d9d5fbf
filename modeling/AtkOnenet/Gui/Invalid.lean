import AtkOnenet.Gui.Area
import Mathlib.Algebra.BigOperators.Group.Finset.Basic
import Mathlib.Algebra.Order.BigOperators.Group.Finset

/-!
# The invalid areas (`GUI/lvgl/src/lv_core/lv_refr.c`)

The display keeps the areas that are to be redrawn in an array of `LV_INV_BUF_SIZE` entries.
`lvInvArea` adds one, and `lvRefrJoinArea` joins those that have common parts before a refresh.
`LvInv.pending` is the set of pixels that the array stands for.

* `mem_lvInvArea`: the array stands for every pixel of the screen that was invalidated, also when
  it has no place left.
* `lvRefrJoinArea_joins`: joining loses no pixel, keeps to the screen and does not make more pixels
  to redraw.
* `invalidated_joined`: what a refresh redraws behind any number of invalidated areas.
-/

namespace AtkOnenet

def lvInvBufSize : Nat := 32

/-- The invalid areas of an `lv_disp_t`. -/
structure LvInv where
  invAreas : Nat → LvArea
  invAreaJoined : Nat → Bool
  invP : Nat
  fits : invP ≤ lvInvBufSize

/-- The area of the whole screen. -/
def LvDisp.scrArea (disp : LvDisp) : LvArea := ⟨0, 0, disp.horRes - 1, disp.verRes - 1⟩

/-- `lv_inv_area`, where `none` is the null pointer. The port sets no `rounder_cb`. -/
def lvInvArea (disp : LvDisp) (area : Option LvArea) (s : LvInv) : LvInv :=
  match area with
  | none => { s with invP := 0, fits := Nat.zero_le _ }
  | some area =>
    let (comArea, suc) := lvAreaIntersect area disp.scrArea
    if suc then
      if (List.range s.invP).any fun i => lvAreaIsIn comArea (s.invAreas i) then s
      else if h : s.invP < lvInvBufSize then
        { s with
          invAreas := Function.update s.invAreas s.invP comArea, invP := s.invP + 1, fits := h }
      else
        { s with invAreas := Function.update s.invAreas 0 disp.scrArea, invP := 1, fits := by decide }
    else s

/-- The body of the inner loop of `lv_refr_join_area`. -/
def lvRefrJoinFrom (joinIn : Nat) (s : LvInv) (joinFrom : Nat) : LvInv :=
  if s.invAreaJoined joinFrom || joinIn == joinFrom then s
  else if lvAreaIsOn (s.invAreas joinIn) (s.invAreas joinFrom) then
    let joinedArea := lvAreaJoin (s.invAreas joinIn) (s.invAreas joinFrom)
    if joinedArea.getSize < (s.invAreas joinIn).getSize + (s.invAreas joinFrom).getSize then
      { s with
        invAreas := Function.update s.invAreas joinIn joinedArea
        invAreaJoined := Function.update s.invAreaJoined joinFrom true }
    else s
  else s

/-- `lv_refr_join_area`. -/
def lvRefrJoinArea (s : LvInv) : LvInv :=
  (List.range s.invP).foldl (fun s joinIn =>
    if s.invAreaJoined joinIn then s
    else (List.range s.invP).foldl (lvRefrJoinFrom joinIn) s) s

/-- The clean-up at the end of `lv_disp_refr_task`. -/
def LvInv.cleared : LvInv := ⟨fun _ => ⟨0, 0, 0, 0⟩, fun _ => false, 0, Nat.zero_le _⟩

variable {disp : LvDisp} {s t u : LvInv} {a : LvArea} {p : Pixel}

/-! ## What the array stands for -/

/-- The area has a pixel and is on the screen. -/
structure LvDisp.Holds (disp : LvDisp) (a : LvArea) : Prop where
  nonempty : a.Nonempty
  isIn : lvAreaIsIn a disp.scrArea = true

namespace LvInv

/-- The pixels of the areas that are not joined into another one. -/
def pending (s : LvInv) : Set Pixel :=
  { p | ∃ i < s.invP, s.invAreaJoined i = false ∧ p ∈ (s.invAreas i).pixels }

/-- The array between two refreshes: areas on the screen, none joined. -/
structure Ok (disp : LvDisp) (s : LvInv) : Prop where
  holds : ∀ i < s.invP, disp.Holds (s.invAreas i)
  joined : ∀ i, s.invAreaJoined i = false

theorem Ok.mem_pending (h : Ok disp s) :
    p ∈ s.pending ↔ ∃ i < s.invP, p ∈ (s.invAreas i).pixels := by
  simp only [pending, Set.mem_ofPred_eq, h.joined, true_and]

theorem cleared_ok : Ok disp cleared :=
  ⟨fun _ h => absurd h (Nat.not_lt_zero _), fun _ => rfl⟩

theorem not_mem_cleared : p ∉ cleared.pending := fun ⟨_, h, _⟩ => Nat.not_lt_zero _ h

end LvInv

theorem LvDisp.Holds.scrArea (h : disp.Holds a) : disp.Holds disp.scrArea := by
  obtain ⟨⟨h1, h2⟩, h⟩ := h
  obtain ⟨⟨h3, h4⟩, h5, h6⟩ := LvArea.isIn_iff.mp h
  exact ⟨⟨by omega, by omega⟩, LvArea.isIn_iff.mpr ⟨⟨le_rfl, le_rfl⟩, le_rfl, le_rfl⟩⟩

theorem LvDisp.Holds.mem (h : disp.Holds a) (hp : p ∈ a.pixels) : p ∈ disp.scrArea.pixels :=
  LvArea.mem_of_isIn h.isIn hp

/-- What `lv_area_intersect` leaves of an area is on the screen. -/
theorem holds_intersect (h : (lvAreaIntersect a disp.scrArea).2 = true) :
    disp.Holds (lvAreaIntersect a disp.scrArea).1 := by
  refine ⟨LvArea.intersect_ok.mp h, LvArea.isIn_iff.mpr ?_⟩
  simp only [lvAreaIntersect]
  omega

/-! ## `lv_inv_area` -/

/-- The four ways through `lv_inv_area`. -/
theorem lvInvArea_cases (disp : LvDisp) (a : LvArea) (s : LvInv) :
    let com := (lvAreaIntersect a disp.scrArea).1
    let t := lvInvArea disp (some a) s
    ((lvAreaIntersect a disp.scrArea).2 = false ∧ t = s) ∨
    (∃ i < s.invP, lvAreaIsIn com (s.invAreas i) = true ∧ t = s) ∨
    ((lvAreaIntersect a disp.scrArea).2 = true ∧ s.invP < lvInvBufSize ∧
      t.invAreas = Function.update s.invAreas s.invP com ∧
      t.invAreaJoined = s.invAreaJoined ∧ t.invP = s.invP + 1) ∨
    ((lvAreaIntersect a disp.scrArea).2 = true ∧ s.invP = lvInvBufSize ∧
      t.invAreas = Function.update s.invAreas 0 disp.scrArea ∧
      t.invAreaJoined = s.invAreaJoined ∧ t.invP = 1) := by
  intro com t
  simp only [t, lvInvArea]
  cases hsuc : (lvAreaIntersect a disp.scrArea).2 with
  | false => exact .inl ⟨rfl, by rw [if_neg Bool.false_ne_true]⟩
  | true =>
    rw [if_pos rfl]
    by_cases hin : (List.range s.invP).any fun i => lvAreaIsIn com (s.invAreas i)
    · obtain ⟨i, hi, hin'⟩ := List.any_eq_true.mp hin
      exact .inr (.inl ⟨i, List.mem_range.mp hi, hin', if_pos hin⟩)
    · rw [if_neg hin]
      by_cases h : s.invP < lvInvBufSize
      · rw [dif_pos h]
        exact .inr (.inr (.inl ⟨rfl, h, rfl, rfl, rfl⟩))
      · rw [dif_neg h]
        exact .inr (.inr (.inr ⟨rfl, Nat.le_antisymm s.fits (Nat.le_of_not_lt h), rfl, rfl, rfl⟩))

theorem lvInvArea_ok (h : s.Ok disp) (a : LvArea) : (lvInvArea disp (some a) s).Ok disp := by
  obtain ⟨-, ht⟩ | ⟨-, -, -, ht⟩ | ⟨hsuc, -, hareas, hjoined, hp⟩ | ⟨hsuc, -, hareas, hjoined, hp⟩ :=
    lvInvArea_cases disp a s
  · rwa [ht]
  · rwa [ht]
  · refine ⟨fun i hi => ?_, fun i => by rw [hjoined]; exact h.joined i⟩
    rw [hareas]
    by_cases hlast : i = s.invP
    · rw [hlast, Function.update_self]
      exact holds_intersect hsuc
    · rw [Function.update_of_ne hlast]
      exact h.holds i (by omega)
  · refine ⟨fun i hi => ?_, fun i => by rw [hjoined]; exact h.joined i⟩
    obtain rfl : i = 0 := by omega
    rw [hareas, Function.update_self]
    exact (holds_intersect hsuc).scrArea

/-- The array does not lose a pixel, and takes in the pixels of the area on the screen. -/
theorem mem_lvInvArea (h : s.Ok disp) {a : LvArea} (hp : p ∈ disp.scrArea.pixels)
    (hpend : p ∈ s.pending ∨ p ∈ a.pixels) : p ∈ (lvInvArea disp (some a) s).pending := by
  rw [(lvInvArea_ok h a).mem_pending]
  rw [h.mem_pending] at hpend
  have hcom : p ∈ a.pixels → p ∈ (lvAreaIntersect a disp.scrArea).1.pixels :=
    fun ha => LvArea.mem_intersect.mpr ⟨ha, hp⟩
  obtain ⟨hsuc, ht⟩ | ⟨i, hi, hin, ht⟩ | ⟨-, -, hareas, -, hinvP⟩ | ⟨-, -, hareas, -, hinvP⟩ :=
    lvInvArea_cases disp a s
  · rw [ht]
    refine hpend.resolve_right fun ha => ?_
    rw [LvArea.intersect_ok_of_mem ha hp] at hsuc
    cases hsuc
  · rw [ht]
    rcases hpend with hpend | ha
    · exact hpend
    · exact ⟨i, hi, LvArea.mem_of_isIn hin (hcom ha)⟩
  · rw [hareas, hinvP]
    rcases hpend with ⟨i, hi, hmem⟩ | ha
    · exact ⟨i, by omega, by rwa [Function.update_of_ne (by omega)]⟩
    · exact ⟨s.invP, by omega, by rw [Function.update_self]; exact hcom ha⟩
  · rw [hareas, hinvP]
    exact ⟨0, Nat.one_pos, by rwa [Function.update_self]⟩

/-- With a place left, the array stands for no other pixel. -/
theorem mem_of_lvInvArea (h : s.Ok disp) {a : LvArea} (hfull : s.invP < lvInvBufSize)
    (hp : p ∈ (lvInvArea disp (some a) s).pending) : p ∈ s.pending ∨ p ∈ a.pixels := by
  rw [(lvInvArea_ok h a).mem_pending] at hp
  rw [h.mem_pending]
  obtain ⟨-, ht⟩ | ⟨-, -, -, ht⟩ | ⟨-, -, hareas, -, hinvP⟩ | ⟨-, hfull', -⟩ :=
    lvInvArea_cases disp a s
  · exact .inl (by rwa [ht] at hp)
  · exact .inl (by rwa [ht] at hp)
  · rw [hareas, hinvP] at hp
    obtain ⟨i, hi, hmem⟩ := hp
    by_cases hlast : i = s.invP
    · rw [hlast, Function.update_self] at hmem
      exact .inr (LvArea.mem_intersect.mp hmem).1
    · rw [Function.update_of_ne hlast] at hmem
      exact .inl ⟨i, by omega, hmem⟩
  · omega

/-! ## `lv_refr_join_area` -/

/-- The number of pixels of the area. -/
def LvArea.count (a : LvArea) : Nat := a.width.toNat * a.height.toNat

/-- The number of pixels that a refresh redraws, those of common parts more than once. -/
def LvInv.load (s : LvInv) : Nat :=
  ∑ i ∈ Finset.range s.invP, if s.invAreaJoined i then 0 else (s.invAreas i).count

section Join

variable (hres : disp.horRes ≤ 32767) (vres : disp.verRes ≤ 32767)

include hres vres in
/-- On a screen with coordinates of 16 bits the size of an area does not overflow. -/
theorem getSize_eq (h : disp.Holds a) : a.getSize.toNat = a.count ∧ a.count < 2 ^ 30 := by
  obtain ⟨⟨h1, h2⟩, h⟩ := h
  obtain ⟨⟨h3, h4⟩, h5, h6⟩ := LvArea.isIn_iff.mp h
  simp only [LvDisp.scrArea] at h3 h4 h5 h6
  have hw : 0 ≤ a.width ∧ a.width.toNat ≤ 32767 := by unfold LvArea.width; omega
  have hh : 0 ≤ a.height ∧ a.height.toNat ≤ 32767 := by unfold LvArea.height; omega
  have hlt : a.width.toNat * a.height.toNat < 2 ^ 30 :=
    calc a.width.toNat * a.height.toNat ≤ 32767 * 32767 := Nat.mul_le_mul hw.2 hh.2
      _ < 2 ^ 30 := by decide
  have hword (n : Int) (h0 : 0 ≤ n) (hn : n.toNat ≤ 32767) : (UInt32.ofInt n).toNat = n.toNat := by
    have hmod : (n % 2 ^ 32).toNat = n.toNat := by omega
    rw [UInt32.ofInt, hmod, UInt32.toNat_ofNat_of_lt' (show n.toNat < 2 ^ 32 by omega)]
  refine ⟨?_, hlt⟩
  rw [LvArea.getSize, UInt32.toNat_mul, hword _ hw.1 hw.2, hword _ hh.1 hh.2, LvArea.count,
    Nat.mod_eq_of_lt (by omega)]

theorem LvDisp.Holds.join {b : LvArea} (ha : disp.Holds a) (hb : disp.Holds b) :
    disp.Holds (lvAreaJoin a b) := by
  obtain ⟨⟨h1, h2⟩, ha⟩ := ha
  obtain ⟨⟨h3, h4⟩, h5, h6⟩ := LvArea.isIn_iff.mp ha
  obtain ⟨⟨h7, h8⟩, h9, h10⟩ := LvArea.isIn_iff.mp hb.isIn
  refine ⟨⟨?_, ?_⟩, LvArea.isIn_iff.mpr ?_⟩ <;> simp only [lvAreaJoin] <;> omega

/-- From `s` to `t` areas were joined. -/
structure Joins (disp : LvDisp) (s t : LvInv) : Prop where
  invP : t.invP = s.invP
  holds : ∀ i < t.invP, disp.Holds (t.invAreas i)
  pending : s.pending ⊆ t.pending
  load : t.load ≤ s.load

theorem Joins.refl (h : ∀ i < s.invP, disp.Holds (s.invAreas i)) : Joins disp s s :=
  ⟨rfl, h, le_rfl, le_rfl⟩

theorem Joins.trans (h : Joins disp s t) (h' : Joins disp t u) : Joins disp s u :=
  ⟨h'.invP.trans h.invP, h'.holds, h.pending.trans h'.pending, h'.load.trans h.load⟩

/-- A sum with one of its terms replaced. -/
theorem sum_update (w : Nat → Nat) {n i : Nat} (hi : i < n) (v : Nat) :
    (∑ k ∈ Finset.range n, Function.update w i v k) + w i = (∑ k ∈ Finset.range n, w k) + v := by
  have hmem := Finset.mem_range.mpr hi
  have hnew := Finset.add_sum_erase _ (Function.update w i v) hmem
  have hold := Finset.add_sum_erase _ w hmem
  have hrest : ∑ k ∈ (Finset.range n).erase i, Function.update w i v k =
      ∑ k ∈ (Finset.range n).erase i, w k :=
    Finset.sum_congr rfl fun k hk => Function.update_of_ne (Finset.ne_of_mem_erase hk) _ _
  rw [Function.update_self] at hnew
  omega

/-- One turn of the inner loop leaves the array as it is, or joins the area `j` into `i`. -/
theorem lvRefrJoinFrom_cases (s : LvInv) (i j : Nat) :
    let joined := lvAreaJoin (s.invAreas i) (s.invAreas j)
    let t := lvRefrJoinFrom i s j
    t = s ∨ (s.invAreaJoined j = false ∧ i ≠ j ∧
      joined.getSize < (s.invAreas i).getSize + (s.invAreas j).getSize ∧
      t.invAreas = Function.update s.invAreas i joined ∧
      t.invAreaJoined = Function.update s.invAreaJoined j true ∧ t.invP = s.invP) := by
  intro joined t
  simp only [t, lvRefrJoinFrom]
  by_cases hskip : s.invAreaJoined j || i == j
  · exact .inl (if_pos hskip)
  rw [if_neg hskip]
  by_cases hon : lvAreaIsOn (s.invAreas i) (s.invAreas j)
  swap
  · exact .inl (if_neg hon)
  rw [if_pos hon]
  by_cases hsize : joined.getSize < (s.invAreas i).getSize + (s.invAreas j).getSize
  swap
  · exact .inl (if_neg hsize)
  rw [if_pos hsize]
  simp only [Bool.or_eq_true, beq_iff_eq, not_or, Bool.not_eq_true] at hskip
  exact .inr ⟨hskip.1, hskip.2, hsize, rfl, rfl, rfl⟩

include hres vres in
/-- Joining two areas makes fewer pixels to redraw. -/
theorem load_join (hs : ∀ i < s.invP, disp.Holds (s.invAreas i)) {i j : Nat} (hi : i < s.invP)
    (hj : j < s.invP) (hfree : s.invAreaJoined i = false) (hfrom : s.invAreaJoined j = false)
    (hne : i ≠ j) (hsize : (lvAreaJoin (s.invAreas i) (s.invAreas j)).getSize <
      (s.invAreas i).getSize + (s.invAreas j).getSize)
    (hareas : t.invAreas = Function.update s.invAreas i (lvAreaJoin (s.invAreas i) (s.invAreas j)))
    (hjoined : t.invAreaJoined = Function.update s.invAreaJoined j true) (hinvP : t.invP = s.invP) :
    t.load < s.load := by
  obtain ⟨hgi, hbi⟩ := getSize_eq hres vres (hs i hi)
  obtain ⟨hgj, hbj⟩ := getSize_eq hres vres (hs j hj)
  obtain ⟨hg, -⟩ := getSize_eq hres vres ((hs i hi).join (hs j hj))
  rw [UInt32.lt_iff_toNat_lt, UInt32.toNat_add, hg, hgi, hgj, Nat.mod_eq_of_lt (by omega)] at hsize
  let w : Nat → Nat := fun k => if s.invAreaJoined k then 0 else (s.invAreas k).count
  let v := (lvAreaJoin (s.invAreas i) (s.invAreas j)).count
  have hwi : w i = (s.invAreas i).count := by simp only [w, hfree, Bool.false_eq_true, if_false]
  have hwj : w j = (s.invAreas j).count := by simp only [w, hfrom, Bool.false_eq_true, if_false]
  have hw : (fun k => if t.invAreaJoined k then 0 else (t.invAreas k).count) =
      Function.update (Function.update w j 0) i v := by
    funext k
    rw [hareas, hjoined]
    by_cases hki : k = i
    · rw [hki, Function.update_self, Function.update_self, Function.update_of_ne hne, hfree]
      rfl
    rw [Function.update_of_ne hki, Function.update_of_ne hki]
    by_cases hkj : k = j
    · rw [hkj, Function.update_self, Function.update_self]
      rfl
    · rw [Function.update_of_ne hkj, Function.update_of_ne hkj]
  have hsum₁ := sum_update w hj 0
  have hsum₂ := sum_update (Function.update w j 0) hi v
  rw [Function.update_of_ne hne] at hsum₂
  have hs' : s.load = ∑ k ∈ Finset.range s.invP, w k := rfl
  rw [hs', LvInv.load, hw, hinvP]
  simp only [v] at hsum₂ ⊢
  omega

include hres vres in
/-- One turn of the inner loop. The area that the others are joined in is not joined itself. -/
theorem lvRefrJoinFrom_joins (hs : ∀ i < s.invP, disp.Holds (s.invAreas i)) {i j : Nat}
    (hi : i < s.invP) (hj : j < s.invP) (hfree : s.invAreaJoined i = false) :
    Joins disp s (lvRefrJoinFrom i s j) ∧ (lvRefrJoinFrom i s j).invAreaJoined i = false := by
  obtain ht | ⟨hfrom, hne, hsize, hareas, hjoined, hinvP⟩ := lvRefrJoinFrom_cases s i j
  · rw [ht]
    exact ⟨.refl hs, hfree⟩
  have hload := load_join hres vres hs hi hj hfree hfrom hne hsize hareas hjoined hinvP
  have hfree' : (lvRefrJoinFrom i s j).invAreaJoined i = false := by
    rw [hjoined, Function.update_of_ne hne]
    exact hfree
  refine ⟨⟨hinvP, fun k hk => ?_, fun p hp => ?_, Nat.le_of_lt hload⟩, hfree'⟩
  · rw [hareas]
    by_cases hki : k = i
    · rw [hki, Function.update_self]
      exact (hs i hi).join (hs j hj)
    · rw [Function.update_of_ne hki]
      exact hs k (hinvP ▸ hk)
  · obtain ⟨k, hk, hkfree, hmem⟩ := hp
    -- A pixel of one of the two areas is in the joined one.
    have hin (h : p ∈ (lvAreaJoin (s.invAreas i) (s.invAreas j)).pixels) :
        p ∈ (lvRefrJoinFrom i s j).pending :=
      ⟨i, hinvP ▸ hi, hfree', by rwa [hareas, Function.update_self]⟩
    by_cases hki : k = i
    · exact hin (LvArea.mem_join_left (hki ▸ hmem))
    by_cases hkj : k = j
    · exact hin (LvArea.mem_join_right (hkj ▸ hmem))
    · exact ⟨k, hinvP ▸ hk, by rwa [hjoined, Function.update_of_ne hkj],
        by rwa [hareas, Function.update_of_ne hki]⟩

include hres vres in
/-- **Joining.** The joined areas have all pixels of the areas, keep to the screen and make at most
as many pixels to redraw. -/
theorem lvRefrJoinArea_joins (hs : ∀ i < s.invP, disp.Holds (s.invAreas i)) :
    Joins disp s (lvRefrJoinArea s) := by
  refine List.foldlRecOn _ _ (motive := Joins disp s) (.refl hs) fun t ht i hi => ?_
  rw [List.mem_range, ← ht.invP] at hi
  split
  · exact ht
  rename_i hfree
  rw [Bool.not_eq_true] at hfree
  -- The inner loop, with the area `i` free all along.
  have hinner := List.foldlRecOn (List.range t.invP) (lvRefrJoinFrom i)
    (motive := fun u => Joins disp t u ∧ u.invAreaJoined i = false) ⟨.refl ht.holds, hfree⟩
    fun u hu j hj => by
      rw [List.mem_range, ← hu.1.invP] at hj
      obtain ⟨hstep, hfree'⟩ := lvRefrJoinFrom_joins hres vres hu.1.holds
        (by rw [hu.1.invP]; exact hi) hj hu.2
      exact ⟨hu.1.trans hstep, hfree'⟩
  exact ht.trans hinner.1

theorem lvInvArea_invP_le (disp : LvDisp) (a : LvArea) (s : LvInv) :
    (lvInvArea disp (some a) s).invP ≤ s.invP + 1 := by
  obtain ⟨-, ht⟩ | ⟨-, -, -, ht⟩ | ⟨-, -, -, -, hp⟩ | ⟨-, -, -, -, hp⟩ :=
    lvInvArea_cases disp a s
  · rw [ht]
    exact Nat.le_succ _
  · rw [ht]
    exact Nat.le_succ _
  · rw [hp]
  · rw [hp]
    omega

/-- The array behind any number of invalidated areas. -/
theorem lvInvArea_run (disp : LvDisp) (as : List LvArea) :
    let s := as.foldl (fun s a => lvInvArea disp (some a) s) LvInv.cleared
    s.Ok disp ∧ s.invP ≤ as.length ∧
      (∀ a ∈ as, ∀ p ∈ a.pixels, p ∈ disp.scrArea.pixels → p ∈ s.pending) ∧
      (as.length ≤ lvInvBufSize → ∀ p ∈ s.pending, ∃ a ∈ as, p ∈ a.pixels) := by
  induction as using List.reverseRecOn with
  | nil =>
    exact ⟨LvInv.cleared_ok, Nat.le_refl _, fun a ha => absurd ha List.not_mem_nil,
      fun _ p hp => absurd hp LvInv.not_mem_cleared⟩
  | append_singleton as a ih =>
    obtain ⟨hok, hle, hcov, hexact⟩ := ih
    rw [List.foldl_append, List.foldl_cons, List.foldl_nil, List.length_append, List.length_singleton]
    refine ⟨lvInvArea_ok hok a, (lvInvArea_invP_le disp a _).trans (by omega), ?_, ?_⟩
    · intro b hb p hp hscr
      refine mem_lvInvArea hok hscr ?_
      rcases List.mem_append.mp hb with hb | hb
      · exact .inl (hcov b hb p hp hscr)
      · exact .inr (List.mem_singleton.mp hb ▸ hp)
    · intro hlen p hp
      rcases mem_of_lvInvArea hok (by omega) hp with hp | hp
      · obtain ⟨b, hb, hmem⟩ := hexact (by omega) p hp
        exact ⟨b, List.mem_append_left _ hb, hmem⟩
      · exact ⟨a, List.mem_append_right _ (List.mem_singleton_self a), hp⟩

include hres vres in
/-- **What a refresh redraws.** Behind any number of invalidated areas, the joined areas have every
pixel of the screen that is in one of them, keep to the screen and make at most as many pixels to
redraw as the areas in the array. Up to 32 areas, the array stands for no other pixel. -/
theorem invalidated_joined (as : List LvArea) :
    let s := as.foldl (fun s a => lvInvArea disp (some a) s) LvInv.cleared
    let t := lvRefrJoinArea s
    (∀ a ∈ as, ∀ p ∈ a.pixels, p ∈ disp.scrArea.pixels → p ∈ t.pending) ∧
      (∀ i < t.invP, disp.Holds (t.invAreas i)) ∧ t.load ≤ s.load ∧
      (as.length ≤ lvInvBufSize → ∀ p ∈ s.pending, ∃ a ∈ as, p ∈ a.pixels) := by
  intro s t
  obtain ⟨hok, -, hcov, hexact⟩ := lvInvArea_run disp as
  have hjoins := lvRefrJoinArea_joins hres vres hok.holds
  exact ⟨fun a ha p hp hscr => hjoins.pending (hcov a ha p hp hscr), hjoins.holds, hjoins.load,
    hexact⟩

/-- Two areas with common parts, and one beside the screen. -/
theorem invalidated_joined_ili9341 :
    let disp : LvDisp := ⟨240, 320, ⟨⟨384000⟩, none, 384000⟩⟩
    let as : List LvArea := [⟨10, 10, 29, 19⟩, ⟨20, 10, 39, 19⟩, ⟨240, 0, 250, 5⟩]
    let s := as.foldl (fun s a => lvInvArea disp (some a) s) LvInv.cleared
    let t := lvRefrJoinArea s
    (∀ a ∈ as, ∀ p ∈ a.pixels, p ∈ disp.scrArea.pixels → p ∈ t.pending) ∧
      (∀ i < t.invP, disp.Holds (t.invAreas i)) ∧ t.load ≤ s.load ∧
      (as.length ≤ lvInvBufSize → ∀ p ∈ s.pending, ∃ a ∈ as, p ∈ a.pixels) := by
  intro disp as
  have hres : disp.horRes ≤ 32767 := by decide
  have vres : disp.verRes ≤ 32767 := by decide
  exact invalidated_joined hres vres as

end Join

end AtkOnenet
