import Mathlib.Data.List.Chain
import Mathlib.Data.List.Nodup
import Mathlib.Logic.Function.Basic

/-!
# Rings of links

Nodes with a pointer to the next and one to the previous node. `Ring L h l` says that the nodes `l`, in
this order, and the node `h` form a ring. The two edits of such rings, a node put in behind another one
and a node taken out, change the list and nothing else (`Ring.insertAfter`, `Ring.unlink`), wherever
the ring is entered (`Ring.rotate`).
-/

/-- The pointers of the nodes. -/
structure Links (α : Type) where
  next : α → α
  prev : α → α

namespace Links

variable {α : Type} [DecidableEq α]

def setNext (L : Links α) (a b : α) : Links α := { L with next := Function.update L.next a b }

def setPrev (L : Links α) (a b : α) : Links α := { L with prev := Function.update L.prev a b }

/-- The node `x` put in behind the node `a`. -/
def insertAfter (L : Links α) (a x : α) : Links α :=
  let L := L.setPrev x a
  let L := L.setNext x (L.next a)
  let L := L.setPrev (L.next a) x
  L.setNext a x

/-- The node `x` taken out. -/
def unlink (L : Links α) (x : α) : Links α :=
  let L := L.setPrev (L.next x) (L.prev x)
  L.setNext (L.prev x) (L.next x)

/-- Two nodes that follow one another. -/
def Linked (L : Links α) (a b : α) : Prop := L.next a = b ∧ L.prev b = a

/-- The nodes `l` form a ring with the node `h`. -/
structure Ring (L : Links α) (h : α) (l : List α) : Prop where
  chain : (h :: (l ++ [h])).IsChain L.Linked
  nodup : (h :: l).Nodup

variable {L L' : Links α} {h a b x : α} {l l₁ l₂ : List α}

theorem insertAfter_next : (L.insertAfter a x).next b =
    if b = a then x else if b = x then L.next a else L.next b := by
  simp only [insertAfter, setNext, setPrev, Function.update_apply]

theorem insertAfter_prev (hx : x ≠ a) : (L.insertAfter a x).prev b =
    if b = L.next a then x else if b = x then a else L.prev b := by
  simp only [insertAfter, setNext, setPrev, Function.update_apply, if_neg hx.symm]

theorem unlink_next : (L.unlink x).next b =
    if b = L.prev x then L.next x else L.next b := by
  simp only [unlink, setNext, setPrev, Function.update_apply, ite_self]

theorem unlink_prev : (L.unlink x).prev b =
    if b = L.next x then L.prev x else L.prev b := by
  simp only [unlink, setNext, setPrev, Function.update_apply]


omit [DecidableEq α] in
/-- A chain reads the forward pointers of all its nodes but the last one, and the backward pointers
of all but the first one. -/
theorem chain_congr (hnext : ∀ a ∈ l.dropLast, L'.next a = L.next a)
    (hprev : ∀ a ∈ l.tail, L'.prev a = L.prev a) (hl : l.IsChain L.Linked) :
    l.IsChain L'.Linked := by
  induction l with
  | nil => exact .nil
  | cons a l ih =>
    cases l with
    | nil => exact .singleton a
    | cons b l =>
      obtain ⟨⟨hab, hba⟩, hrest⟩ := List.isChain_cons_cons.mp hl
      refine List.isChain_cons_cons.mpr ⟨⟨?_, ?_⟩, ih ?_ ?_ hrest⟩
      · rw [hnext a (by simp), hab]
      · rw [hprev b (by simp), hba]
      · intro c hc
        exact hnext c (List.mem_cons_of_mem _ hc)
      · intro c hc
        exact hprev c (List.mem_cons_of_mem _ hc)

omit [DecidableEq α] in
/-- The node behind the one at which the ring is entered. -/
theorem Ring.next_head (hr : L.Ring h l) : (l ++ [h]).head? = some (L.next h) := by
  have hc := hr.chain
  cases l with
  | nil => exact congrArg some (List.isChain_cons_cons.mp hc).1.1.symm
  | cons a l => exact congrArg some (List.isChain_cons_cons.mp hc).1.1.symm

omit [DecidableEq α] in
/-- A ring can be entered at each of its nodes. -/
theorem Ring.rotate (hr : L.Ring h (l₁ ++ a :: l₂)) : L.Ring a (l₂ ++ h :: l₁) where
  chain := by
    have hc := hr.chain
    rw [List.append_assoc, List.cons_append, ← List.cons_append, List.isChain_split] at hc
    rw [List.append_assoc, List.cons_append, ← List.cons_append, List.isChain_split]
    exact ⟨hc.2, hc.1⟩
  nodup := by
    have hperm : (a :: (l₂ ++ h :: l₁)).Perm (h :: (l₁ ++ a :: l₂)) := by
      calc a :: (l₂ ++ h :: l₁) = (a :: l₂) ++ (h :: l₁) := rfl
        List.Perm _ ((h :: l₁) ++ (a :: l₂)) := List.perm_append_comm
    exact hperm.nodup_iff.mpr hr.nodup

/-- The new node behind the node at which the ring is entered. -/
theorem Ring.insert_head (hr : L.Ring h l) (hx : x ∉ h :: l) :
    (L.insertAfter h x).Ring h (x :: l) where
  chain := by
    have hxh : x ≠ h := fun e => hx (e ▸ List.mem_cons_self)
    obtain ⟨y, c, hyc⟩ : ∃ y c, l ++ [h] = y :: c := List.exists_cons_of_ne_nil (by simp)
    have hc := hr.chain
    rw [hyc] at hc
    obtain ⟨⟨hnext, -⟩, hrest⟩ := List.isChain_cons_cons.mp hc
    -- the nodes behind the first link
    have hmem : ∀ b ∈ y :: c, b ≠ x := by
      intro b hb e
      rw [← hyc, e] at hb
      rcases List.mem_append.mp hb with hb | hb
      · exact hx (List.mem_cons_of_mem _ hb)
      · exact hx (List.mem_singleton.mp hb ▸ List.mem_cons_self)
    have hyx : y ≠ x := hmem y List.mem_cons_self
    obtain ⟨hh, hl⟩ := List.nodup_cons.mp hr.nodup
    have hlast : (y :: c).dropLast = l := by rw [← hyc, List.dropLast_concat]
    have htail : y ∉ c := by
      have hnd : (l ++ [h]).Nodup := (List.perm_append_singleton h l).nodup_iff.mpr hr.nodup
      rw [hyc] at hnd
      exact (List.nodup_cons.mp hnd).1
    rw [List.cons_append, hyc]
    refine List.isChain_cons_cons.mpr ⟨⟨?_, ?_⟩, List.isChain_cons_cons.mpr ⟨⟨?_, ?_⟩, ?_⟩⟩
    · rw [insertAfter_next, if_pos rfl]
    · rw [insertAfter_prev hxh, hnext, if_neg hyx.symm, if_pos rfl]
    · rw [insertAfter_next, if_neg hxh, if_pos rfl, hnext]
    · rw [insertAfter_prev hxh, hnext, if_pos rfl]
    · refine chain_congr ?_ ?_ hrest
      · intro b hb
        rw [hlast] at hb
        have hbh : b ≠ h := fun e => hh (e ▸ hb)
        have hbx : b ≠ x := fun e => hx (e ▸ List.mem_cons_of_mem _ hb)
        rw [insertAfter_next, if_neg hbh, if_neg hbx]
      · intro b hb
        have hby : b ≠ y := fun e => htail (e ▸ hb)
        rw [insertAfter_prev hxh, hnext, if_neg hby, if_neg (hmem b (List.mem_cons_of_mem _ hb))]
  nodup := by
    obtain ⟨hh, hl⟩ := List.nodup_cons.mp hr.nodup
    obtain ⟨hxh, hxl⟩ := not_or.mp (mt List.mem_cons.mpr hx)
    refine List.nodup_cons.mpr ⟨?_, List.nodup_cons.mpr ⟨hxl, hl⟩⟩
    intro hmem
    rcases List.mem_cons.mp hmem with e | hmem
    · exact hxh e.symm
    · exact hh hmem

/-- The new node behind any node of the ring. -/
theorem Ring.insertAfter (hr : L.Ring h (l₁ ++ a :: l₂)) (hx : x ∉ h :: (l₁ ++ a :: l₂)) :
    (L.insertAfter a x).Ring h (l₁ ++ a :: x :: l₂) := by
  have hrot := hr.rotate
  have hx' : x ∉ a :: (l₂ ++ h :: l₁) := by
    intro hmem
    apply hx
    simp only [List.mem_cons, List.mem_append] at hmem ⊢
    tauto
  have hins := hrot.insert_head hx'
  rw [← List.cons_append] at hins
  exact hins.rotate

/-- The first node of the ring taken out. -/
theorem Ring.unlink_head (hr : L.Ring h (x :: l)) : (L.unlink x).Ring h l where
  chain := by
    obtain ⟨y, c, hyc⟩ : ∃ y c, l ++ [h] = y :: c := List.exists_cons_of_ne_nil (by simp)
    have hc := hr.chain
    rw [List.cons_append, hyc] at hc
    obtain ⟨⟨-, hprev⟩, hc'⟩ := List.isChain_cons_cons.mp hc
    obtain ⟨⟨hnext, -⟩, hrest⟩ := List.isChain_cons_cons.mp hc'
    obtain ⟨hh, hl⟩ := List.nodup_cons.mp hr.nodup
    have hlast : (y :: c).dropLast = l := by rw [← hyc, List.dropLast_concat]
    have htail : y ∉ c := by
      have hnd : (l ++ [h]).Nodup := (List.perm_append_singleton h l).nodup_iff.mpr
        (hr.nodup.sublist (List.Sublist.cons_cons h (List.sublist_cons_self x l)))
      rw [hyc] at hnd
      exact (List.nodup_cons.mp hnd).1
    rw [hyc]
    refine List.isChain_cons_cons.mpr ⟨⟨?_, ?_⟩, ?_⟩
    · rw [unlink_next, hprev, if_pos rfl, hnext]
    · rw [unlink_prev, hnext, if_pos rfl, hprev]
    · refine chain_congr ?_ ?_ hrest
      · intro b hb
        rw [hlast] at hb
        have hbh : b ≠ h := fun e => hh (e ▸ List.mem_cons_of_mem _ hb)
        rw [unlink_next, hprev, if_neg hbh]
      · intro b hb
        have hby : b ≠ y := fun e => htail (e ▸ hb)
        rw [unlink_prev, hnext, if_neg hby]
  nodup := hr.nodup.sublist (List.Sublist.cons_cons h (List.sublist_cons_self x l))

/-- Any node of the ring taken out. -/
theorem Ring.unlink (hr : L.Ring h (l₁ ++ x :: l₂)) : (L.unlink x).Ring h (l₁ ++ l₂) := by
  rcases List.eq_nil_or_concat l₁ with rfl | ⟨init, p, rfl⟩
  · exact hr.unlink_head
  · rw [List.concat_eq_append, List.append_assoc, List.singleton_append] at hr ⊢
    have hrot := hr.rotate
    rw [List.cons_append] at hrot
    exact hrot.unlink_head.rotate

omit [DecidableEq α] in
/-- The node behind a node. -/
theorem Ring.next_eq (hr : L.Ring h (l₁ ++ a :: l₂)) : (l₂ ++ [h]).head? = some (L.next a) := by
  have hhead := hr.rotate.next_head
  cases l₂ with
  | nil => exact hhead
  | cons b l₂ => exact hhead

omit [DecidableEq α] in
/-- The node before a node. -/
theorem Ring.prev_eq (hr : L.Ring h (l₁ ++ a :: l₂)) : (h :: l₁).getLast? = some (L.prev a) := by
  have hc := hr.chain
  rw [List.append_assoc, List.cons_append, ← List.cons_append, List.isChain_split] at hc
  rcases List.eq_nil_or_concat l₁ with rfl | ⟨init, p, rfl⟩
  · exact congrArg some (List.isChain_cons_cons.mp hc.1).1.2.symm
  · have hp := hc.1
    rw [List.concat_eq_append, ← List.cons_append, List.append_assoc, List.singleton_append,
      List.isChain_split] at hp
    rw [List.concat_eq_append, ← List.cons_append, List.getLast?_concat]
    exact congrArg some (List.isChain_cons_cons.mp hp.2).1.2.symm

/-- The pointers of a node outside of the ring do not matter. -/
theorem Ring.clear (hr : L.Ring h l) (hx : x ∉ h :: l) (v w : α) :
    ((L.setNext x v).setPrev x w).Ring h l where
  chain := by
    have hmem : ∀ b ∈ h :: (l ++ [h]), b ≠ x := by
      intro b hb e
      apply hx
      rw [← e]
      rcases List.mem_cons.mp hb with rfl | hb
      · exact List.mem_cons_self
      · rcases List.mem_append.mp hb with hb | hb
        · exact List.mem_cons_of_mem _ hb
        · rw [List.mem_singleton.mp hb]
          exact List.mem_cons_self
    refine chain_congr ?_ ?_ hr.chain
    · intro b hb
      exact Function.update_of_ne (hmem b (List.dropLast_subset _ hb)) _ _
    · intro b hb
      exact Function.update_of_ne (hmem b (List.mem_of_mem_tail hb)) _ _
  nodup := hr.nodup

end Links
