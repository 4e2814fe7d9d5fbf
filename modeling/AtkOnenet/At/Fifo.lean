import AtkOnenet.Lib.Circular

/-!
# The receive FIFO of a serial device (`components/drivers/serial/serial.c`)

The interrupt stores the received characters in a circular memory of `bufsz` bytes, and `rt_device_read`
takes them out of it. One turn of either loop runs with the interrupts disabled: `insert` and `remove`
are those turns.

A FIFO holds `bufsz - 1` characters. A further one drops the oldest of them, so that the FIFO holds
the last characters of what it has got (`rtHwSerialIsr_pending`).
-/

namespace AtkOnenet

open Circular

/-- `struct rt_serial_rx_fifo`. -/
structure RxFifo where
  buffer : List UInt8
  putIndex : Nat
  getIndex : Nat
  isFull : Bool
  deriving DecidableEq, Repr

namespace RxFifo

variable (bufsz : Nat)

/-- The FIFO of `rt_serial_open` with `RT_DEVICE_FLAG_INT_RX`. -/
def opened : RxFifo := ⟨List.replicate bufsz 0, 0, 0, false⟩

/-- An index moved on: `index += 1`, and 0 from `bufsz` on. -/
def next (i : Nat) : Nat := if i + 1 ≥ bufsz then 0 else i + 1

/-- A turn of the receive loop of `rt_hw_serial_isr`: where the next position is the read index, the
oldest character is discarded. -/
def insert (f : RxFifo) (ch : UInt8) : RxFifo :=
  let f := { f with buffer := f.buffer.set f.putIndex ch, putIndex := next bufsz f.putIndex }
  if f.putIndex = f.getIndex then
    { f with getIndex := next bufsz f.getIndex, isFull := true }
  else f

/-- A turn of the loop of `_serial_int_rx`; `none` where there is no data. -/
def remove (f : RxFifo) : Option (UInt8 × RxFifo) :=
  if f.getIndex = f.putIndex ∧ f.isFull = false then none
  else
    some (f.buffer.getD f.getIndex 0,
      { f with getIndex := next bufsz f.getIndex, isFull := false })

/-- The number of characters that the interrupt tells the callback. -/
def rxLength (f : RxFifo) : Nat :=
  if f.putIndex ≥ f.getIndex then f.putIndex - f.getIndex
  else bufsz - (f.getIndex - f.putIndex)

/-- The characters in the FIFO, the oldest first. -/
def pending (f : RxFifo) : List UInt8 := held f.buffer f.getIndex (f.rxLength bufsz)

/-- After an overflow the FIFO is as full as it gets. -/
structure WF (f : RxFifo) : Prop where
  size : f.buffer.length = bufsz
  put : f.putIndex < bufsz
  get : f.getIndex < bufsz
  full : f.isFull = true → f.rxLength bufsz = bufsz - 1

end RxFifo

/-- `RT_SERIAL_EVENT_RX_IND` of `rt_hw_serial_isr`, with the characters that `getc` gives until it
gives -1: the FIFO, and what `rx_indicate` is called with, if it is. -/
def rtHwSerialIsr (bufsz : Nat) (f : RxFifo) (chs : List UInt8) : RxFifo × Option Nat :=
  let f := chs.foldl (RxFifo.insert bufsz) f
  let rxLength := f.rxLength bufsz
  (f, if rxLength ≠ 0 then some rxLength else none)

/-- `_serial_int_rx`: up to `length` characters, with no interrupt between two turns. -/
def serialIntRx (bufsz : Nat) (f : RxFifo) : Nat → List UInt8 × RxFifo
  | 0 => ([], f)
  | length + 1 =>
    match f.remove bufsz with
    | none => ([], f)
    | some (ch, f) =>
      let (data, f) := serialIntRx bufsz f length
      (ch :: data, f)

namespace RxFifo

variable {bufsz : Nat} {f : RxFifo}

/-- The put index is `rxLength` cells behind the get index. -/
theorem WF.put_eq (hf : f.WF bufsz) : f.putIndex = (f.getIndex + f.rxLength bufsz) % bufsz := by
  have hput := hf.put
  have hget := hf.get
  unfold rxLength
  split_ifs with h
  · rw [Nat.add_sub_cancel' h, Nat.mod_eq_of_lt hput]
  · rw [add_mod_eq hget (by omega), if_neg (by omega)]
    omega

theorem WF.rxLength_lt (hf : f.WF bufsz) : f.rxLength bufsz < bufsz := by
  have hput := hf.put
  have hget := hf.get
  unfold rxLength
  split_ifs <;> omega

theorem WF.length_pending (hf : f.WF bufsz) : (f.pending bufsz).length = f.rxLength bufsz := by
  rw [pending, length_held]
  rw [hf.size]
  exact Nat.le_of_lt hf.rxLength_lt

theorem next_eq {i : Nat} (hi : i < bufsz) : next bufsz i = (i + 1) % bufsz := by
  rw [next, add_mod_eq hi (by omega)]
  split_ifs <;> omega

theorem next_lt (hb : 0 < bufsz) (i : Nat) : next bufsz i < bufsz := by
  unfold next
  split_ifs <;> omega

/-- The number of characters from the indices. -/
theorem rxLength_eq {g n : Nat} (hn : n < bufsz) (hget : f.getIndex = g) (hg : g < bufsz)
    (hput : f.putIndex = (g + n) % bufsz) : f.rxLength bufsz = n := by
  rw [add_mod_eq hg (Nat.le_of_lt hn)] at hput
  rw [rxLength, hget, hput]
  split_ifs <;> omega

theorem opened_wf (hb : 0 < bufsz) : (opened bufsz).WF bufsz where
  size := List.length_replicate
  put := hb
  get := hb
  full h := nomatch h

@[simp] theorem pending_opened : (opened bufsz).pending bufsz = [] := rfl

/-- The character is behind the others, and the oldest one is dropped if there is no room. -/
theorem insert_spec (hb : 2 ≤ bufsz) (hf : f.WF bufsz) (ch : UInt8) :
    (f.insert bufsz ch).WF bufsz ∧
      (f.insert bufsz ch).pending bufsz = (f.pending bufsz ++ [ch]).rtake (bufsz - 1) := by
  have hlt := hf.rxLength_lt
  have hget := hf.get
  have hput : next bufsz f.putIndex = (f.getIndex + (f.rxLength bufsz + 1)) % bufsz := by
    rw [next_eq hf.put, hf.put_eq, Nat.mod_add_mod, Nat.add_assoc]
  have hheld : held (f.buffer.set f.putIndex ch) f.getIndex (f.rxLength bufsz + 1) =
      f.pending bufsz ++ [ch] := by
    have h := held_set (x := ch) (show f.getIndex < f.buffer.length by rw [hf.size]; exact hget)
      (show f.rxLength bufsz < f.buffer.length by rw [hf.size]; exact hlt)
    rwa [hf.size, ← hf.put_eq] at h
  have hsize : (f.buffer.set f.putIndex ch).length = bufsz := by rw [List.length_set, hf.size]
  have hlen : (f.pending bufsz ++ [ch]).length = f.rxLength bufsz + 1 := by
    rw [List.length_append, hf.length_pending, List.length_singleton]
  by_cases hroom : f.rxLength bufsz + 1 < bufsz
  · -- there is room: the indices do not meet
    have hne : next bufsz f.putIndex ≠ f.getIndex := by
      rw [hput, add_mod_eq hget (by omega)]
      split_ifs <;> omega
    have heq : f.insert bufsz ch =
        { f with buffer := f.buffer.set f.putIndex ch, putIndex := next bufsz f.putIndex } := by
      simp only [insert]
      rw [if_neg hne]
    have hrx : (f.insert bufsz ch).rxLength bufsz = f.rxLength bufsz + 1 := by
      rw [heq]
      exact rxLength_eq hroom rfl hget hput
    refine ⟨⟨?_, ?_, ?_, ?_⟩, ?_⟩
    · rw [heq]
      exact hsize
    · rw [heq]
      exact next_lt (by omega) _
    · rw [heq]
      exact hget
    · intro hfull
      have h := hf.full (by rwa [heq] at hfull)
      omega
    · rw [pending, hrx, heq, rtake_of_length_le (by omega)]
      exact hheld
  · -- the FIFO is full: the put index is back at the get index
    have hfull : f.rxLength bufsz + 1 = bufsz := by omega
    have heq' : next bufsz f.putIndex = f.getIndex := by
      rw [hput, hfull, Nat.add_mod_right, Nat.mod_eq_of_lt hget]
    have heq : f.insert bufsz ch =
        ⟨f.buffer.set f.putIndex ch, f.getIndex, next bufsz f.getIndex, true⟩ := by
      simp only [insert]
      rw [if_pos heq', heq']
    have hnext := next_lt (show 0 < bufsz by omega) f.getIndex
    have hrx : (f.insert bufsz ch).rxLength bufsz = bufsz - 1 := by
      rw [heq]
      refine rxLength_eq (by omega) rfl hnext ?_
      rw [next_eq hget, Nat.mod_add_mod, Nat.add_assoc, Nat.add_sub_cancel' (by omega),
        Nat.add_mod_right, Nat.mod_eq_of_lt hget]
    refine ⟨⟨?_, ?_, ?_, fun _ => hrx⟩, ?_⟩
    · rw [heq]
      exact hsize
    · rw [heq]
      exact hget
    · rw [heq]
      exact hnext
    · have hadv : held (f.buffer.set f.putIndex ch)
          ((f.getIndex + 1) % (f.buffer.set f.putIndex ch).length) (bufsz - 1) =
          (held (f.buffer.set f.putIndex ch) f.getIndex (1 + (bufsz - 1))).drop 1 :=
        held_advance (by omega)
      rw [hsize, ← next_eq hget, Nat.add_sub_cancel' (by omega)] at hadv
      rw [pending, hrx, heq, rtake_eq_drop, hlen, hfull]
      rw [hfull] at hheld
      rw [hadv, hheld, Nat.sub_sub_self (by omega)]

/-- The oldest character is taken, if there is one. -/
theorem remove_spec (hb : 2 ≤ bufsz) (hf : f.WF bufsz) :
    match f.pending bufsz with
    | [] => f.remove bufsz = none
    | ch :: chs => ∃ f', f.remove bufsz = some (ch, f') ∧ f'.WF bufsz ∧ f'.pending bufsz = chs := by
  have hlen := hf.length_pending
  have hlt := hf.rxLength_lt
  have hget := hf.get
  have hput := hf.put_eq
  cases hp : f.pending bufsz with
  | nil =>
    rw [hp, List.length_nil] at hlen
    rw [← hlen, Nat.add_zero, Nat.mod_eq_of_lt hget] at hput
    have hfull : f.isFull = false := by
      cases h : f.isFull with
      | false => rfl
      | true =>
        have := hf.full h
        omega
    exact if_pos ⟨hput.symm, hfull⟩
  | cons ch chs =>
    rw [hp, List.length_cons] at hlen
    have hne : ¬ (f.getIndex = f.putIndex ∧ f.isFull = false) := by
      rintro ⟨h, -⟩
      rw [← h, add_mod_eq hget (by omega)] at hput
      split_ifs at hput <;> omega
    have hch : f.buffer.getD f.getIndex 0 = ch := by
      have h : (held f.buffer f.getIndex (f.rxLength bufsz))[0]? =
          f.buffer[(f.getIndex + 0) % f.buffer.length]? :=
        getElem?_held (by omega) (by rw [hf.size]; omega)
      rw [show held f.buffer f.getIndex (f.rxLength bufsz) = ch :: chs from hp,
        List.getElem?_cons_zero, Nat.add_zero, hf.size, Nat.mod_eq_of_lt hget] at h
      rw [List.getD_eq_getElem?_getD, ← h, Option.getD_some]
    refine ⟨{ f with getIndex := next bufsz f.getIndex, isFull := false }, ?_, ?_⟩
    · rw [remove, if_neg hne, hch]
    have hnext := next_lt (show 0 < bufsz by omega) f.getIndex
    have hrx : RxFifo.rxLength bufsz
        { f with getIndex := next bufsz f.getIndex, isFull := false } = chs.length := by
      refine rxLength_eq (by omega) rfl hnext ?_
      rw [hput, next_eq hget, Nat.mod_add_mod, ← hlen]
      congr 1
      omega
    refine ⟨⟨hf.size, hf.put, hnext, fun h => nomatch h⟩, ?_⟩
    have hadv : held f.buffer ((f.getIndex + 1) % f.buffer.length) chs.length =
        (held f.buffer f.getIndex (1 + chs.length)).drop 1 :=
      held_advance (by rw [hf.size]; omega)
    rw [hf.size, ← next_eq hget, Nat.add_comm 1, hlen] at hadv
    rw [pending, hrx, hadv]
    rw [show held f.buffer f.getIndex (f.rxLength bufsz) = ch :: chs from hp, List.drop_one,
      List.tail_cons]

end RxFifo

section

variable {bufsz : Nat} {f : RxFifo}

/-- Behind an interrupt the FIFO holds the last `bufsz - 1` of the characters, and the callback is
called if there are any. -/
theorem rtHwSerialIsr_pending (hb : 2 ≤ bufsz) (hf : f.WF bufsz) (chs : List UInt8) :
    ∃ f', f'.WF bufsz ∧ f'.pending bufsz = (f.pending bufsz ++ chs).rtake (bufsz - 1) ∧
      rtHwSerialIsr bufsz f chs = (f', if f'.pending bufsz = [] then none
        else some (f'.pending bufsz).length) := by
  have hfold : ∀ g : RxFifo, g.WF bufsz → (chs.foldl (RxFifo.insert bufsz) g).WF bufsz ∧
      (chs.foldl (RxFifo.insert bufsz) g).pending bufsz =
        (g.pending bufsz ++ chs).rtake (bufsz - 1) := by
    induction chs with
    | nil =>
      intro g hg
      refine ⟨hg, ?_⟩
      rw [List.foldl_nil, List.append_nil, rtake_of_length_le]
      have := hg.rxLength_lt
      rw [hg.length_pending]
      omega
    | cons ch chs ih =>
      intro g hg
      obtain ⟨hwf, hpend⟩ := RxFifo.insert_spec hb hg ch
      obtain ⟨hwf', hpend'⟩ := ih _ hwf
      refine ⟨hwf', ?_⟩
      rw [List.foldl_cons, hpend', hpend, rtake_append_rtake, List.append_assoc]
      rfl
  obtain ⟨hwf, hpend⟩ := hfold f hf
  refine ⟨_, hwf, hpend, ?_⟩
  rw [rtHwSerialIsr, ← hwf.length_pending]
  simp only [ne_eq, List.length_eq_zero_iff, ite_not]

/-- With no interrupt in between, a read takes the oldest characters. -/
theorem serialIntRx_pending (hb : 2 ≤ bufsz) (hf : f.WF bufsz) (length : Nat) :
    ∃ f', serialIntRx bufsz f length = ((f.pending bufsz).take length, f') ∧ f'.WF bufsz ∧
      f'.pending bufsz = (f.pending bufsz).drop length := by
  induction length generalizing f with
  | zero => exact ⟨f, rfl, hf, rfl⟩
  | succ length ih =>
    have hspec := RxFifo.remove_spec hb hf
    cases hp : f.pending bufsz with
    | nil =>
      rw [hp] at hspec
      refine ⟨f, ?_, hf, hp⟩
      rw [serialIntRx, hspec]
      rfl
    | cons ch chs =>
      rw [hp] at hspec
      obtain ⟨f₁, hrem, hwf, hchs⟩ := hspec
      obtain ⟨f₂, hread, hwf', hdrop⟩ := ih hwf
      rw [hchs] at hread hdrop
      refine ⟨f₂, ?_, hwf', hdrop⟩
      rw [serialIntRx, hrem]
      dsimp only
      rw [hread]
      rfl

end

end AtkOnenet
