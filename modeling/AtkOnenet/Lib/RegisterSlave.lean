import AtkOnenet.Lib.Store
import AtkOnenet.Lib.TwoWire
import AtkOnenet.Lib.Word

/-!
# A standard two-wire register slave

The device of most sensor chips: an address byte for writing and one for reading, and a file of
byte registers under a 16-bit register pointer.

* It samples the data line when the clock rises and changes its drive when the clock falls
  (`onRise`, `onFall`). START (`onStart`) makes it expect an address byte, STOP makes it idle.
* It acknowledges its two address bytes and every byte written to it. The first two bytes after the
  write address are the register pointer, high byte first; every further one is stored and moves
  the pointer on (modulo `2 ^ 16`).
* After the read address it sends the register under the pointer, most significant bit first, and
  goes on with the next one as long as the master acknowledges.

A byte on the wire is a list of bits, most significant first: `ofBits` and `bitsOf`.
-/

namespace TwoWire

open Word

/-- One step of a shift register: `b` enters at the low end. -/
def shiftIn (r : UInt8) (b : Bool) : UInt8 := (r <<< 1) + if b then 1 else 0

/-- The byte of a list of bits, most significant first. -/
def ofBits (bits : List Bool) : UInt8 := bits.foldl shiftIn 0

/-- The most significant bit. -/
def msb (v : UInt8) : Bool := (v &&& 0x80) >>> 7 == 1

/-- The upper `n` bits of a byte, most significant first. -/
def msbs : Nat → UInt8 → List Bool
  | 0, _ => []
  | n + 1, v => msb v :: msbs n (v <<< 1)

/-- The bits of a byte, most significant first. -/
def bitsOf (v : UInt8) : List Bool := msbs 8 v

/-- Sending a byte bit by bit and shifting the bits in again gives the byte. -/
theorem ofBits_bitsOf (v : UInt8) : ofBits (bitsOf v) = v := by
  have h : ∀ w : BitVec 8, ofBits (bitsOf ⟨w⟩) = ⟨w⟩ := by decide +kernel
  exact h v.toBitVec

/-- The same with the first bit shifted in already. -/
theorem foldl_shiftIn_tail (v : UInt8) :
    (bitsOf v).tail.foldl shiftIn (shiftIn 0 (msb v)) = v := by
  have h : bitsOf v = msb v :: (bitsOf v).tail := rfl
  rw [← List.foldl_cons, ← h]
  exact ofBits_bitsOf v

/-- The byte that the slave receives next. -/
inductive Field where
  | address
  | ptrHi
  | ptrLo
  | data
  deriving DecidableEq, Repr

/-- What the slave does on the wire. -/
inductive Mode where
  /-- Not addressed: it waits for a START. -/
  | idle
  /-- It receives `f`; `bits` are the bits sampled so far. -/
  | rx (f : Field) (bits : List Bool)
  /-- It acknowledges; `f` is the byte that follows. -/
  | ack (f : Field)
  /-- It acknowledges the read address; a register follows. -/
  | ackRead
  /-- It sends; `rest` are the bits after the one on the line. -/
  | tx (rest : List Bool)
  /-- It has sent a byte and waits for the master's acknowledge. -/
  | gap
  /-- The master has acknowledged: the next register follows. -/
  | more
  deriving DecidableEq, Repr

/-- `sda` is the slave's side of the data line: `false` pulls it low. -/
structure Slave where
  regs : UInt16 → UInt8
  ptr : UInt16
  mode : Mode
  sda : Bool

namespace Slave

variable (wr rd : UInt8)

/-- A whole byte `v` has come in as `f`: the reaction on the falling edge after its last bit. -/
def accept (f : Field) (v : UInt8) (s : Slave) : Slave :=
  match f with
  | .address =>
    if v = wr then { s with mode := .ack .ptrHi, sda := false }
    else if v = rd then { s with mode := .ackRead, sda := false }
    else { s with mode := .idle }
  | .ptrHi => { s with ptr := wordOf v (s.ptr &&& 0xFF).toUInt8, mode := .ack .ptrLo, sda := false }
  | .ptrLo => { s with ptr := wordOf (s.ptr >>> 8).toUInt8 v, mode := .ack .data, sda := false }
  | .data => { s with
      regs := Function.update s.regs s.ptr v, ptr := s.ptr + 1, mode := .ack .data, sda := false }

/-- Put the first bit of the register under the pointer on the line, and move the pointer on. -/
def load (s : Slave) : Slave :=
  { s with ptr := s.ptr + 1, mode := .tx (bitsOf (s.regs s.ptr)).tail, sda := msb (s.regs s.ptr) }

def onRise (v : Bool) (s : Slave) : Slave :=
  match s.mode with
  | .rx f bits => { s with mode := .rx f (bits ++ [v]) }
  | .gap => { s with mode := if v then .idle else .more }
  | _ => s

def onFall (s : Slave) : Slave :=
  match s.mode with
  | .rx f bits => if bits.length = 8 then s.accept wr rd f (ofBits bits) else s
  | .ack f => { s with mode := .rx f [], sda := true }
  | .ackRead | .more => s.load
  | .tx (b :: rest) => { s with mode := .tx rest, sda := b }
  | .tx [] => { s with mode := .gap, sda := true }
  | .gap | .idle => s

def onStart (s : Slave) : Slave := { s with mode := .rx .address [] }

def onStop (s : Slave) : Slave := { s with mode := .idle }

/-- The registers after the bytes `vs` are stored from register `p` on. -/
def storeAll (regs : UInt16 → UInt8) (p : UInt16) (vs : List UInt8) : UInt16 → UInt8 :=
  Store.storeAlong regs (fun i => p + UInt16.ofNat i) vs

theorem storeAll_cons (regs : UInt16 → UInt8) (p : UInt16) (v : UInt8) (vs : List UInt8) :
    storeAll regs p (v :: vs) = storeAll (Function.update regs p v) (p + 1) vs := by
  simp only [storeAll, Store.storeAlong, add_one_add_ofNat]
  simp

theorem storeAll_append (regs : UInt16 → UInt8) (p : UInt16) (vs ws : List UInt8) :
    storeAll regs p (vs ++ ws) = storeAll (storeAll regs p vs) (p + UInt16.ofNat vs.length) ws := by
  induction vs generalizing regs p with
  | nil => simp [storeAll, Store.storeAlong]
  | cons v vs ih =>
    rw [List.cons_append, storeAll_cons, storeAll_cons, ih, add_one_add_ofNat, List.length_cons]

/-- Fewer than `2 ^ 16` bytes do not overwrite each other. -/
theorem storeAll_get {regs : UInt16 → UInt8} {p : UInt16} {vs : List UInt8}
    (hl : vs.length < 2 ^ 16) {i : Nat} (hi : i < vs.length) :
    storeAll regs p vs (p + UInt16.ofNat i) = vs[i] :=
  Store.storeAlong_get (fun _ _ hi hj e => add_ofNat_inj (by omega) (by omega) e) hi

/-- The slave on the bus. -/
def device : Device Slave where
  drive := Slave.sda
  react old new s :=
    match old.scl, new.scl with
    | false, true => s.onRise new.sda
    | true, false => s.onFall wr rd
    | true, true =>
      match old.cond new with
      | some .start => s.onStart
      | some .stop => s.onStop
      | none => s
    | false, false => s

/-- It changes its drive on falling clock edges only. -/
theorem quiet : (device wr rd).Quiet := by
  intro old new s h
  simp only [device, h]
  cases old.scl
  · cases s.mode <;> simp only [onRise] <;> split <;> rfl
  · rcases old.cond new with _ | _ | _ <;> rfl

end Slave

end TwoWire
