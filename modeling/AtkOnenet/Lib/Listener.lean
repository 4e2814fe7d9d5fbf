import AtkOnenet.Lib.RegisterSlave

/-!
# A device that acknowledges by a script

A `Listener` records every byte that is clocked onto the wire, whoever it is meant for, and
acknowledges or refuses each of them as a script says. The script is a function of the byte's number
on the wire: `some j` pulls the data line low `j` actions of the master after the clock has risen in
the acknowledge slot (with 0 from the start of the slot on), `none` leaves it high.

`sent` is what a master puts on the wire that gives up at the first refusal: the message up to the
refused byte (`sent_length`).
-/

namespace TwoWire

/-- `slot` counts the actions of the master in an acknowledge slot while the clock is high. -/
structure Listener where
  bytes : List UInt8
  bits : List Bool
  slot : Option Nat
  deriving DecidableEq, Repr

namespace Listener

variable (acks : Nat → Option Nat)

/-- A listener that has heard the bytes `bs` and is in the middle of none. -/
def heard (bs : List UInt8) : Listener := ⟨bs, [], none⟩

/-- The acknowledge slot of the last byte heard, `t` actions after the clock has risen. -/
def inSlot (bs : List UInt8) (t : Nat) : Listener := ⟨bs, [], some t⟩

/-- The listener's side of the data line. -/
def drive (s : Listener) : Bool :=
  match s.slot, acks (s.bytes.length - 1) with
  | some t, some j => t < j
  | _, _ => true

def onRise (v : Bool) (s : Listener) : Listener :=
  match s.slot with
  | some _ => s
  | none => { s with bits := s.bits ++ [v] }

def onFall (s : Listener) : Listener :=
  match s.slot with
  | some _ => { s with slot := none }
  | none =>
    if s.bits.length = 8 then inSlot (s.bytes ++ [ofBits s.bits]) 0 else s

/-- START and STOP end a byte and its acknowledge slot. -/
def onCond (s : Listener) : Listener := heard s.bytes

def onDelay (s : Listener) : Listener := { s with slot := s.slot.map (· + 1) }

/-- The listener on the bus. -/
def device : Device Listener where
  drive := drive acks
  react old new s :=
    match old.scl, new.scl with
    | false, true => s.onRise new.sda
    | true, false => s.onFall
    | true, true => if (old.cond new).isSome then s.onCond else s.onDelay
    | false, false => s

variable {acks} {bs : List UInt8} {t : Nat}

@[simp] theorem onDelay_heard : (heard bs).onDelay = heard bs := rfl
@[simp] theorem onDelay_inSlot : (inSlot bs t).onDelay = inSlot bs (t + 1) := rfl
@[simp] theorem onCond_inSlot : (inSlot bs t).onCond = heard bs := rfl
@[simp] theorem onCond_heard : (heard bs).onCond = heard bs := rfl

/-- In the slot of the byte number `k`. -/
theorem drive_inSlot {k : Nat} (hk : bs.length = k + 1) :
    (inSlot bs t).drive acks = ((acks k).map (decide <| t < ·)).getD true := by
  simp only [drive, inSlot, hk, Nat.add_sub_cancel]
  cases acks k <;> rfl

/-! ## Giving up at the first refusal -/

section Sent

variable {α : Type} {ok : Nat → Bool}

/-- The bytes of a message up to the first refused one, which is on the wire as well. The first byte
has the number `k`. -/
def sent (ok : Nat → Bool) (k : Nat) : List α → List α
  | [] => []
  | v :: vs => v :: if ok k then sent ok (k + 1) vs else []

/-- At the first refusal the message ends. -/
theorem sent_length {k n : Nat} {vs : List α} (hn : n < vs.length) (hok : ∀ i < n, ok (k + i))
    (hno : ¬ ok (k + n)) : (sent ok k vs).length = n + 1 := by
  induction n generalizing k vs with
  | zero =>
    obtain ⟨v, vs, rfl⟩ := List.exists_cons_of_length_pos hn
    have hk : ¬ ok k := hno
    rw [sent, if_neg hk, List.length_singleton]
  | succ n ih =>
    obtain ⟨v, vs, rfl⟩ := List.exists_cons_of_length_pos (Nat.zero_lt_of_lt hn)
    have hk : ok k := hok 0 n.succ_pos
    rw [sent, if_pos hk, List.length_cons, ih (Nat.lt_of_succ_lt_succ hn)]
    · intro i hi
      have h := hok (i + 1) (Nat.succ_lt_succ hi)
      rwa [show k + (i + 1) = k + 1 + i by omega] at h
    · rwa [show k + 1 + n = k + (n + 1) by omega]

end Sent

end Listener

end TwoWire
