import AtkOnenet.Lib.Run
import AtkOnenet.Touch.Gt9147
import AtkOnenet.Touch.Report

/-!
# The scan over the bus (`HARDWARE/TOUCH/gt9147.c`)

`GT9147_Scan(0)` with its register accesses on the two-wire bus. Between two calls the chip may write
its registers. On the wire there is a handshake: the chip sets bit 7 of the status register with a
report, and the driver clears the register when it takes the report.

* `gt9147ScanBus_slave`: over the bus the scan does what it does with the answers that the registers
  hold (`gt9147Scan`), and clears the status register.
* `touch_refines_inbox`: driver, bus and chip are an inbox for one report, which a newer report
  replaces and a poll takes.
* `reports_taken_once`: no report is taken twice.
-/

namespace AtkOnenet

open TwoWire Word Run

section Driver

variable {σ : Type} (dev : Device σ)

/-- One turn of the loop over the points. All bytes of `buf` are read anew. -/
def readFingerBus (q : TpDev × Bus σ) (i : Fin ctMaxTouch) : TpDev × Bus σ :=
  let (p, b) := q
  if p.sta &&& (1 <<< UInt8.ofNat i) ≠ 0 then
    let (buf, b) := gt9147RdReg dev (gt9147TpxTbl i) [0, 0, 0, 0] 4 b
    let answer : Reply := ⟨0, fun _ k => buf.getD k 0⟩
    (p.setSlot i (answer.point p.touchtype i), b)
  else (p, b)

/-- The end of the block of a status with one to five fingers, behind the loop. -/
def checkReport (d : LcdDev) (mode t tempsta : UInt8) (p : TpDev) : UInt8 × UInt8 × TpDev :=
  if d.Illegal (p.slot 0) then
    if mode &&& 0xF > 1 then (mode, 0, p.setSlot 0 (p.slot 1))
    else (0x80, t, { p.setSlot 0 (p.slot 4) with sta := tempsta })
  else (mode, 0, p)

/-- The block of a status with one to five fingers. -/
def takeReportBus (d : LcdDev) (mode t : UInt8) (p : TpDev) (b : Bus σ) :
    (UInt8 × UInt8 × TpDev) × Bus σ :=
  let tempsta := p.sta
  let p := { p with sta := staOf (mode &&& 0xF) }
  let p := p.setSlot 4 (p.slot 0)
  let (p, b) := (List.finRange ctMaxTouch).foldl (readFingerBus dev) (p, b)
  (checkReport d mode t tempsta p, b)

/-- Reading the status, and clearing it. -/
def pollBus (b : Bus σ) : UInt8 × Bus σ :=
  let (buf, b) := gt9147RdReg dev gtGstidReg [0] 1 b
  let mode := buf.getD 0 0
  if mode &&& 0x80 ≠ 0 ∧ mode &&& 0xF < 6 then (mode, (gt9147WrReg dev gtGstidReg [0] 1 b).2)
  else (mode, b)

/-- `GT9147_Scan(0)` on the bus. -/
def gt9147ScanBus (d : LcdDev) (s : Scanner) (b : Bus σ) : UInt8 × Scanner × Bus σ :=
  let t := s.t + 1
  let (res, (mode, t, p), b) :=
    if t % 10 = 0 ∨ t < 10 then
      let (mode, b) := pollBus dev b
      if mode &&& 0xF ≠ 0 ∧ mode &&& 0xF < 6 then (1, takeReportBus dev d mode t s.tpDev b)
      else (0, (mode, t, s.tpDev), b)
    else (0, (0, t, s.tpDev), b)
  let p := if mode &&& 0x8F = 0x80 then release p else p
  let t := if t > 240 then 10 else t
  (res, ⟨p, t⟩, b)

end Driver

/-! ## With the register slave -/

/-- What the registers of the chip answer. -/
def chipReply (regs : UInt16 → UInt8) : Reply :=
  ⟨regs gtGstidReg, fun i k => regs (gt9147TpxTbl i + UInt16.ofNat k)⟩

/-- The driver takes the report: it clears the status register. -/
def Reply.Taken (r : Reply) : Prop := r.status &&& 0x80 ≠ 0 ∧ r.status &&& 0xF < 6

instance (r : Reply) : Decidable r.Taken := inferInstanceAs (Decidable (_ ∧ _))

/-- The registers behind a poll. -/
def polled (regs : UInt16 → UInt8) : UInt16 → UInt8 :=
  if (chipReply regs).Taken then Function.update regs gtGstidReg 0 else regs

variable {d : LcdDev} {s : Scanner} {b : Bus Slave} {regs : UInt16 → UInt8}

theorem polled_of_ne {a : UInt16} (h : a ≠ gtGstidReg) : polled regs a = regs a := by
  unfold polled
  split
  · exact Function.update_of_ne h _ _
  · rfl

/-- The status register is none of the registers of the points. -/
theorem polled_buf (regs : UInt16 → UInt8) (i : Fin ctMaxTouch) (k : Fin 4) :
    (chipReply (polled regs)).buf i k = (chipReply regs).buf i k := by
  have hne : ∀ (i : Fin ctMaxTouch) (k : Fin 4),
      gt9147TpxTbl i + UInt16.ofNat k ≠ gtGstidReg := by decide
  exact polled_of_ne (hne i k)

/-- A turn of the loop on an idle bus. -/
theorem readFingerBus_slave (hb : Idle b) (p : TpDev) (i : Fin ctMaxTouch) :
    ∃ b', readFingerBus gt9147 (p, b) i = (readFinger (chipReply b.dev.regs) p i, b') ∧ Idle b' ∧
      b'.dev.regs = b.dev.regs := by
  by_cases hbit : p.sta &&& (1 <<< UInt8.ofNat i) ≠ 0
  · have hread := gt9147RdReg_slave hb (gt9147TpxTbl i) (show 0 < (4 : UInt8).toNat by decide)
      (show (4 : UInt8).toNat ≤ [0, 0, 0, 0].length by decide)
    simp only [readFingerBus, readFinger, if_pos hbit, hread]
    exact ⟨_, rfl, idle_mk, rfl⟩
  · simp only [readFingerBus, readFinger, if_neg hbit]
    exact ⟨b, rfl, hb, rfl⟩

/-- The loop on an idle bus. -/
theorem foldl_readFingerBus_slave (is : List (Fin ctMaxTouch)) (hb : Idle b) (p : TpDev) :
    ∃ b', is.foldl (readFingerBus gt9147) (p, b) =
        (is.foldl (readFinger (chipReply b.dev.regs)) p, b') ∧ Idle b' ∧
      b'.dev.regs = b.dev.regs := by
  induction is generalizing p b with
  | nil => exact ⟨b, rfl, hb, rfl⟩
  | cons i is ih =>
    obtain ⟨b₁, hstep, hb₁, hregs₁⟩ := readFingerBus_slave hb p i
    obtain ⟨b₂, hrest, hb₂, hregs₂⟩ := ih hb₁ (readFinger (chipReply b.dev.regs) p i)
    rw [hregs₁] at hrest hregs₂
    rw [List.foldl_cons, List.foldl_cons, hstep]
    exact ⟨b₂, hrest, hb₂, hregs₂⟩

/-- Reading and clearing the status on an idle bus. -/
theorem pollBus_slave (hb : Idle b) :
    ∃ b', pollBus gt9147 b = (b.dev.regs gtGstidReg, b') ∧ Idle b' ∧
      b'.dev.regs = polled b.dev.regs := by
  have hread := gt9147RdReg_slave hb gtGstidReg (show 0 < (1 : UInt8).toNat by decide)
    (show (1 : UInt8).toNat ≤ [0].length by decide)
  have hmode : ((List.range (1 : UInt8).toNat).map (fun k => b.dev.regs (gtGstidReg + UInt16.ofNat k))
      ++ [0].drop (1 : UInt8).toNat).getD 0 0 = b.dev.regs gtGstidReg := rfl
  simp only [pollBus, hread, hmode, polled]
  by_cases ht : (chipReply b.dev.regs).Taken
  · have hwrite := gt9147WrReg_slave (b := ⟨⟨true, true, true⟩,
      ⟨b.dev.regs, gtGstidReg + UInt16.ofNat (1 : UInt8).toNat, .idle, true⟩⟩) idle_mk gtGstidReg
      (show (1 : UInt8).toNat ≤ [0].length by decide)
    rw [if_pos ht, hwrite]
    refine ⟨_, if_pos ht, idle_mk, ?_⟩
    have hone : ([0] : List UInt8).take (1 : UInt8).toNat = [0] := rfl
    rw [hone, Slave.storeAll_cons]
    rfl
  · rw [if_neg ht]
    exact ⟨_, if_neg ht, idle_mk, rfl⟩

theorem readFinger_congr {r r' : Reply} (h : r.buf = r'.buf) : readFinger r = readFinger r' := by
  funext p i
  unfold readFinger Reply.point
  rw [h]

/-- The block of a report behind its poll. -/
theorem takeReportBus_slave (d : LcdDev) (hb : Idle b) (hregs : b.dev.regs = polled regs)
    (t : UInt8) (p : TpDev) :
    ∃ b', takeReportBus gt9147 d (regs gtGstidReg) t p b = (takeReport d (chipReply regs) t p, b') ∧
      Idle b' ∧ b'.dev.regs = polled regs := by
  let q := { p with sta := staOf (regs gtGstidReg &&& 0xF) }
  let p' := q.setSlot 4 (q.slot 0)
  obtain ⟨b', hloop, hb', hregs'⟩ := foldl_readFingerBus_slave (List.finRange ctMaxTouch) hb p'
  have hbuf : (chipReply (polled regs)).buf = (chipReply regs).buf := by
    funext i k
    exact polled_buf regs i k
  rw [hregs, readFinger_congr hbuf] at hloop
  refine ⟨b', ?_, hb', hregs'.trans hregs⟩
  have htake : takeReport d (chipReply regs) t p = checkReport d (regs gtGstidReg) t p.sta
    (readFingers (chipReply regs) p') := rfl
  simp only [p', q] at hloop
  rw [htake, readFingers, takeReportBus]
  simp only [hloop, p', q]

/-- **The scan over the bus.** From an idle bus the scan does what it does with the answers in the
registers of the chip, clears the status register if it takes the report, changes no other register
and leaves the bus idle. -/
theorem gt9147ScanBus_slave (d : LcdDev) (s : Scanner) (hb : Idle b) :
    ∃ b', gt9147ScanBus gt9147 d s b = ((gt9147Scan d (chipReply b.dev.regs) s).1,
        (gt9147Scan d (chipReply b.dev.regs) s).2.2, b') ∧ Idle b' ∧
      b'.dev.regs = if s.Polls then polled b.dev.regs else b.dev.regs := by
  by_cases hp : (s.t + 1) % 10 = 0 ∨ s.t + 1 < 10
  · have hp' : s.Polls := hp
    obtain ⟨b₁, hpoll, hb₁, hregs₁⟩ := pollBus_slave hb
    rw [if_pos hp']
    by_cases hc : b.dev.regs gtGstidReg &&& 0xF ≠ 0 ∧ b.dev.regs gtGstidReg &&& 0xF < 6
    · obtain ⟨b₂, htake, hb₂, hregs₂⟩ := takeReportBus_slave d hb₁ hregs₁ (s.t + 1) s.tpDev
      refine ⟨b₂, ?_, hb₂, hregs₂⟩
      simp only [gt9147ScanBus, gt9147Scan, if_pos hp, hpoll, if_pos hc, htake]
      rw [if_pos (show (chipReply b.dev.regs).status &&& 0xF ≠ 0 ∧
        (chipReply b.dev.regs).status &&& 0xF < 6 from hc)]
    · refine ⟨b₁, ?_, hb₁, hregs₁⟩
      simp only [gt9147ScanBus, gt9147Scan, if_pos hp, hpoll, if_neg hc]
      rw [if_neg (show ¬((chipReply b.dev.regs).status &&& 0xF ≠ 0 ∧
        (chipReply b.dev.regs).status &&& 0xF < 6) from hc)]
      rfl
  · have hp' : ¬ s.Polls := hp
    refine ⟨b, ?_, hb, by rw [if_neg hp']⟩
    simp only [gt9147ScanBus, gt9147Scan, if_neg hp]

/-! ## An inbox for one report -/

/-- The chip sets its registers, or the driver scans. -/
inductive ChipEvent where
  | chip (regs : UInt16 → UInt8)
  | scan

/-- The chip sets its registers with a report: bit 7 of the status is set. -/
def ChipEvent.Reports : ChipEvent → Prop
  | chip regs => (chipReply regs).status &&& 0x80 ≠ 0
  | scan => True

/-- The driver, the bus and the chip. -/
structure TouchBus where
  scanner : Scanner
  bus : Bus Slave

def TouchBus.step (d : LcdDev) (s : TouchBus) : ChipEvent → TouchBus
  | .chip regs => { s with bus := { s.bus with dev := { s.bus.dev with regs } } }
  | .scan =>
    let (_, scanner, bus) := gt9147ScanBus gt9147 d s.scanner s.bus
    ⟨scanner, bus⟩

/-- The driver with an inbox for one report. -/
structure Inbox where
  scanner : Scanner
  inbox : Option Reply

/-- A call that sees no new report. -/
def Scanner.tick (s : Scanner) : Scanner := ⟨s.tpDev, foldT (s.t + 1)⟩

/-- A new report replaces the last one; a poll scans with the report and takes it. -/
def Inbox.step (d : LcdDev) (s : Inbox) : ChipEvent → Inbox
  | .chip regs => { s with inbox := some (chipReply regs) }
  | .scan =>
    if s.scanner.Polls then
      match s.inbox with
      | some r => ⟨(gt9147Scan d r s.scanner).2.2, if r.Taken then none else some r⟩
      | none => ⟨s.scanner.tick, none⟩
    else ⟨s.scanner.tick, s.inbox⟩

/-- The registers hold what is in the inbox. -/
def Holds (regs : UInt16 → UInt8) : Option Reply → Prop
  | some r => chipReply regs = r ∧ r.status &&& 0x80 ≠ 0
  | none => regs gtGstidReg = 0

/-- The bus is idle between the calls, and the registers hold the inbox. -/
structure InSync (s : TouchBus) (a : Inbox) : Prop where
  scanner : s.scanner = a.scanner
  idle : Idle s.bus
  holds : Holds s.bus.dev.regs a.inbox

theorem scan_of_not_polls {r : Reply} (hp : ¬ s.Polls) : (gt9147Scan d r s).2.2 = s.tick := by
  have h := scan_case d r s
  generalize (gt9147Scan d r s).2.2 = s' at h
  cases h with
  | skip => rfl
  | noFinger hp' | stale hp' | first hp' | second hp' | reject hp' => exact absurd hp' hp

/-- A cleared status is no report. -/
theorem scan_of_cleared {r : Reply} (hr : r.status = 0) : (gt9147Scan d r s).2.2 = s.tick := by
  have hnot : ¬ r.Counts := by
    rintro ⟨h0, -⟩
    rw [Reply.count, hr] at h0
    exact h0 rfl
  have h := scan_case d r s
  generalize (gt9147Scan d r s).2.2 = s' at h
  cases h with
  | skip | stale => rfl
  | noFinger _ hst =>
    rw [hr] at hst
    exact absurd hst (by decide)
  | first _ hc | second _ hc | reject _ hc => exact absurd hc hnot

/-- What a poll leaves in the registers. -/
theorem holds_polled {inbox : Option Reply} (h : Holds regs inbox) :
    Holds (polled regs) (inbox.bind fun r => if r.Taken then none else some r) := by
  cases inbox with
  | none =>
    have hnot : ¬ (chipReply regs).Taken := by
      rintro ⟨hbit, -⟩
      have hst : (chipReply regs).status = 0 := h
      rw [hst] at hbit
      exact hbit rfl
    rw [polled, if_neg hnot]
    exact h
  | some r =>
    obtain ⟨hr, hbit⟩ := h
    rw [polled, hr, Option.bind_some]
    split
    · exact Function.update_self ..
    · exact ⟨hr, hbit⟩

/-- One event on the bus and in the inbox. -/
theorem InSync.step {s : TouchBus} {a : Inbox} (h : InSync s a) {e : ChipEvent} (he : e.Reports) :
    InSync (s.step d e) (a.step d e) := by
  obtain ⟨hscanner, hidle, hholds⟩ := h
  cases e with
  | chip regs => exact ⟨hscanner, ⟨hidle.scl, hidle.sda, hidle.mode, hidle.free⟩, rfl, he⟩
  | scan =>
    obtain ⟨b', hscan, hidle', hregs⟩ := gt9147ScanBus_slave d s.scanner hidle
    have hstep : s.step d .scan = ⟨(gt9147Scan d (chipReply s.bus.dev.regs) s.scanner).2.2, b'⟩ := by
      simp only [TouchBus.step, hscan]
    rw [hstep, hscanner]
    rw [hscanner] at hregs
    by_cases hp : a.scanner.Polls
    · rw [if_pos hp] at hregs
      simp only [Inbox.step, if_pos hp]
      have hheld := holds_polled hholds
      rw [← hregs] at hheld
      cases hin : a.inbox with
      | none =>
        rw [hin] at hholds hheld
        exact ⟨scan_of_cleared hholds, hidle', hheld⟩
      | some r =>
        rw [hin] at hholds hheld
        obtain ⟨hr, -⟩ := hholds
        exact ⟨by rw [hr], hidle', hheld⟩
    · rw [if_neg hp] at hregs
      simp only [Inbox.step, if_neg hp]
      exact ⟨scan_of_not_polls hp, hidle', by rwa [hregs]⟩

theorem inSync_start {s : TouchBus} (hb : Idle s.bus) (h0 : s.bus.dev.regs gtGstidReg = 0) :
    InSync s ⟨s.scanner, none⟩ := ⟨rfl, hb, h0⟩

/-- **An inbox for one report.** From an idle bus with a cleared status, with reports of the chip and
calls of the driver in any order, the touch state is that of a driver with an inbox: a report stays
in it until the next poll takes it or the next report replaces it. -/
theorem touch_refines_inbox (d : LcdDev) {s : TouchBus} (hb : Idle s.bus)
    (h0 : s.bus.dev.regs gtGstidReg = 0) {es : List ChipEvent} (hes : ∀ e ∈ es, e.Reports) :
    ∃ a, Lockstep (TouchBus.step d) (fun a e a' => a' = Inbox.step d a e) InSync s
      ⟨s.scanner, none⟩ es a := by
  have hgood := (along_forall (TouchBus.step d) s).mpr hes
  refine simulate (fun s a e hsync he => ?_) (inSync_start hb h0) hgood
  exact ⟨_, rfl, hsync.step he⟩

/-- A report with one finger at (3, 5), and three calls. -/
theorem touch_refines_inbox_finger :
    let d := ChipKind.nt35510.lcddev 0
    let s : TouchBus := ⟨.init 0x80, ⟨⟨true, true, true⟩, ⟨fun _ => 0, 0, .idle, true⟩⟩⟩
    let regs := Function.update (Function.update (Function.update (fun _ => 0) 0x814E 0x81) 0x8150 3)
      0x8152 5
    ∃ a, Lockstep (TouchBus.step d) (fun a e a' => a' = Inbox.step d a e) InSync s
      ⟨s.scanner, none⟩ [.scan, .chip regs, .scan, .scan] a := by
  intro d s regs
  refine touch_refines_inbox d (s := s) idle_mk rfl ?_
  simp only [List.forall_mem_cons, ChipEvent.Reports, true_and]
  exact ⟨by decide, fun e he => absurd he List.not_mem_nil⟩

/-! ## No report is taken twice -/

/-- The call takes a report: it returns 1. -/
def TouchBus.Takes (d : LcdDev) (s : TouchBus) : ChipEvent → Prop
  | .chip _ => False
  | .scan => (gt9147ScanBus gt9147 d s.scanner s.bus).1 = 1

instance (d : LcdDev) (s : TouchBus) : (e : ChipEvent) → Decidable (s.Takes d e)
  | .chip _ => inferInstanceAs (Decidable False)
  | .scan => inferInstanceAs (Decidable (_ = _))

/-- The number of calls that return 1 in a run. -/
def takes (d : LcdDev) : TouchBus → List ChipEvent → Nat
  | _, [] => 0
  | s, e :: es => (if s.Takes d e then 1 else 0) + takes d (s.step d e) es

def ChipEvent.isChip : ChipEvent → Bool
  | chip _ => true
  | scan => false

theorem scan_result {r : Reply} (h : (gt9147Scan d r s).1 = 1) : s.Polls ∧ r.Counts := by
  unfold gt9147Scan at h
  by_cases hp : (s.t + 1) % 10 = 0 ∨ s.t + 1 < 10
  · by_cases hc : r.status &&& 0xF ≠ 0 ∧ r.status &&& 0xF < 6
    · exact ⟨hp, hc⟩
    · simp only [if_pos hp, if_neg hc] at h
      exact absurd h (by decide)
  · simp only [if_neg hp] at h
    exact absurd h (by decide)

/-- The number of reports in the inbox. -/
def Inbox.held (a : Inbox) : Nat := if a.inbox.isSome then 1 else 0

/-- Only the chip puts a report into the inbox. -/
theorem Inbox.held_step_le (a : Inbox) (e : ChipEvent) :
    (a.step d e).held ≤ a.held + if e.isChip then 1 else 0 := by
  obtain ⟨scanner, inbox⟩ := a
  cases e with
  | chip regs =>
    show 1 ≤ _ + 1
    exact Nat.le_add_left _ _
  | scan =>
    simp only [Inbox.step]
    split
    · cases inbox with
      | none => exact Nat.zero_le _
      | some r =>
        show (if (if r.Taken then none else some r).isSome then 1 else 0) ≤ 1
        split
        · exact Nat.zero_le _
        · exact Nat.le_refl _
    · exact Nat.le_refl _

/-- A call that takes a report empties the inbox. -/
theorem InSync.takes {s : TouchBus} {a : Inbox} (h : InSync s a) {e : ChipEvent}
    (ht : s.Takes d e) : a.held = 1 ∧ (a.step d e).held = 0 := by
  obtain ⟨hscanner, hidle, hholds⟩ := h
  cases e with
  | chip regs => exact ht.elim
  | scan =>
    obtain ⟨b', hscan, -, -⟩ := gt9147ScanBus_slave d s.scanner hidle
    simp only [TouchBus.Takes, hscan] at ht
    obtain ⟨hp, h0, h6⟩ := scan_result ht
    rw [hscanner] at hp
    simp only [Inbox.held, Inbox.step, if_pos hp]
    cases hin : a.inbox with
    | none =>
      rw [hin] at hholds
      have hst : (chipReply s.bus.dev.regs).status = 0 := hholds
      rw [Reply.count, hst] at h0
      exact absurd rfl h0
    | some r =>
      rw [hin] at hholds
      obtain ⟨rfl, hbit⟩ := hholds
      refine ⟨rfl, ?_⟩
      simp only [if_pos (show (chipReply s.bus.dev.regs).Taken from ⟨hbit, h6⟩)]
      rfl

theorem takes_le {s : TouchBus} {a : Inbox} (h : InSync s a) {es : List ChipEvent}
    (hes : ∀ e ∈ es, e.Reports) : takes d s es ≤ es.countP ChipEvent.isChip + a.held := by
  induction es generalizing s a with
  | nil => exact Nat.zero_le _
  | cons e es ih =>
    rw [List.forall_mem_cons] at hes
    have hrest := ih (h.step (d := d) hes.1) hes.2
    have hheld := a.held_step_le (d := d) e
    rw [takes, List.countP_cons]
    by_cases ht : s.Takes d e
    · obtain ⟨hone, hzero⟩ := h.takes ht
      rw [if_pos ht]
      omega
    · rw [if_neg ht]
      omega

/-- **No report is taken twice.** With reports of the chip and calls of the driver in any order, at
most as many calls return 1 as there were reports. -/
theorem reports_taken_once (d : LcdDev) {s : TouchBus} (hb : Idle s.bus)
    (h0 : s.bus.dev.regs gtGstidReg = 0) {es : List ChipEvent} (hes : ∀ e ∈ es, e.Reports) :
    takes d s es ≤ es.countP ChipEvent.isChip :=
  takes_le (inSync_start hb h0) hes

/-- One report and three calls. -/
theorem reports_taken_once_finger :
    let d := ChipKind.nt35510.lcddev 0
    let s : TouchBus := ⟨.init 0x80, ⟨⟨true, true, true⟩, ⟨fun _ => 0, 0, .idle, true⟩⟩⟩
    takes d s [.chip (Function.update (fun _ => 0) 0x814E 0x81), .scan, .scan, .scan] ≤ 1 := by
  intro d s
  refine reports_taken_once d (s := s) idle_mk rfl ?_
  simp only [List.forall_mem_cons, ChipEvent.Reports, true_and]
  exact ⟨by decide, fun e he => absurd he List.not_mem_nil⟩

end AtkOnenet
