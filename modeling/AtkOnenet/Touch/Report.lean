import AtkOnenet.Lcd.Aim
import AtkOnenet.Lib.Run
import AtkOnenet.Touch.Scan

/-!
# The touch state and the reports of the controller

Runs of `GT9147_Scan(0)` from the declared `tp_dev`, with any answer of the controller to each call.

* `pressed_describes`: while `tp_dev` says that the panel is pressed, it describes the last report
  with one to five fingers (`Describes`).
* `illegal_ignored_iff`: a single-finger report that fails the driver's test leaves the touch state
  alone exactly if this is idle already. Otherwise the call goes on in the block of a status without
  a finger, because `mode` is set to `0X80`: a held finger is released, the bits or the point of a
  released one are cleared.
-/

namespace AtkOnenet

open Run

variable {d : LcdDev} {r : Reply} {s : Scanner}

/-- `TP_PRES_DOWN` is set. -/
def TpDev.Pressed (p : TpDev) : Prop := p.sta &&& tpPresDown ≠ 0

instance (p : TpDev) : Decidable p.Pressed := inferInstanceAs (Decidable (_ ≠ _))

/-- The state at start-up, with the orientation in `touchtype`. -/
def Scanner.init (touchtype : UInt8) : Scanner := ⟨{ TpDev.init with touchtype }, 0⟩

/-! ## The last report -/

/-- The scanner with the last polled report of one to five fingers. -/
structure Watched where
  scanner : Scanner
  last : Option Reply

def Watched.step (d : LcdDev) (w : Watched) (r : Reply) : Watched where
  scanner := (gt9147Scan d r w.scanner).2.2
  last := if w.scanner.Polls ∧ r.Counts then some r else w.last

/-- The touch state describes the report `r`. -/
structure Describes (d : LcdDev) (touchtype : UInt8) (r : Reply) (p : TpDev) : Prop where
  count : 1 ≤ r.count ∧ r.count ≤ 5
  cath : p.sta &&& tpCathPres ≠ 0
  reserved : p.sta &&& 0x20 = 0
  fingers : (p.sta &&& 0x1F).toNat = 2 ^ r.count.toNat - 1
  others : ∀ i : Fin ctMaxTouch, 1 ≤ (i : Nat) → (i : Nat) < r.count.toNat →
    p.slot i = r.point touchtype i
  first : ¬ d.Illegal (r.point touchtype 0) → p.slot 0 = r.point touchtype 0
  second : d.Illegal (r.point touchtype 0) → 2 ≤ r.count ∧ p.slot 0 = r.point touchtype 1

theorem release_not_pressed (p : TpDev) : ¬ (release p).Pressed := by
  unfold release TpDev.Pressed
  split
  case isTrue =>
    have hbit : p.sta &&& ~~~((1 : UInt8) <<< 7) &&& tpPresDown = 0 := by
      rw [UInt8.and_assoc]
      exact UInt8.and_zero
    exact not_not.mpr hbit
  case isFalse h =>
    have hbit : p.sta &&& 0xE0 &&& tpPresDown = p.sta &&& tpPresDown := by
      rw [UInt8.and_assoc]
      rfl
    rwa [hbit]

theorem release_touchtype (p : TpDev) : (release p).touchtype = p.touchtype := by
  unfold release
  split <;> rfl

theorem scan_touchtype (d : LcdDev) (r : Reply) (s : Scanner) :
    (gt9147Scan d r s).2.2.tpDev.touchtype = s.tpDev.touchtype := by
  have h := scan_case d r s
  generalize (gt9147Scan d r s).2.2 = s' at h
  cases h with
  | skip | stale => rfl
  | noFinger => exact release_touchtype _
  | first => exact (s.tpDev.report_sta r).2
  | second => exact (s.tpDev.report_sta r).2
  | reject => exact release_touchtype _

/-- A report with a point in slot 0, once the first finger is legal or there is a second one. -/
theorem describes_report {p : TpDev} (hc : r.Counts) {v : UInt16 × UInt16}
    (h₁ : ¬ d.Illegal (r.point p.touchtype 0) → v = r.point p.touchtype 0)
    (h₂ : d.Illegal (r.point p.touchtype 0) → 2 ≤ r.count ∧ v = r.point p.touchtype 1) :
    Describes d p.touchtype r ((p.report r).setSlot 0 v) := by
  obtain ⟨-, hcath, hres, hfingers, -⟩ := staOf_bits hc
  have hsta : ((p.report r).setSlot 0 v).sta = staOf r.count := (p.report_sta r).1
  have hslot : ((p.report r).setSlot 0 v).slot 0 = v := by simp
  refine ⟨?_, by rwa [hsta], by rwa [hsta], by rwa [hsta], fun i hi₁ hin => ?_,
    fun h => hslot.trans (h₁ h), fun h => ⟨(h₂ h).1, hslot.trans (h₂ h).2⟩⟩
  · rcases hc.cases with h | h | h | h | h <;> rw [h] <;> decide
  · have hi : i ≠ 0 := by
      rintro rfl
      simp at hi₁
    rw [TpDev.slot_setSlot, if_neg hi, p.report_slot hc, if_pos hin]

/-- The invariant of the runs. -/
def Watched.Inv (d : LcdDev) (touchtype : UInt8) (w : Watched) : Prop :=
  w.scanner.tpDev.touchtype = touchtype ∧ (w.scanner.tpDev.Pressed →
    ∃ r, w.last = some r ∧ Describes d touchtype r w.scanner.tpDev)

theorem Watched.Inv.step {touchtype : UInt8} {w : Watched} (hw : w.Inv d touchtype) (r : Reply) :
    (w.step d r).Inv d touchtype := by
  obtain ⟨htype, hpressed⟩ := hw
  refine ⟨(scan_touchtype d r _).trans htype, ?_⟩
  have h := scan_case d r w.scanner
  simp only [Watched.step]
  generalize (gt9147Scan d r w.scanner).2.2 = s' at h ⊢
  cases h with
  | skip hp => simpa only [hp, false_and, if_false] using hpressed
  | stale hp hst hc => simpa only [hc, and_false, if_false] using hpressed
  | noFinger | reject =>
    intro hpressed
    exact absurd hpressed (release_not_pressed _)
  | first hp hc hl =>
    intro _
    refine ⟨r, if_pos ⟨hp, hc⟩, ?_⟩
    rw [← htype, ← w.scanner.tpDev.report_setSlot hc]
    exact describes_report hc (fun _ => rfl) fun h => absurd h hl
  | second hp hc hl h1 =>
    intro _
    refine ⟨r, if_pos ⟨hp, hc⟩, ?_⟩
    rw [← htype]
    exact describes_report hc (fun h => absurd hl h) fun _ => ⟨h1, rfl⟩

/-- **The touch state describes one report.** In every state of a run where the panel is pressed,
there has been a report with one to five fingers, and `tp_dev` describes the last one. -/
theorem pressed_describes (d : LcdDev) (touchtype : UInt8) (calls : List Reply) :
    let w := calls.foldl (Watched.step d) ⟨.init touchtype, none⟩
    w.scanner.tpDev.Pressed →
      ∃ r, w.last = some r ∧ Describes d touchtype r w.scanner.tpDev := by
  have hinit : Watched.Inv d touchtype ⟨.init touchtype, none⟩ :=
    ⟨rfl, fun h => absurd h (by simp [Scanner.init, TpDev.Pressed, TpDev.init])⟩
  have hrun : Watched.Inv d touchtype (calls.foldl (Watched.step d) ⟨.init touchtype, none⟩) :=
    List.foldlRecOn calls (Watched.step d) hinit fun _ hw r _ => hw.step r
  exact hrun.2

/-- The answer with this status and these words of each point. -/
def Reply.ofWords (status : UInt8) (words : Fin ctMaxTouch → UInt16 × UInt16) : Reply where
  status := status
  buf i
    | 0 => (words i).1.toUInt8
    | 1 => ((words i).1 >>> 8).toUInt8
    | 2 => (words i).2.toUInt8
    | 3 => ((words i).2 >>> 8).toUInt8

/-- Two fingers on a portrait screen, the first one off its right edge. -/
theorem pressed_describes_second :
    let d := ChipKind.nt35510.lcddev 0
    let w := Watched.step d ⟨.init 0x80, none⟩
      (.ofWords 0x82 fun i => if i = 0 then (481, 5) else (9, 7))
    ∃ r, w.last = some r ∧ Describes d 0x80 r w.scanner.tpDev :=
  pressed_describes (ChipKind.nt35510.lcddev 0) 0x80
    [.ofWords 0x82 fun i => if i = 0 then (481, 5) else (9, 7)] (by decide +kernel)

/-! ## Illegal single-finger reports -/

/-- The next call polls a report of one finger that fails the driver's test. -/
def IllegalSample (d : LcdDev) (s : Scanner) (r : Reply) : Prop :=
  s.Polls ∧ r.count = 1 ∧ d.Illegal (r.point s.tpDev.touchtype 0)

instance (s : Scanner) (r : Reply) : Decidable (IllegalSample d s r) :=
  inferInstanceAs (Decidable (_ ∧ _))

/-- No finger: bits 7 and 4 to 0 are clear, and the point is that of an idle panel. -/
def TpDev.Cleared (p : TpDev) : Prop := p.sta &&& 0x9F = 0 ∧ p.slot 0 = (0xffff, 0xffff)

theorem release_sta_iff (v : UInt8) :
    (if v &&& tpPresDown ≠ 0 then v &&& ~~~((1 : UInt8) <<< 7) else v &&& 0xE0) = v ↔
      v &&& 0x9F = 0 := by
  have h : ∀ w : BitVec 8, (if (⟨w⟩ : UInt8) &&& tpPresDown ≠ 0 then ⟨w⟩ &&& ~~~((1 : UInt8) <<< 7)
      else ⟨w⟩ &&& 0xE0) = ⟨w⟩ ↔ (⟨w⟩ : UInt8) &&& 0x9F = 0 := by decide +kernel
  exact h v.toBitVec

theorem release_unchanged_iff (p : TpDev) :
    ((release p).sta = p.sta ∧ (release p).slot 0 = p.slot 0) ↔ p.Cleared := by
  have hsta := release_sta_iff p.sta
  unfold release TpDev.Cleared
  split
  case isTrue h =>
    rw [if_pos h] at hsta
    have hpressed : p.sta &&& 0x9F ≠ 0 := by
      intro h'
      have hbit : p.sta &&& tpPresDown = (p.sta &&& 0x9F) &&& tpPresDown := by
        rw [UInt8.and_assoc]
        rfl
      rw [hbit, h'] at h
      exact h rfl
    constructor
    · rintro ⟨h', -⟩
      exact absurd (hsta.mp h') hpressed
    · rintro ⟨h', -⟩
      exact absurd h' hpressed
  case isFalse h =>
    rw [if_neg h] at hsta
    have hset : (p.setSlot 0 (0xffff, 0xffff)).slot 0 = (0xffff, 0xffff) := by simp
    have hslot : ({ p.setSlot 0 (0xffff, 0xffff) with sta := p.sta &&& 0xE0 } : TpDev).slot 0 =
        (0xffff, 0xffff) := hset
    rw [hslot]
    exact and_congr hsta eq_comm

/-- An illegal report leaves the touch state alone. -/
def Ignored (d : LcdDev) (s : Scanner) (r : Reply) : Prop :=
  let p := (gt9147Scan d r s).2.2.tpDev
  IllegalSample d s r → p.sta = s.tpDev.sta ∧ p.slot 0 = s.tpDev.slot 0

theorem ignored_iff (d : LcdDev) (s : Scanner) (r : Reply) :
    Ignored d s r ↔ (IllegalSample d s r → s.tpDev.Cleared) := by
  apply forall_congr'
  rintro ⟨hp, h1, hl⟩
  have hc : r.Counts := by
    rw [Reply.Counts, h1]
    decide
  have h := scan_case d r s
  generalize (gt9147Scan d r s).2.2 = s' at h ⊢
  cases h with
  | skip hp' => exact absurd hp hp'
  | noFinger _ hst => exact absurd hst (status_ne_of_counts hc)
  | stale _ _ hc' => exact absurd hc hc'
  | first _ _ hl' => exact absurd hl hl'
  | second _ _ _ h1' =>
    rw [h1] at h1'
    exact absurd h1' (by decide)
  | reject =>
    have hslot : (s.tpDev.setSlot 4 (s.tpDev.slot 0)).slot 0 = s.tpDev.slot 0 := by simp
    have h := release_unchanged_iff (s.tpDev.setSlot 4 (s.tpDev.slot 0))
    rw [hslot] at h
    refine h.trans ?_
    unfold TpDev.Cleared
    rw [hslot]
    rfl

/-- **Illegal reports.** In a run from start-up, every illegal report of one finger is ignored
exactly if the panel is idle and cleared at each of them. -/
theorem illegal_ignored_iff (d : LcdDev) (touchtype : UInt8) (calls : List Reply) :
    Along (fun s r => (gt9147Scan d r s).2.2) (Ignored d) (.init touchtype) calls ↔
      Along (fun s r => (gt9147Scan d r s).2.2)
        (fun s r => IllegalSample d s r → s.tpDev.Cleared) (.init touchtype) calls :=
  along_congr (ignored_iff d) _ _

/-- A finger is held in the middle of a portrait screen, and one sample of it is off the screen:
the finger counts as lifted. -/
theorem illegal_releases_finger :
    let d := ChipKind.nt35510.lcddev 0
    let held : Reply := .ofWords 0x81 fun _ => (240, 400)
    let bad : Reply := .ofWords 0x81 fun _ => (481, 400)
    let s := (gt9147Scan d held (.init 0x80)).2.2
    s.tpDev.Pressed ∧ IllegalSample d s bad ∧ ¬ (gt9147Scan d bad s).2.2.tpDev.Pressed ∧
      ¬ Along (fun s r => (gt9147Scan d r s).2.2) (Ignored d) (.init 0x80) [held, bad] := by
  refine ⟨by decide +kernel, by decide +kernel, by decide +kernel, fun h => ?_⟩
  exact absurd (h.2.1 (by decide +kernel)).1 (by decide +kernel)

end AtkOnenet
