import AtkOnenet.Touch.Report

/-!
# How often the scan polls the controller

The static counter of `GT9147_Scan` as a state of its own: an accepted report sets it to 0, every
other call counts on and folds it back to 10 behind 240 (`next_t`). A call polls, that is, makes a
register access, up to the count 10, then at every tenth count.

`throttled_iff`: every window of ten calls polls, and so does each of the ten calls after an accepted
report (`Throttled`), exactly if no window of ten calls begins at the count 240. There the next count
is 241, which is folded to 10, so the poll at 250 is not made: ten calls in a row do not poll.
-/

namespace AtkOnenet

open Run

variable {d : LcdDev} {r : Reply} {s : Scanner}

/-- The scanner after a call. -/
def Scanner.next (d : LcdDev) (s : Scanner) (r : Reply) : Scanner := (gt9147Scan d r s).2.2

/-- The call accepts a report: one to five fingers, and not a single one that is not legal. -/
def Accepts (d : LcdDev) (s : Scanner) (r : Reply) : Prop :=
  s.Polls ∧ r.Counts ∧ (d.Illegal (r.point s.tpDev.touchtype 0) → 1 < r.count)

instance (s : Scanner) (r : Reply) : Decidable (Accepts d s r) :=
  inferInstanceAs (Decidable (_ ∧ _))

/-- A call polls at the count `t`. -/
def PollsAt (t : UInt8) : Prop := (t + 1) % 10 = 0 ∨ t + 1 < 10

instance (t : UInt8) : Decidable (PollsAt t) := inferInstanceAs (Decidable (_ ∨ _))

/-- The count after a call that accepts no report. -/
def nextCount (t : UInt8) : UInt8 := foldT (t + 1)

/-- The call accesses the controller. -/
def Accesses (d : LcdDev) (s : Scanner) (r : Reply) : Prop := (gt9147Scan d r s).2.1 ≠ []

/-- What a run of calls keeps to: one poll in every ten calls, and ten polls after a report. -/
structure Throttled (d : LcdDev) (s₀ : Scanner) (calls : List Reply) : Prop where
  window : ∀ pre window post, calls = pre ++ window ++ post → window.length = 10 →
    Sometime (Scanner.next d) (Accesses d) (pre.foldl (Scanner.next d) s₀) window
  held : ∀ pre r post, calls = pre ++ r :: post → Accepts d (pre.foldl (Scanner.next d) s₀) r →
    Along (Scanner.next d) (Accesses d) ((pre ++ [r]).foldl (Scanner.next d) s₀) (post.take 10)

/-! ## The counter -/

/-- What a call does to the counter. -/
theorem next_t (d : LcdDev) (s : Scanner) (r : Reply) :
    (s.next d r).t = if Accepts d s r then 0 else nextCount s.t := by
  have h := scan_case d r s
  unfold Scanner.next
  generalize (gt9147Scan d r s).2.2 = s' at h ⊢
  cases h with
  | skip hp => rw [if_neg fun h => hp h.1]; rfl
  | noFinger _ hst => rw [if_neg fun h => status_ne_of_counts h.2.1 hst]; rfl
  | stale _ _ hc => rw [if_neg fun h => hc h.2.1]; rfl
  | first hp hc hl => rw [if_pos ⟨hp, hc, fun h => absurd h hl⟩]
  | second hp hc _ h1 => rw [if_pos ⟨hp, hc, fun _ => h1⟩]
  | reject _ _ hl h1 =>
    have hna : ¬ Accepts d s r := by
      rintro ⟨-, -, h⟩
      have h1' := h hl
      rw [h1] at h1'
      exact absurd h1' (by decide)
    rw [if_neg hna]
    rfl

theorem nextCount_le (t : UInt8) : nextCount t ≤ 240 := by
  have h : ∀ w : BitVec 8, nextCount ⟨w⟩ ≤ 240 := by decide +kernel
  exact h t.toBitVec

theorem next_t_le (d : LcdDev) (s : Scanner) (r : Reply) : (s.next d r).t ≤ 240 := by
  rw [next_t]
  split
  · decide
  · exact nextCount_le _

/-- The counter in a run from start-up. -/
theorem run_t_le (d : LcdDev) (touchtype : UInt8) (calls : List Reply) :
    (calls.foldl (Scanner.next d) (.init touchtype)).t ≤ 240 := by
  have hinit : (Scanner.init touchtype).t ≤ 240 := by
    change (0 : UInt8) ≤ 240
    decide
  exact List.foldlRecOn (motive := fun s : Scanner => s.t ≤ 240) calls (Scanner.next d) hinit
    fun s _ r _ => next_t_le d s r

/-- A call that does not poll only counts. -/
theorem next_t_of_not_polls (r : Reply) (h : ¬ PollsAt s.t) : (s.next d r).t = nextCount s.t := by
  rw [next_t, if_neg]
  intro ha
  exact h ha.1

/-! ## Windows -/

/-- Calls that do not poll go through the counts one by one. -/
theorem idle_iff (d : LcdDev) (s : Scanner) (window : List Reply) :
    ¬ Sometime (Scanner.next d) (fun s _ => s.Polls) s window ↔
      ∀ k < window.length, ¬ PollsAt (nextCount^[k] s.t) := by
  rw [not_sometime]
  apply along_iterate Scanner.t nextCount (p := fun t => ¬ PollsAt t)
  intro s r h
  exact next_t_of_not_polls r h

/-- From the counts up to 240, ten counts in a row without a poll begin at 240 only. -/
theorem ten_idle_iff (t : UInt8) (ht : t ≤ 240) :
    (∀ k < 10, ¬ PollsAt (nextCount^[k] t)) ↔ t = 240 := by
  have h : ∀ w : BitVec 8, (⟨w⟩ : UInt8) ≤ 240 →
      ((∀ k < 10, ¬ PollsAt (nextCount^[k] ⟨w⟩)) ↔ (⟨w⟩ : UInt8) = 240) := by decide +kernel
  exact h t.toBitVec ht

theorem window_iff {window : List Reply} (hs : s.t ≤ 240) (hlen : window.length = 10) :
    Sometime (Scanner.next d) (Accesses d) s window ↔ s.t ≠ 240 := by
  refine (sometime_congr (fun s r => accesses_ne_nil_iff d r s) s window).trans ?_
  rw [← not_iff_not, idle_iff, hlen, not_not]
  exact ten_idle_iff s.t hs

/-- Eleven counts in a row do not go without a poll. -/
theorem eleven_not_idle (t : UInt8) (ht : t ≤ 240) : ∃ k < 11, PollsAt (nextCount^[k] t) := by
  have h : ∀ w : BitVec 8, (⟨w⟩ : UInt8) ≤ 240 → ∃ k < 11, PollsAt (nextCount^[k] ⟨w⟩) := by
    decide +kernel
  exact h t.toBitVec ht

/-- The bound that the driver does keep: in a run from start-up, eleven calls in a row poll. -/
theorem polls_within_eleven (d : LcdDev) (touchtype : UInt8) (pre : List Reply) {window : List Reply}
    (hlen : window.length = 11) :
    Sometime (Scanner.next d) (Accesses d) (pre.foldl (Scanner.next d) (.init touchtype)) window := by
  refine (sometime_congr (fun s r => accesses_ne_nil_iff d r s) _ window).mpr ?_
  by_contra h
  rw [idle_iff, hlen] at h
  obtain ⟨k, hk, hpolls⟩ := eleven_not_idle _ (run_t_le d touchtype pre)
  exact h k hk hpolls

/-! ## After a report -/

/-- Up to the count 10 every call polls. -/
theorem polls_up_to_ten {calls : List Reply} (hs : s.t.toNat + calls.length ≤ 10) :
    Along (Scanner.next d) (fun s _ => s.Polls) s calls := by
  induction calls generalizing s with
  | nil => trivial
  | cons r calls ih =>
    rw [List.length_cons] at hs
    have hcount : ∀ w : BitVec 8, (⟨w⟩ : UInt8).toNat < 10 →
        PollsAt ⟨w⟩ ∧ (nextCount ⟨w⟩).toNat = (⟨w⟩ : UInt8).toNat + 1 := by decide +kernel
    obtain ⟨hpolls, hnext⟩ := hcount s.t.toBitVec (show s.t.toNat < 10 by omega)
    refine ⟨hpolls, ih ?_⟩
    rw [next_t]
    split
    · rw [UInt8.toNat_zero]
      omega
    · change (nextCount s.t).toNat = s.t.toNat + 1 at hnext
      omega

theorem polls_after_report {post : List Reply} (h : Accepts d s r) :
    Along (Scanner.next d) (Accesses d) (s.next d r) (post.take 10) := by
  refine (along_congr (fun s r => accesses_ne_nil_iff d r s) _ _).mpr ?_
  apply polls_up_to_ten
  rw [next_t, if_pos h, List.length_take, UInt8.toNat_zero]
  omega

/-! ## Runs -/

/-- **Polling.** A run of calls from start-up polls once in every ten calls, and ten times after
every report, exactly if no window of ten calls begins at the count 240. -/
theorem throttled_iff (d : LcdDev) (touchtype : UInt8) (calls : List Reply) :
    Throttled d (.init touchtype) calls ↔
      ∀ pre window post, calls = pre ++ window ++ post → window.length = 10 →
        (pre.foldl (Scanner.next d) (.init touchtype)).t ≠ 240 := by
  constructor
  · intro h pre window post hcalls hlen
    exact (window_iff (run_t_le d touchtype pre) hlen).mp (h.window pre window post hcalls hlen)
  · intro h
    constructor
    case window =>
      intro pre window post hcalls hlen
      exact (window_iff (run_t_le d touchtype pre) hlen).mpr (h pre window post hcalls hlen)
    case held =>
      intro pre r post _ ha
      rw [List.foldl_append]
      exact polls_after_report ha

/-- A panel that nobody touches: the calls 241 to 250 do not poll. -/
theorem untouched_starves :
    let d := ChipKind.nt35510.lcddev 0
    let idle : Reply := .ofWords 0 fun _ => (0, 0)
    ((List.replicate 240 idle).foldl (Scanner.next d) (.init 0x80)).t = 240 ∧
      ¬ Throttled d (.init 0x80) (List.replicate 250 idle) := by
  intro d idle
  have ht : ((List.replicate 240 idle).foldl (Scanner.next d) (.init 0x80)).t = 240 := by
    decide +kernel
  refine ⟨ht, ?_⟩
  intro h
  have hpolls := h.window (List.replicate 240 idle) (List.replicate 10 idle) []
    (by rw [List.append_nil, List.replicate_append_replicate]) List.length_replicate
  exact (window_iff (run_t_le d 0x80 _) List.length_replicate).mp hpolls ht

end AtkOnenet
