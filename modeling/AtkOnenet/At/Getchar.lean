import AtkOnenet.At.Fifo
import AtkOnenet.Kernel.Sem
import AtkOnenet.Lib.Run

/-!
# Characters for the AT client (`components/net/at/src/at_client.c`)

The parser thread takes its characters one by one with `at_client_getchar`, and waits at the semaphore
`rx_notice` while there is none. The interrupt of the serial device fills the FIFO and releases the
semaphore (`at_client_rx_ind`). The steps of the two come in any order: between any two steps of the
thread, also between the empty read and the take, there may be an interrupt.

`Reader` is what the thread does with the characters: `feed` takes what `at_client_getchar` returns
(`none` for `-RT_ETIMEOUT`) and goes on to the next call, whose time-out is `time`.

* `getchar_stream`: the thread gets the characters that arrived, in order and each at most once, all of
  them if the FIFO never overflows, and does not wait while there are characters.
* `drains`: when the interrupts stop, the thread takes what there is and waits.
-/

namespace AtkOnenet

open Circular Run
open scoped List

/-- What a thread does with the characters of `at_client_getchar`. -/
structure Reader (σ : Type) where
  feed : σ → Option UInt8 → σ
  time : σ → Int

/-- Where the thread is in the loop of `at_client_getchar`. -/
inductive GetcharPc where
  /-- At `rt_device_read`. -/
  | read
  /-- At `rt_sem_take`, behind a read that got nothing. -/
  | take
  /-- Suspended in `rt_sem_take`. -/
  | suspended
  /-- At `rt_sem_control`, behind the take. -/
  | reset
  deriving DecidableEq, Repr

/-- The serial device and the thread that reads from it. `got` is what the calls of
`at_client_getchar` have returned. -/
structure Port (σ : Type) where
  fifo : RxFifo
  rxNotice : RtSem Unit
  pc : GetcharPc
  reader : σ
  got : List (Option UInt8)

/-- An interrupt with the characters that it reads from the device, a step of the thread, the end of
the thread's time-out. -/
inductive PortEvent where
  | isr (chs : List UInt8)
  | run
  | expire
  deriving DecidableEq, Repr

namespace Port

variable {σ : Type} (bufsz : Nat) (r : Reader σ)

/-- Behind `at_client_init`. -/
def opened (s : σ) : Port σ := ⟨RxFifo.opened bufsz, rtSemInit 0, .read, s, []⟩

/-- `at_client_getchar` returns, and the thread calls it again. -/
def answer (p : Port σ) (res : Option UInt8) : Port σ :=
  { p with pc := .read, reader := r.feed p.reader res, got := p.got ++ [res] }

/-- `at_client_rx_ind` with `size > 0`. -/
def rxInd (p : Port σ) : Port σ :=
  let (resumed, rxNotice) := rtSemRelease p.rxNotice
  { p with rxNotice := rxNotice, pc := if resumed.isSome then .reset else p.pc }

/-- The interrupt. -/
def isr (p : Port σ) (chs : List UInt8) : Port σ :=
  let (fifo, rxLength) := rtHwSerialIsr bufsz p.fifo chs
  let p := { p with fifo := fifo }
  if rxLength.isSome then p.rxInd else p

/-- A step of the thread. -/
def run (p : Port σ) : Port σ :=
  match p.pc with
  | .read =>
    match serialIntRx bufsz p.fifo 1 with
    | (ch :: _, fifo) => answer r { p with fifo := fifo } (some ch)
    | ([], fifo) => { p with fifo := fifo, pc := .take }
  | .take =>
    match rtSemTake p.rxNotice () (r.time p.reader) with
    | (.ok, rxNotice) => { p with rxNotice := rxNotice, pc := .reset }
    | (.timeout, rxNotice) => answer r { p with rxNotice := rxNotice } none
    | (.suspended, rxNotice) => { p with rxNotice := rxNotice, pc := .suspended }
  | .suspended => p
  | .reset => { p with rxNotice := (rtSemReset p.rxNotice 0).2, pc := .read }

/-- The time-out of a suspended thread, if it has one. -/
def expire (p : Port σ) : Port σ :=
  if p.pc = .suspended ∧ 0 < r.time p.reader then
    answer r { p with rxNotice := rtSemTimeout p.rxNotice () } none
  else p

def step (p : Port σ) : PortEvent → Port σ
  | .isr chs => p.isr bufsz chs
  | .run => p.run bufsz r
  | .expire => p.expire r

/-- The characters that have arrived. -/
def arrived (evs : List PortEvent) : List UInt8 :=
  evs.flatMap fun
    | .isr chs => chs
    | _ => []

/-- The characters that the thread has got. -/
def delivered (p : Port σ) : List UInt8 := p.got.filterMap id

/-- The FIFO has room for the characters of the interrupt. -/
def NoOverflow (p : Port σ) : PortEvent → Prop
  | .isr chs => (p.fifo.pending bufsz).length + chs.length ≤ bufsz - 1
  | _ => True

/-- The thread waits only while there is nothing, and the semaphore is up if something has come
since the last read. -/
structure Inv (s₀ : σ) (p : Port σ) : Prop where
  fifo : p.fifo.WF bufsz
  waits : p.rxNotice.suspendThread = if p.pc = .suspended then [()] else []
  take : p.pc = .take → p.fifo.pending bufsz ≠ [] → 0 < p.rxNotice.value
  suspended : p.pc = .suspended → p.fifo.pending bufsz = []
  reader : p.reader = p.got.foldl r.feed s₀

variable {bufsz} {r} {s₀ : σ} {p : Port σ}

theorem opened_inv (hb : 0 < bufsz) (s : σ) : (opened bufsz s).Inv bufsz r s where
  fifo := RxFifo.opened_wf hb
  waits := rfl
  take h := nomatch h
  suspended h := nomatch h
  reader := rfl

/-- The return of a call of `at_client_getchar`. -/
theorem answer_inv (hf : p.fifo.WF bufsz) (hw : p.rxNotice.suspendThread = [])
    (hr : p.reader = p.got.foldl r.feed s₀) (res : Option UInt8) :
    (p.answer r res).Inv bufsz r s₀ where
  fifo := hf
  waits := hw
  take h := nomatch h
  suspended h := nomatch h
  reader := by simp only [answer, List.foldl_append, List.foldl_cons, List.foldl_nil, hr]

theorem delivered_answer (p : Port σ) (res : Option UInt8) :
    (p.answer r res).delivered = p.delivered ++ res.toList := by
  cases res <;> simp [delivered, answer]

/-- An interrupt adds its characters to the FIFO, and wakes the thread. -/
theorem isr_spec (hb : 2 ≤ bufsz) (hp : p.Inv bufsz r s₀) (chs : List UInt8) :
    (p.isr bufsz chs).Inv bufsz r s₀ ∧ (p.isr bufsz chs).got = p.got ∧
      (p.isr bufsz chs).fifo.pending bufsz =
        (p.fifo.pending bufsz ++ chs).rtake (bufsz - 1) := by
  obtain ⟨f', hwf, hpend, heq⟩ := rtHwSerialIsr_pending hb hp.fifo chs
  by_cases hnil : f'.pending bufsz = []
  · -- nothing has come, and nothing was there
    have hisr : p.isr bufsz chs = { p with fifo := f' } := by
      simp only [isr, heq, if_pos hnil]
      rfl
    rw [hisr]
    refine ⟨⟨hwf, hp.waits, ?_, fun _ => hnil, hp.reader⟩, rfl, hpend⟩
    intro _ hne
    exact absurd hnil hne
  · have hisr : p.isr bufsz chs = rxInd { p with fifo := f' } := by
      simp only [isr, heq, if_neg hnil]
      rfl
    by_cases hs : p.pc = .suspended
    · -- the thread is resumed
      have hw : p.rxNotice.suspendThread = [()] := by rw [hp.waits, if_pos hs]
      have hrx : rxInd { p with fifo := f' } =
          { p with fifo := f', rxNotice := ⟨p.rxNotice.value, []⟩, pc := .reset } := by
        simp only [rxInd, rtSemRelease, hw]
        rfl
      rw [hisr, hrx]
      exact ⟨⟨hwf, rfl, nofun, nofun, hp.reader⟩, rfl, hpend⟩
    · -- the semaphore goes up, if it is not at its top
      have hw : p.rxNotice.suspendThread = [] := by rw [hp.waits, if_neg hs]
      obtain ⟨sem, hsem, hsw, hpos⟩ : ∃ sem : RtSem Unit, rtSemRelease p.rxNotice = (none, sem) ∧
          sem.suspendThread = [] ∧ 0 < sem.value := by
        refine ⟨_, by simp only [rtSemRelease, hw]; rfl, ?_, ?_⟩
        · split_ifs
          · rfl
          · exact hw
        · split_ifs with h
          · exact Nat.succ_pos _
          · exact Nat.lt_of_lt_of_le (by decide) (Nat.le_of_not_lt h)
      have hrx : rxInd { p with fifo := f' } = { p with fifo := f', rxNotice := sem } := by
        simp only [rxInd, hsem]
        rfl
      rw [hisr, hrx]
      refine ⟨⟨hwf, ?_, fun _ _ => hpos, fun h => absurd h hs, hp.reader⟩, rfl, hpend⟩
      rw [if_neg hs]
      exact hsw

/-- A step of the thread loses no character and doubles none. -/
theorem run_spec (hb : 2 ≤ bufsz) (hp : p.Inv bufsz r s₀) :
    (p.run bufsz r).Inv bufsz r s₀ ∧
      (p.run bufsz r).delivered ++ (p.run bufsz r).fifo.pending bufsz =
        p.delivered ++ p.fifo.pending bufsz := by
  cases hpc : p.pc with
  | read =>
    have hw : p.rxNotice.suspendThread = [] := by rw [hp.waits, if_neg (by rw [hpc]; decide)]
    obtain ⟨f', hread, hwf, hdrop⟩ := serialIntRx_pending hb hp.fifo 1
    cases hpend : p.fifo.pending bufsz with
    | nil =>
      rw [hpend] at hread hdrop
      have hrun : p.run bufsz r = { p with fifo := f', pc := .take } := by
        simp only [run, hpc, hread, List.take_nil]
      rw [hrun]
      refine ⟨⟨hwf, hw, ?_, nofun, hp.reader⟩, ?_⟩
      · intro _ hne
        exact absurd hdrop hne
      · exact congrArg (p.delivered ++ ·) hdrop
    | cons ch chs =>
      rw [hpend] at hread hdrop
      have hrun : p.run bufsz r = answer r { p with fifo := f' } (some ch) := by
        simp only [run, hpc, hread, List.take_succ_cons]
      rw [hrun]
      refine ⟨answer_inv (p := { p with fifo := f' }) hwf hw hp.reader _, ?_⟩
      rw [delivered_answer, show (answer r { p with fifo := f' } (some ch)).fifo.pending bufsz = chs
        from hdrop, List.append_assoc]
      rfl
  | take =>
    have hw : p.rxNotice.suspendThread = [] := by rw [hp.waits, if_neg (by rw [hpc]; decide)]
    by_cases hv : p.rxNotice.value > 0
    · have hrun : p.run bufsz r =
          { p with rxNotice := ⟨p.rxNotice.value - 1, []⟩, pc := .reset } := by
        simp only [run, hpc, rtSemTake, if_pos hv, hw]
      rw [hrun]
      exact ⟨⟨hp.fifo, rfl, nofun, nofun, hp.reader⟩, rfl⟩
    · have hnil : p.fifo.pending bufsz = [] := by
        by_contra hne
        exact hv (hp.take hpc hne)
      by_cases ht : r.time p.reader = 0
      · have hrun : p.run bufsz r = answer r p none := by
          simp only [run, hpc, rtSemTake, if_neg hv, if_pos ht]
          rfl
        rw [hrun]
        refine ⟨answer_inv hp.fifo hw hp.reader _, ?_⟩
        rw [delivered_answer, Option.toList_none, List.append_nil]
        rfl
      · have hrun : p.run bufsz r =
            { p with rxNotice := ⟨p.rxNotice.value, [()]⟩, pc := .suspended } := by
          simp only [run, hpc, rtSemTake, if_neg hv, if_neg ht, hw]
          rfl
        rw [hrun]
        exact ⟨⟨hp.fifo, rfl, nofun, fun _ => hnil, hp.reader⟩, rfl⟩
  | suspended =>
    have hrun : p.run bufsz r = p := by simp only [run, hpc]
    rw [hrun]
    exact ⟨hp, rfl⟩
  | reset =>
    have hrun : p.run bufsz r = { p with rxNotice := ⟨0, []⟩, pc := .read } := by
      simp only [run, hpc, rtSemReset]
    rw [hrun]
    exact ⟨⟨hp.fifo, rfl, nofun, nofun, hp.reader⟩, rfl⟩

theorem expire_spec (hp : p.Inv bufsz r s₀) :
    (p.expire r).Inv bufsz r s₀ ∧
      (p.expire r).delivered ++ (p.expire r).fifo.pending bufsz =
        p.delivered ++ p.fifo.pending bufsz := by
  by_cases h : p.pc = .suspended ∧ 0 < r.time p.reader
  · have hw : p.rxNotice.suspendThread = [()] := by rw [hp.waits, if_pos h.1]
    rw [expire, if_pos h]
    refine ⟨answer_inv (p := { p with rxNotice := rtSemTimeout p.rxNotice () }) hp.fifo ?_
      hp.reader _, ?_⟩
    · simp only [rtSemTimeout, hw]
      rfl
    · rw [delivered_answer, Option.toList_none, List.append_nil]
      rfl
  · rw [expire, if_neg h]
    exact ⟨hp, rfl⟩

theorem step_inv (hb : 2 ≤ bufsz) (hp : p.Inv bufsz r s₀) (e : PortEvent) :
    (p.step bufsz r e).Inv bufsz r s₀ := by
  cases e with
  | isr chs => exact (isr_spec hb hp chs).1
  | run => exact (run_spec hb hp).1
  | expire => exact (expire_spec hp).1

theorem foldl_inv (hb : 2 ≤ bufsz) (hp : p.Inv bufsz r s₀) (evs : List PortEvent) :
    (evs.foldl (step bufsz r) p).Inv bufsz r s₀ := by
  induction evs generalizing p with
  | nil => exact hp
  | cons e evs ih => exact ih (step_inv hb hp e)

/-- The characters on their way through: delivered, or still in the FIFO. -/
def stream (bufsz : Nat) (p : Port σ) : List UInt8 := p.delivered ++ p.fifo.pending bufsz

/-- The stream is what it was and the characters of the interrupt, less what an overflow drops. -/
theorem step_stream (hb : 2 ≤ bufsz) (hp : p.Inv bufsz r s₀) (e : PortEvent) :
    (p.step bufsz r e).stream bufsz <+ p.stream bufsz ++ arrived [e] ∧
      (p.NoOverflow bufsz e → (p.step bufsz r e).stream bufsz = p.stream bufsz ++ arrived [e]) := by
  cases e with
  | isr chs =>
    obtain ⟨-, hgot, hpend⟩ := isr_spec hb hp chs
    have hs : (p.step bufsz r (.isr chs)).stream bufsz =
        p.delivered ++ (p.fifo.pending bufsz ++ chs).rtake (bufsz - 1) := by
      rw [stream, step, hpend, delivered, hgot]
      rfl
    have ha : arrived [.isr chs] = chs := List.append_nil chs
    rw [hs, ha, stream, List.append_assoc]
    constructor
    · exact List.Sublist.append_left (rtake_suffix _ _).sublist _
    · intro hroom
      rw [rtake_of_length_le]
      rw [List.length_append]
      exact hroom
  | run =>
    have h : (p.step bufsz r .run).stream bufsz = p.stream bufsz ++ arrived [.run] :=
      (run_spec hb hp).2.trans (List.append_nil _).symm
    exact ⟨h ▸ List.Sublist.refl _, fun _ => h⟩
  | expire =>
    have h : (p.step bufsz r .expire).stream bufsz = p.stream bufsz ++ arrived [.expire] :=
      (expire_spec hp).2.trans (List.append_nil _).symm
    exact ⟨h ▸ List.Sublist.refl _, fun _ => h⟩

theorem arrived_cons (e : PortEvent) (evs : List PortEvent) :
    arrived (e :: evs) = arrived [e] ++ arrived evs := by
  simp [arrived]

/-- The stream of a run. -/
theorem foldl_stream (hb : 2 ≤ bufsz) (hp : p.Inv bufsz r s₀) (evs : List PortEvent) :
    (evs.foldl (step bufsz r) p).stream bufsz <+ p.stream bufsz ++ arrived evs ∧
      (Along (step bufsz r) (NoOverflow bufsz) p evs →
        (evs.foldl (step bufsz r) p).stream bufsz = p.stream bufsz ++ arrived evs) := by
  induction evs generalizing p with
  | nil =>
    have h : p.stream bufsz = p.stream bufsz ++ arrived [] := (List.append_nil _).symm
    exact ⟨h ▸ List.Sublist.refl _, fun _ => h⟩
  | cons e evs ih =>
    obtain ⟨hsub, heq⟩ := step_stream hb hp e
    obtain ⟨ihsub, iheq⟩ := ih (step_inv hb hp e)
    rw [arrived_cons, ← List.append_assoc, List.foldl_cons]
    constructor
    · exact ihsub.trans (List.Sublist.append_right hsub _)
    · rintro ⟨hroom, hrest⟩
      rw [iheq hrest, heq hroom]

/-- **The characters of the device.** Whatever the order of the interrupts, the steps of the thread
and the ends of its time-outs: the thread has done what it does with the results it got, which are
characters that arrived, in their order and none twice; what is not lost to an overflow is delivered
or in the FIFO; and the thread is not suspended while there is a character for it. -/
theorem getchar_stream (hb : 2 ≤ bufsz) (r : Reader σ) (s : σ) (evs : List PortEvent) :
    let p := evs.foldl (step bufsz r) (opened bufsz s)
    p.reader = p.got.foldl r.feed s ∧
      p.delivered ++ p.fifo.pending bufsz <+ arrived evs ∧
      (Along (step bufsz r) (NoOverflow bufsz) (opened bufsz s) evs →
        p.delivered ++ p.fifo.pending bufsz = arrived evs) ∧
      (p.pc = .suspended → p.fifo.pending bufsz = []) := by
  have hinv := opened_inv (r := r) (show 0 < bufsz by omega) s
  have hend := foldl_inv hb hinv evs
  obtain ⟨hsub, heq⟩ := foldl_stream hb hinv evs
  exact ⟨hend.reader, hsub, heq, hend.suspended⟩

/-- A reader that counts what it gets, with five characters for a FIFO that holds three. -/
theorem getchar_stream_count :
    let r : Reader Nat := ⟨fun n _ => n + 1, fun _ => -1⟩
    let evs : List PortEvent := [.run, .isr [1, 2, 3, 4, 5], .run, .run]
    let p := evs.foldl (step 4 r) (opened 4 0)
    2 ≤ 4 ∧ p.reader = p.got.foldl r.feed 0 ∧
      p.delivered ++ p.fifo.pending 4 <+ arrived evs ∧
      (Along (step 4 r) (NoOverflow 4) (opened 4 0) evs →
        p.delivered ++ p.fifo.pending 4 = arrived evs) ∧
      (p.pc = .suspended → p.fifo.pending 4 = []) :=
  ⟨by decide, getchar_stream (by decide) _ 0 _⟩

/-! ## When the interrupts stop -/

/-- The steps of the thread up to its suspension, at most. -/
def stepsLeft (bufsz : Nat) (p : Port σ) : Nat :=
  6 * (p.fifo.pending bufsz).length +
    match p.pc with
    | .suspended => 0
    | .take => if p.rxNotice.value = 0 then 1 else 4
    | .read => if p.rxNotice.value = 0 then 2 else 5
    | .reset => 3

/-- A thread that is not suspended gets on. -/
theorem stepsLeft_run (hb : 2 ≤ bufsz) (hr : ∀ s, r.time s < 0) (hp : p.Inv bufsz r s₀)
    (hpc : p.pc ≠ .suspended) : (p.run bufsz r).stepsLeft bufsz < p.stepsLeft bufsz := by
  cases hc : p.pc with
  | read =>
    obtain ⟨f', hread, -, hdrop⟩ := serialIntRx_pending hb hp.fifo 1
    cases hpend : p.fifo.pending bufsz with
    | nil =>
      rw [hpend] at hread hdrop
      simp only [run, hc, hread, List.take_nil, stepsLeft, hdrop, hpend, List.drop_nil]
      split_ifs <;> omega
    | cons ch chs =>
      rw [hpend] at hread hdrop
      simp only [run, hc, hread, List.take_succ_cons, stepsLeft, answer, hdrop, hpend,
        List.drop_succ_cons, List.drop_zero, List.length_cons]
      split_ifs <;> omega
  | take =>
    by_cases hv : p.rxNotice.value > 0
    · simp only [run, hc, rtSemTake, if_pos hv, stepsLeft, if_neg (Nat.ne_of_gt hv)]
      omega
    · have hv' : p.rxNotice.value = 0 := by omega
      simp only [run, hc, rtSemTake, if_neg hv, if_neg (Int.ne_of_lt (hr p.reader)), stepsLeft,
        if_pos hv']
      omega
  | suspended => exact absurd hc hpc
  | reset =>
    simp only [run, hc, rtSemReset, stepsLeft, if_pos]
    omega

/-- Without time-outs the thread gets nothing but characters. -/
theorem foldl_got (hr : ∀ s, r.time s < 0) (hp : p.got = p.delivered.map some)
    (evs : List PortEvent) :
    (evs.foldl (step bufsz r) p).got = (evs.foldl (step bufsz r) p).delivered.map some := by
  have hanswer : ∀ (q : Port σ) (ch : UInt8), q.got = q.delivered.map some →
      (q.answer r (some ch)).got = (q.answer r (some ch)).delivered.map some := by
    intro q ch hq
    rw [delivered_answer, List.map_append, ← hq]
    rfl
  induction evs generalizing p with
  | nil => exact hp
  | cons e evs ih =>
    apply ih
    cases e with
    | isr chs =>
      have hgot : (p.isr bufsz chs).got = p.got := by
        simp only [isr]
        split_ifs <;> rfl
      rw [step, delivered, hgot]
      exact hp
    | run =>
      cases hc : p.pc with
      | read =>
        simp only [step, run, hc]
        split
        · exact hanswer _ _ hp
        · exact hp
      | take =>
        simp only [step, run, hc, rtSemTake, if_neg (Int.ne_of_lt (hr p.reader))]
        by_cases hv : p.rxNotice.value > 0
        · simp only [if_pos hv]
          exact hp
        · simp only [if_neg hv]
          exact hp
      | suspended =>
        simp only [step, run, hc]
        exact hp
      | reset =>
        simp only [step, run, hc]
        exact hp
    | expire =>
      have hno : ¬ (p.pc = .suspended ∧ 0 < r.time p.reader) := by
        rintro ⟨-, h⟩
        have := hr p.reader
        omega
      rw [step, expire, if_neg hno]
      exact hp

/-- The steps of the thread do not overflow the FIFO. -/
theorem along_run (p : Port σ) (n : Nat) :
    Along (step bufsz r) (NoOverflow bufsz) p (List.replicate n PortEvent.run) := by
  induction n generalizing p with
  | zero => trivial
  | succ n ih => exact ⟨trivial, ih _⟩

theorem arrived_replicate (n : Nat) : arrived (List.replicate n PortEvent.run) = [] := by
  induction n with
  | zero => rfl
  | succ n ih => rw [List.replicate_succ, arrived_cons, ih]; rfl

/-- A thread that waits without a time-out takes what there is, and is suspended. -/
theorem run_suspends (hb : 2 ≤ bufsz) (hr : ∀ s, r.time s < 0) (hp : p.Inv bufsz r s₀) :
    ∃ n, ((List.replicate n PortEvent.run).foldl (step bufsz r) p).pc = .suspended := by
  induction hn : p.stepsLeft bufsz using Nat.strong_induction_on generalizing p with
  | _ n ih =>
    by_cases hc : p.pc = .suspended
    · exact ⟨0, hc⟩
    · have hlt := stepsLeft_run hb hr hp hc
      rw [hn] at hlt
      obtain ⟨k, hk⟩ := ih _ hlt (run_spec hb hp).1 rfl
      exact ⟨k + 1, hk⟩

/-- **The stream of a thread without time-outs.** After a run in which the FIFO never overflows, the
thread left to itself takes what there is and is suspended, and it has then done what it does with
all the characters that arrived, one after the other. -/
theorem drains (hb : 2 ≤ bufsz) (hr : ∀ s, r.time s < 0) (s : σ) {evs : List PortEvent}
    (h : Along (step bufsz r) (NoOverflow bufsz) (opened bufsz s) evs) :
    ∃ n, let p := (evs ++ List.replicate n PortEvent.run).foldl (step bufsz r) (opened bufsz s)
      p.pc = .suspended ∧ p.reader = ((arrived evs).map some).foldl r.feed s := by
  have hinv := foldl_inv hb (opened_inv (r := r) (show 0 < bufsz by omega) s) evs
  obtain ⟨n, hn⟩ := run_suspends hb hr hinv
  have hend := foldl_inv hb hinv (List.replicate n PortEvent.run)
  refine ⟨n, ?_⟩
  have hopen : (opened bufsz s).got = (opened bufsz s).delivered.map some := rfl
  have hgot : ((evs ++ List.replicate n PortEvent.run).foldl (step bufsz r) (opened bufsz s)).got =
      ((evs ++ List.replicate n PortEvent.run).foldl (step bufsz r) (opened bufsz s)).delivered.map
        some := foldl_got hr hopen _
  dsimp only
  rw [List.foldl_append] at hgot ⊢
  refine ⟨hn, ?_⟩
  have hstream : Port.delivered _ ++ _ = Port.stream bufsz _ ++ _ :=
    (foldl_stream hb hinv (List.replicate n PortEvent.run)).2 (along_run _ n)
  rw [hend.suspended hn, List.append_nil, arrived_replicate, List.append_nil,
    (foldl_stream hb (opened_inv (r := r) (show 0 < bufsz by omega) s) evs).2 h] at hstream
  rw [hend.reader, hgot, hstream]
  rfl

end Port

end AtkOnenet
