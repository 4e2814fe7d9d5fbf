import Mathlib.Data.List.Basic
import Mathlib.Data.List.TakeWhile
import Mathlib.Data.Nat.Find

/-!
# The sensor log (`applications/FileSystem.c`)

`sensorDataToSd` appends a text to `Sensor.txt`, `dataReadFsd` prints the file. The file system
behind `dfs_file_read` is an argument (`DfsFd.read`); `ReadStep` is what one of its calls may do.

The result of a read is kept in an unsigned variable, so an error looks like a count: the loop prints
what the failed call has left in the buffer and reads on. `dumps_iff`: a dump ends and prints what
was read (`Dumps`) exactly if no read fails, or the reads after a failure fail without a trace up to
one that returns 0 (`Recovers`).
-/

namespace AtkOnenet

/-- The characters in front of the NUL. -/
def cString (s : List UInt8) : List UInt8 := s.takeWhile (· ≠ 0)

def ascii (s : String) : List UInt8 := s.toList.map fun c => UInt8.ofNat c.toNat

/-! ## Appending -/

/-- A call of `Sensor_DataTo_SD`: the memory at `buff`, the result of `open`, and how many bytes the
file system takes of the text. -/
structure SdCall where
  buff : List UInt8
  fd : Int32
  taken : Nat

/-- The text that a call appends. -/
def SdCall.appended (c : SdCall) : List UInt8 :=
  if 0 ≤ c.fd then (cString c.buff).take c.taken else []

/-- The file after the call, and the text printed. -/
def sensorDataToSd (file : List UInt8) (c : SdCall) : List UInt8 × List UInt8 :=
  if 0 ≤ c.fd then (file ++ (cString c.buff).take c.taken, [])
  else (file, ascii "open file:" ++ cString c.buff ++ ascii " failed!\n")

/-- The file that the calls make. -/
def logged (calls : List SdCall) : List UInt8 :=
  calls.foldl (fun file c => (sensorDataToSd file c).1) []

theorem sensorDataToSd_file (file : List UInt8) (c : SdCall) :
    (sensorDataToSd file c).1 = file ++ c.appended := by
  unfold sensorDataToSd SdCall.appended
  split
  · rfl
  · rw [List.append_nil]

/-- The log is made of the texts appended, in order. -/
theorem logged_eq (calls : List SdCall) : logged calls = calls.flatMap SdCall.appended := by
  have h : ∀ file, calls.foldl (fun file c => (sensorDataToSd file c).1) file =
      file ++ calls.flatMap SdCall.appended := by
    induction calls with
    | nil => simp
    | cons c calls ih =>
      intro file
      rw [List.foldl_cons, ih, sensorDataToSd_file, List.flatMap_cons, List.append_assoc]
  exact h []

theorem cString_ne_zero {s : List UInt8} : ∀ v ∈ cString s, v ≠ 0 := by
  intro v hv
  simpa using List.mem_takeWhile_imp hv

/-- A log has no NUL in it. -/
theorem logged_ne_zero (calls : List SdCall) : ∀ v ∈ logged calls, v ≠ 0 := by
  intro v hv
  rw [logged_eq, List.mem_flatMap] at hv
  obtain ⟨c, -, hc⟩ := hv
  unfold SdCall.appended at hc
  split at hc
  · exact cString_ne_zero v (List.mem_of_mem_take hc)
  · exact absurd hc List.not_mem_nil

/-! ## Reading -/

/-- What a call of the file system's read operation answers: its result, and the bytes that it has
put into the buffer. A call that fails may have put some there, too. -/
structure ReadCall where
  result : Int32
  bytes : List UInt8

/-- An open file. `read len n` is the answer to the call number `n`; `closes` counts the calls of
`dfs_file_close`. -/
structure DfsFd where
  flags : UInt32
  calls : Nat
  closes : Nat
  read : (len n : Nat) → ReadCall

def dfsFEof : UInt32 := 0x04000000

/-- The result of `dfs_file_read`, and the buffer and the descriptor after it. -/
def dfsFileRead (fd : DfsFd) (buf : List UInt8) (len : Nat) : Int32 × List UInt8 × DfsFd :=
  let call := fd.read len fd.calls
  let fd := { fd with calls := fd.calls + 1 }
  let fd := if call.result < 0 then { fd with flags := fd.flags ||| dfsFEof } else fd
  (call.result, call.bytes ++ buf.drop call.bytes.length, fd)

def dfsFileClose (fd : DfsFd) : DfsFd := { fd with closes := fd.closes + 1 }

/-- The loop of `Data_ReadFSD`, with the text printed so far. -/
def dumpLoop : Nat → DfsFd → List UInt8 → Option (List UInt8 × DfsFd)
  | 0, _, _ => none
  | fuel + 1, fd, text =>
    let (result, buffer, fd) := dfsFileRead fd (List.replicate 60 0) (60 - 1)
    -- `length` is unsigned: an error is a large count.
    let length := result.toUInt32
    let text := if 0 < length then text ++ cString buffer else text
    if 0 < length then dumpLoop fuel fd text else some (text, fd)

/-- `opened` is the descriptor, unless `dfs_file_open` fails. The text printed, and the descriptor at
the end. -/
def dataReadFsd (fuel : Nat) (opened : Option DfsFd) : Option (List UInt8 × Option DfsFd) :=
  match opened with
  | none => some (ascii "Open Sensor.txt failed\n", none)
  | some fd =>
    match dumpLoop fuel fd [] with
    | none => none
    | some (text, fd) => some (text ++ ascii "\n", some (dfsFileClose fd))

/-! ## What a file system may do -/

/-- A call at the position `pos` of the file: the next bytes, 0 at the end, or an error. An error may
leave bytes in the buffer and the position anywhere. -/
inductive ReadStep (content : List UInt8) : (pos : Nat) → ReadCall → (pos' : Nat) → Prop where
  | chunk {pos : Nat} {result : Int32} {bytes : List UInt8} (h0 : 0 < bytes.length)
    (h1 : bytes.length ≤ 59) (hr : result.toInt = bytes.length)
    (hb : bytes <+: content.drop pos) : ReadStep content pos ⟨result, bytes⟩ (pos + bytes.length)
  | eof {pos : Nat} (h : content.length ≤ pos) : ReadStep content pos ⟨0, []⟩ pos
  | fail {pos pos' : Nat} {result : Int32} {bytes : List UInt8} (hr : result < 0)
    (h1 : bytes.length ≤ 59) : ReadStep content pos ⟨result, bytes⟩ pos'

namespace DfsFd

variable {content text : List UInt8} {fd : DfsFd} {n z : Nat}

/-- The answer to the `n`-th read of the loop. -/
def answer (fd : DfsFd) (n : Nat) : ReadCall := fd.read 59 (fd.calls + n)

/-- The descriptor reads a file with this content from its start. -/
def Serves (fd : DfsFd) (content : List UInt8) : Prop :=
  ∃ pos : Nat → Nat, pos 0 = 0 ∧ ∀ n, ReadStep content (pos n) (fd.answer n) (pos (n + 1))

/-- The first read that does not give bytes. -/
structure StopsAt (fd : DfsFd) (n : Nat) : Prop where
  before : ∀ i < n, 0 < (fd.answer i).result
  here : (fd.answer n).result ≤ 0

/-- The chunks of the first `n` reads. -/
def chunks (fd : DfsFd) (n : Nat) : List UInt8 := (List.range n).flatMap fun i => (fd.answer i).bytes

/-- After the failed read `n` all reads fail and leave a blank buffer, up to one that returns 0. -/
def Recovers (fd : DfsFd) (n : Nat) : Prop :=
  ∃ m, (fd.answer (n + m)).result = 0 ∧
    ∀ j < m, (fd.answer (n + j)).result < 0 ∧ cString (fd.answer (n + j)).bytes = []

/-! ## The loop -/

/-- The descriptor after a read of the loop. -/
def next (fd : DfsFd) : DfsFd := (dfsFileRead fd (List.replicate 60 0) 59).2.2

@[simp] theorem next_closes (fd : DfsFd) : fd.next.closes = fd.closes := by
  simp only [next, dfsFileRead]
  split <;> rfl

theorem answer_next (fd : DfsFd) (n : Nat) : fd.next.answer n = fd.answer (n + 1) := by
  have h : fd.next.calls = fd.calls + 1 ∧ fd.next.read = fd.read := by
    simp only [next, dfsFileRead]
    split <;> exact ⟨rfl, rfl⟩
  rw [answer, answer, h.1, h.2, Nat.add_assoc, Nat.add_comm 1]

/-- What the loop prints in its first `n` turns, if each of them prints. -/
def shown (fd : DfsFd) (n : Nat) : List UInt8 :=
  (List.range n).flatMap fun i => cString (fd.answer i).bytes

theorem shown_succ (fd : DfsFd) (n : Nat) :
    fd.shown (n + 1) = cString (fd.answer 0).bytes ++ fd.next.shown n := by
  simp only [shown, List.range_succ_eq_map, List.flatMap_cons, List.flatMap_map, answer_next]

/-- The zeroed rest of the buffer ends the string. -/
theorem cString_buffer (bytes : List UInt8) (k : Nat) :
    cString (bytes ++ (List.replicate 60 0).drop k) = cString bytes := by
  induction bytes with
  | nil =>
    rw [List.nil_append, List.drop_replicate]
    cases 60 - k <;> rfl
  | cons v bytes ih =>
    rw [cString, cString] at ih
    simp only [cString, List.cons_append, List.takeWhile_cons, ih]

/-- The test of the loop: only 0 ends it. -/
theorem toUInt32_pos {v : Int32} : 0 < v.toUInt32 ↔ v ≠ 0 := by
  rw [UInt32.pos_iff_ne_zero, not_iff_not]
  constructor
  · intro h
    rw [← Int32.toInt32_toUInt32 v, h]
    rfl
  · rintro rfl
    rfl

theorem dumpLoop_succ (fuel : Nat) (fd : DfsFd) (text : List UInt8) :
    dumpLoop (fuel + 1) fd text =
      if (fd.answer 0).result ≠ 0
        then dumpLoop fuel fd.next (text ++ cString (fd.answer 0).bytes)
        else some (text, fd.next) := by
  have hread : dfsFileRead fd (List.replicate 60 0) (60 - 1) = ((fd.answer 0).result,
      (fd.answer 0).bytes ++ (List.replicate 60 0).drop (fd.answer 0).bytes.length, fd.next) := rfl
  simp only [dumpLoop, hread, cString_buffer, toUInt32_pos]
  split <;> rfl

/-- The loop ends at the first read that returns 0. -/
theorem dumpLoop_stop {fuel : Nat} (hbefore : ∀ i < z, (fd.answer i).result ≠ 0)
    (hz : (fd.answer z).result = 0) (hfuel : z < fuel) (text : List UInt8) :
    ∃ fd', dumpLoop fuel fd text = some (text ++ fd.shown z, fd') ∧ fd'.closes = fd.closes := by
  induction z generalizing fuel fd text with
  | zero =>
    obtain ⟨fuel, rfl⟩ := Nat.exists_eq_add_of_lt hfuel
    refine ⟨fd.next, ?_, fd.next_closes⟩
    rw [Nat.zero_add, dumpLoop_succ, if_neg (not_not_intro hz)]
    simp [shown]
  | succ z ih =>
    obtain ⟨fuel, rfl⟩ : ∃ k, fuel = k + 1 := ⟨fuel - 1, by omega⟩
    have hnext : ∀ i < z, (fd.next.answer i).result ≠ 0 := by
      intro i hi
      rw [answer_next]
      exact hbefore (i + 1) (by omega)
    rw [← answer_next] at hz
    obtain ⟨fd', hrun, hcloses⟩ := ih hnext hz (Nat.lt_of_succ_lt_succ hfuel)
      (text ++ cString (fd.answer 0).bytes)
    refine ⟨fd', ?_, hcloses.trans fd.next_closes⟩
    rw [dumpLoop_succ, if_pos (hbefore 0 z.succ_pos), hrun, shown_succ, List.append_assoc]

/-- A loop that ends has read a 0. -/
theorem exists_zero_of_dumpLoop {fuel : Nat} {r : List UInt8 × DfsFd}
    (h : dumpLoop fuel fd text = some r) :
    ∃ z < fuel, (∀ i < z, (fd.answer i).result ≠ 0) ∧ (fd.answer z).result = 0 := by
  induction fuel generalizing fd text with
  | zero => cases h
  | succ fuel ih =>
    rw [dumpLoop_succ] at h
    by_cases h0 : (fd.answer 0).result = 0
    · exact ⟨0, fuel.succ_pos, fun i hi => absurd hi (Nat.not_lt_zero i), h0⟩
    · rw [if_pos h0] at h
      obtain ⟨z, hlt, hbefore, hz⟩ := ih h
      rw [answer_next] at hz
      refine ⟨z + 1, Nat.succ_lt_succ hlt, ?_, hz⟩
      intro i hi
      cases i with
      | zero => exact h0
      | succ i =>
        rw [← answer_next]
        exact hbefore i (Nat.lt_of_succ_lt_succ hi)

/-- `Data_ReadFSD` on an open file with a read that returns 0. -/
theorem dataReadFsd_stop (hbefore : ∀ i < z, (fd.answer i).result ≠ 0)
    (hz : (fd.answer z).result = 0) :
    ∃ fuel fd', dataReadFsd fuel (some fd) = some (fd.shown z ++ ascii "\n", some fd') ∧
      fd'.closes = fd.closes + 1 := by
  obtain ⟨fd', hrun, hcloses⟩ := dumpLoop_stop hbefore hz z.lt_succ_self []
  refine ⟨z + 1, dfsFileClose fd', ?_, congrArg (· + 1) hcloses⟩
  simp only [dataReadFsd, hrun, List.nil_append]

/-- It prints what the reads in front of the first 0 leave in the buffer. -/
theorem shown_of_dataReadFsd {fuel : Nat} {out : Option DfsFd}
    (h : dataReadFsd fuel (some fd) = some (text, out)) :
    ∃ z, (∀ i < z, (fd.answer i).result ≠ 0) ∧ (fd.answer z).result = 0 ∧
      text = fd.shown z ++ ascii "\n" := by
  simp only [dataReadFsd] at h
  cases hloop : dumpLoop fuel fd [] with
  | none =>
    rw [hloop] at h
    cases h
  | some r =>
    obtain ⟨z, hlt, hbefore, hz⟩ := exists_zero_of_dumpLoop hloop
    obtain ⟨fd', hrun, -⟩ := dumpLoop_stop hbefore hz hlt []
    rw [hrun] at h
    obtain ⟨rfl, -⟩ := Prod.mk.inj (Option.some.inj h)
    exact ⟨z, hbefore, hz, rfl⟩

end DfsFd

/-! ## Chunks of a file -/

section Chunks

variable {content : List UInt8} {p p' : Nat} {r : ReadCall}

theorem ReadStep.of_pos (h : ReadStep content p r p') (hr : 0 < r.result) :
    0 < r.bytes.length ∧ r.bytes <+: content.drop p ∧ p' = p + r.bytes.length := by
  cases h with
  | chunk h0 _ _ hb => exact ⟨h0, hb, rfl⟩
  | eof _ => exact absurd hr Int32.lt_irrefl
  | fail hneg _ => exact absurd hneg (Int32.lt_asymm hr)

theorem ReadStep.of_zero (h : ReadStep content p r p') (hr : r.result = 0) :
    content.length ≤ p := by
  cases h with
  | @chunk result _ h0 _ hcount _ =>
    obtain rfl : result = 0 := hr
    rw [Int32.toInt_zero] at hcount
    omega
  | eof hlen => exact hlen
  | fail hneg _ => exact absurd hneg (hr ▸ Int32.lt_irrefl)

/-- A chunk of a file without NUL prints as it is. -/
theorem ReadStep.cString_eq (h : ReadStep content p r p') (hr : 0 < r.result)
    (hnul : ∀ v ∈ content, v ≠ 0) : cString r.bytes = r.bytes := by
  rw [cString, List.takeWhile_eq_self_iff]
  intro v hv
  have hmem := List.mem_of_mem_drop ((h.of_pos hr).2.1.subset hv)
  simpa using hnul v hmem

end Chunks

namespace DfsFd

variable {content : List UInt8} {fd : DfsFd} {pos : Nat → Nat} {n : Nat}

/-- Up to the first stop the reads go through the file chunk by chunk. -/
theorem chunks_eq_take (h0 : pos 0 = 0)
    (hpos : ∀ n, ReadStep content (pos n) (fd.answer n) (pos (n + 1)))
    (hbefore : ∀ i < n, 0 < (fd.answer i).result) : fd.chunks n = content.take (pos n) := by
  induction n with
  | zero => rw [h0]; rfl
  | succ n ih =>
    obtain ⟨-, hb, hp⟩ := (hpos n).of_pos (hbefore n n.lt_succ_self)
    have hn := ih fun i hi => hbefore i (Nat.lt_succ_of_lt hi)
    rw [chunks] at hn
    rw [chunks, List.range_succ, List.flatMap_append, hn, List.flatMap_singleton, hp, List.take_add,
      ← List.prefix_iff_eq_take.mp hb]

/-- Each chunk moves the position on. -/
theorem le_pos (hpos : ∀ n, ReadStep content (pos n) (fd.answer n) (pos (n + 1)))
    (hbefore : ∀ i < n, 0 < (fd.answer i).result) : n ≤ pos n := by
  induction n with
  | zero => exact Nat.zero_le _
  | succ n ih =>
    obtain ⟨hlen, -, hp⟩ := (hpos n).of_pos (hbefore n n.lt_succ_self)
    have hn := ih fun i hi => hbefore i (Nat.lt_succ_of_lt hi)
    omega

/-- The reads do not give bytes for ever: the file is finite. -/
theorem exists_stopsAt (hs : fd.Serves content) : ∃ n, fd.StopsAt n := by
  obtain ⟨pos, -, hpos⟩ := hs
  have h : ∃ n, (fd.answer n).result ≤ 0 := by
    by_contra hno
    have hall : ∀ n, 0 < (fd.answer n).result := by
      intro n
      rw [← Int32.not_le]
      exact fun hn => hno ⟨n, hn⟩
    -- as many chunks as the file has bytes, and one more
    have hle := le_pos hpos (n := content.length) fun i _ => hall i
    obtain ⟨hlen, hb, -⟩ := (hpos content.length).of_pos (hall _)
    have hrest := hb.length_le
    rw [List.length_drop] at hrest
    omega
  refine ⟨Nat.find h, ?_, Nat.find_spec h⟩
  intro i hi
  rw [← Int32.not_le]
  exact Nat.find_min h hi

theorem StopsAt.unique {m : Nat} (hn : fd.StopsAt n) (hm : fd.StopsAt m) : n = m := by
  rcases Nat.lt_trichotomy n m with h | h | h
  · exact absurd hn.here (Int32.not_le.mpr (hm.before n h))
  · exact h
  · exact absurd hm.here (Int32.not_le.mpr (hn.before m h))

theorem shown_add (fd : DfsFd) (n m : Nat) : fd.shown (n + m) =
    fd.shown n ++ (List.range m).flatMap fun j => cString (fd.answer (n + j)).bytes := by
  rw [shown, shown, List.range_add, List.flatMap_append, List.flatMap_map]

theorem shown_eq_chunks (hs : fd.Serves content) (hnul : ∀ v ∈ content, v ≠ 0)
    (hbefore : ∀ i < n, 0 < (fd.answer i).result) : fd.shown n = fd.chunks n := by
  obtain ⟨pos, -, hpos⟩ := hs
  apply List.flatMap_congr
  intro i hi
  exact (hpos i).cString_eq (hbefore i (List.mem_range.mp hi)) hnul

end DfsFd

/-! ## When a dump ends with what was read -/

/-- What a dump should print that reads `n` chunks and then 0 or an error, and what it should do to
the descriptor. Without an error the whole log is printed. -/
structure Dumped (content : List UInt8) (fd : DfsFd) (n : Nat) (text : List UInt8) (fd' : DfsFd) :
    Prop where
  stops : fd.StopsAt n
  text_eq : text = fd.chunks n ++ ascii "\n"
  closed : fd'.closes = fd.closes + 1
  whole : (fd.answer n).result = 0 → text = content ++ ascii "\n"
  log : (fd.answer n).result = 0 → ∀ calls, content = logged calls →
    text = calls.flatMap SdCall.appended ++ ascii "\n"

/-- `Data_ReadFSD` ends, as it should. -/
def Dumps (content : List UInt8) (fd : DfsFd) : Prop :=
  ∃ fuel n text fd', dataReadFsd fuel (some fd) = some (text, some fd') ∧
    Dumped content fd n text fd'

variable {content : List UInt8} {fd : DfsFd} {n : Nat}

/-- A run that prints the chunks is as it should be. -/
theorem dumps_of_shown {z : Nat} (hs : fd.Serves content) (hstop : fd.StopsAt n)
    (hbefore : ∀ i < z, (fd.answer i).result ≠ 0) (hz : (fd.answer z).result = 0)
    (hshown : fd.shown z = fd.chunks n) : Dumps content fd := by
  obtain ⟨fuel, fd', hrun, hclosed⟩ := DfsFd.dataReadFsd_stop hbefore hz
  rw [hshown] at hrun
  have hwhole : (fd.answer n).result = 0 →
      fd.chunks n ++ ascii "\n" = content ++ ascii "\n" := by
    intro hn
    obtain ⟨pos, h0, hpos⟩ := hs
    rw [DfsFd.chunks_eq_take h0 hpos hstop.before, List.take_of_length_le ((hpos n).of_zero hn)]
  refine ⟨fuel, n, _, fd', hrun, hstop, rfl, hclosed, hwhole, ?_⟩
  intro hn calls hcalls
  rw [hwhole hn, hcalls, logged_eq]

/-- If the loop prints no more than the chunks, the reads after the stop have failed without a trace:
one that gives bytes again would print them. -/
theorem recovers_of_shown {z : Nat} (hnul : ∀ v ∈ content, v ≠ 0) (hs : fd.Serves content)
    (hn : fd.StopsAt n) (hbefore : ∀ i < z, (fd.answer i).result ≠ 0)
    (hz : (fd.answer z).result = 0) (hshown : fd.shown z = fd.chunks n) : fd.Recovers n := by
  have hle : n ≤ z := by
    by_contra hlt
    have hpos := hn.before z (by omega)
    rw [hz] at hpos
    exact Int32.lt_irrefl hpos
  obtain ⟨m, rfl⟩ := Nat.exists_eq_add_of_le hle
  rw [DfsFd.shown_add, DfsFd.shown_eq_chunks hs hnul hn.before] at hshown
  have hblank := List.flatMap_eq_nil_iff.mp (List.append_right_eq_self.mp hshown)
  refine ⟨m, hz, ?_⟩
  intro j hj
  have hj' := hblank j (List.mem_range.mpr hj)
  refine ⟨?_, hj'⟩
  rcases Int32.lt_or_lt_of_ne (hbefore (n + j) (by omega)) with hlt | hgt
  · exact hlt
  · obtain ⟨pos, -, hpos⟩ := hs
    rw [(hpos (n + j)).cString_eq hgt hnul] at hj'
    have hlen := ((hpos (n + j)).of_pos hgt).1
    rw [hj'] at hlen
    exact absurd hlen (Nat.lt_irrefl 0)

/-- With a recovery the loop prints no more than the chunks. -/
theorem exists_shown_of_recovers (hnul : ∀ v ∈ content, v ≠ 0) (hs : fd.Serves content)
    (hn : fd.StopsAt n) (hrec : fd.Recovers n) :
    ∃ z, (∀ i < z, (fd.answer i).result ≠ 0) ∧ (fd.answer z).result = 0 ∧
      fd.shown z = fd.chunks n := by
  obtain ⟨m, hm, hfail⟩ := hrec
  refine ⟨n + m, ?_, hm, ?_⟩
  · intro i hi
    rcases Nat.lt_or_ge i n with hlt | hge
    · exact (Int32.ne_of_lt (hn.before i hlt)).symm
    · obtain ⟨j, rfl⟩ := Nat.exists_eq_add_of_le hge
      exact Int32.ne_of_lt (hfail j (by omega)).1
  · rw [DfsFd.shown_add, DfsFd.shown_eq_chunks hs hnul hn.before, List.flatMap_eq_nil_iff.mpr,
      List.append_nil]
    intro j hj
    exact (hfail j (List.mem_range.mp hj)).2

/-- **The dump.** On a file without NUL, `Data_ReadFSD` ends, prints what was read and closes the
file once exactly if it recovers from the first read that fails, should there be one. -/
theorem dumps_iff (hnul : ∀ v ∈ content, v ≠ 0) (hs : fd.Serves content) :
    Dumps content fd ↔ ∀ n, fd.StopsAt n → (fd.answer n).result < 0 → fd.Recovers n := by
  constructor
  · rintro ⟨fuel, n', text, fd', hrun, hd⟩ n hn _
    obtain rfl := hd.stops.unique hn
    obtain ⟨z, hbefore, hz, htext⟩ := DfsFd.shown_of_dataReadFsd hrun
    have hshown : fd.shown z = fd.chunks n' := List.append_cancel_right (htext.symm.trans hd.text_eq)
    exact recovers_of_shown hnul hs hn hbefore hz hshown
  · intro h
    obtain ⟨n, hn⟩ := DfsFd.exists_stopsAt hs
    have hrec : fd.Recovers n := by
      by_cases hz : (fd.answer n).result = 0
      · -- the end of the file: there is nothing to recover from
        exact ⟨0, hz, fun j hj => absurd hj (Nat.not_lt_zero j)⟩
      · exact h n hn (Int32.lt_of_le_of_ne hn.here hz)
    obtain ⟨z, hbefore, hz, hshown⟩ := exists_shown_of_recovers hnul hs hn hrec
    exact dumps_of_shown hs hn hbefore hz hshown

/-- A file of two bytes: they are read, the next read fails, and the third one finds the end. -/
theorem dumps_one_failure :
    let content : List UInt8 := [0x48, 0x69]
    Dumps content ⟨0, 0, 0, fun _ n => match n with
      | 0 => ⟨2, content⟩
      | 1 => ⟨-5, []⟩
      | _ => ⟨0, []⟩⟩ := by
  intro content
  have hnul : ∀ v ∈ content, v ≠ 0 :=
    List.forall_mem_cons.mpr ⟨by decide, List.forall_mem_singleton.mpr (by decide)⟩
  refine (dumps_iff hnul ⟨fun n => if n = 0 then 0 else 2, rfl, ?_⟩).mpr ?_
  · rintro (_ | _ | n)
    · exact .chunk (by decide) (by decide) rfl (by decide)
    · exact .fail (by decide) (by decide)
    · exact .eof (Nat.le_refl 2)
  · rintro (_ | _ | n) - hneg
    · exact absurd hneg (by decide)
    · exact ⟨1, rfl, by decide⟩
    · exact absurd hneg Int32.lt_irrefl

/-- The card is pulled out after the first read: the dump goes on for ever. -/
theorem pulled_card_endless :
    let fd : DfsFd := ⟨0, 0, 0, fun _ n => match n with
      | 0 => ⟨1, [0x41]⟩
      | _ => ⟨-5, []⟩⟩
    fd.Serves [0x41] ∧ (∀ fuel, dataReadFsd fuel (some fd) = none) ∧ ¬ Dumps [0x41] fd := by
  intro fd
  have hresult : ∀ z, (fd.answer z).result ≠ 0 := by
    rintro (_ | z)
    · decide
    · exact show (-5 : Int32) ≠ 0 by decide
  have hendless : ∀ fuel, dataReadFsd fuel (some fd) = none := by
    intro fuel
    cases h : dataReadFsd fuel (some fd) with
    | none => rfl
    | some out =>
      obtain ⟨z, -, hz, -⟩ := DfsFd.shown_of_dataReadFsd h
      exact absurd hz (hresult z)
  refine ⟨⟨fun n => if n = 0 then 0 else 1, rfl, ?_⟩, hendless, ?_⟩
  · rintro (_ | n)
    · exact .chunk (by decide) (by decide) rfl (by decide)
    · exact .fail (by decide) (by decide)
  · rintro ⟨fuel, _, _, _, hrun, -⟩
    rw [hendless fuel] at hrun
    cases hrun

end AtkOnenet
