import AtkOnenet.At.Getchar
import AtkOnenet.Lib.Cut

/-!
# The lines of the AT server (`components/net/at/src/at_client.c`)

`at_recv_readline` collects characters in `recv_line_buf` up to the end of a line: CR LF, the end sign
if there is one, or the end of an unsolicited result (URC) of the table. A line with more than
`recv_bufsz` characters is read to its end and refused. Behind a line that is a URC, `client_parser`
calls the function of the URC, which may read on from the device (`UrcFunc`).

* `readline_cut`: what the calls give for a stream of characters is the stream cut into lines.
* `parser_reads_lines`: so it is behind the serial device, in every order of the interrupts and the
  steps of the thread, if the functions of the URCs do not read from the device.
-/

namespace AtkOnenet

open Circular Cut Run

/-- `struct at_urc`, less the function. -/
structure AtUrc where
  cmdPrefix : List UInt8
  cmdSuffix : List UInt8
  deriving DecidableEq, Repr

/-- The fields of `struct at_client` that say how lines are read. -/
structure AtClient where
  endSign : UInt8
  recvBufsz : Nat
  urcTable : List (List AtUrc)
  deriving DecidableEq, Repr

/-- The test of `get_urc_obj`. The strings of a URC have no NUL, so that `rt_strncmp` over their length
is the test for a prefix. -/
def AtUrc.matches (u : AtUrc) (buffer : List UInt8) (bufsz : Nat) : Bool :=
  if bufsz < u.cmdPrefix.length + u.cmdSuffix.length then false
  else
    u.cmdPrefix.isPrefixOf buffer &&
      u.cmdSuffix.isPrefixOf (buffer.drop (bufsz - u.cmdSuffix.length))

/-- `get_urc_obj` with `recv_line_buf` and `recv_line_len`. -/
def getUrcObj (c : AtClient) (buffer : List UInt8) (bufsz : Nat) : Option AtUrc :=
  c.urcTable.flatten.find? (·.matches buffer bufsz)

/-- The fields of the client and the variables of `at_recv_readline`. -/
structure Readline where
  recvLineBuf : List UInt8
  recvLineLen : Nat
  readLen : Nat
  lastCh : UInt8
  isFull : Bool
  deriving DecidableEq, Repr

/-- The beginning of `at_recv_readline`. -/
def Readline.start (c : AtClient) : Readline := ⟨List.replicate c.recvBufsz 0, 0, 0, 0, false⟩

/-- The character goes into the buffer, if there is room. -/
def Readline.store (c : AtClient) (st : Readline) (ch : UInt8) : Readline :=
  if st.readLen < c.recvBufsz then
    { st with recvLineBuf := st.recvLineBuf.set st.readLen ch, readLen := st.readLen + 1,
              recvLineLen := st.readLen + 1 }
  else { st with isFull := true }

/-- Behind the character the line is complete. -/
def Readline.complete (c : AtClient) (st : Readline) (ch : UInt8) : Bool :=
  (ch == 10 && st.lastCh == 13) || (c.endSign != 0 && ch == c.endSign) ||
    (getUrcObj c st.recvLineBuf st.recvLineLen).isSome

/-- `urc->func`, as the number of characters that it takes from the device when it is called with the
line. -/
abbrev UrcFunc := AtUrc → List UInt8 → Nat

/-- No URC of the table reads from the device. -/
def AtClient.UrcsReadNone (c : AtClient) (func : UrcFunc) : Prop :=
  ∀ u ∈ c.urcTable.flatten, ∀ line, func u line = 0

/-- The call of `at_recv_readline` under way and what the calls before it gave: a line, or `none` for
`-RT_EFULL`; and the characters that the function of the last URC has still to take. -/
structure LinesRead where
  cur : Readline
  done : List (Option (List UInt8))
  urcLeft : Nat
  deriving DecidableEq, Repr

/-- A turn of the loop of `at_recv_readline`, or of the function of a URC. Behind the last turn
`client_parser` calls the function, if the line is a URC, and then `at_recv_readline` again. -/
def LinesRead.char (c : AtClient) (func : UrcFunc) (s : LinesRead) (ch : UInt8) : LinesRead :=
  if s.urcLeft ≠ 0 then { s with urcLeft := s.urcLeft - 1 }
  else
    let st := s.cur.store c ch
    if st.complete c ch then
      if st.isFull then ⟨Readline.start c, s.done ++ [none], 0⟩
      else
        let line := st.recvLineBuf.take st.recvLineLen
        let urcLeft := (getUrcObj c st.recvLineBuf st.recvLineLen).elim 0 (func · line)
        ⟨Readline.start c, s.done ++ [some line], urcLeft⟩
    else { s with cur := { st with lastCh := ch } }

/-- The thread in `client_parser`. The result of `at_client_getchar` is not looked at: without a
character the last one stays. -/
def readlines (c : AtClient) (func : UrcFunc) : Reader LinesRead where
  feed s res := s.char c func (res.getD s.cur.lastCh)
  time _ := -1

/-! ## Lines -/

section

variable (c : AtClient)

/-- The characters up to here are a line. -/
def LineEnds (line : List UInt8) : Bool :=
  [13, 10].isSuffixOf line || (c.endSign != 0 && line.getLast? == some c.endSign) ||
    (getUrcObj c (line.take c.recvBufsz) (line.take c.recvBufsz).length).isSome

/-- What `at_recv_readline` gives for a line. -/
def lineResult (line : List UInt8) : Option (List UInt8) :=
  if line.length ≤ c.recvBufsz then some line else none

/-- `recv_line_buf` behind the characters of a line. -/
def lineBuf (line : List UInt8) : List UInt8 :=
  (line ++ List.replicate c.recvBufsz 0).take c.recvBufsz

/-- The variables behind the characters of a line. -/
def Readline.behind (line : List UInt8) : Readline where
  recvLineBuf := lineBuf c line
  recvLineLen := min line.length c.recvBufsz
  readLen := min line.length c.recvBufsz
  lastCh := line.getLast?.getD 0
  isFull := decide (c.recvBufsz < line.length)

/-- The reader behind a stream that is cut into lines. -/
def LinesRead.behind (s : List (List UInt8) × List UInt8) : LinesRead :=
  ⟨Readline.behind c s.2, s.1.map (lineResult c), 0⟩

variable {c} {func : UrcFunc} {line : List UInt8} {ch : UInt8}

/-- The characters of the line in the buffer. -/
theorem lineBuf_eq : lineBuf c line =
    line.take c.recvBufsz ++ List.replicate (c.recvBufsz - line.length) 0 := by
  rw [lineBuf, List.take_append, List.take_replicate]
  congr 2
  omega

theorem take_lineBuf : (lineBuf c line).take (min line.length c.recvBufsz) =
    line.take c.recvBufsz := by
  rw [lineBuf_eq, List.take_left']
  rw [List.length_take, Nat.min_comm]

theorem behind_nil : Readline.behind c [] = Readline.start c := by
  simp [Readline.behind, Readline.start, lineBuf_eq]

/-- One more character. -/
theorem store_behind : (Readline.behind c line).store c ch =
    { Readline.behind c (line ++ [ch]) with lastCh := line.getLast?.getD 0 } := by
  have hlen : (line ++ [ch]).length = line.length + 1 := by simp
  rcases Nat.lt_or_ge line.length c.recvBufsz with h | h
  · have hmin : min line.length c.recvBufsz = line.length := Nat.min_eq_left (by omega)
    have hmin' : min (line.length + 1) c.recvBufsz = line.length + 1 := Nat.min_eq_left (by omega)
    have hset : (lineBuf c line).set line.length ch = lineBuf c (line ++ [ch]) := by
      obtain ⟨k, hk⟩ : ∃ k, c.recvBufsz - line.length = k + 1 := ⟨_, (Nat.succ_pred (by omega)).symm⟩
      rw [lineBuf_eq, lineBuf_eq, List.take_of_length_le (by omega),
        List.take_of_length_le (by omega), hlen, hk, List.set_append_right _ _ (Nat.le_refl _),
        Nat.sub_self, List.replicate_succ, List.set_cons_zero, List.append_assoc,
        show c.recvBufsz - (line.length + 1) = k by omega]
      rfl
    simp only [Readline.store, Readline.behind, hmin, hmin', hlen, if_pos h, hset]
    simp only [Readline.mk.injEq, true_and, decide_eq_decide]
    omega
  · have hmin : min line.length c.recvBufsz = c.recvBufsz := Nat.min_eq_right h
    have hmin' : min (line.length + 1) c.recvBufsz = c.recvBufsz := Nat.min_eq_right (by omega)
    have hbuf : lineBuf c (line ++ [ch]) = lineBuf c line := by
      rw [lineBuf, lineBuf, List.append_assoc, List.take_append_of_le_length h,
        List.take_append_of_le_length h]
    simp only [Readline.store, Readline.behind, hmin, hmin', hlen, if_neg (Nat.lt_irrefl _), hbuf]
    simp only [Readline.mk.injEq, true_and]
    exact (decide_eq_true (by omega)).symm

/-- The zeros behind a line do not matter for the test of a URC. -/
theorem matches_lineBuf (u : AtUrc) : u.matches (lineBuf c line) (min line.length c.recvBufsz) =
    u.matches (line.take c.recvBufsz) (line.take c.recvBufsz).length := by
  have hlen : (line.take c.recvBufsz).length = min line.length c.recvBufsz := by
    rw [List.length_take, Nat.min_comm]
  have happend : ∀ (p l z : List UInt8), p.length ≤ l.length →
      p.isPrefixOf (l ++ z) = p.isPrefixOf l := by
    intro p l z hp
    rw [Bool.eq_iff_iff, List.isPrefixOf_iff_prefix, List.isPrefixOf_iff_prefix]
    constructor
    · intro h
      exact List.prefix_of_prefix_length_le h (List.prefix_append l z) hp
    · intro h
      exact h.trans (List.prefix_append l z)
  unfold AtUrc.matches
  rw [hlen]
  split_ifs with h
  · rfl
  · rw [lineBuf_eq, happend _ _ _ (by omega), List.drop_append_of_le_length (by omega),
      happend _ _ _ (by rw [List.length_drop]; omega)]

theorem getUrcObj_lineBuf : getUrcObj c (lineBuf c line) (min line.length c.recvBufsz) =
    getUrcObj c (line.take c.recvBufsz) (line.take c.recvBufsz).length := by
  unfold getUrcObj
  congr 1
  funext u
  exact matches_lineBuf u

/-- CR LF, seen from the character before the last one. -/
theorem isSuffixOf_crlf : [13, 10].isSuffixOf (line ++ [ch]) =
    (ch == 10 && line.getLast?.getD 0 == 13) := by
  rw [Bool.eq_iff_iff, List.isSuffixOf_iff_suffix]
  simp only [Bool.and_eq_true, beq_iff_eq]
  rw [List.suffix_concat_iff]
  constructor
  · rintro (h | ⟨t, ht, hsuf⟩)
    · cases h
    · obtain ⟨h13, h10⟩ := List.append_inj' (show [13] ++ [10] = t ++ [ch] from ht) rfl
      obtain ⟨init, rfl⟩ := hsuf
      rw [← h13, List.getLast?_concat]
      exact ⟨(List.singleton_inj.mp h10).symm, rfl⟩
  · rintro ⟨rfl, h13⟩
    refine Or.inr ⟨[13], rfl, ?_⟩
    cases hlast : line.getLast? with
    | none =>
      rw [hlast] at h13
      exact absurd h13 (by decide)
    | some last =>
      rw [hlast, Option.getD_some] at h13
      obtain ⟨init, rfl⟩ := List.getLast?_eq_some_iff.mp hlast
      rw [h13]
      exact List.suffix_append init [13]

theorem complete_behind : ((Readline.behind c line).store c ch).complete c ch =
    LineEnds c (line ++ [ch]) := by
  rw [store_behind, Readline.complete, LineEnds, isSuffixOf_crlf, List.getLast?_concat,
    ← getUrcObj_lineBuf]
  rfl

theorem urc_elim (hfunc : c.UrcsReadNone func) (buffer line : List UInt8) (bufsz : Nat) :
    (getUrcObj c buffer bufsz).elim 0 (func · line) = 0 := by
  cases hurc : getUrcObj c buffer bufsz with
  | none => rfl
  | some u => exact hfunc u (List.mem_of_find?_eq_some hurc) line

/-- A character of the stream. -/
theorem char_behind (hfunc : c.UrcsReadNone func) (s : List (List UInt8) × List UInt8) :
    (LinesRead.behind c s).char c func ch =
      LinesRead.behind c (cutStep (LineEnds c) s ch) := by
  have hcomplete : ((Readline.behind c s.2).store c ch).complete c ch = LineEnds c (s.2 ++ [ch]) :=
    complete_behind
  simp only [LinesRead.char, LinesRead.behind, cutStep, hcomplete, urc_elim hfunc, ne_eq,
    not_true_eq_false, if_false]
  simp only [store_behind]
  by_cases h : LineEnds c (s.2 ++ [ch]) = true
  · rw [if_pos h, if_pos h, behind_nil, List.map_append]
    by_cases hl : (s.2 ++ [ch]).length ≤ c.recvBufsz
    · have hfull : ¬ (Readline.behind c (s.2 ++ [ch])).isFull = true := by
        simpa [Readline.behind] using hl
      rw [if_neg hfull, List.map_singleton, lineResult, if_pos hl]
      simp only [Readline.behind, take_lineBuf, List.take_of_length_le hl]
    · have hfull : (Readline.behind c (s.2 ++ [ch])).isFull = true := by
        simpa [Readline.behind] using hl
      rw [if_pos hfull, List.map_singleton, lineResult, if_neg hl]
  · have hlast : (s.2 ++ [ch]).getLast?.getD 0 = ch := by rw [List.getLast?_concat]; rfl
    rw [if_neg h, if_neg h]
    simp only [Readline.behind, hlast]

/-- **Lines.** What the calls of `at_recv_readline` give for a stream is the stream cut into
lines. -/
theorem readline_cut (hfunc : c.UrcsReadNone func) (xs : List UInt8) :
    (xs.map some).foldl (readlines c func).feed ⟨Readline.start c, [], 0⟩ =
      LinesRead.behind c (cut (LineEnds c) xs) := by
  have h : ∀ s : List (List UInt8) × List UInt8,
      (xs.map some).foldl (readlines c func).feed (LinesRead.behind c s) =
        LinesRead.behind c (xs.foldl (cutStep (LineEnds c)) s) := by
    induction xs with
    | nil => exact fun s => rfl
    | cons x xs ih =>
      intro s
      rw [List.map_cons, List.foldl_cons, List.foldl_cons, ← ih, ← char_behind hfunc]
      rfl
  rw [← behind_nil]
  exact h ([], [])

end

/-- **The lines behind the device.** Let the functions of the URCs not read from it. After any order of
the interrupts and the steps of the thread in which the FIFO never overflows, the thread left to itself
is suspended in the end, and what its calls of `at_recv_readline` have given are the lines of the stream
that arrived: the stream is these lines and the beginning of one, each line ends where it is complete
for the first time, and it is given as it is, or refused if it is longer than the buffer. -/
theorem parser_reads_lines {bufsz : Nat} (hb : 2 ≤ bufsz) {c : AtClient} {func : UrcFunc}
    (hfunc : c.UrcsReadNone func) {evs : List PortEvent}
    (h : Along (Port.step bufsz (readlines c func)) (Port.NoOverflow bufsz)
      (Port.opened bufsz ⟨Readline.start c, [], 0⟩) evs) :
    ∃ (n : Nat) (ls : List (List UInt8)) (rest : List UInt8),
      let p := (evs ++ List.replicate n PortEvent.run).foldl (Port.step bufsz (readlines c func))
        (Port.opened bufsz ⟨Readline.start c, [], 0⟩)
      p.pc = .suspended ∧ p.reader.done = ls.map (lineResult c) ∧
        ls.flatten ++ rest = Port.arrived evs ∧ (∀ l ∈ ls, Record (LineEnds c) l) ∧
        Unfinished (LineEnds c) rest := by
  obtain ⟨n, hpc, hreader⟩ := Port.drains hb
    (r := readlines c func) (fun _ => show (-1 : Int) < 0 by decide) _ h
  obtain ⟨hrec, hrest⟩ := cut_spec (LineEnds c) (Port.arrived evs)
  refine ⟨n, _, _, hpc, ?_, cut_flatten (LineEnds c) _, hrec, hrest⟩
  rw [hreader, readline_cut hfunc]
  rfl

/-- A URC, and "OK" in two interrupts, the second one between an empty read and the take. -/
theorem parser_reads_lines_ok :
    let c : AtClient := ⟨0, 16, [[⟨[82, 68, 89], [13, 10]⟩]]⟩
    let func : UrcFunc := fun _ _ => 0
    let evs : List PortEvent := [.isr [82, 68, 89], .run, .run, .run, .run, .isr [13, 10],
      .run, .run, .run, .isr [79, 75], .run, .run, .run, .isr [13, 10]]
    2 ≤ 4 ∧ ∃ (n : Nat) (ls : List (List UInt8)) (rest : List UInt8),
      let p := (evs ++ List.replicate n PortEvent.run).foldl (Port.step 4 (readlines c func))
        (Port.opened 4 ⟨Readline.start c, [], 0⟩)
      p.pc = .suspended ∧ p.reader.done = ls.map (lineResult c) ∧
        ls.flatten ++ rest = Port.arrived evs ∧ (∀ l ∈ ls, Record (LineEnds c) l) ∧
        Unfinished (LineEnds c) rest :=
  ⟨by decide, parser_reads_lines (by decide) (fun _ _ _ => rfl)
    ⟨by unfold Port.NoOverflow; decide, trivial, trivial, trivial, trivial,
      by unfold Port.NoOverflow; decide, trivial, trivial, trivial,
      by unfold Port.NoOverflow; decide, trivial, trivial, trivial,
      by unfold Port.NoOverflow; decide, trivial⟩⟩

end AtkOnenet
