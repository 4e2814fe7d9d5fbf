import AtkOnenet.At.Line
import AtkOnenet.Lib.CString

/-!
# Responses of the AT server (`components/net/at/src/at_client.c`)

While a command waits, `client_parser` copies the lines that it reads into the response object of the
command, one behind the other, with NUL in place of the last character of each. A line for which there
is no room is left out. `OK`, an error or the expected number of lines ends the wait.

* `response_lines`: what the response object holds after any lines, and what ends the wait.
* `response_get_line`: `at_resp_get_line` gives these lines back.
-/

namespace AtkOnenet

open Circular CString Cut

/-- `at_resp_status_t`. -/
inductive AtRespStatus where
  | ok
  | error
  | timeout
  | buffFull
  deriving DecidableEq, Repr

/-- `struct at_response`, less the time-out. -/
structure AtResponse where
  buf : List UInt8
  bufSize : Nat
  bufLen : Nat
  lineNum : Nat
  lineCounts : Nat
  deriving DecidableEq, Repr

/-- `at_create_resp`. -/
def atCreateResp (bufSize lineNum : Nat) : AtResponse :=
  ⟨List.replicate bufSize 0, bufSize, 0, lineNum, 0⟩

/-- `rt_strstr` finds the string `s2` in `s1`. -/
def strstr (s1 s2 : List UInt8) : Bool := s1.tails.any (s2.isPrefixOf ·)

/-- `AT_RESP_END_OK`. -/
def atRespEndOk : List UInt8 := [79, 75]

/-- `AT_RESP_END_ERROR`. -/
def atRespEndError : List UInt8 := [69, 82, 82, 79, 82]

/-- `AT_RESP_END_FAIL`. -/
def atRespEndFail : List UInt8 := [70, 65, 73, 76]

/-- A command that waits for its response: the response object, whether `client->resp` points to it,
the status, how often `resp_notice` has been released, and the lines that it was looked at with. -/
structure Exchange where
  resp : AtResponse
  waiting : Bool
  respStatus : AtRespStatus
  notices : Nat
  seen : List (List UInt8)
  deriving DecidableEq, Repr

/-- `at_obj_exec_cmd` up to the wait, with a response object of any earlier use. -/
def Exchange.begin (resp : AtResponse) : Exchange :=
  ⟨{ resp with bufLen := 0, lineCounts := 0 }, true, .ok, 0, []⟩

/-- The copy of a line (`recv_line_buf`, `recv_line_len`) into the response object. -/
def AtResponse.store (resp : AtResponse) (lineBuf : List UInt8) (len : Nat) : Option AtResponse :=
  if resp.bufLen + len < resp.bufSize then
    some { resp with buf := copyInto resp.buf resp.bufLen (lineBuf.take len),
                     bufLen := resp.bufLen + len, lineCounts := resp.lineCounts + 1 }
  else none

/-- The status with which the line ends the wait, if it does. -/
def AtResponse.result (resp : AtResponse) (lineBuf : List UInt8) : Option AtRespStatus :=
  if atRespEndOk.isPrefixOf lineBuf ∧ resp.lineNum = 0 then some .ok
  else if strstr (cstr 0 lineBuf 0) atRespEndError ∨ atRespEndFail.isPrefixOf lineBuf then
    some .error
  else if resp.lineCounts = resp.lineNum ∧ resp.lineNum ≠ 0 then some .ok
  else none

/-- The branch of `client_parser` for a line of a response. -/
def Exchange.respond (x : Exchange) (lineBuf : List UInt8) (len : Nat) : Exchange :=
  let lineBuf := lineBuf.set (len - 1) 0
  let (resp, status) :=
    match x.resp.store lineBuf len with
    | some resp => (resp, x.respStatus)
    | none => (x.resp, .buffFull)
  match resp.result lineBuf with
  | some status => { x with resp := resp, respStatus := status, waiting := false,
                            notices := x.notices + 1 }
  | none => { x with resp := resp, respStatus := status }

/-- A turn of `client_parser` with what `at_recv_readline` gave. The function of a URC may not touch
the response. -/
def clientParser (c : AtClient) (x : Exchange) (line : Option (List UInt8)) : Exchange :=
  match line with
  | none => x
  | some line =>
    if (getUrcObj c (lineBuf c line) line.length).isSome then x
    else if x.waiting then
      { x.respond (lineBuf c line) line.length with seen := x.seen ++ [line] }
    else x

/-- `at_resp_get_line`: the offset of the line in the buffer. -/
def atRespGetLine (resp : AtResponse) (respLine : Nat) : Option Nat :=
  if respLine > resp.lineCounts ∨ respLine ≤ 0 then none
  else some ((skip 0 resp.buf)^[respLine - 1] 0)

/-- The loop of `at_resp_get_line_by_kw` over `n` lines. -/
def findLine (buf keyword : List UInt8) : Nat → Nat → Option Nat
  | 0, _ => none
  | n + 1, off =>
    if strstr (cstr 0 buf off) keyword then some off
    else findLine buf keyword n (skip 0 buf off)

/-- `at_resp_get_line_by_kw`: the offset of the first line with the keyword. -/
def atRespGetLineByKw (resp : AtResponse) (keyword : List UInt8) : Option Nat :=
  findLine resp.buf keyword resp.lineCounts 0

/-! ## What a response holds -/

/-- A line of `at_recv_readline` without NUL. -/
structure IsLine (c : AtClient) (line : List UInt8) : Prop where
  ne : line ≠ []
  fits : line.length ≤ c.recvBufsz
  nul : (0 : UInt8) ∉ line

/-- One more line, if there is room for it behind the others. -/
def keepLine (size : Nat) (ls : List (List UInt8)) (line : List UInt8) : List (List UInt8) :=
  if ls.flatten.length + line.length < size then ls ++ [line] else ls

/-- The lines that find room in a buffer. -/
def kept (size : Nat) (ls : List (List UInt8)) : List (List UInt8) := ls.foldl (keepLine size) []

/-- The status with which a line ends the wait for `lineNum` lines, as the `counts`-th line kept. -/
def lineStatus (lineNum counts : Nat) (line : List UInt8) : Option AtRespStatus :=
  if atRespEndOk.isPrefixOf line.dropLast ∧ lineNum = 0 then some .ok
  else if strstr line.dropLast atRespEndError ∨ atRespEndFail.isPrefixOf line.dropLast then
    some .error
  else if counts = lineNum ∧ lineNum ≠ 0 then some .ok
  else none

/-- The last of the lines ends the wait. -/
def ResponseEnds (size lineNum : Nat) (ls : List (List UInt8)) : Bool :=
  match ls.getLast? with
  | some line => (lineStatus lineNum (kept size ls).length line).isSome
  | none => false

/-- The buffer holds the lines, with NUL in place of their last characters. -/
structure AtResponse.Holds (resp : AtResponse) (ls : List (List UInt8)) : Prop where
  size : resp.buf.length = resp.bufSize
  len : resp.bufLen = ls.flatten.length
  room : resp.bufLen ≤ resp.bufSize
  counts : resp.lineCounts = ls.length
  take : resp.buf.take resp.bufLen = packed 0 (ls.map List.dropLast)

variable {c : AtClient} {line : List UInt8} {resp : AtResponse} {ls : List (List UInt8)}

theorem kept_snoc (size : Nat) (ls : List (List UInt8)) (line : List UInt8) :
    kept size (ls ++ [line]) = keepLine size (kept size ls) line := by
  rw [kept, List.foldl_append]
  rfl

/-- The lines kept are some of the lines. -/
theorem mem_of_mem_kept {size : Nat} : ∀ l ∈ kept size ls, l ∈ ls := by
  induction ls using List.reverseRecOn with
  | nil => exact fun l hl => hl
  | append_singleton ls line ih =>
    intro l hl
    rw [kept_snoc, keepLine] at hl
    split_ifs at hl with h
    · rcases List.mem_append.mp hl with hl | hl
      · exact List.mem_append_left _ (ih l hl)
      · exact List.mem_append_right _ hl
    · exact List.mem_append_left _ (ih l hl)

/-- `recv_line_buf` when the line is copied. -/
theorem lineBuf_set (hl : IsLine c line) : ∃ z, (lineBuf c line).set (line.length - 1) 0 =
    line.dropLast ++ 0 :: z := by
  obtain ⟨init, last, rfl⟩ := List.eq_nil_or_concat line |>.resolve_left hl.ne
  refine ⟨List.replicate (c.recvBufsz - (init.concat last).length) 0, ?_⟩
  rw [lineBuf_eq, List.take_of_length_le hl.fits, List.length_concat, Nat.add_sub_cancel]
  rw [List.concat_eq_append, List.dropLast_concat, List.append_assoc,
    List.set_append_right _ _ (Nat.le_refl _), Nat.sub_self]
  rfl

/-- A string without NUL, against a terminated one. -/
theorem isPrefixOf_terminated {p s z : List UInt8} (hp : (0 : UInt8) ∉ p) :
    p.isPrefixOf (s ++ 0 :: z) = p.isPrefixOf s := by
  rw [Bool.eq_iff_iff, List.isPrefixOf_iff_prefix, List.isPrefixOf_iff_prefix]
  constructor
  · intro h
    rcases List.prefix_or_prefix_of_prefix h (List.prefix_append s _) with hps | hsp
    · exact hps
    · -- more than the string would reach the terminator
      obtain ⟨t, rfl⟩ := hsp
      have ht := List.prefix_append_right_inj s |>.mp h
      cases t with
      | nil => rw [List.append_nil]
      | cons a t =>
        have ha := (List.cons_prefix_cons.mp ht).1
        exact absurd (List.mem_append_right s (ha ▸ List.mem_cons_self)) hp
  · intro h
    exact h.trans (List.prefix_append s _)

/-- The result of a line, from its characters. -/
theorem result_line (hl : IsLine c line) (resp : AtResponse) :
    resp.result ((lineBuf c line).set (line.length - 1) 0) =
      lineStatus resp.lineNum resp.lineCounts line := by
  obtain ⟨z, hz⟩ := lineBuf_set hl
  have hnul : (0 : UInt8) ∉ line.dropLast := fun h => hl.nul (List.mem_of_mem_dropLast h)
  have hstr : cstr 0 (line.dropLast ++ 0 :: z) 0 = line.dropLast := takeWhile_terminated hnul
  rw [hz, AtResponse.result, lineStatus, hstr, isPrefixOf_terminated (by decide),
    isPrefixOf_terminated (by decide)]

/-- The copy of a line keeps it, if there is room. -/
theorem store_line (hl : IsLine c line) (hh : resp.Holds ls) :
    let resp' := (resp.store ((lineBuf c line).set (line.length - 1) 0) line.length).getD resp
    resp'.Holds (keepLine resp.bufSize ls line) ∧ resp'.bufSize = resp.bufSize ∧
      resp'.lineNum = resp.lineNum := by
  obtain ⟨z, hz⟩ := lineBuf_set hl
  have hlen : line.dropLast.length + 1 = line.length := by
    have := List.length_pos_iff.mpr hl.ne
    rw [List.length_dropLast]
    omega
  have htake : (line.dropLast ++ 0 :: z).take line.length = line.dropLast ++ [0] := by
    rw [← hlen, List.take_length_add_append]
    rfl
  dsimp only
  rw [hz, AtResponse.store, keepLine, hh.len, htake]
  by_cases hroom : ls.flatten.length + line.length < resp.bufSize
  · rw [if_pos hroom, if_pos hroom]
    have hx : (line.dropLast ++ [0]).length = line.length := by rw [List.length_append, ← hlen]; rfl
    have hbuf : ls.flatten.length + (line.dropLast ++ [0]).length ≤ resp.buf.length := by
      rw [hx, hh.size]
      omega
    refine ⟨⟨?_, ?_, ?_, ?_, ?_⟩, rfl, rfl⟩
    · exact (length_copyInto hbuf).trans hh.size
    · simp only [Option.getD_some, List.flatten_append, List.length_append, List.flatten_singleton]
    · exact Nat.le_of_lt hroom
    · simp only [Option.getD_some, List.length_append, List.length_singleton, hh.counts]
    · have hold := hh.take
      rw [hh.len] at hold
      have hsum : ls.flatten.length + line.length =
          (resp.buf.take ls.flatten.length ++ (line.dropLast ++ [0])).length := by
        rw [List.length_append, hx, List.length_take, hh.size]
        omega
      simp only [Option.getD_some, copyInto]
      rw [hsum, List.take_left, hold, List.map_append, packed_append]
      simp [packed]
  · rw [if_neg hroom, if_neg hroom]
    exact ⟨hh, rfl, rfl⟩

/-! ## The wait of a command -/

/-- The lines of what `at_recv_readline` gave that are no unsolicited results. -/
def answers (c : AtClient) (rs : List (Option (List UInt8))) : List (List UInt8) :=
  (rs.filterMap id).filter fun line => (getUrcObj c (lineBuf c line) line.length).isNone

/-- The response object holds the lines seen, and the wait ends with the first line that ends it. -/
structure Exchange.Inv (c : AtClient) (size lineNum : Nat) (x : Exchange) : Prop where
  size_eq : x.resp.bufSize = size
  num_eq : x.resp.lineNum = lineNum
  holds : x.resp.Holds (kept size x.seen)
  lines : ∀ l ∈ x.seen, IsLine c l
  going : x.waiting = true → x.notices = 0 ∧ Unfinished (ResponseEnds size lineNum) x.seen
  released : x.waiting = false → x.notices = 1 ∧ Record (ResponseEnds size lineNum) x.seen ∧
    ∃ last ∈ x.seen.getLast?, lineStatus lineNum (kept size x.seen).length last = some x.respStatus

variable {size lineNum : Nat} {x : Exchange}

theorem begin_inv (hbuf : resp.buf.length = resp.bufSize) :
    (Exchange.begin resp).Inv c resp.bufSize resp.lineNum where
  size_eq := rfl
  num_eq := rfl
  holds := ⟨hbuf, rfl, Nat.zero_le _, rfl, rfl⟩
  lines := nofun
  going _ := ⟨rfl, fun _ hq hne => absurd (List.prefix_nil.mp hq) hne⟩
  released h := nomatch h

theorem responseEnds_snoc (ls : List (List UInt8)) (line : List UInt8) :
    ResponseEnds size lineNum (ls ++ [line]) =
      (lineStatus lineNum (keepLine size (kept size ls) line).length line).isSome := by
  rw [ResponseEnds, List.getLast?_concat, kept_snoc]

/-- A line that a waiting command sees. -/
theorem respond_inv (hx : x.Inv c size lineNum) (hw : x.waiting = true) (hl : IsLine c line) :
    { x.respond (lineBuf c line) line.length with seen := x.seen ++ [line] }.Inv c size lineNum := by
  obtain ⟨hnotices, hunf⟩ := hx.going hw
  obtain ⟨hholds, hsize, hnum⟩ := store_line hl hx.holds
  rw [hx.size_eq] at hholds hsize
  rw [hx.num_eq] at hnum
  have hlines : ∀ l ∈ x.seen ++ [line], IsLine c l := by
    intro l hmem
    rcases List.mem_append.mp hmem with hmem | hmem
    · exact hx.lines l hmem
    · rw [List.mem_singleton.mp hmem]
      exact hl
  have hsnoc := unfinished_snoc (x := line) hunf
  have hends : ResponseEnds size lineNum (x.seen ++ [line]) =
      (lineStatus lineNum (keepLine size (kept size x.seen) line).length line).isSome :=
    responseEnds_snoc x.seen line
  -- the response object behind the line, and its result
  obtain ⟨resp', hresp'⟩ : ∃ r, r = (x.resp.store ((lineBuf c line).set (line.length - 1) 0)
    line.length).getD x.resp := ⟨_, rfl⟩
  rw [← hresp'] at hholds hsize hnum
  have hres := result_line hl resp'
  rw [hnum, hholds.counts] at hres
  have hrespond : ∃ status, x.respond (lineBuf c line) line.length =
      match lineStatus lineNum (keepLine size (kept size x.seen) line).length line with
      | some st => { x with resp := resp', respStatus := st, waiting := false,
                            notices := x.notices + 1 }
      | none => { x with resp := resp', respStatus := status } := by
    simp only [Exchange.respond]
    cases hstore : x.resp.store ((lineBuf c line).set (line.length - 1) 0) line.length with
    | none =>
      rw [hstore, Option.getD_none] at hresp'
      rw [hresp'] at hres
      refine ⟨.buffFull, ?_⟩
      simp only [hres, hresp']
    | some r =>
      rw [hstore, Option.getD_some] at hresp'
      rw [hresp'] at hres
      refine ⟨x.respStatus, ?_⟩
      simp only [hres, hresp']
  obtain ⟨status, hrespond⟩ := hrespond
  rw [hrespond]
  rw [← kept_snoc] at hholds
  cases hst : lineStatus lineNum (keepLine size (kept size x.seen) line).length line with
  | none =>
    rw [hst] at hends
    refine ⟨hsize, hnum, hholds, hlines, fun _ => ⟨hnotices, ?_⟩, ?_⟩
    · intro q hq hne
      by_cases hlast : q = x.seen ++ [line]
      · rw [hlast]
        exact hends
      · exact hsnoc q hq hne hlast
    · intro h
      exact absurd (hw.symm.trans h) (by decide)
  | some st =>
    rw [hst] at hends
    refine ⟨hsize, hnum, hholds, hlines, nofun, fun _ => ⟨?_, ⟨hends, hsnoc⟩, ?_⟩⟩
    · exact congrArg (· + 1) hnotices
    · refine ⟨line, List.getLast?_concat, ?_⟩
      rw [kept_snoc]
      exact hst

/-- What a result of `at_recv_readline` does to the lines seen. -/
theorem clientParser_spec (hx : x.Inv c size lineNum) {rs : List (Option (List UInt8))}
    {r : Option (List UInt8)} (hr : ∀ l ∈ r, IsLine c l) (hpre : x.seen <+: answers c rs)
    (hall : x.waiting = true → x.seen = answers c rs) :
    (clientParser c x r).Inv c size lineNum ∧
      (clientParser c x r).seen <+: answers c (rs ++ [r]) ∧
      ((clientParser c x r).waiting = true → (clientParser c x r).seen = answers c (rs ++ [r])) := by
  have hsame : answers c (rs ++ [r]) = answers c rs →
      clientParser c x r = x → (clientParser c x r).Inv c size lineNum ∧
        (clientParser c x r).seen <+: answers c (rs ++ [r]) ∧
        ((clientParser c x r).waiting = true →
          (clientParser c x r).seen = answers c (rs ++ [r])) := by
    intro hans heq
    rw [hans, heq]
    exact ⟨hx, hpre, hall⟩
  cases r with
  | none => exact hsame (by simp [answers]) rfl
  | some line =>
    by_cases hurc : (getUrcObj c (lineBuf c line) line.length).isSome
    · refine hsame ?_ (by simp only [clientParser, if_pos hurc])
      simp [answers, Option.isSome_iff_ne_none.mp hurc]
    · have hans : answers c (rs ++ [some line]) = answers c rs ++ [line] := by
        simp [answers, Option.not_isSome_iff_eq_none.mp hurc]
      by_cases hw : x.waiting = true
      · have hpar : clientParser c x (some line) =
            { x.respond (lineBuf c line) line.length with seen := x.seen ++ [line] } := by
          simp only [clientParser, if_neg hurc, if_pos hw]
        rw [hpar, hans, ← hall hw]
        exact ⟨respond_inv hx hw (hr line rfl), List.prefix_refl _, fun _ => rfl⟩
      · have hpar : clientParser c x (some line) = x := by
          simp only [clientParser, if_neg hurc, if_neg hw]
        rw [hpar, hans]
        exact ⟨hx, hpre.trans (List.prefix_append _ _), fun h => absurd h hw⟩

theorem foldl_clientParser (rs : List (Option (List UInt8))) (hrs : ∀ r ∈ rs, ∀ l ∈ r, IsLine c l)
    (hbuf : resp.buf.length = resp.bufSize) :
    let x := rs.foldl (clientParser c) (Exchange.begin resp)
    x.Inv c resp.bufSize resp.lineNum ∧ x.seen <+: answers c rs ∧
      (x.waiting = true → x.seen = answers c rs) := by
  induction rs using List.reverseRecOn with
  | nil => exact ⟨begin_inv hbuf, List.prefix_refl _, fun _ => rfl⟩
  | append_singleton rs r ih =>
    obtain ⟨hinv, hpre, hall⟩ := ih fun r' hr' => hrs r' (List.mem_append_left _ hr')
    rw [List.foldl_append]
    exact clientParser_spec hinv
      (hrs r (List.mem_append_right _ List.mem_cons_self)) hpre hall

/-! ## Reading the response -/

/-- The strings of the lines that a response object holds. -/
theorem holds_buf (hh : resp.Holds ls) :
    ∃ rest, resp.buf = packed 0 (ls.map List.dropLast) ++ rest :=
  ⟨resp.buf.drop resp.bufLen, by rw [← hh.take, List.take_append_drop]⟩

theorem not_mem_dropLast (hls : ∀ l ∈ ls, (0 : UInt8) ∉ l) :
    ∀ s ∈ ls.map List.dropLast, (0 : UInt8) ∉ s := by
  intro s hs
  obtain ⟨l, hl, rfl⟩ := List.mem_map.mp hs
  exact fun h => hls l hl (List.mem_of_mem_dropLast h)

/-- `at_resp_get_line` counts the lines from 1. -/
theorem atRespGetLine_holds (hh : resp.Holds ls) (hls : ∀ l ∈ ls, (0 : UInt8) ∉ l) (k : Nat) :
    (atRespGetLine resp k).map (cstr 0 resp.buf) =
      if k = 0 then none else (ls.map List.dropLast)[k - 1]? := by
  have hnul := not_mem_dropLast hls
  obtain ⟨rest, hbuf⟩ := holds_buf hh
  have hlen : (ls.map List.dropLast).length = resp.lineCounts := by rw [List.length_map, hh.counts]
  unfold atRespGetLine
  by_cases hk : k > resp.lineCounts ∨ k ≤ 0
  · rw [if_pos hk, Option.map_none]
    split_ifs with h0
    · rfl
    · exact (List.getElem?_eq_none (by omega)).symm
  · have hlt : k - 1 < (ls.map List.dropLast).length := by omega
    rw [if_neg hk, if_neg (by omega), Option.map_some, hbuf,
      iterate_skip _ hnul (Nat.le_of_lt hlt), cstr_packed hnul hlt, List.getElem?_eq_getElem hlt]

/-- The search goes through the lines one by one. -/
theorem findLine_packed {ss : List (List UInt8)} (hss : ∀ s ∈ ss, (0 : UInt8) ∉ s)
    {rest keyword : List UInt8} (n k : Nat) (hk : k + n = ss.length) :
    (findLine (packed 0 ss ++ rest) keyword n (packed 0 (ss.take k)).length).map
      (cstr 0 (packed 0 ss ++ rest)) = (ss.drop k).find? (strstr · keyword) := by
  induction n generalizing k with
  | zero =>
    rw [List.drop_eq_nil_of_le (by omega)]
    rfl
  | succ n ih =>
    have hlt : k < ss.length := by omega
    have hskip : skip 0 (packed 0 ss ++ rest) (packed 0 (ss.take k)).length =
        (packed 0 (ss.take (k + 1))).length := by
      rw [← iterate_skip rest hss (Nat.le_of_lt hlt), ← iterate_skip rest hss hlt,
        Function.iterate_succ_apply']
    rw [List.drop_eq_getElem_cons hlt, List.find?_cons, findLine, cstr_packed hss hlt]
    cases hstr : strstr ss[k] keyword with
    | true => rw [if_pos rfl, Option.map_some, cstr_packed hss hlt]
    | false => rw [if_neg (by decide), hskip, ih (k + 1) (by omega)]

theorem atRespGetLineByKw_holds (hh : resp.Holds ls) (hls : ∀ l ∈ ls, (0 : UInt8) ∉ l)
    (keyword : List UInt8) : (atRespGetLineByKw resp keyword).map (cstr 0 resp.buf) =
      (ls.map List.dropLast).find? (strstr · keyword) := by
  obtain ⟨rest, hbuf⟩ := holds_buf hh
  rw [atRespGetLineByKw, hbuf, hh.counts]
  exact findLine_packed (not_mem_dropLast hls) ls.length 0 (by rw [List.length_map, Nat.zero_add])

/-- **The response of a command.** After any results of `at_recv_readline` with no NUL in a line: the
command has seen the lines that are no unsolicited results, in order, up to the first one that ends
the wait, and `resp_notice` is released at that line and then only, with the status of that line; and
`at_resp_get_line` and `at_resp_get_line_by_kw` give back the lines for which there was room, less
their last characters. -/
theorem response_lines (c : AtClient) (resp : AtResponse) (hbuf : resp.buf.length = resp.bufSize)
    (rs : List (Option (List UInt8))) (hrs : ∀ r ∈ rs, ∀ l ∈ r, IsLine c l) :
    let x := rs.foldl (clientParser c) (Exchange.begin resp)
    let strings := (kept resp.bufSize x.seen).map List.dropLast
    let ends := ResponseEnds resp.bufSize resp.lineNum
    (if x.waiting then x.notices = 0 ∧ x.seen = answers c rs ∧ Unfinished ends x.seen
      else x.notices = 1 ∧ x.seen <+: answers c rs ∧ Record ends x.seen ∧
        ∃ last ∈ x.seen.getLast?,
          lineStatus resp.lineNum strings.length last = some x.respStatus) ∧
      (∀ k, (atRespGetLine x.resp k).map (cstr 0 x.resp.buf) =
        if k = 0 then none else strings[k - 1]?) ∧
      ∀ keyword, (atRespGetLineByKw x.resp keyword).map (cstr 0 x.resp.buf) =
        strings.find? (strstr · keyword) := by
  obtain ⟨hinv, hpre, hall⟩ := foldl_clientParser rs hrs hbuf
  have hnul : ∀ l ∈ kept resp.bufSize (rs.foldl (clientParser c) (Exchange.begin resp)).seen,
      (0 : UInt8) ∉ l := fun l hl => (hinv.lines l (mem_of_mem_kept l hl)).nul
  refine ⟨?_, atRespGetLine_holds hinv.holds hnul, atRespGetLineByKw_holds hinv.holds hnul⟩
  split_ifs with hw
  · exact ⟨(hinv.going hw).1, hall hw, (hinv.going hw).2⟩
  · obtain ⟨hnotices, hrec, hlast⟩ := hinv.released (Bool.eq_false_iff.mpr hw)
    refine ⟨hnotices, hpre, hrec, ?_⟩
    rw [List.length_map]
    exact hlast

/-- `AT+CIFSR` with an unsolicited result between its lines. -/
theorem response_lines_ok :
    let c : AtClient := ⟨0, 16, [[⟨[87, 73], [13, 10]⟩]]⟩
    let resp := atCreateResp 32 0
    let rs : List (Option (List UInt8)) :=
      [some [43, 49, 13, 10], some [87, 73, 13, 10], none, some [79, 75, 13, 10]]
    let x := rs.foldl (clientParser c) (Exchange.begin resp)
    let strings := (kept resp.bufSize x.seen).map List.dropLast
    let ends := ResponseEnds resp.bufSize resp.lineNum
    resp.buf.length = resp.bufSize ∧
      (if x.waiting then x.notices = 0 ∧ x.seen = answers c rs ∧ Unfinished ends x.seen
        else x.notices = 1 ∧ x.seen <+: answers c rs ∧ Record ends x.seen ∧
          ∃ last ∈ x.seen.getLast?,
            lineStatus resp.lineNum strings.length last = some x.respStatus) ∧
      (∀ k, (atRespGetLine x.resp k).map (cstr 0 x.resp.buf) =
        if k = 0 then none else strings[k - 1]?) ∧
      ∀ keyword, (atRespGetLineByKw x.resp keyword).map (cstr 0 x.resp.buf) =
        strings.find? (strstr · keyword) := by
  refine ⟨rfl, response_lines ⟨0, 16, [[⟨[87, 73], [13, 10]⟩]]⟩ (atCreateResp 32 0) rfl _ ?_⟩
  intro r hr l hl
  have hlines : ∀ l ∈ [[43, 49, 13, 10], [87, 73, 13, 10], [79, 75, 13, 10]],
      IsLine ⟨0, 16, [[⟨[87, 73], [13, 10]⟩]]⟩ l := by
    simp only [List.forall_mem_cons, List.not_mem_nil, false_implies, implies_true, and_true]
    exact ⟨⟨by decide, by decide, by decide⟩, ⟨by decide, by decide, by decide⟩,
      ⟨by decide, by decide, by decide⟩⟩
  simp only [List.mem_cons, List.not_mem_nil, or_false] at hr
  rcases hr with rfl | rfl | rfl | rfl
  · exact hlines l (Option.mem_some_iff.mp hl ▸ by decide)
  · exact hlines l (Option.mem_some_iff.mp hl ▸ by decide)
  · cases hl
  · exact hlines l (Option.mem_some_iff.mp hl ▸ by decide)

end AtkOnenet
