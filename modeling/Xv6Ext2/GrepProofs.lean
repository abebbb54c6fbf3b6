import Xv6Ext2.BufCacheProofs
import Xv6Ext2.DirNameProofs
import Xv6Ext2.GrepMatchProofs

/-! # The lines that grep writes (grep.c)

    `grep` reads into `buf` behind the line that the last read left unfinished.  When a read
    brings no newline it forgets that line: `if(p == buf) m = 0`.

    - `lines`, `partialLine` : a stream as its finished lines and the rest.
    - `kept reads` : the stream without what the reads without a newline lose.
    - `grepLines_eq` : the loop over the lines in the buffer; `grepFrom_eq` : the loop over
      the reads.
    - `grep_right_iff` : when `grep` writes the lines that match. -/

namespace Grep

open ByteBlock BufCache Param DirName Outcome

open Function (update update_of_ne update_self)

open List (append_assoc append_nil flatten_cons foldl_cons length_append length_cons mem_append
  mem_cons)

/-! ## The function -/

def BUFSIZE : Nat := 1024

/-- `strchr(s, c)` with `fuel` bytes of the buffer left: the place of the byte. -/
def strchr (buf : Block) (c : UInt8) : Nat → Nat → Except Err (Option Nat)
  | 0, _ => .error .wild
  | fuel + 1, s =>
    if buf s = 0 then .ok none
    else if buf s = c then .ok (some s)
    else strchr buf c fuel (s + 1)

def text (buf : Block) (p : Nat) : List UInt8 := strn (fun k => buf (p + k)) (BUFSIZE - p)

/-- The `n` bytes at `p`. -/
def bytes (buf : Block) (p n : Nat) : List UInt8 := (List.range n).map (fun k => buf (p + k))

/-- The loop over the lines in the buffer; `out` are the writes so far. -/
def grepLines (pattern : List UInt8) :
    Nat → Nat → Block → List (List UInt8) → Except Err (Nat × Block × List (List UInt8))
  | 0, _, _, _ => .error .hang
  | fuel + 1, p, buf, out => do
      match ← strchr buf NEWLINE (BUFSIZE - p) p with
      | none => .ok (p, buf, out)
      | some q =>
        let buf := update buf q 0
        if regMatch pattern (text buf p) = true then
          let buf := update buf q NEWLINE
          grepLines pattern fuel (q + 1) buf (out ++ [bytes buf p (q + 1 - p)])
        else grepLines pattern fuel (q + 1) buf out

/-- The loop over the reads: `reads` is what they will bring, and behind it `read` returns 0.
    The unfinished line has `m` bytes. -/
def grepFrom (pattern : List UInt8) :
    List (List UInt8) → Nat → Block → List (List UInt8) → Except Err (List (List UInt8))
  | [], _, _, out => .ok out
  | chunk :: reads, m, buf, out =>
    if chunk.length = 0 then .ok out
    else do
      let buf := blit buf m chunk.length (cstr chunk)
      let m := m + chunk.length
      let buf := update buf m 0
      let (p, buf, out) ← grepLines pattern BUFSIZE 0 buf out
      let m := if p = 0 then 0 else m
      if 0 < m then
        grepFrom pattern reads (m - p) (blit buf 0 (m - p) (fun k => buf (p + k))) out
      else grepFrom pattern reads m buf out

/-- `grep(pattern, fd)`: the writes to the standard output. -/
def grep (pattern : List UInt8) (reads : List (List UInt8)) : Except Err (List (List UInt8)) :=
  grepFrom pattern reads 0 (fun _ => 0) []

/-! ## Lines -/

/-- The lines that end in a newline, without it. -/
def lines (s : List UInt8) : List (List UInt8) := (s.splitOn NEWLINE).dropLast

/-- What follows the last newline. -/
def partialLine (s : List UInt8) : List UInt8 := (s.splitOn NEWLINE).getLastD []

/-- What is to be written: the lines that match, with their newlines. -/
def found (pattern s : List UInt8) : List (List UInt8) :=
  ((lines s).filter (fun l => regMatch pattern l)).map (· ++ [NEWLINE])

/-- The finished lines with their newlines. -/
def whole (s : List UInt8) : List UInt8 := ((lines s).map (· ++ [NEWLINE])).flatten

/-- One more read: without a newline in it the unfinished line is lost. -/
def keep (s chunk : List UInt8) : List UInt8 := if NEWLINE ∈ chunk then s ++ chunk else whole s

def kept (reads : List (List UInt8)) : List UInt8 := reads.foldl keep []

/-- The reads are not empty and fit into what the buffer has left behind the unfinished line,
    of `m` bytes, for a byte that stays free. -/
def Fits : Nat → List (List UInt8) → Prop
  | _, [] => True
  | m, chunk :: reads => chunk ≠ [] ∧ chunk.length ≤ BUFSIZE - m - 1 ∧
      Fits (if NEWLINE ∈ chunk then (partialLine chunk).length else 0) reads

section Lines

variable {s l r x y : List UInt8}

lemma lines_of_notMem (h : NEWLINE ∉ s) : lines s = [] ∧ partialLine s = s := by
  rw [lines, partialLine, List.splitOn_eq_singleton h]
  exact ⟨rfl, rfl⟩

/-- A stream cut at one of its newlines. -/
lemma lines_cut (x y : List UInt8) : lines (x ++ NEWLINE :: y) = x.splitOn NEWLINE ++ lines y ∧
    partialLine (x ++ NEWLINE :: y) = partialLine y := by
  have hne := List.splitOn_ne_nil NEWLINE y
  rw [lines, partialLine, lines, partialLine, List.splitOn_append_cons_self,
    List.dropLast_append_of_ne_nil hne, List.getLastD_eq_getLast?, List.getLastD_eq_getLast?,
    List.getLast?_append_of_ne_nil _ hne]
  exact ⟨rfl, rfl⟩

lemma exists_cut (h : NEWLINE ∈ s) : ∃ x y, s = x ++ NEWLINE :: y ∧ NEWLINE ∉ y := by
  obtain ⟨y, x, hs, hy⟩ := List.eq_append_cons_of_mem (List.mem_reverse.mpr h)
  refine ⟨x.reverse, y.reverse, ?_, fun hmem => hy (List.mem_reverse.mp hmem)⟩
  rw [← List.reverse_reverse s, hs, List.reverse_append, List.reverse_cons, append_assoc]
  rfl

/-- **Lines across a cut**: the unfinished line of the first part goes on in the second. -/
lemma lines_append (s t : List UInt8) : lines (s ++ t) = lines s ++ lines (partialLine s ++ t) ∧
      partialLine (s ++ t) = partialLine (partialLine s ++ t) := by
  by_cases h : NEWLINE ∈ s
  · obtain ⟨x, y, rfl, hy⟩ := exists_cut h
    obtain ⟨h1, h2⟩ := lines_cut x y
    obtain ⟨h3, h4⟩ := lines_of_notMem hy
    rw [h1, h2, h3, h4, append_nil, append_assoc, List.cons_append]
    exact lines_cut x (y ++ t)
  · obtain ⟨h1, h2⟩ := lines_of_notMem h
    rw [h1, h2]
    exact ⟨rfl, rfl⟩

lemma partialLine_notMem (s : List UInt8) : NEWLINE ∉ partialLine s := by
  by_cases h : NEWLINE ∈ s
  · obtain ⟨x, y, rfl, hy⟩ := exists_cut h
    rwa [(lines_cut x y).2, (lines_of_notMem hy).2]
  · rwa [(lines_of_notMem h).2]

lemma lines_first (hl : NEWLINE ∉ l) (r : List UInt8) :
    lines (l ++ NEWLINE :: r) = l :: lines r := by
  rw [(lines_cut l r).1, List.splitOn_eq_singleton hl]
  rfl

lemma whole_first (hl : NEWLINE ∉ l) (r : List UInt8) :
    whole (l ++ NEWLINE :: r) = l ++ NEWLINE :: whole r := by
  rw [whole, lines_first hl, List.map_cons, flatten_cons, append_assoc]
  rfl

lemma line_induction {P : List UInt8 → Prop} (hend : ∀ s, NEWLINE ∉ s → P s)
    (hline : ∀ l r, NEWLINE ∉ l → P r → P (l ++ NEWLINE :: r)) (s : List UInt8) : P s := by
  induction hn : s.length using Nat.strongRecOn generalizing s with
  | _ n ih =>
    by_cases h : NEWLINE ∈ s
    · obtain ⟨l, r, rfl, hl⟩ := List.eq_append_cons_of_mem h
      refine hline l r hl (ih r.length ?_ r rfl)
      rw [length_append, length_cons] at hn
      omega
    · exact hend s h

lemma whole_append_partialLine (s : List UInt8) : whole s ++ partialLine s = s := by
  induction s using line_induction with
  | hend s h =>
    rw [whole, (lines_of_notMem h).1, (lines_of_notMem h).2]
    rfl
  | hline l r hl ih =>
    rw [whole_first hl, (lines_cut l r).2, append_assoc, List.cons_append, ih]

lemma lines_whole (s : List UInt8) : lines (whole s) = lines s ∧ partialLine (whole s) = [] := by
  induction s using line_induction with
  | hend s h =>
    rw [whole, (lines_of_notMem h).1]
    exact ⟨rfl, rfl⟩
  | hline l r hl ih =>
    rw [whole_first hl, lines_first hl, lines_first hl, (lines_cut l _).2, ih.1]
    exact ⟨rfl, ih.2⟩

lemma length_whole (s : List UInt8) : (whole s).length = s.length - (partialLine s).length := by
  have h := congrArg List.length (whole_append_partialLine s)
  rw [length_append] at h
  omega

end Lines

/-! ## The lines in the buffer -/

/-- The bytes of `s` are in the buffer from `p` on. -/
def Held (buf : Block) (p : Nat) (s : List UInt8) : Prop := ∀ k < s.length, buf (p + k) = cstr s k

section Buffer

variable {buf : Block} {p : Nat} {s t l r : List UInt8} {c : UInt8}

lemma held_append : Held buf p (s ++ t) ↔ Held buf p s ∧ Held buf (p + s.length) t := by
  unfold Held
  rw [length_append]
  constructor
  · refine fun h => ⟨fun k hk => ?_, fun k hk => ?_⟩
    · rw [h k (by omega), cstr, cstr, List.getD_append _ _ _ _ hk]
    · rw [Nat.add_assoc, h _ (by omega), cstr, cstr, List.getD_append_right _ _ _ _ (by omega),
        Nat.add_sub_cancel_left]
  · rintro ⟨hs, ht⟩ k hk
    by_cases hlt : k < s.length
    · rw [hs k hlt, cstr, cstr, List.getD_append _ _ _ _ hlt]
    have h := ht (k - s.length) (by omega)
    rw [show p + s.length + (k - s.length) = p + k by omega] at h
    rw [h, cstr, cstr, List.getD_append_right _ _ _ _ (by omega)]

lemma held_cons : Held buf p (c :: s) ↔ buf p = c ∧ Held buf (p + 1) s := by
  rw [← List.singleton_append, held_append]
  refine and_congr ⟨fun h => h 0 Nat.one_pos, fun h k hk => ?_⟩ Iff.rfl
  obtain rfl : k = 0 := Nat.lt_one_iff.mp hk
  exact h

lemma Held.bytes_eq (h : Held buf p s) : bytes buf p s.length = s := by
  refine List.ext_getElem (by rw [bytes, List.length_map, List.length_range]) (fun k hk hk' => ?_)
  simp only [bytes, List.getElem_map, List.getElem_range]
  rw [h k hk', cstr, List.getD_eq_getElem _ _ hk']

lemma Held.congr {buf' : Block} (h : Held buf p s)
    (hsame : ∀ k, p ≤ k → k < p + s.length → buf' k = buf k) : Held buf' p s := fun k hk => by
  rw [hsame (p + k) (by omega) (by omega)]
  exact h k hk

/-- `strchr` finds the first newline. -/
lemma strchr_found {fuel : Nat} (hl : NEWLINE ∉ l) (hnul : 0 ∉ l)
    (h : Held buf p (l ++ NEWLINE :: r)) (hfuel : l.length < fuel) :
    strchr buf NEWLINE fuel p = .ok (some (p + l.length)) := by
  induction l generalizing p fuel with
  | nil =>
    obtain ⟨fuel, rfl⟩ := Nat.exists_eq_add_one_of_ne_zero (Nat.ne_of_gt hfuel)
    have hp : buf p = NEWLINE := (held_cons.mp h).1
    rw [strchr, hp, if_neg (by decide), if_pos rfl]
    rfl
  | cons c l ih =>
    obtain ⟨fuel, rfl⟩ := Nat.exists_eq_add_one_of_ne_zero (Nat.ne_of_gt (Nat.zero_lt_of_lt hfuel))
    obtain ⟨hp, hrest⟩ := held_cons.mp h
    rw [mem_cons, not_or] at hl hnul
    rw [strchr, hp, if_neg (Ne.symm hnul.1), if_neg (Ne.symm hl.1), ih hl.2 hnul.2 hrest
      (Nat.lt_of_succ_lt_succ hfuel), length_cons, Nat.add_assoc, Nat.add_comm 1]

lemma strchr_none {fuel : Nat} (hs : NEWLINE ∉ s) (hnul : 0 ∉ s) (h : Held buf p s)
    (hend : buf (p + s.length) = 0) (hfuel : s.length < fuel) :
    strchr buf NEWLINE fuel p = .ok none := by
  induction s generalizing p fuel with
  | nil =>
    obtain ⟨fuel, rfl⟩ := Nat.exists_eq_add_one_of_ne_zero (Nat.ne_of_gt hfuel)
    rw [strchr]
    exact if_pos hend
  | cons c s ih =>
    obtain ⟨fuel, rfl⟩ := Nat.exists_eq_add_one_of_ne_zero (Nat.ne_of_gt (Nat.zero_lt_of_lt hfuel))
    obtain ⟨hp, hrest⟩ := held_cons.mp h
    rw [mem_cons, not_or] at hs hnul
    rw [length_cons, Nat.add_comm s.length, ← Nat.add_assoc] at hend
    rw [strchr, hp, if_neg (Ne.symm hnul.1), if_neg (Ne.symm hs.1)]
    exact ih hs.2 hnul.2 hrest hend (Nat.lt_of_succ_lt_succ hfuel)

/-- **The loop over the lines** writes those that match and leaves the unfinished one, by
    induction over the lines. -/
lemma grepLines_eq (pattern s : List UInt8) : ∀ (fuel p : Nat) (buf : Block)
    (out : List (List UInt8)), s.length < fuel → p + s.length < BUFSIZE → 0 ∉ s → Held buf p s →
    buf (p + s.length) = 0 → ∃ buf', grepLines pattern fuel p buf out
        = .ok (p + (whole s).length, buf', out ++ found pattern s) ∧
      Held buf' (p + (whole s).length) (partialLine s) := by
  induction s using line_induction with
  | hend s hs =>
    intro fuel p buf out hfuel hlen hnul hheld hend
    obtain ⟨fuel, rfl⟩ := Nat.exists_eq_add_one_of_ne_zero (Nat.ne_of_gt (Nat.zero_lt_of_lt hfuel))
    refine ⟨buf, ?_, ?_⟩
    · rw [grepLines, strchr_none hs hnul hheld hend (by omega), found, whole,
        (lines_of_notMem hs).1]
      show Except.ok (p, buf, out) = .ok (p, buf, out ++ [])
      rw [append_nil]
    · rwa [whole, (lines_of_notMem hs).1, (lines_of_notMem hs).2]
  | hline l r hl ih =>
    intro fuel p buf out hfuel hlen hnul hheld hend
    obtain ⟨fuel, rfl⟩ := Nat.exists_eq_add_one_of_ne_zero (Nat.ne_of_gt (Nat.zero_lt_of_lt hfuel))
    have hlr : (l ++ NEWLINE :: r).length = l.length + 1 + r.length := by
      rw [length_append, length_cons]
      omega
    rw [hlr] at hfuel hlen hend
    obtain ⟨hheldl, hheldr⟩ := held_append.mp hheld
    obtain ⟨hq, hheldr⟩ := held_cons.mp hheldr
    rw [mem_append, not_or, mem_cons, not_or] at hnul
    -- the string at `p` while the newline is a NUL
    have htext : text (update buf (p + l.length) 0) p = l := by
      refine strn_of_nul (fun c hc e => hnul.1 (e ▸ hc)) (fun k hk => ?_) ?_ (by omega)
      · rw [update_of_ne (by omega)]
        exact hheldl k hk
      · exact update_self ..
    have hback : update (update buf (p + l.length) 0) (p + l.length) NEWLINE = buf := by
      rw [Function.update_idem, ← hq, Function.update_eq_self]
    have hwhole : p + (whole (l ++ NEWLINE :: r)).length = p + l.length + 1 + (whole r).length := by
      rw [whole_first hl, length_append, length_cons]
      omega
    rw [hwhole, (lines_cut l r).2, grepLines, strchr_found hl hnul.1 hheld (by omega), ok_bind]
    dsimp only
    rw [htext, hback, found, lines_first hl]
    by_cases hmatch : regMatch pattern l = true
    · rw [if_pos hmatch, List.filter_cons_of_pos hmatch, List.map_cons]
      have hbytes : bytes buf p (p + l.length + 1 - p) = l ++ [NEWLINE] := by
        have hline : Held buf p (l ++ [NEWLINE]) :=
          held_append.mpr ⟨hheldl, held_cons.mpr ⟨hq, fun k hk => absurd hk (Nat.not_lt_zero k)⟩⟩
        have hb := hline.bytes_eq
        rwa [length_append, List.length_singleton,
          show l.length + 1 = p + l.length + 1 - p by omega] at hb
      rw [hbytes, ← List.singleton_append (l := List.map _ _), ← append_assoc]
      exact ih fuel _ buf _ (by omega) (by omega) hnul.2.2 hheldr
        (by rw [show p + l.length + 1 + r.length = p + (l.length + 1 + r.length) by omega]; exact hend)
    · rw [if_neg hmatch, List.filter_cons_of_neg hmatch]
      refine ih fuel _ _ out (by omega) (by omega) hnul.2.2
        (hheldr.congr (fun k hk _ => update_of_ne (by omega) _ _)) ?_
      rw [update_of_ne (by omega),
        show p + l.length + 1 + r.length = p + (l.length + 1 + r.length) by omega]
      exact hend

end Buffer

/-! ## The reads -/

section Reads

variable {s t c : List UInt8} {reads : List (List UInt8)}

lemma found_append (pattern s t : List UInt8) :
    found pattern (s ++ t) = found pattern s ++ found pattern (partialLine s ++ t) := by
  rw [found, (lines_append s t).1, List.filter_append, List.map_append]
  rfl

lemma partialLine_append_of_mem (h : NEWLINE ∈ t) : partialLine (s ++ t) = partialLine t := by
  obtain ⟨x, y, rfl, -⟩ := exists_cut h
  rw [← append_assoc, (lines_cut _ y).2, (lines_cut x y).2]

lemma whole_ne_nil (h : NEWLINE ∈ s) : whole s ≠ [] := by
  intro hnil
  have heq := whole_append_partialLine s
  rw [hnil, List.nil_append] at heq
  refine partialLine_notMem s ?_
  rwa [heq]

lemma whole_of_notMem (h : NEWLINE ∉ s) : whole s = [] := by
  rw [whole, (lines_of_notMem h).1]
  rfl

/-- **The loop over the reads**: between two reads the buffer holds the unfinished line of
    what has been kept, and its matching lines are written. -/
lemma grepFrom_eq (pattern : List UInt8) : ∀ (reads : List (List UInt8)) (s : List UInt8)
    (buf : Block), Fits (partialLine s).length reads → 0 ∉ reads.flatten → 0 ∉ s →
    Held buf 0 (partialLine s) → grepFrom pattern reads (partialLine s).length buf (found pattern s)
      = .ok (found pattern (reads.foldl keep s)) := by
  intro reads
  induction reads with
  | nil => exact fun _ _ _ _ _ _ => rfl
  | cons c reads ih =>
    rintro s buf ⟨hne, hlen, hfits⟩ hnul hnuls hheld
    rw [flatten_cons, mem_append, not_or] at hnul
    have hpos : c.length ≠ 0 := fun h0 => hne (List.length_eq_zero_iff.mp h0)
    obtain ⟨data, hdata⟩ : ∃ data, data = partialLine s ++ c := ⟨_, rfl⟩
    have hlend : data.length = (partialLine s).length + c.length := by
      rw [hdata, length_append]
    have hnuld : 0 ∉ data := by
      rw [hdata, mem_append, not_or]
      refine ⟨fun hmem => hnuls ?_, hnul.1⟩
      rw [← whole_append_partialLine s]
      exact List.mem_append_right _ hmem
    have hbuf : Held (update (blit buf (partialLine s).length c.length (cstr c))
        data.length 0) 0 data := by
      rw [hdata, held_append]
      constructor
      · refine hheld.congr (fun k _ hk => ?_)
        rw [update_of_ne (by rw [← hdata]; omega), blit_out (by omega)]
      · intro k hk
        rw [update_of_ne (by rw [← hdata]; omega), blit_in (by omega), Nat.zero_add,
          Nat.add_sub_cancel_left]
    obtain ⟨buf', hrun, hheld'⟩ := grepLines_eq pattern data BUFSIZE 0 _ (found pattern s)
      (by omega) (by omega) hnuld hbuf (by rw [Nat.zero_add]; exact update_self ..)
    rw [Nat.zero_add] at hrun hheld'
    rw [grepFrom, if_neg hpos]
    dsimp only
    rw [← hlend, hrun, ok_bind]
    dsimp only
    rw [foldl_cons, keep]
    by_cases hmem : NEWLINE ∈ c
    · have hmemd : NEWLINE ∈ data := hdata ▸ List.mem_append_right _ hmem
      have hp : (whole data).length ≠ 0 := fun h0 =>
        whole_ne_nil hmemd (List.length_eq_zero_iff.mp h0)
      have hpart : partialLine data = partialLine (s ++ c) := by
        rw [hdata, (lines_append s c).2]
      have hm : data.length - (whole data).length = (partialLine (s ++ c)).length := by
        have h := congrArg List.length (whole_append_partialLine data)
        rw [length_append, hpart] at h
        omega
      rw [if_neg hp, if_pos (by omega), if_pos hmem, hm, hdata, ← found_append]
      rw [if_pos hmem, ← partialLine_append_of_mem (s := s) hmem] at hfits
      refine ih _ _ hfits hnul.2 ?_ (fun k hk => ?_)
      · rw [mem_append, not_or]
        exact ⟨hnuls, hnul.1⟩
      · rw [Nat.zero_add, blit_in (by omega), Nat.sub_zero, ← hpart, ← hdata]
        exact hheld' k (by rw [hpart]; exact hk)
    have hmemd : NEWLINE ∉ data := by
      rw [hdata, mem_append, not_or]
      exact ⟨partialLine_notMem s, hmem⟩
    -- `p == buf`: the unfinished line and the read are forgotten
    rw [whole_of_notMem hmemd, if_pos List.length_nil, if_neg (Nat.lt_irrefl 0), if_neg hmem]
    have hout : found pattern s ++ found pattern data = found pattern (whole s) := by
      rw [found, found, found, (lines_of_notMem hmemd).1, (lines_whole s).1]
      exact append_nil _
    rw [hout]
    rw [if_neg hmem] at hfits
    have hempty := (lines_whole s).2
    have h := ih (whole s) buf' (by rw [hempty]; exact hfits) hnul.2 (fun h0 => hnuls (by
        rw [← whole_append_partialLine s]
        exact List.mem_append_left _ h0))
      (by rw [hempty]; exact fun k hk => absurd hk (Nat.not_lt_zero k))
    rwa [hempty] at h

lemma grep_eq (pattern : List UInt8) (hnul : 0 ∉ reads.flatten) (hfits : Fits 0 reads) :
    grep pattern reads = .ok (found pattern (kept reads)) :=
  grepFrom_eq pattern reads [] _ hfits hnul List.not_mem_nil
    (fun k hk => absurd hk (Nat.not_lt_zero k))

/-! ## What is lost -/

/-- No read without a newline comes before a newline. -/
def NoLoss (reads : List (List UInt8)) : Prop :=
  ∀ before c after, reads = before ++ c :: after → NEWLINE ∉ c → NEWLINE ∉ after.flatten

lemma lines_append_of_notMem (h : NEWLINE ∉ t) : lines (s ++ t) = lines s := by
  have hno : NEWLINE ∉ partialLine s ++ t := by
    rw [mem_append, not_or]
    exact ⟨partialLine_notMem s, h⟩
  rw [(lines_append s t).1, (lines_of_notMem hno).1, append_nil]

lemma lines_foldl_of_notMem (h : NEWLINE ∉ reads.flatten) :
    lines (reads.foldl keep s) = lines s := by
  induction reads generalizing s with
  | nil => rfl
  | cons c reads ih =>
    rw [flatten_cons, mem_append, not_or] at h
    rw [foldl_cons, ih h.2, keep, if_neg h.1, (lines_whole s).1]

lemma NoLoss.lines_eq (h : NoLoss reads) :
    lines (reads.foldl keep s) = lines (s ++ reads.flatten) := by
  induction reads generalizing s with
  | nil => rw [List.flatten_nil, append_nil]; rfl
  | cons c reads ih =>
    rw [foldl_cons, keep, flatten_cons, ← append_assoc]
    by_cases hmem : NEWLINE ∈ c
    · rw [if_pos hmem]
      refine ih (fun before d after heq => h (c :: before) d after ?_)
      rw [heq]
      rfl
    · have hafter := h [] c reads rfl hmem
      rw [if_neg hmem, lines_foldl_of_notMem hafter, (lines_whole s).1,
        lines_append_of_notMem hafter, lines_append_of_notMem hmem]

lemma length_whole_le (s : List UInt8) : (whole s).length ≤ s.length := by
  rw [length_whole]
  exact Nat.sub_le ..

lemma length_whole_append_of_mem (h : NEWLINE ∈ t) :
    (whole (s ++ t)).length = s.length + (whole t).length := by
  have hle := congrArg List.length (whole_append_partialLine t)
  rw [length_append] at hle
  rw [length_whole (s ++ t), partialLine_append_of_mem h, length_append]
  omega

lemma whole_append_of_notMem (h : NEWLINE ∉ t) : whole (s ++ t) = whole s := by
  rw [whole, lines_append_of_notMem h]
  rfl

/-- What is kept is not longer than what was read. -/
lemma length_foldl_keep_le (reads : List (List UInt8)) : (whole s).length ≤
    (whole t).length → s.length ≤ t.length →
    (whole (reads.foldl keep s)).length ≤ (whole (t ++ reads.flatten)).length ∧
      (reads.foldl keep s).length ≤ (t ++ reads.flatten).length := by
  induction reads generalizing s t with
  | nil =>
    intro hw hs
    rw [List.flatten_nil, append_nil]
    exact ⟨hw, hs⟩
  | cons c reads ih =>
    intro hw hs
    rw [foldl_cons, keep, flatten_cons, ← append_assoc]
    split
    · next hmem =>
      refine ih ?_ (by rw [length_append, length_append]; omega)
      rw [length_whole_append_of_mem hmem, length_whole_append_of_mem hmem]
      omega
    · next hmem =>
      have hle := length_whole_le s
      refine ih ?_ (by rw [length_append]; omega)
      rwa [whole_append_of_notMem hmem, whole, (lines_whole s).1]

lemma length_foldl_keep_lt (reads : List (List UInt8)) : (whole s).length ≤
    (whole t).length → s.length < t.length →
    ((whole s).length < (whole t).length ∨ NEWLINE ∈ reads.flatten) →
    (whole (reads.foldl keep s)).length < (whole (t ++ reads.flatten)).length := by
  induction reads generalizing s t with
  | nil =>
    intro _ _ hlost
    rw [List.flatten_nil, append_nil]
    exact hlost.resolve_right List.not_mem_nil
  | cons c reads ih =>
    intro hw hs hlost
    rw [foldl_cons, keep, flatten_cons, ← append_assoc]
    split
    · next hmem =>
      have hlt : (whole (s ++ c)).length < (whole (t ++ c)).length := by
        rw [length_whole_append_of_mem hmem, length_whole_append_of_mem hmem]
        omega
      exact ih hlt.le (by rw [length_append, length_append]; omega) (.inl hlt)
    · next hmem =>
      have hle := length_whole_le s
      have hself : whole (whole s) = whole s := by
        rw [whole, (lines_whole s).1]
        rfl
      rw [flatten_cons, mem_append] at hlost
      refine ih ?_ (by rw [length_append]; omega) ?_
      · rwa [whole_append_of_notMem hmem, hself]
      · rw [whole_append_of_notMem hmem, hself]
        exact hlost.imp_right (fun h => h.resolve_left hmem)

lemma Fits.ne_nil {m : Nat} (h : Fits m reads) (hc : c ∈ reads) : c ≠ [] := by
  induction reads generalizing m with
  | nil => exact absurd hc List.not_mem_nil
  | cons d reads ih =>
    rcases mem_cons.mp hc with rfl | hc
    · exact h.1
    · exact ih h.2.2 hc

lemma regMatch_nil (text : List UInt8) : regMatch [] text = true := by
  rw [regMatch, if_neg (by decide), matchFrom_iff]
  exact ⟨[], text, rfl, by rw [matchhere]⟩

lemma lines_eq_of_found (h : found [] s = found [] t) : lines s = lines t := by
  have hall : ∀ u, found [] u = (lines u).map (· ++ [NEWLINE]) := fun u => by
    rw [found, List.filter_eq_self.mpr (fun l _ => regMatch_nil l)]
  rw [hall, hall] at h
  exact List.map_injective_iff.mpr (fun a b hab => List.append_cancel_right hab) h

/-- **When `grep` is right.**  For one pattern: when the lines that match are those of what is kept
    of the stream.  For all patterns: when no read without a newline comes before a newline. -/
theorem grep_right_iff (reads : List (List UInt8)) (hnul : 0 ∉ reads.flatten)
    (hfits : Fits 0 reads) : (∀ pattern, grep pattern reads = .ok (found pattern reads.flatten) ↔
      (lines (kept reads)).filter (fun l => regMatch pattern l)
        = (lines reads.flatten).filter (fun l => regMatch pattern l)) ∧
    ((∀ pattern, grep pattern reads = .ok (found pattern reads.flatten)) ↔ NoLoss reads) := by
  have hiff : ∀ pattern, grep pattern reads = .ok (found pattern reads.flatten) ↔
      found pattern (kept reads) = found pattern reads.flatten := fun pattern => by
    rw [grep_eq pattern hnul hfits, Except.ok.injEq]
  refine ⟨fun pattern => (hiff pattern).trans ⟨fun h => ?_, fun h => ?_⟩, ?_, fun h pattern => ?_⟩
  · exact List.map_injective_iff.mpr (fun a b hab => List.append_cancel_right hab) h
  · rw [found, h]
    rfl
  · rintro hall before c after rfl hc hafter
    have hlines := lines_eq_of_found ((hiff []).mp (hall []))
    have hne := hfits.ne_nil (List.mem_append_right before List.mem_cons_self)
    have hpos : 0 < c.length := List.length_pos_iff.mpr hne
    obtain ⟨hw, hs⟩ := length_foldl_keep_le before (s := []) (t := []) le_rfl le_rfl
    rw [List.nil_append] at hw hs
    have hle := length_whole_le (before.foldl keep [])
    have hlt := length_foldl_keep_lt after (s := keep (before.foldl keep []) c)
      (t := before.flatten ++ c)
      (by rw [keep, if_neg hc, whole_append_of_notMem hc, whole, (lines_whole _).1]; exact hw)
      (by rw [keep, if_neg hc, length_append]; omega) (.inr hafter)
    rw [kept, List.foldl_append, foldl_cons, List.flatten_append, flatten_cons] at hlines
    rw [append_assoc, whole, whole, hlines] at hlt
    exact Nat.lt_irrefl _ hlt
  · refine (hiff pattern).mpr ?_
    rw [found, kept, h.lines_eq, List.nil_append]
    rfl

end Reads

/-- `"a\n"` in one read. -/
theorem grep_right_iff_oneRead : grep [97] [[97, NEWLINE]] = .ok (found [97] [97, NEWLINE]) := by
  refine (grep_right_iff [[97, NEWLINE]] (by decide)
    ⟨by decide, by decide, trivial⟩).2.mpr (fun before c after heq hc => ?_) [97]
  have hmem : c ∈ [[97, NEWLINE]] := heq ▸ List.mem_append_right before List.mem_cons_self
  rw [List.mem_singleton.mp hmem] at hc
  exact absurd hc (by decide)

/-- `"ab\n"` in two reads. -/
theorem grep_loses_bytes : 0 ∉ [[97], [98, NEWLINE]].flatten ∧ Fits 0 [[97], [98, NEWLINE]] ∧
    grep [] [[97], [98, NEWLINE]] = .ok [[98, NEWLINE]] ∧
    found [] [[97], [98, NEWLINE]].flatten = [[97, 98, NEWLINE]] := by
  have hnul : 0 ∉ [[97], [98, NEWLINE]].flatten := by decide
  have hfits : Fits 0 [[97], [98, NEWLINE]] := ⟨by decide, by decide, by decide, by decide, trivial⟩
  refine ⟨hnul, hfits, ?_, ?_⟩
  · rw [grep_eq [] hnul hfits, found, List.filter_eq_self.mpr (fun l _ => regMatch_nil l)]
    decide
  · rw [found, List.filter_eq_self.mpr (fun l _ => regMatch_nil l)]
    decide

end Grep
