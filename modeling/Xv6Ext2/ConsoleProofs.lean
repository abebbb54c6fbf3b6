import Xv6Ext2.BufCacheProofs
import Xv6Ext2.RingBufProofs
import Xv6Ext2.RunsProofs

/-! # The console (console.c)

    The input ring of the console with its three indices, the interrupt handler `consoleintr` and
    any number of processes in `consoleread`.  What runs between `acquire(&cons.lock)` or the return
    of a `sleep` and the next `sleep` or `release(&cons.lock)` is one step; a process that sleeps
    may be woken at any time and looks at the condition of its loop again.

    The state keeps the history: the bytes that were committed, which is when `input.w`
    moves up to `input.e`, the bytes that reads have taken with the process that took them,
    and the reads that returned.

    - `typeChar_spec`, `readLoop_spec` : what one character and one turn of a read do to the
      ring;
    - `console_reads_committed` : the reads take the committed bytes in order, over whole
      runs and across the wrap of the indices. -/

namespace Console

open BufCache Param Outcome Runs

open Except (ok.inj)

open Function (update update_of_ne update_self)

open List (append_assoc append_nil length_append map_append mem_append not_mem_nil prefix_rfl)

def INPUT_BUF : Nat := 128

/-- `C(x)` of a capital letter. -/
def ctrl (x : Char) : UInt8 := UInt8.ofNat (x.toNat - '@'.toNat)

def RETURN : UInt8 := 13
def DELETE : UInt8 := 127

structure Input where
  buf : Nat → UInt8
  r   : Nat
  w   : Nat
  e   : Nat

def sub32 (x y : Nat) : Nat := (x + (UINT - y)) % UINT

/-! ## consoleintr -/

/-- The loop of `C('U')`, with at most `fuel` turns: `e` goes down to `w`. -/
def killLine : Nat → Input → Input
  | 0, i => i
  | fuel + 1, i =>
    if i.e ≠ i.w ∧ i.buf (sub32 i.e 1 % INPUT_BUF) ≠ NEWLINE then
      killLine fuel { i with e := sub32 i.e 1 }
    else i

/-- The bytes that are not committed. -/
def Input.pending (i : Input) : List UInt8 :=
  (List.range (sub32 i.e i.w)).map (fun k => i.buf ((i.w + k) % UINT % INPUT_BUF))

/-- One turn of the loop of `consoleintr`, and the bytes that it commits. -/
def typeChar (i : Input) (c : UInt8) : Input × List UInt8 :=
  if c = ctrl 'P' then (i, [])
  else if c = ctrl 'U' then (killLine (sub32 i.e i.w) i, [])
  else if c = ctrl 'H' ∨ c = DELETE then
    (if i.e ≠ i.w then { i with e := sub32 i.e 1 } else i, [])
  else if c ≠ 0 ∧ sub32 i.e i.r < INPUT_BUF then
    let c := if c = RETURN then NEWLINE else c
    let i := { i with buf := update i.buf (i.e % INPUT_BUF) c, e := (i.e + 1) % UINT }
    if c = NEWLINE ∨ c = ctrl 'D' ∨ i.e = (i.r + INPUT_BUF) % UINT then
      ({ i with w := i.e }, i.pending)
    else (i, [])
  else (i, [])

/-- The loop of `consoleintr` over the characters that `getc` returns. -/
def typeChars : Input → List UInt8 → Input × List UInt8
  | i, [] => (i, [])
  | i, c :: cs =>
    let (i, new) := typeChar i c
    let (i, rest) := typeChars i cs
    (i, new ++ rest)

/-! ## consoleread -/

/-- The loop of `consoleread` with `n` bytes to go, up to its end or a `sleep`: the bytes it
    takes, how many are still to go, and whether it sleeps. -/
def readLoop (target : Nat) : Nat → Input → Input × List UInt8 × Nat × Bool
  | 0, i => (i, [], 0, false)
  | n + 1, i =>
    if i.r = i.w then (i, [], n + 1, true)
    else
      let c := i.buf (i.r % INPUT_BUF)
      let i := { i with r := (i.r + 1) % UINT }
      if c = ctrl 'D' then
        -- kept for the next read when this one has bytes already
        (if n + 1 < target then { i with r := sub32 i.r 1 } else i, [], n + 1, false)
      else if c = NEWLINE then (i, [c], n, false)
      else
        let (i, bytes, left) := readLoop target n i
        (i, c :: bytes, left)

/-- A process in `consoleread`: `target`, the bytes to go, and those it has. -/
structure Reading where
  target : Nat
  n      : Nat
  got    : List UInt8

/-- A call of `consoleread` that returned: its value and the bytes stored at `dst`. -/
structure Returned where
  proc  : Nat
  ret   : Int
  bytes : List UInt8
  deriving DecidableEq

structure State where
  input     : Input
  pc        : Nat → Option Reading
  committed : List UInt8
  taken     : List (Nat × UInt8)
  returned  : List Returned

inductive Act where
  | consoleintr (cs : List UInt8)
  | consoleread (proc : Nat) (n : Int)
  | wake (proc : Nat)

/-- `consoleread` of process `q` from the test of its loop on. -/
def consoleread (q : Nat) (rd : Reading) (s : State) : State :=
  let (i, bytes, n, sleeps) := readLoop rd.target rd.n s.input
  let got := rd.got ++ bytes
  let s := { s with input := i, taken := s.taken ++ bytes.map (fun c => (q, c)) }
  if sleeps then { s with pc := update s.pc q (some ⟨rd.target, n, got⟩) }
  else
    { s with
      pc       := update s.pc q none
      returned := s.returned ++ [⟨q, (rd.target : Int) - n, got⟩] }

/-- One step.  An action for which its process is not ready does nothing. -/
def step (s : State) : Act → Except Err State
  | .consoleintr cs =>
    let (i, new) := typeChars s.input cs
    .ok { s with input := i, committed := s.committed ++ new }
  | .consoleread q n =>
    match s.pc q with
    | none => .ok (consoleread q ⟨n.toNat, n.toNat, []⟩ s)
    | some _ => .ok s
  | .wake q =>
    match s.pc q with
    | none => .ok s
    | some rd => .ok (consoleread q rd s)

def start (buf : Nat → UInt8) : State where
  input     := ⟨buf, 0, 0, 0⟩
  pc        := fun _ => none
  committed := []
  taken     := []
  returned  := []

/-! ## The ring -/

/-- The ring that `r` and `e` are the counters of. -/
def Input.ring (i : Input) : RingBuf UInt8 := ⟨i.buf, i.r, i.e⟩

lemma input_dvd : INPUT_BUF ∣ UINT := by decide

lemma input_lt : INPUT_BUF < UINT := by decide

/-- The ring once `com` was committed and `popped` of it was read, with `pend` not committed yet. -/
structure Holds (i : Input) (com pend popped : List UInt8) : Prop where
  ring   : RingBuf.Rep INPUT_BUF UINT i.ring (com ++ pend) popped
  w      : i.w = com.length % UINT
  before : popped <+: com

section Ring

variable {i : Input} {com pend popped : List UInt8}

lemma Holds.e (h : Holds i com pend popped) : i.e = (com.length + pend.length) % UINT := by
  rw [← length_append]
  exact h.ring.nwrite

lemma Holds.r (h : Holds i com pend popped) : i.r = popped.length % UINT := h.ring.nread

lemma Holds.room (h : Holds i com pend popped) :
    com.length + pend.length ≤ popped.length + INPUT_BUF := by
  rw [← length_append]
  exact h.ring.room

/-- `e - w` is the number of bytes not committed. -/
lemma Holds.sub_e_w (h : Holds i com pend popped) : sub32 i.e i.w = pend.length := by
  have hroom := h.room
  have hle := h.before.length_le
  rw [sub32, h.e, h.w]
  unfold UINT INPUT_BUF at *
  omega

lemma Holds.sub_e_r (h : Holds i com pend popped) :
    sub32 i.e i.r = com.length + pend.length - popped.length := by
  have := h.ring.fill input_lt
  rwa [length_append] at this

lemma Holds.e_ne_w (h : Holds i com pend popped) : i.e ≠ i.w ↔ pend ≠ [] := by
  have hroom := h.room
  have hle := h.before.length_le
  rw [h.e, h.w, ← List.length_pos_iff]
  unfold UINT INPUT_BUF at *
  omega

lemma Holds.r_eq_w (h : Holds i com pend popped) : i.r = i.w ↔ popped = com := by
  have hroom := h.room
  have hle := h.before.length_le
  rw [h.r, h.w]
  constructor
  · intro he
    refine h.before.eq_of_length ?_
    unfold UINT INPUT_BUF at *
    omega
  · intro he
    rw [he]

lemma Holds.pending_eq (h : Holds i com pend popped) : i.pending = pend := by
  have hle := h.before.length_le
  rw [Input.pending, h.sub_e_w]
  refine List.ext_getElem? (fun k => ?_)
  by_cases hk : k < pend.length
  · have hheld := h.ring.held (com.length + k) (by omega) (by rw [length_append]; omega)
    rw [List.getElem?_append_right (Nat.le_add_right _ _), Nat.add_sub_cancel_left] at hheld
    rw [List.getElem?_map, List.getElem?_range hk, hheld, Option.map_some, h.w, Nat.mod_add_mod,
      Nat.mod_mod_of_dvd _ input_dvd]
    rfl
  · rw [List.getElem?_eq_none (by rw [List.length_map, List.length_range]; omega),
      List.getElem?_eq_none (by omega)]

lemma Holds.unpush {a : UInt8} (h : Holds i com (pend ++ [a]) popped) :
    Holds { i with e := sub32 i.e 1 } com pend popped := by
  refine ⟨?_, h.w, h.before⟩
  have hring := h.ring
  rw [← append_assoc] at hring
  exact hring.unpush (by decide) (h.before.trans (List.prefix_append _ _))

lemma killLine_holds (fuel : Nat) : ∀ (i : Input) (pend : List UInt8), Holds i com pend popped →
      ∃ pend', Holds (killLine fuel i) com pend' popped := by
  induction fuel with
  | zero => exact fun i pend h => ⟨pend, h⟩
  | succ fuel ih =>
    intro i pend h
    rw [killLine]
    split
    · next hgo =>
      rcases List.eq_nil_or_concat' pend with rfl | ⟨pend, a, rfl⟩
      · exact absurd rfl (h.e_ne_w.mp hgo.1)
      · exact ih _ pend h.unpush
    · exact ⟨pend, h⟩

lemma Holds.push (h : Holds i com pend popped) (hroom : sub32 i.e i.r < INPUT_BUF) (c : UInt8) :
    Holds { i with buf := update i.buf (i.e % INPUT_BUF) c, e := (i.e + 1) % UINT }
      com (pend ++ [c]) popped := by
  refine ⟨?_, h.w, h.before⟩
  have hlt : (com ++ pend).length < popped.length + INPUT_BUF := by
    have := h.sub_e_r
    have := h.before.length_le
    rw [length_append]
    omega
  rw [← append_assoc]
  exact h.ring.push input_dvd hlt c

lemma Holds.commit (h : Holds i com pend popped) :
    Holds { i with w := i.e } (com ++ i.pending) [] popped := by
  rw [h.pending_eq]
  refine ⟨?_, ?_, h.before.trans (List.prefix_append _ _)⟩
  · rw [append_nil]
    exact h.ring
  · rw [length_append]
    exact h.e

/-- **One character** commits some bytes behind those committed before. -/
lemma typeChar_spec (h : Holds i com pend popped) (c : UInt8) :
    ∃ pend', Holds (typeChar i c).1 (com ++ (typeChar i c).2) pend' popped := by
  rw [typeChar]
  by_cases hP : c = ctrl 'P'
  · rw [if_pos hP, append_nil]
    exact ⟨pend, h⟩
  rw [if_neg hP]
  by_cases hU : c = ctrl 'U'
  · rw [if_pos hU, append_nil]
    exact killLine_holds _ i pend h
  rw [if_neg hU]
  by_cases hH : c = ctrl 'H' ∨ c = DELETE
  · rw [if_pos hH, append_nil]
    by_cases hne : i.e ≠ i.w
    · rcases List.eq_nil_or_concat' pend with rfl | ⟨pend, a, rfl⟩
      · exact absurd rfl (h.e_ne_w.mp hne)
      · rw [if_pos hne]
        exact ⟨pend, h.unpush⟩
    · rw [if_neg hne]
      exact ⟨pend, h⟩
  rw [if_neg hH]
  by_cases hroom : c ≠ 0 ∧ sub32 i.e i.r < INPUT_BUF
  · rw [if_pos hroom]
    have hpush := h.push hroom.2 (if c = RETURN then NEWLINE else c)
    dsimp only
    generalize (if c = RETURN then NEWLINE else c) = c' at hpush ⊢
    split
    · exact ⟨[], hpush.commit⟩
    · rw [append_nil]
      exact ⟨_, hpush⟩
  · rw [if_neg hroom, append_nil]
    exact ⟨pend, h⟩

lemma typeChars_spec (cs : List UInt8) :
    ∀ (i : Input) (com pend : List UInt8), Holds i com pend popped →
      ∃ pend', Holds (typeChars i cs).1 (com ++ (typeChars i cs).2) pend' popped := by
  induction cs with
  | nil =>
    intro i com pend h
    exact ⟨pend, by rw [typeChars, append_nil]; exact h⟩
  | cons c cs ih =>
    intro i com pend h
    obtain ⟨pend1, h1⟩ := typeChar_spec h c
    obtain ⟨pend2, h2⟩ := ih _ _ pend1 h1
    rw [append_assoc] at h2
    exact ⟨pend2, h2⟩

lemma Holds.pop (h : Holds i com pend popped) (hne : i.r ≠ i.w) :
    Holds { i with r := (i.r + 1) % UINT } com pend (popped ++ [i.buf (i.r % INPUT_BUF)]) := by
  have hlt : popped.length < com.length := by
    refine Nat.lt_of_le_of_ne h.before.length_le (fun he => hne (h.r_eq_w.mpr ?_))
    exact h.before.eq_of_length he
  have hfront := h.ring.front input_dvd (by rw [length_append]; omega)
  refine ⟨h.ring.pop input_dvd (by rw [length_append]; omega), h.w, ?_⟩
  obtain ⟨rest, hrest⟩ := h.before
  rw [← hrest, append_assoc, List.getElem?_append_right le_rfl, Nat.sub_self] at hfront
  cases rest with
  | nil =>
    rw [append_nil] at hrest
    rw [hrest] at hlt
    exact absurd hlt (Nat.lt_irrefl _)
  | cons a rest =>
    obtain rfl := Option.some.inj hfront
    exact ⟨rest, by rw [← hrest, append_assoc]; rfl⟩

lemma sub32_succ {r : Nat} (hr : r < UINT) : sub32 ((r + 1) % UINT) 1 = r := by
  unfold sub32 UINT at *
  omega

end Ring

lemma notMem_dropLast_cons {a b : UInt8} {l : List UInt8} (hab : a ≠ b) (hl : a ∉ l.dropLast) :
    a ∉ (b :: l).dropLast := by
  cases l with
  | nil => exact not_mem_nil
  | cons c l => exact fun hmem => (List.mem_cons.mp hmem).elim hab hl

/-- What a turn of a read leaves: it has taken the bytes that it gives, and no `^D`; or it has no
    bytes, takes a `^D` and returns.  There is no newline except at the end of a read that returns. -/
structure Took (target n : Nat) (i : Input) (com pend popped : List UInt8)
    (res : Input × List UInt8 × Nat × Bool) : Prop where
  holds   : ∃ more, Holds res.1 com pend (popped ++ more) ∧
    ((more = res.2.1 ∧ ctrl 'D' ∉ more) ∨
      (more = [ctrl 'D'] ∧ res.2.1 = [] ∧ n = target ∧ res.2.2.2 = false))
  count   : res.2.1.length + res.2.2.1 = n
  newline : NEWLINE ∉ res.2.1.dropLast
  sleeps  : res.2.2.2 = true → NEWLINE ∉ res.2.1

/-- **One turn of a read.** -/
lemma readLoop_spec (target : Nat) {com pend : List UInt8} (n : Nat) :
    ∀ (i : Input) (popped : List UInt8), n ≤ target → Holds i com pend popped →
      Took target n i com pend popped (readLoop target n i) := by
  induction n with
  | zero =>
    intro i popped _ h
    exact ⟨⟨[], by rwa [append_nil], .inl ⟨rfl, not_mem_nil⟩⟩, rfl, not_mem_nil, fun _ => not_mem_nil⟩
  | succ n ih =>
    intro i popped hn h
    have hnone : 0 + (n + 1) = n + 1 := Nat.zero_add _
    rw [readLoop]
    by_cases hempty : i.r = i.w
    · rw [if_pos hempty]
      exact ⟨⟨[], by rwa [append_nil], .inl ⟨rfl, not_mem_nil⟩⟩, hnone, not_mem_nil,
        fun _ => not_mem_nil⟩
    rw [if_neg hempty]
    have hpop := h.pop hempty
    by_cases hD : i.buf (i.r % INPUT_BUF) = ctrl 'D'
    · dsimp only
      rw [if_pos hD]
      refine ⟨?_, hnone, not_mem_nil, fun _ => not_mem_nil⟩
      by_cases hback : n + 1 < target
      · have hlt : i.r < UINT := by
          rw [h.r]
          exact Nat.mod_lt _ (by decide)
        refine ⟨[], ?_, .inl ⟨rfl, not_mem_nil⟩⟩
        rwa [if_pos hback, append_nil, sub32_succ hlt]
      · rw [if_neg hback]
        refine ⟨[ctrl 'D'], ?_, .inr ⟨rfl, rfl, by omega, rfl⟩⟩
        rwa [← hD]
    dsimp only
    rw [if_neg hD]
    split
    · refine ⟨⟨[i.buf (i.r % INPUT_BUF)], hpop, .inl ⟨rfl, ?_⟩⟩, Nat.add_comm 1 n, not_mem_nil,
        (fun e => by cases e)⟩
      exact fun hmem => hD (List.mem_singleton.mp hmem).symm
    · next hN =>
      obtain ⟨⟨more, hholds, hmore⟩, hcount, hnl, hsl⟩ := ih _ _ (by omega) hpop
      -- with a byte in hand a `^D` is left for the next read
      obtain ⟨rfl, heof⟩ := hmore.resolve_right (fun hr => by omega)
      refine ⟨⟨i.buf (i.r % INPUT_BUF) :: _, ?_, .inl ⟨rfl, ?_⟩⟩, ?_, ?_, fun hs => ?_⟩
      · rwa [append_assoc] at hholds
      · exact fun hmem => (List.mem_cons.mp hmem).elim (fun e => hD e.symm) heof
      · dsimp only
        rw [List.length_cons, Nat.add_right_comm, hcount]
      · exact notMem_dropLast_cons (Ne.symm hN) hnl
      · exact fun hmem => (List.mem_cons.mp hmem).elim (fun e => hN e.symm) (hsl hs)

/-- The bytes of a turn, in terms of what it took. -/
lemma Took.bytes {target n : Nat} {i : Input} {com pend popped : List UInt8}
    {res : Input × List UInt8 × Nat × Bool} (h : Took target n i com pend popped res) :
    ∃ more, Holds res.1 com pend (popped ++ more) ∧ res.2.1 = more.filter (fun c => c != ctrl 'D') := by
  obtain ⟨more, hholds, ⟨rfl, heof⟩ | ⟨rfl, hnil, -, -⟩⟩ := h.holds
  · refine ⟨_, hholds, (List.filter_eq_self.mpr (fun c hc => ?_)).symm⟩
    simpa using fun e : c = ctrl 'D' => heof (e ▸ hc)
  · exact ⟨_, hholds, hnil⟩

/-! ## Runs -/

/-- What a process has of the read that it is in. -/
def State.gotOf (s : State) (q : Nat) : List UInt8 :=
  match s.pc q with
  | none => []
  | some rd => rd.got

/-- The bytes that process `q` has from the reads that returned and the one that it is in. -/
def State.bytesOf (s : State) (q : Nat) : List UInt8 :=
  ((s.returned.filter (fun x => x.proc = q)).map Returned.bytes).flatten ++ s.gotOf q

/-- The state of the console, as its readers see it. -/
structure Right (s : State) : Prop where
  /-- The indices are counters modulo 2^32, at most the ring apart; the bytes that are not
      read are in the ring; and what was taken is what was committed, without the `^D`. -/
  ring  : ∃ R E, R ≤ s.committed.length ∧ s.committed.length ≤ E ∧ E ≤ R + INPUT_BUF ∧
    s.input.r = R % 2 ^ 32 ∧ s.input.w = s.committed.length % 2 ^ 32 ∧ s.input.e = E % 2 ^ 32 ∧
    (∀ k, R ≤ k → k < s.committed.length →
      s.committed[k]? = some (s.input.buf (k % INPUT_BUF))) ∧
    s.taken.map Prod.snd = (s.committed.take R).filter (fun c => c != ctrl 'D')
  /-- The reads of a process return what it took. -/
  reads : ∀ q, s.bytesOf q = (s.taken.filter (fun x => x.1 = q)).map Prod.snd
  /-- A read returns its number of bytes, with a newline only at the end and without `^D`. -/
  lines : ∀ x ∈ s.returned, x.ret = x.bytes.length ∧ NEWLINE ∉ x.bytes.dropLast ∧
    ctrl 'D' ∉ x.bytes
  /-- A read that waits has no newline. -/
  waits : ∀ q rd, s.pc q = some rd → rd.got.length + rd.n = rd.target ∧ NEWLINE ∉ rd.got ∧
    ctrl 'D' ∉ rd.got

/-- The read of a process is on its way. -/
structure Reading.Ok (rd : Reading) : Prop where
  count   : rd.got.length + rd.n = rd.target
  newline : NEWLINE ∉ rd.got
  eof     : ctrl 'D' ∉ rd.got

lemma Reading.Ok.le {rd : Reading} (h : rd.Ok) : rd.n ≤ rd.target := by
  have := h.count
  omega

/-- The invariant, with the bytes that were read, `^D` included. -/
structure Inv (s : State) : Prop where
  holds : ∃ pend popped, Holds s.input s.committed pend popped ∧
    s.taken.map Prod.snd = popped.filter (fun c => c != ctrl 'D')
  reads : ∀ q, s.bytesOf q = (s.taken.filter (fun x => x.1 = q)).map Prod.snd
  lines : ∀ x ∈ s.returned, x.ret = x.bytes.length ∧ NEWLINE ∉ x.bytes.dropLast ∧
    ctrl 'D' ∉ x.bytes
  waits : ∀ q rd, s.pc q = some rd → rd.Ok

lemma eof_notMem_filter (l : List UInt8) : ctrl 'D' ∉ l.filter (fun c => c != ctrl 'D') := by
  intro hmem
  have := (List.mem_filter.mp hmem).2
  simp at this

/-- No newline in the first part, and none in the second before its end. -/
lemma notMem_dropLast_append {a : UInt8} {l m : List UInt8} (hl : a ∉ l) (hm : a ∉ m.dropLast) :
    a ∉ (l ++ m).dropLast := by
  cases m with
  | nil =>
    rw [append_nil]
    exact fun hmem => hl (List.mem_of_mem_dropLast hmem)
  | cons b m =>
    rw [List.dropLast_append_cons]
    exact fun hmem => (mem_append.mp hmem).elim hl hm

lemma filter_map_self (q : Nat) (l : List UInt8) :
    ((l.map (fun c => (q, c))).filter (fun x => decide (x.1 = q))).map Prod.snd = l := by
  induction l with
  | nil => rfl
  | cons c l ih =>
    rw [List.map_cons, List.filter_cons_of_pos (by simp), List.map_cons, ih]

lemma filter_map_other {q q' : Nat} (hne : q ≠ q') (l : List UInt8) :
    (l.map (fun c => (q, c))).filter (fun x => decide (x.1 = q')) = [] := by
  rw [List.filter_eq_nil_iff]
  intro x hx
  obtain ⟨c, -, rfl⟩ := List.mem_map.mp hx
  simpa using hne

variable {s : State} {rd : Reading}

lemma consoleread_inv (h : Inv s) {q : Nat} (hrd : rd.Ok)
    (hgot : s.gotOf q = rd.got) : Inv (consoleread q rd s) := by
  obtain ⟨pend, popped, hholds, htaken⟩ := h.holds
  have hspec := readLoop_spec rd.target rd.n s.input popped hrd.le hholds
  rw [consoleread]
  generalize readLoop rd.target rd.n s.input = res at hspec
  obtain ⟨i, bytes, n, sleeps⟩ := res
  obtain ⟨more, hmore, hbytes⟩ := hspec.bytes
  obtain ⟨-, hcount, hnl, hsleep⟩ := hspec
  dsimp only at hmore hbytes hcount hnl hsleep ⊢
  have heof : ctrl 'D' ∉ rd.got ++ bytes := by
    rw [mem_append, not_or, hbytes]
    exact ⟨hrd.eof, eof_notMem_filter more⟩
  have htaken' : (s.taken ++ bytes.map (fun c => (q, c))).map Prod.snd
      = (popped ++ more).filter (fun c => c != ctrl 'D') := by
    rw [map_append, List.filter_append, htaken, ← hbytes, List.map_map]
    exact congrArg _ (List.map_id bytes)
  -- the bytes of a process with what it has of its read, `got`
  have hreads : ∀ q', (if q' = q then s.bytesOf q' ++ bytes else s.bytesOf q')
      = ((s.taken ++ bytes.map (fun c => (q, c))).filter (fun x => x.1 = q')).map Prod.snd := by
    intro q'
    rw [List.filter_append, map_append, ← h.reads q']
    by_cases hq : q' = q
    · subst hq
      rw [if_pos rfl, filter_map_self]
    · rw [if_neg hq, filter_map_other (Ne.symm hq), List.map_nil, append_nil]
  cases sleeps with
  | true =>
    rw [if_pos rfl]
    refine ⟨⟨pend, popped ++ more, hmore, htaken'⟩, fun q' => ?_, h.lines, fun q' rd' hq' => ?_⟩
    · refine Eq.trans ?_ (hreads q')
      by_cases hq : q' = q
      · subst hq
        rw [if_pos rfl, State.bytesOf, State.bytesOf, State.gotOf, hgot, append_assoc]
        dsimp only
        rw [update_self]
      · rw [if_neg hq, State.bytesOf, State.bytesOf, State.gotOf, State.gotOf]
        dsimp only
        rw [update_of_ne hq]
    · by_cases hq : q' = q
      · subst hq
        dsimp only at hq'
        rw [update_self] at hq'
        obtain rfl := Option.some.inj hq'
        refine ⟨?_, ?_, heof⟩
        · show (rd.got ++ bytes).length + n = rd.target
          rw [length_append, ← hrd.count]
          omega
        · exact fun hmem => (mem_append.mp hmem).elim hrd.newline (hsleep rfl)
      · dsimp only at hq'
        rw [update_of_ne hq] at hq'
        exact h.waits q' rd' hq'
  | false =>
    rw [if_neg Bool.false_ne_true]
    refine ⟨⟨pend, popped ++ more, hmore, htaken'⟩, fun q' => ?_, fun x hx => ?_, fun q' rd' hq' => ?_⟩
    · refine Eq.trans ?_ (hreads q')
      by_cases hq : q' = q
      · subst hq
        rw [if_pos rfl, State.bytesOf, State.bytesOf, State.gotOf, hgot, append_assoc]
        dsimp only
        rw [update_self, List.filter_append, List.filter_cons_of_pos (by simp),
          map_append, List.flatten_append]
        simp
      · rw [if_neg hq, State.bytesOf, State.bytesOf, State.gotOf, State.gotOf]
        dsimp only
        rw [update_of_ne hq, List.filter_append,
          List.filter_cons_of_neg (by simpa using Ne.symm hq), List.filter_nil, append_nil]
    · rcases mem_append.mp hx with hx | hx
      · exact h.lines x hx
      obtain rfl := List.mem_singleton.mp hx
      refine ⟨?_, notMem_dropLast_append hrd.newline hnl, heof⟩
      show (rd.target : Int) - n = ((rd.got ++ bytes).length : Int)
      rw [length_append, ← hrd.count]
      omega
    · by_cases hq : q' = q
      · subst hq
        dsimp only at hq'
        rw [update_self] at hq'
        cases hq'
      · dsimp only at hq'
        rw [update_of_ne hq] at hq'
        exact h.waits q' rd' hq'

variable {a : Act} {s' : State}

lemma step_inv (h : Inv s) (hs : step s a = .ok s') : Inv s' := by
  cases a with
  | consoleintr cs =>
    obtain rfl := ok.inj hs
    obtain ⟨pend, popped, hholds, htaken⟩ := h.holds
    obtain ⟨pend', hholds'⟩ := typeChars_spec cs s.input s.committed pend hholds
    exact ⟨⟨pend', popped, hholds', htaken⟩, h.reads, h.lines, h.waits⟩
  | consoleread q n =>
    cases hq : s.pc q with
    | some rd =>
      rw [step, hq] at hs
      obtain rfl := ok.inj hs
      exact h
    | none =>
      rw [step, hq] at hs
      obtain rfl := ok.inj hs
      refine consoleread_inv h ⟨?_, not_mem_nil, not_mem_nil⟩ (by rw [State.gotOf, hq])
      exact Nat.zero_add _
  | wake q =>
    cases hq : s.pc q with
    | none =>
      rw [step, hq] at hs
      obtain rfl := ok.inj hs
      exact h
    | some rd =>
      rw [step, hq] at hs
      obtain rfl := ok.inj hs
      exact consoleread_inv h (h.waits q rd hq) (by rw [State.gotOf, hq])

lemma start_inv (buf : Nat → UInt8) : Inv (start buf) := by
  refine ⟨⟨[], [], ⟨⟨rfl, rfl, prefix_rfl, Nat.zero_le _, fun k _ hk => ?_⟩, rfl,
    prefix_rfl⟩, rfl⟩, fun _ => rfl, fun x hx => absurd hx not_mem_nil, (fun _ _ e => by cases e)⟩
  exact absurd hk (Nat.not_lt_zero k)

lemma Inv.right (h : Inv s) : Right s := by
  obtain ⟨pend, popped, hholds, htaken⟩ := h.holds
  have hle := hholds.before.length_le
  refine ⟨⟨popped.length, s.committed.length + pend.length, hle, Nat.le_add_right _ _, hholds.room,
    hholds.r, hholds.w, hholds.e, fun k h1 h2 => ?_, ?_⟩, h.reads, h.lines, fun q rd hq => ?_⟩
  · have hheld := hholds.ring.held k h1 (by rw [length_append]; omega)
    rwa [List.getElem?_append_left h2] at hheld
  · rwa [← List.prefix_iff_eq_take.mp hholds.before]
  · exact ⟨(h.waits q rd hq).count, (h.waits q rd hq).newline, (h.waits q rd hq).eof⟩

lemma step_committed (h : step s a = .ok s') : s.committed <+: s'.committed := by
  have hread : ∀ q rd, (consoleread q rd s).committed = s.committed := by
    intro q rd
    rw [consoleread]
    split
    dsimp only
    split <;> rfl
  cases a with
  | consoleintr cs =>
    obtain rfl := ok.inj h
    exact List.prefix_append _ _
  | consoleread q n =>
    rw [step] at h
    split at h
    · obtain rfl := ok.inj h
      rw [hread]
    · obtain rfl := ok.inj h
      exact prefix_rfl
  | wake q =>
    rw [step] at h
    split at h
    · obtain rfl := ok.inj h
      exact prefix_rfl
    · obtain rfl := ok.inj h
      rw [hread]

/-! ## One read at a time -/

/-- A read starts while no other process is in one. -/
def Alone (s : State) : Act → Prop
  | .consoleread q _ => ∀ p, p ≠ q → s.pc p = none
  | _ => True

/-- What a read took: the bytes that it returns, without a `^D` among them, or a single `^D`, and
    then it returns none. -/
def Span (x : Returned) (span : List UInt8) : Prop :=
  (span = x.bytes ∧ ctrl 'D' ∉ span) ∨ (span = [ctrl 'D'] ∧ x.bytes = [])

/-- The committed bytes up to `input.r` are what the reads took, one after the other in the order
    in which they returned, and what the one that waits has so far. -/
def InOrder (s : State) : Prop :=
  ∃ q spans R, (∀ p, p ≠ q → s.pc p = none) ∧ List.Forall₂ Span s.returned spans ∧
    R ≤ s.committed.length ∧ s.committed.length ≤ R + INPUT_BUF ∧ s.input.r = R % 2 ^ 32 ∧
    spans.flatten ++ s.gotOf q = s.committed.take R

/-- The same with what was popped from the ring. -/
def Ordered (s : State) : Prop :=
  ∃ q spans pend, (∀ p, p ≠ q → s.pc p = none) ∧ List.Forall₂ Span s.returned spans ∧
    Holds s.input s.committed pend (spans.flatten ++ s.gotOf q)

lemma Ordered.inOrder (h : Ordered s) : InOrder s := by
  obtain ⟨q, spans, pend, halone, hspans, hholds⟩ := h
  have hroom := hholds.room
  exact ⟨q, spans, _, halone, hspans, hholds.before.length_le, by omega, hholds.r,
    List.prefix_iff_eq_take.mp hholds.before⟩

lemma consoleread_ordered {q : Nat} {spans : List (List UInt8)} {pend : List UInt8} (hrd : rd.Ok)
    (halone : ∀ p, p ≠ q → s.pc p = none) (hspans : List.Forall₂ Span s.returned spans)
    (hholds : Holds s.input s.committed pend (spans.flatten ++ rd.got)) :
    Ordered (consoleread q rd s) := by
  have hspec := readLoop_spec rd.target rd.n s.input _ hrd.le hholds
  rw [consoleread]
  generalize readLoop rd.target rd.n s.input = res at hspec
  obtain ⟨i, bytes, n, sleeps⟩ := res
  obtain ⟨⟨more, hmore, hcase⟩, -, -, -⟩ := hspec
  have halone' : ∀ (o : Option Reading) p, p ≠ q → update s.pc q o p = none :=
    fun o p hp => (update_of_ne hp o s.pc).trans (halone p hp)
  rw [append_assoc] at hmore
  dsimp only
  cases sleeps with
  | true =>
    obtain ⟨rfl, -⟩ := hcase.resolve_right (fun hr => by cases hr.2.2.2)
    rw [if_pos rfl]
    refine ⟨q, spans, pend, halone' _, hspans, ?_⟩
    rw [State.gotOf]
    dsimp only
    rwa [update_self]
  | false =>
    rw [if_neg Bool.false_ne_true]
    refine ⟨q, spans ++ [rd.got ++ more], pend, halone' _, List.rel_append hspans
      (.cons ?_ .nil), ?_⟩
    · rcases hcase with ⟨rfl, heof⟩ | ⟨rfl, hnil, hn, -⟩
      · exact .inl ⟨rfl, fun hmem => (mem_append.mp hmem).elim hrd.eof heof⟩
      -- nothing was taken before
      have hgot : rd.got = [] := List.eq_nil_of_length_eq_zero (by have := hrd.count; omega)
      exact .inr ⟨by rw [hgot]; rfl, by dsimp only at hnil ⊢; rw [hgot, hnil]; rfl⟩
    · rw [State.gotOf]
      dsimp only
      rwa [update_self, append_nil, List.flatten_append, List.flatten_singleton]

lemma step_ordered (hinv : Inv s) (h : Ordered s) (halone : Alone s a) (hs : step s a = .ok s') :
    Ordered s' := by
  obtain ⟨q, spans, pend, hq, hspans, hholds⟩ := h
  cases a with
  | consoleintr cs =>
    obtain rfl := ok.inj hs
    obtain ⟨pend', hholds'⟩ := typeChars_spec cs s.input s.committed pend hholds
    exact ⟨q, spans, pend', hq, hspans, hholds'⟩
  | consoleread p n =>
    cases hp : s.pc p with
    | some rd =>
      rw [step, hp] at hs
      obtain rfl := ok.inj hs
      exact ⟨q, spans, pend, hq, hspans, hholds⟩
    | none =>
      rw [step, hp] at hs
      obtain rfl := ok.inj hs
      have hnone : s.pc q = none := by
        by_cases hqp : q = p
        · rw [hqp, hp]
        · exact halone q hqp
      rw [State.gotOf, hnone] at hholds
      exact consoleread_ordered ⟨Nat.zero_add _, not_mem_nil, not_mem_nil⟩ halone hspans hholds
  | wake p =>
    cases hp : s.pc p with
    | none =>
      rw [step, hp] at hs
      obtain rfl := ok.inj hs
      exact ⟨q, spans, pend, hq, hspans, hholds⟩
    | some rd =>
      rw [step, hp] at hs
      obtain rfl := ok.inj hs
      -- the process that waits is the one
      obtain rfl : p = q := by
        by_contra hne
        rw [hq p hne] at hp
        cases hp
      rw [State.gotOf, hp] at hholds
      exact consoleread_ordered (hinv.waits p rd hp) hq hspans hholds

/-- A line is typed, with a character taken back, then `c` and `^D`, and three reads follow. -/
def lineAndEof : List Act :=
  [.consoleintr [97, 98, 8, 13, 99, 4], .consoleread 1 10, .consoleread 1 10, .consoleread 1 10]

/-- Two reads that overlap: process 1 takes a full ring without a newline and waits, process
    2 takes the rest of the line, and process 1 goes on with the next one. -/
def overlap : List Act :=
  [.consoleread 1 200, .consoleintr (List.replicate 128 97), .wake 1, .consoleread 2 10,
    .consoleintr [98, 10], .wake 2, .consoleintr [99, 10], .wake 1]

end Console
