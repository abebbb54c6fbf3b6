import Mathlib.Data.List.Forall2
import Xv6Ext2.BufCacheProofs

/-! # Commit and crash recovery of the log (log.c)

    The log is a physical re-do log: a header block at `start` with the numbers of the logged
    blocks, then one log block for each of them.  This file models the code that touches the disk
    (`write_log`, `write_head`, `install_trans`, `read_head`, `commit`, `recover_from_log`) with the
    block writes it makes, in program order, kept in `writes`.

    A crash after `k` of the writes leaves the disk with the first `k` of them
    applied and nothing else: the buffer cache and the in-memory header are
    lost.  The proof follows the disk through three kinds of states:

    * `Pre`: the header is empty, every home block is as before;
    * `Committed`: the header names the transaction and the log blocks hold it,
      the home blocks may hold anything;
    * `Done`: the header is empty again and the home blocks hold the transaction.

    Every prefix of a commit or of a recovery stays in one of them, and a
    complete recovery leads to `Pre` or to `Done`. -/

namespace LogCommit

open ByteBlock BufCache Param

open Function (update update_of_ne update_self)

open List (mem_cons mem_cons_of_mem mem_cons_self not_mem_nil)

/-- The log in memory, the log device with its cache, and the block writes made
    so far.  `lh` is `log.lh.block[0..log.lh.n)`. -/
structure Log where
  start  : Nat
  size   : Nat
  lh     : List Nat
  bc     : Bcache
  writes : List (Nat × Block)

def breadLog (held : List Nat) (b : Nat) (m : Log) : Except Err (Block × Log) := do
  let (d, bc) ← bread held b m.bc
  .ok (d, { m with bc := bc })

/-- `bwrite` on the log device: one block write. -/
def bwriteLog (b : Nat) (d : Block) (m : Log) : Log :=
  { m with bc := bwrite b d m.bc, writes := m.writes ++ [(b, d)] }

/-- `install_trans` from log block `tail` on; the list is what is left of `log.lh.block`. -/
def installFrom (tail : Nat) : List Nat → Log → Except Err Log
  | [], m => .ok m
  | b :: rest, m => do
      let (lbuf, m) ← breadLog [] (m.start + tail + 1) m
      let (dbuf, m) ← breadLog [m.start + tail + 1] b m
      installFrom (tail + 1) rest (bwriteLog b (fillBlock dbuf lbuf) m)

/-- Copy committed blocks from log to their home location. -/
def installTrans (m : Log) : Except Err Log := installFrom 0 m.lh m

/-- `lh->n` of a header block. -/
def headN (hb : Block) : Nat := getLE hb 4 0

/-- `lh->block[i]` of a header block. -/
def headBlock (hb : Block) (i : Nat) : Nat := getLE hb 4 (4 + 4 * i)

/-- The blocks a header block names; `n` is an `int`, so a negative count names none. -/
def headList (hb : Block) : List Nat :=
  if headN hb < 2 ^ 31 then (List.range (headN hb)).map (headBlock hb) else []

/-- Read the log header from disk into the in-memory log header. -/
def readHead (m : Log) : Except Err Log := do
  let (buf, m) ← breadLog [] m.start m
  .ok { m with lh := headList buf }

/-- The loop of `write_head` from entry `i` on. -/
def putBlocks (hb : Block) (i : Nat) : List Nat → Block
  | [] => hb
  | b :: rest => putBlocks (putLE hb 4 (4 + 4 * i) b) (i + 1) rest

def writeHead (m : Log) : Except Err Log := do
  let (hb, m) ← breadLog [] m.start m
  .ok (bwriteLog m.start (putBlocks (putLE hb 4 0 m.lh.length) 0 m.lh) m)

/-- `write_log` from log block `tail` on. -/
def writeLogFrom (tail : Nat) : List Nat → Log → Except Err Log
  | [], m => .ok m
  | b :: rest, m => do
      let (dst, m) ← breadLog [] (m.start + tail + 1) m
      let (src, m) ← breadLog [m.start + tail + 1] b m
      writeLogFrom (tail + 1) rest (bwriteLog (m.start + tail + 1) (fillBlock dst src) m)

/-- Copy modified blocks from cache to log. -/
def writeLog (m : Log) : Except Err Log := writeLogFrom 0 m.lh m

/-- `commit`: write the log, then the header, install, erase the header. -/
def commit (m : Log) : Except Err Log :=
  if 0 < m.lh.length then do
    let m ← writeLog m
    let m ← writeHead m
    let m ← installTrans m
    writeHead { m with lh := [] }
  else .ok m

/-- `recover_from_log`: install what the header names, then clear the log. -/
def recoverFromLog (m : Log) : Except Err Log := do
  let m ← readHead m
  let m ← installTrans m
  writeHead { m with lh := [] }

/-! ## Crashes -/

/-- One block write reaches the disk. -/
def applyWrite (d : Disk) (w : Nat × Block) : Disk :=
  update d w.1 (fillBlock (d w.1) w.2)

def applyWrites (d : Disk) (ws : List (Nat × Block)) : Disk := ws.foldl applyWrite d

/-- The kernel after a reboot: the disk, and nothing in memory. -/
def boot (start size : Nat) (d : Disk) : Log where
  start  := start
  size   := size
  lh     := []
  bc     := { disk := d, buf := fun _ => none }
  writes := []

/-- Reboots whose recoveries are cut off by a crash: the `i`-th after `ks[i]` of
    its block writes. -/
def cutRecoveries (start size : Nat) : List Nat → Disk → Except Err Disk
  | [], d => .ok d
  | k :: ks, d => do
      let m ← recoverFromLog (boot start size d)
      cutRecoveries start size ks (applyWrites d (m.writes.take k))

/-- What `log_write` hands to `commit`: home blocks outside the log, at most as
    many as the header and the log have room for (`log_write` panics before there
    are more).  That they are different is not needed here. -/
structure Transaction (m : Log) : Prop where
  outside : ∀ b ∈ m.lh, b < m.start ∨ m.start + m.size ≤ b
  word    : ∀ b ∈ m.lh, b < 2 ^ 32
  entries : m.lh.length ≤ LOGSIZE
  room    : m.lh.length < m.size

/-! ## The header block -/

/-- `putBlocks` leaves the words below its first entry alone. -/
lemma getLE_putBlocks_below (xs : List Nat) (hb : Block) (i n o : Nat)
    (h : o + n ≤ 4 + 4 * i) : getLE (putBlocks hb i xs) n o = getLE hb n o := by
  induction xs generalizing hb i with
  | nil => rfl
  | cons b rest ih =>
    rw [putBlocks, ih _ (i + 1) (by omega), getLE_putLE_of_disjoint (by omega)]

lemma headBlock_putBlocks (xs : List Nat) (hb : Block) (i j b : Nat)
    (hword : ∀ x ∈ xs, x < 2 ^ 32) (hj : xs[j]? = some b) :
    headBlock (putBlocks hb i xs) (i + j) = b := by
  induction xs generalizing hb i j with
  | nil => simp at hj
  | cons x rest ih =>
    rw [putBlocks]
    cases j with
    | zero =>
      obtain rfl : x = b := by simpa using hj
      rw [headBlock, getLE_putBlocks_below _ _ _ _ _ (by omega), Nat.add_zero, getLE_putLE]
      exact Nat.mod_eq_of_lt (hword x mem_cons_self)
    | succ j =>
      have hj' : rest[j]? = some b := by simpa using hj
      have := ih (putLE hb 4 (4 + 4 * i) x) (i + 1) j
        (fun y hy => hword y (mem_cons_of_mem _ hy)) hj'
      rwa [show i + (j + 1) = i + 1 + j by omega]

lemma headList_writeHead (xs : List Nat) (old hb : Block)
    (hword : ∀ x ∈ xs, x < 2 ^ 32) (hlen : xs.length ≤ LOGSIZE) :
    headList (fillBlock old (putBlocks (putLE hb 4 0 xs.length) 0 xs)) = xs := by
  have hsize : xs.length ≤ 30 := hlen
  have hn : headN (fillBlock old (putBlocks (putLE hb 4 0 xs.length) 0 xs)) = xs.length := by
    rw [headN, getLE_fillBlock (by decide), getLE_putBlocks_below _ _ _ _ _ (by omega), getLE_putLE]
    exact Nat.mod_eq_of_lt (by omega)
  rw [headList, hn, if_pos (by omega)]
  refine List.ext_getElem? (fun j => ?_)
  by_cases hj : j < xs.length
  · have hb := headBlock_putBlocks xs (putLE hb 4 0 xs.length) 0 j xs[j] hword
      (List.getElem?_eq_getElem hj)
    rw [Nat.zero_add] at hb
    rw [List.getElem?_map, List.getElem?_range hj, List.getElem?_eq_getElem hj,
      Option.map_some, ← hb, headBlock, headBlock, getLE_fillBlock (by simp only [BSIZE]; omega)]
  · rw [List.getElem?_eq_none (by simpa using hj), List.getElem?_eq_none (by omega)]

/-! ## Block writes -/

lemma applyWrites_append (d : Disk) (ws vs : List (Nat × Block)) :
    applyWrites d (ws ++ vs) = applyWrites (applyWrites d ws) vs := List.foldl_append

lemma applyWrites_other (ws : List (Nat × Block)) (d : Disk) (b : Nat)
    (h : ∀ w ∈ ws, w.1 ≠ b) : applyWrites d ws b = d b := by
  induction ws generalizing d with
  | nil => rfl
  | cons w rest ih =>
    show applyWrites (applyWrite d w) rest b = d b
    rw [ih _ (fun v hv => h v (mem_cons_of_mem _ hv)), applyWrite,
      update_of_ne (Ne.symm (h w mem_cons_self))]

lemma applyWrites_agree (ws : List (Nat × Block)) (d : Disk) (b : Nat) (c : Block)
    (hmem : ∃ w ∈ ws, w.1 = b) (hall : ∀ w ∈ ws, w.1 = b → ∀ k < BSIZE, w.2 k = c k) :
    ∀ k < BSIZE, applyWrites d ws b k = c k := by
  induction ws generalizing d with
  | nil => obtain ⟨w, hw, -⟩ := hmem; exact nomatch hw
  | cons w rest ih =>
    intro k hk
    show applyWrites (applyWrite d w) rest b k = c k
    have hrest : ∀ v ∈ rest, v.1 = b → ∀ k < BSIZE, v.2 k = c k :=
      fun v hv => hall v (mem_cons_of_mem _ hv)
    by_cases hlater : ∃ v ∈ rest, v.1 = b
    · exact ih (applyWrite d w) hlater hrest k hk
    -- no later write: the head is the one that names `b`
    have hw : w.1 = b := by
      obtain ⟨v, hv, hvb⟩ := hmem
      rcases mem_cons.mp hv with rfl | hv'
      · exact hvb
      · exact absurd ⟨v, hv', hvb⟩ hlater
    rw [applyWrites_other rest _ b (fun v hv hvb => hlater ⟨v, hv, hvb⟩), applyWrite,
      hw, update_self, fillBlock_in hk]
    exact hall w mem_cons_self hw k hk

@[simp] lemma bwriteLog_view (b : Nat) (d : Block) (m : Log) : (bwriteLog b d m).bc.view
      = update m.bc.view b (fillBlock (m.bc.view b) d) := bwrite_view m.bc b d

lemma breadLog_of_notMem {held : List Nat} {b : Nat} {m : Log} (h : b ∉ held) :
    breadLog held b m = .ok (m.bc.view b, { m with bc := m.bc.touch b }) := by
  rw [breadLog, bread_of_notMem h]
  rfl

/-- What a loop that makes the block writes `ws` leaves behind. -/
structure Wrote (m m' : Log) (ws : List (Nat × Block)) : Prop where
  start  : m'.start = m.start
  size   : m'.size = m.size
  lh     : m'.lh = m.lh
  writes : m'.writes = m.writes ++ ws
  disk   : m'.bc.disk = applyWrites m.bc.disk ws

/-- `ws` writes, block by block, the contents `new` to the blocks `xs`. -/
def Installs (new : Nat → Block) (xs : List Nat) (ws : List (Nat × Block)) : Prop :=
  List.Forall₂ (fun b w => w.1 = b ∧ ∀ k < BSIZE, w.2 k = new b k) xs ws

variable {new : Nat → Block} {xs : List Nat} {ws : List (Nat × Block)}

lemma Installs.mem (h : Installs new xs ws) :
    ∀ w ∈ ws, w.1 ∈ xs ∧ ∀ k < BSIZE, w.2 k = new w.1 k := by
  induction h with
  | nil => intro w hw; exact nomatch hw
  | cons hbw _ ih =>
    intro w hw
    rcases mem_cons.mp hw with rfl | hw'
    · rw [hbw.1]
      exact ⟨mem_cons_self, hbw.2⟩
    · exact ⟨mem_cons_of_mem _ (ih w hw').1, (ih w hw').2⟩

lemma Installs.exists_write (h : Installs new xs ws) : ∀ b ∈ xs, ∃ w ∈ ws, w.1 = b := by
  induction h with
  | nil => intro b hb; exact nomatch hb
  | cons hbw _ ih =>
    intro b hb
    rcases mem_cons.mp hb with rfl | hb'
    · exact ⟨_, mem_cons_self, hbw.1⟩
    · obtain ⟨w, hw, hwb⟩ := ih b hb'
      exact ⟨w, mem_cons_of_mem _ hw, hwb⟩

/-- A turn of either loop: two blocks are read, then one is written. -/
lemma turn_spec (m : Log) (x y b : Nat) (data : Block) :
    ∃ m₁, bwriteLog b data { m with bc := (m.bc.touch x).touch y } = m₁ ∧
      m₁.start = m.start ∧ m₁.size = m.size ∧
      m₁.bc.disk = update m.bc.disk b (fillBlock (m.bc.disk b) data) ∧
      m₁.bc.view = update m.bc.view b (fillBlock (m.bc.view b) data) ∧
      ∀ m' ws, Wrote m₁ m' ws → Wrote m m' ((b, data) :: ws) := by
  refine ⟨_, rfl, rfl, rfl, rfl, ?_, fun m' ws h => ⟨h.start, h.size, h.lh, ?_, h.disk⟩⟩
  · rw [bwriteLog_view]
    show update ((m.bc.touch x).touch y).view b
      (fillBlock (((m.bc.touch x).touch y).view b) data) = _
    rw [touch_view, touch_view]
  · rw [h.writes]
    show (m.writes ++ [_]) ++ ws = m.writes ++ (_ :: ws)
    rw [List.append_assoc]
    rfl

/-- `install_trans` writes to each home block what its log block holds. -/
lemma installFrom_spec (new : Nat → Block) (xs : List Nat) (tail : Nat) (m : Log)
    (hout : ∀ b ∈ xs, b < m.start ∨ m.start + m.size ≤ b) (hroom : tail + xs.length < m.size)
    (hlog : ∀ i b, xs[i]? = some b → ∀ k < BSIZE, m.bc.view (m.start + tail + 1 + i) k = new b k) :
    ∃ m' ws, installFrom tail xs m = .ok m' ∧ Wrote m m' ws ∧ Installs new xs ws := by
  induction xs generalizing tail m with
  | nil =>
    exact ⟨m, [], rfl, ⟨rfl, rfl, rfl, (List.append_nil _).symm, rfl⟩, .nil⟩
  | cons b rest ih =>
    have hb := hout b mem_cons_self
    have hlen : (b :: rest).length = rest.length + 1 := rfl
    have hne : b ∉ [m.start + tail + 1] := by
      rw [List.mem_singleton]; omega
    rw [installFrom, breadLog_of_notMem not_mem_nil]
    simp only [Outcome.ok_bind]
    rw [breadLog_of_notMem hne]
    simp only [Outcome.ok_bind, touch_view]
    -- the buffer written to the home block
    have hdata : ∀ k < BSIZE,
        fillBlock (m.bc.view b) (m.bc.view (m.start + tail + 1)) k = new b k := by
      intro k hk
      rw [fillBlock_in hk]
      exact hlog 0 b rfl k hk
    obtain ⟨m₁, hm₁, hst, hsz, -, hview, hwrote⟩ := turn_spec m (m.start + tail + 1) b b
      (fillBlock (m.bc.view b) (m.bc.view (m.start + tail + 1)))
    rw [hm₁]
    obtain ⟨m', ws, hrun, hwr, hws⟩ := ih (tail + 1) m₁
      (fun c hc => by rw [hst, hsz]; exact hout c (mem_cons_of_mem _ hc)) (by rw [hsz]; omega) (by
        intro i c hc k hk
        have hi : i < rest.length := (List.getElem?_eq_some_iff.mp hc).1
        rw [hview, hst, update_of_ne (by omega),
          show m.start + (tail + 1) + 1 + i = m.start + tail + 1 + (i + 1) by omega]
        exact hlog (i + 1) c (by simpa using hc) k hk)
    exact ⟨m', _, hrun, hwrote m' ws hwr, .cons ⟨rfl, hdata⟩ hws⟩

/-- `write_log` writes to each log block what its home block's buffer holds; the
    log blocks then read as the home blocks do, and no other block changes. -/
lemma writeLogFrom_spec (new : Nat → Block) (xs : List Nat) (tail : Nat) (m : Log)
    (hout : ∀ b ∈ xs, b < m.start ∨ m.start + m.size ≤ b) (hroom : tail + xs.length < m.size)
    (hnew : ∀ b ∈ xs, ∀ k < BSIZE, m.bc.view b k = new b k) :
    ∃ m' ws, writeLogFrom tail xs m = .ok m' ∧ Wrote m m' ws ∧ ws.length = xs.length ∧
      (∀ w ∈ ws, m.start + tail + 1 ≤ w.1 ∧ w.1 < m.start + m.size) ∧
      (∀ c, c < m.start + tail + 1 → m'.bc.disk c = m.bc.disk c ∧ m'.bc.view c = m.bc.view c) ∧
      (∀ i b, xs[i]? = some b → ∀ k < BSIZE, m'.bc.disk (m.start + tail + 1 + i) k = new b k
        ∧ m'.bc.view (m.start + tail + 1 + i) k = new b k) := by
  induction xs generalizing tail m with
  | nil =>
    refine ⟨m, [], rfl, ⟨rfl, rfl, rfl, (List.append_nil _).symm, rfl⟩, rfl, ?_, ?_, ?_⟩
    · intro w hw; exact nomatch hw
    · intro c _; exact ⟨rfl, rfl⟩
    · intro i b hb; simp at hb
  | cons b rest ih =>
    have hb := hout b mem_cons_self
    have hlen : (b :: rest).length = rest.length + 1 := rfl
    have hne : b ∉ [m.start + tail + 1] := by
      rw [List.mem_singleton]; omega
    rw [writeLogFrom, breadLog_of_notMem not_mem_nil]
    simp only [Outcome.ok_bind]
    rw [breadLog_of_notMem hne]
    simp only [Outcome.ok_bind, touch_view]
    generalize hdata : fillBlock (m.bc.view (m.start + tail + 1)) (m.bc.view b) = data
    have hdk : ∀ k < BSIZE, data k = new b k := by
      intro k hk
      rw [← hdata, fillBlock_in hk]
      exact hnew b mem_cons_self k hk
    obtain ⟨m₁, hm₁, hst, hsz, hdisk, hview, hwrote⟩ :=
      turn_spec m (m.start + tail + 1) b (m.start + tail + 1) data
    rw [hm₁]
    obtain ⟨m', ws, hrun, hwr, hwlen, hrange, hbelow, hat⟩ := ih (tail + 1) m₁
      (fun c hc => by rw [hst, hsz]; exact hout c (mem_cons_of_mem _ hc)) (by rw [hsz]; omega) (by
        intro c hc k hk
        have hco := hout c (mem_cons_of_mem _ hc)
        rw [hview, update_of_ne (by omega)]
        exact hnew c (mem_cons_of_mem _ hc) k hk)
    rw [hst] at hrange hbelow hat
    refine ⟨m', _, hrun, hwrote m' ws hwr, ?_, ?_, ?_, ?_⟩
    · rw [List.length_cons, hwlen, List.length_cons]
    · intro w hw
      rcases mem_cons.mp hw with rfl | hw'
      · show m.start + tail + 1 ≤ m.start + tail + 1 ∧ m.start + tail + 1 < _
        omega
      have := hrange w hw'
      rw [hsz] at this
      omega
    · intro c hc
      obtain ⟨h1, h2⟩ := hbelow c (by omega)
      rw [h1, h2, hdisk, hview, update_of_ne (by omega), update_of_ne (by omega)]
      exact ⟨rfl, rfl⟩
    · intro i c hc k hk
      cases i with
      | zero =>
        obtain rfl : b = c := by simpa using hc
        obtain ⟨h1, h2⟩ := hbelow (m.start + tail + 1 + 0) (by omega)
        rw [h1, h2, hdisk, hview, Nat.add_zero, update_self,
          update_self, fillBlock_in hk, fillBlock_in hk]
        exact ⟨hdk k hk, hdk k hk⟩
      | succ i =>
        have := hat i c (by simpa using hc) k hk
        rwa [show m.start + (tail + 1) + 1 + i = m.start + tail + 1 + (i + 1) by omega] at this

lemma writeHead_spec (m : Log) : ∃ m' hb, writeHead m = .ok m' ∧
      hb = putBlocks (putLE (m.bc.view m.start) 4 0 m.lh.length) 0 m.lh ∧
      Wrote m m' [(m.start, hb)] ∧ ∀ c, c ≠ m.start → m'.bc.view c = m.bc.view c := by
  rw [writeHead, breadLog_of_notMem not_mem_nil]
  refine ⟨_, _, rfl, rfl, ⟨rfl, rfl, rfl, rfl, rfl⟩, ?_⟩
  intro c hc
  rw [bwriteLog_view]
  show update (m.bc.touch m.start).view _ _ c = m.bc.view c
  rw [update_of_ne hc, touch_view]

/-! ## The states of the disk -/

section Crash

variable (start size : Nat) (xs : List Nat) (new : Nat → Block) (d₀ : Disk)

def InLog (b : Nat) : Prop := start ≤ b ∧ b < start + size

lemma not_inLog {start size b : Nat} (h : b < start ∨ start + size ≤ b) : ¬ InLog start size b := by
  rintro ⟨h1, h2⟩
  omega

/-- Before the committing `write_head`. -/
structure Pre (d : Disk) : Prop where
  empty : headN (d start) = 0
  home  : ∀ b, ¬ InLog start size b → d b = d₀ b

/-- From the committing `write_head` until the header is erased. -/
structure Committed (d : Disk) : Prop where
  header : headList (d start) = xs
  log    : ∀ i b, xs[i]? = some b → ∀ k < BSIZE, d (start + 1 + i) k = new b k
  frame  : ∀ b, ¬ InLog start size b → b ∉ xs → d b = d₀ b

/-- Once the header is erased again. -/
structure Done (d : Disk) : Prop where
  empty : headN (d start) = 0
  home  : ∀ b ∈ xs, ∀ k < BSIZE, d b k = new b k
  frame : ∀ b, ¬ InLog start size b → b ∉ xs → d b = d₀ b

variable {start size xs new d₀}

variable {hb : Block}

lemma headList_of_zero (h : headN hb = 0) : headList hb = [] := by
  rw [headList, h]
  rfl

/-- The header that `write_head` leaves when nothing is logged. -/
lemma headN_erased (old hb : Block) :
    headN (fillBlock old (putBlocks (putLE hb 4 0 0) 0 [])) = 0 := by
  rw [headN, getLE_fillBlock (by decide)]
  exact getLE_putLE hb 4 0 0

variable {d : Disk}

lemma Pre.update_header (hsize : 0 < size) (h : Pre start size d₀ d) (hz : headN hb = 0) :
    Pre start size d₀ (update d start hb) where
  empty := by rw [update_self]; exact hz
  home := by
    intro b hb'
    have hne : b ≠ start := fun hbs => hb' ⟨by omega, by omega⟩
    rw [update_of_ne hne]
    exact h.home b hb'

lemma Done.update_header (hsize : 0 < size) (hout : ∀ b ∈ xs, ¬ InLog start size b)
    (h : Done start size xs new d₀ d) (hz : headN hb = 0) :
    Done start size xs new d₀ (update d start hb) where
  empty := by rw [update_self]; exact hz
  home := by
    intro b hbx
    have hne : b ≠ start := fun hbs => hout b hbx ⟨by omega, by omega⟩
    rw [update_of_ne hne]
    exact h.home b hbx
  frame := by
    intro b hb' hbx
    have hne : b ≠ start := fun hbs => hb' ⟨by omega, by omega⟩
    rw [update_of_ne hne]
    exact h.frame b hb' hbx

variable {ws : List (Nat × Block)}

lemma Committed.applyWrites (hout : ∀ b ∈ xs, ¬ InLog start size b)
    (hroom : xs.length < size) (h : Committed start size xs new d₀ d) (hws : ∀ w ∈ ws, w.1 ∈ xs) :
    Committed start size xs new d₀ (applyWrites d ws) where
  header := by
    rw [applyWrites_other ws d start (fun w hw hws' =>
      hout w.1 (hws w hw) ⟨by omega, by omega⟩)]
    exact h.header
  log := by
    intro i b hib k hk
    have hi : i < xs.length := (List.getElem?_eq_some_iff.mp hib).1
    rw [applyWrites_other ws d (start + 1 + i) (fun w hw hws' =>
      hout w.1 (hws w hw) ⟨by omega, by omega⟩)]
    exact h.log i b hib k hk
  frame := by
    intro b hb hbx
    rw [applyWrites_other ws d b (fun w hw hwb => hbx (hwb ▸ hws w hw))]
    exact h.frame b hb hbx

/-- Installing the whole log and erasing the header completes the transaction. -/
lemma Committed.done (hsize : 0 < size) (hout : ∀ b ∈ xs, ¬ InLog start size b)
    (h : Committed start size xs new d₀ d) (hws : Installs new xs ws) (hz : headN hb = 0) :
    Done start size xs new d₀ (update (LogCommit.applyWrites d ws) start hb) := by
  refine ⟨by rw [update_self]; exact hz, ?_, ?_⟩
  · intro b hbx
    rw [update_of_ne (fun hbs => hout b hbx ⟨by omega, by omega⟩)]
    exact applyWrites_agree ws d b (new b) (hws.exists_write b hbx)
      (fun w hw hwb => hwb ▸ (hws.mem w hw).2)
  · intro b hb' hbx
    rw [update_of_ne (fun hbs => hb' ⟨by omega, by omega⟩),
      applyWrites_other ws d b (fun w hw hwb => hbx (hwb ▸ (hws.mem w hw).1))]
    exact h.frame b hb' hbx

/-! ## Recovery -/

lemma recover_of_empty (size : Nat) (h : headN (d start) = 0) :
    ∃ m, recoverFromLog (boot start size d) = .ok m ∧ m.bc.disk = applyWrites d m.writes ∧
      ∀ k, ∃ hb, headN hb = 0 ∧ applyWrites d (m.writes.take k) = update d start hb := by
  have hread : readHead (boot start size d)
      = .ok { boot start size d with bc := (boot start size d).bc.touch start } := by
    rw [readHead, breadLog_of_notMem not_mem_nil]
    have hl : headList ((boot start size d).bc.view start) = [] := headList_of_zero h
    simp only [Outcome.ok_bind]
    rw [show (boot start size d).start = start from rfl, hl]
    rfl
  obtain ⟨m, hb, hrun, hhb, hwr, -⟩ := writeHead_spec
    { boot start size d with bc := (boot start size d).bc.touch start, lh := [] }
  refine ⟨m, ?_, ?_, ?_⟩
  · rwa [recoverFromLog, hread]
  · rw [hwr.disk, hwr.writes]; rfl
  · intro k
    have hw : m.writes = [(start, hb)] := hwr.writes
    rw [hw]
    cases k with
    | zero =>
      refine ⟨d start, h, ?_⟩
      rw [Function.update_eq_self]; rfl
    | succ k =>
      refine ⟨fillBlock (d start) hb, ?_, ?_⟩
      · rw [hhb]; exact headN_erased _ _
      · rw [List.take_succ_cons, List.take_nil]; rfl

/-- Recovery of a committed log: a prefix of it leaves the log committed, and the
    whole of it installs the transaction. -/
lemma recover_of_committed (hout : ∀ b ∈ xs, b < start ∨ start + size ≤ b)
    (hroom : xs.length < size) (h : Committed start size xs new d₀ d) :
    ∃ m, recoverFromLog (boot start size d) = .ok m ∧ m.bc.disk = applyWrites d m.writes ∧
      (∀ k, Committed start size xs new d₀ (applyWrites d (m.writes.take k)) ∨
        Done start size xs new d₀ (applyWrites d (m.writes.take k))) ∧
      Done start size xs new d₀ m.bc.disk := by
  have hout' : ∀ b ∈ xs, ¬ InLog start size b := fun b hb => not_inLog (hout b hb)
  have hread : readHead (boot start size d) = .ok { boot start size d with
          bc := (boot start size d).bc.touch start, lh := xs } := by
    rw [readHead, breadLog_of_notMem not_mem_nil]
    have hl : headList ((boot start size d).bc.view start) = xs := h.header
    simp only [Outcome.ok_bind]
    rw [show (boot start size d).start = start from rfl, hl]
  obtain ⟨m1, ws, hinst, hwr1, hws⟩ := installFrom_spec new xs 0
    { boot start size d with bc := (boot start size d).bc.touch start, lh := xs }
    hout (by show 0 + xs.length < size; omega) (by
      intro i b hib k hk
      show ((boot start size d).bc.touch start).view (start + 0 + 1 + i) k = new b k
      rw [touch_view, Nat.add_zero]
      exact h.log i b hib k hk)
  obtain ⟨m, hb, hrun, hhb, hwr, -⟩ := writeHead_spec { m1 with lh := [] }
  have hst : m1.start = start := hwr1.start
  have hwrites : m.writes = ws ++ [(start, hb)] := by
    rw [hwr.writes]
    show m1.writes ++ [(m1.start, hb)] = _
    rw [hwr1.writes, hst]; rfl
  have hdisk : m.bc.disk = applyWrites d m.writes := by
    rw [hwrites, applyWrites_append, hwr.disk]
    show applyWrites m1.bc.disk [(m1.start, hb)] = _
    rw [hwr1.disk, hst]; rfl
  have hzero : ∀ old, headN (fillBlock old hb) = 0 := by
    intro old; rw [hhb]; exact headN_erased _ _
  have hfull : Done start size xs new d₀ (applyWrites d (ws ++ [(start, hb)])) := by
    rw [applyWrites_append]
    exact h.done (by omega) hout' hws (hzero _)
  refine ⟨m, ?_, hdisk, ?_, ?_⟩
  · rw [recoverFromLog, hread]
    simp only [Outcome.ok_bind]
    rwa [installTrans, hinst]
  · intro k
    rw [hwrites]
    by_cases hk : k ≤ ws.length
    · left
      rw [List.take_append_of_le_length hk]
      exact h.applyWrites hout' hroom (fun w hw => (hws.mem w (List.mem_of_mem_take hw)).1)
    · right
      rwa [List.take_of_length_le (by rw [List.length_append, List.length_singleton]; omega)]
  · rwa [hdisk, hwrites]

lemma cutRecoveries_of_pre (hsize : 0 < size) (ks : List Nat) (d : Disk) (h : Pre start size d₀ d) :
    ∃ d', cutRecoveries start size ks d = .ok d' ∧ Pre start size d₀ d' := by
  induction ks generalizing d with
  | nil => exact ⟨d, rfl, h⟩
  | cons k ks ih =>
    obtain ⟨m, hrun, -, hpre⟩ := recover_of_empty size h.empty
    obtain ⟨hb, hz, hd⟩ := hpre k
    rw [cutRecoveries, hrun]
    refine ih _ ?_
    rw [hd]
    exact h.update_header hsize hz

/-- Cut-off recoveries of a disk on which the transaction is committed. -/
lemma cutRecoveries_of_committed (hout : ∀ b ∈ xs, b < start ∨ start + size ≤ b)
    (hroom : xs.length < size) (ks : List Nat) (d : Disk)
    (h : Committed start size xs new d₀ d ∨ Done start size xs new d₀ d) :
    ∃ d', cutRecoveries start size ks d = .ok d' ∧
      (Committed start size xs new d₀ d' ∨ Done start size xs new d₀ d') := by
  induction ks generalizing d with
  | nil => exact ⟨d, rfl, h⟩
  | cons k ks ih =>
    rcases h with hc | hd
    · obtain ⟨m, hrun, -, hpre, -⟩ := recover_of_committed hout hroom hc
      rw [cutRecoveries, hrun]
      exact ih _ (hpre k)
    obtain ⟨m, hrun, -, hpre⟩ := recover_of_empty size hd.empty
    obtain ⟨hb, hz, hdk⟩ := hpre k
    rw [cutRecoveries, hrun]
    refine ih _ (Or.inr ?_)
    rw [hdk]
    exact hd.update_header (by omega) (fun b hb => not_inLog (hout b hb)) hz

end Crash

/-! ## Commit -/

/-- The disk along a commit: untouched up to the committing `write_head`, which
    is block write number `n + 1`, and committed from there on. -/
lemma commit_prefix (m : Log) (ht : Transaction m) (hpos : 0 < m.lh.length)
    (hempty : headN (m.bc.disk m.start) = 0) (hw : m.writes = []) : ∃ m', commit m = .ok m' ∧
      (∀ k ≤ m.lh.length, Pre m.start m.size m.bc.disk (applyWrites m.bc.disk (m'.writes.take k))) ∧
      (∀ k > m.lh.length, Committed m.start m.size m.lh m.bc.view m.bc.disk
          (applyWrites m.bc.disk (m'.writes.take k)) ∨ Done m.start m.size m.lh m.bc.view m.bc.disk
          (applyWrites m.bc.disk (m'.writes.take k))) := by
  have hroom := ht.room
  have hout' : ∀ b ∈ m.lh, ¬ InLog m.start m.size b := fun b hb => not_inLog (ht.outside b hb)
  -- the four phases
  obtain ⟨m1, ws1, hrun1, hwr1, hlen1, hrange1, hbelow1, hat1⟩ :=
    writeLogFrom_spec m.bc.view m.lh 0 m ht.outside (by omega) (fun _ _ _ _ => rfl)
  obtain ⟨m2, hb2, hrun2, hhb2, hwr2, hview2⟩ := writeHead_spec m1
  have hst1 : m1.start = m.start := hwr1.start
  have hst2 : m2.start = m.start := hwr2.start.trans hst1
  have hsz2 : m2.size = m.size := hwr2.size.trans hwr1.size
  have hlh2 : m2.lh = m.lh := hwr2.lh.trans hwr1.lh
  obtain ⟨m3, ws3, hrun3, hwr3, hws3⟩ := installFrom_spec m.bc.view m.lh 0 m2
    (by rw [hst2, hsz2]; exact ht.outside) (by rw [hsz2]; omega) (by
      intro i b hib k hk
      have := (hat1 i b hib k hk).2
      rw [hst2, hview2 _ (by omega)]
      exact this)
  obtain ⟨m4, hb4, hrun4, hhb4, hwr4, -⟩ := writeHead_spec { m3 with lh := [] }
  have hst3 : m3.start = m.start := hwr3.start.trans hst2
  have hwrites : m4.writes = ws1 ++ ((m.start, hb2) :: (ws3 ++ [(m.start, hb4)])) := by
    rw [hwr4.writes]
    show m3.writes ++ [(m3.start, hb4)] = _
    rw [hwr3.writes, hwr2.writes, hwr1.writes, hw, hst3, hst1]
    simp
  -- the disk after `write_log` and after the committing `write_head`
  obtain ⟨d1, hd1⟩ : ∃ d, d = applyWrites m.bc.disk ws1 := ⟨_, rfl⟩
  have hdisk1 : m1.bc.disk = d1 := by rw [hwr1.disk, hd1]
  have hcom : Committed m.start m.size m.lh m.bc.view m.bc.disk (applyWrite d1 (m.start, hb2)) := by
    refine ⟨?_, ?_, ?_⟩
    · rw [applyWrite, update_self, hhb2, hwr1.lh]
      exact headList_writeHead m.lh _ _ ht.word ht.entries
    · intro i b hib k hk
      have := (hat1 i b hib k hk).1
      rw [hdisk1, Nat.add_zero] at this
      rwa [applyWrite, update_of_ne (by show m.start + 1 + i ≠ m.start; omega)]
    · intro b hb _
      have hne : b ≠ m.start := fun hbs => hb ⟨by omega, by omega⟩
      rw [applyWrite, update_of_ne hne, hd1, applyWrites_other ws1 _ b (fun w hw hwb => ?_)]
      have := hrange1 w hw
      exact hb ⟨by omega, by omega⟩
  refine ⟨m4, ?_, ?_, ?_⟩
  · rw [commit, if_pos hpos, writeLog, hrun1]
    simp only [Outcome.ok_bind]
    rw [hrun2]
    simp only [Outcome.ok_bind]
    rwa [installTrans, hlh2, hrun3]
  · intro k hk
    rw [hwrites, List.take_append_of_le_length (by omega)]
    refine ⟨?_, ?_⟩
    · rw [applyWrites_other _ _ _ (fun w hw hws => ?_)]
      · exact hempty
      · have := hrange1 w (List.mem_of_mem_take hw)
        omega
    · intro b hb
      rw [applyWrites_other _ _ _ (fun w hw hwb => ?_)]
      have := hrange1 w (List.mem_of_mem_take hw)
      exact hb ⟨by omega, by omega⟩
  · intro k hk
    obtain ⟨j, rfl⟩ : ∃ j, k = ws1.length + (j + 1) := ⟨k - ws1.length - 1, by omega⟩
    rw [hwrites, List.take_append, List.take_of_length_le (by omega),
      Nat.add_sub_cancel_left, List.take_succ_cons, applyWrites_append, ← hd1]
    show Committed _ _ _ _ _ (applyWrites (applyWrite d1 (m.start, hb2)) _) ∨
      Done _ _ _ _ _ (applyWrites (applyWrite d1 (m.start, hb2)) _)
    by_cases hj : j ≤ ws3.length
    · left
      rw [List.take_append_of_le_length hj]
      exact hcom.applyWrites hout' hroom (fun w hw => (hws3.mem w (List.mem_of_mem_take hw)).1)
    right
    rw [List.take_of_length_le (by rw [List.length_append, List.length_singleton]; omega),
      applyWrites_append]
    refine hcom.done (by omega) hout' hws3 ?_
    rw [hhb4]
    exact headN_erased _ _

/-- **A crash never tears a transaction.**  Cut a commit off after any `k` block writes, reboot any
    number of times with recoveries that are themselves cut off, and let one recovery complete: the
    home blocks then hold all of the old contents, which needs `k ≤ n` (the crash came before the
    committing `write_head`), or all of the committed ones; blocks outside the log and the
    transaction are as they were, at every reboot and at the end. -/
theorem commit_crash_atomic (m : Log) (ht : Transaction m)
    (hempty : headN (m.bc.disk m.start) = 0) (hw : m.writes = []) :
    ∃ m', commit m = .ok m' ∧ ∀ (k : Nat) (ks : List Nat), ∃ d' m'', cutRecoveries m.start m.size ks
          (applyWrites m.bc.disk (m'.writes.take k)) = .ok d' ∧
        recoverFromLog (boot m.start m.size d') = .ok m'' ∧
        (((∀ b ∈ m.lh, ∀ i < BSIZE, m''.bc.disk b i = m.bc.disk b i) ∧ k ≤ m.lh.length) ∨
          (∀ b ∈ m.lh, ∀ i < BSIZE, m''.bc.disk b i = m.bc.view b i)) ∧
        (∀ b, ¬ InLog m.start m.size b → b ∉ m.lh →
          applyWrites m.bc.disk (m'.writes.take k) b = m.bc.disk b ∧
          d' b = m.bc.disk b ∧ m''.bc.disk b = m.bc.disk b) := by
  have hroom := ht.room
  have hout' : ∀ b ∈ m.lh, ¬ InLog m.start m.size b := fun b hb => not_inLog (ht.outside b hb)
  -- a crash that leaves the disk in `Pre`
  have hold : ∀ d, Pre m.start m.size m.bc.disk d → ∀ ks, ∃ d' m'',
      cutRecoveries m.start m.size ks d = .ok d' ∧
      recoverFromLog (boot m.start m.size d') = .ok m'' ∧
      Pre m.start m.size m.bc.disk d' ∧ Pre m.start m.size m.bc.disk m''.bc.disk := by
    intro d hd ks
    obtain ⟨d', hcut, hd'⟩ := cutRecoveries_of_pre (by omega) ks d hd
    obtain ⟨m'', hrec, hdisk, hpre⟩ := recover_of_empty m.size hd'.empty
    obtain ⟨hb, hz, hfin⟩ := hpre m''.writes.length
    rw [List.take_length, ← hdisk] at hfin
    refine ⟨d', m'', hcut, hrec, hd', ?_⟩
    rw [hfin]
    exact hd'.update_header (by omega) hz
  -- a crash that leaves it committed
  have hnew : ∀ d, (Committed m.start m.size m.lh m.bc.view m.bc.disk d ∨
      Done m.start m.size m.lh m.bc.view m.bc.disk d) → ∀ ks, ∃ d' m'',
      cutRecoveries m.start m.size ks d = .ok d' ∧
      recoverFromLog (boot m.start m.size d') = .ok m'' ∧
      (Committed m.start m.size m.lh m.bc.view m.bc.disk d' ∨
        Done m.start m.size m.lh m.bc.view m.bc.disk d') ∧
      Done m.start m.size m.lh m.bc.view m.bc.disk m''.bc.disk := by
    intro d hd ks
    obtain ⟨d', hcut, hd'⟩ := cutRecoveries_of_committed ht.outside hroom ks d hd
    rcases hd' with hc | hdone
    · obtain ⟨m'', hrec, -, -, hfin⟩ := recover_of_committed ht.outside hroom hc
      exact ⟨d', m'', hcut, hrec, Or.inl hc, hfin⟩
    obtain ⟨m'', hrec, hdisk, hpre⟩ := recover_of_empty m.size hdone.empty
    obtain ⟨hb, hz, hfin⟩ := hpre m''.writes.length
    rw [List.take_length, ← hdisk] at hfin
    refine ⟨d', m'', hcut, hrec, Or.inr hdone, ?_⟩
    rw [hfin]
    exact hdone.update_header (by omega) hout' hz
  by_cases hpos : 0 < m.lh.length
  · obtain ⟨m', hcommit, hlow, hhigh⟩ := commit_prefix m ht hpos hempty hw
    refine ⟨m', hcommit, ?_⟩
    intro k ks
    by_cases hk : k ≤ m.lh.length
    · have hpre := hlow k hk
      obtain ⟨d', m'', hcut, hrec, hd', hfin⟩ := hold _ hpre ks
      refine ⟨d', m'', hcut, hrec, Or.inl ⟨?_, hk⟩, ?_⟩
      · intro b hb i _
        rw [hfin.home b (hout' b hb)]
      · intro b hb _
        exact ⟨hpre.home b hb, hd'.home b hb, hfin.home b hb⟩
    have hcom := hhigh k (by omega)
    obtain ⟨d', m'', hcut, hrec, hd', hfin⟩ := hnew _ hcom ks
    refine ⟨d', m'', hcut, hrec, Or.inr hfin.home, ?_⟩
    intro b hb hbx
    exact ⟨hcom.elim (fun h => h.frame b hb hbx) (fun h => h.frame b hb hbx),
      hd'.elim (fun h => h.frame b hb hbx) (fun h => h.frame b hb hbx), hfin.frame b hb hbx⟩
  · -- an empty transaction: `commit` writes nothing
    have hnil : m.lh = [] := List.length_eq_zero_iff.mp (by omega)
    have hpre : Pre m.start m.size m.bc.disk m.bc.disk := ⟨hempty, fun _ _ => rfl⟩
    refine ⟨m, if_neg hpos, ?_⟩
    intro k ks
    rw [hw, List.take_nil]
    obtain ⟨d', m'', hcut, hrec, hd', hfin⟩ := hold _ hpre ks
    refine ⟨d', m'', hcut, hrec, Or.inr ?_, ?_⟩
    · intro b hb
      rw [hnil] at hb
      exact nomatch hb
    · intro b hb _
      exact ⟨rfl, hd'.home b hb, hfin.home b hb⟩

/-- A log of 30 blocks at block 2, on an all-zero disk, with two blocks of sevens logged. -/
def twoBlockLog : Log where
  start  := 2
  size   := 30
  lh     := [60, 61]
  bc     := { disk := fun _ _ => 0,
              buf := fun b => if b = 60 ∨ b = 61 then some (fun _ => 7) else none }
  writes := []

lemma twoBlockLog_transaction : Transaction twoBlockLog where
  outside := by decide
  word := by decide
  entries := by decide
  room := by decide

/-- Once the header of `twoBlockLog` is written, both blocks survive any crashes. -/
theorem commit_crash_atomic_twoBlockLog : ∃ m', commit twoBlockLog = .ok m' ∧ ∀ ks : List Nat,
      ∃ d' m'', cutRecoveries 2 30 ks
          (applyWrites twoBlockLog.bc.disk (m'.writes.take 3)) = .ok d' ∧
        recoverFromLog (boot 2 30 d') = .ok m'' ∧ m''.bc.disk 60 0 = 7 ∧ m''.bc.disk 61 1023 = 7 ∧
        m''.bc.disk 62 = twoBlockLog.bc.disk 62 := by
  obtain ⟨m', hcommit, hcrash⟩ :=
    commit_crash_atomic twoBlockLog twoBlockLog_transaction (by decide) rfl
  refine ⟨m', hcommit, ?_⟩
  intro ks
  obtain ⟨d', m'', hcut, hrec, hall, hframe⟩ := hcrash 3 ks
  refine ⟨d', m'', hcut, hrec, ?_⟩
  have hout : ¬ InLog twoBlockLog.start twoBlockLog.size 62 := not_inLog (by decide)
  have h62 := (hframe 62 hout (by decide)).2.2
  rcases hall with ⟨-, hk⟩ | hnew
  · exact absurd hk (by decide)
  · exact ⟨hnew 60 (by decide) 0 (by decide), hnew 61 (by decide) 1023 (by decide), h62⟩

end LogCommit
