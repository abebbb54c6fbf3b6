import Mathlib.Algebra.BigOperators.Group.Finset.Basic
import Xv6Ext2.KernelProofs
import Xv6Ext2.Xv6RunProofs

/-! # Processes that write through one open file (file.c)

    `filewrite` cuts a write into pieces of at most `max` bytes.  For each piece it locks the
    inode, calls `writei` at `f->off`, advances `f->off` and unlocks; between two pieces
    other processes may write theirs through the same `struct file`.  A step of the system
    is what one process does while it holds the lock, or its return.

    - `turn_appends` : what one piece does to the file;
    - `writers_append` : over all interleavings, the pieces stand one behind the other. -/

namespace Filewrite

open BufCache Param Outcome Runs FileIo Xv6Alloc Xv6Inode Xv6Image Icache Xv6Calls Ext2Alloc Kernel

open Function (update update_of_ne update_self)

def MAXWRITE : Nat := (MAXOPBLOCKS - 1 - 1 - 2) / 2 * 512

/-- A call of `filewrite`: the `n` bytes at `addr`, and how many of them are written. -/
structure Write where
  addr : List UInt8
  i    : Nat

/-- The processes `P` that write through `file`, whose inode has one entry of the cache. `calls p`
    are the calls that process `p` has not returned from, `results p` what the others have returned;
    `stored` are the pieces in the order in which they were written. -/
structure State (P : Type) where
  cache   : Cache
  file    : File
  calls   : P → List Write
  results : P → List Int
  stored  : List (P × List UInt8)

/-- The part of the loop of `filewrite` that holds the lock of the inode. -/
def turn (sb : Superblock) (esb : Ext2Super) (devsw : Nat → Devsw) (c : Write) (n1 : Nat)
    (f : File) (st : Cache) : Except Err (Int × File × Cache) := do
  let st ← ilock sb esb f.ip st
  let (r, st) ← writeEntry sb devsw f.ip (fun k => c.addr.getD (c.i + k) 0) f.off n1 st
  if 0 < r then .ok (r, { f with off := (f.off + r.toNat) % 2 ^ 32 }, st)
  else .ok (r, f, st)

section Step

variable {P : Type} [DecidableEq P]

/-- Process `p` returns `r` from its call. -/
def State.ret (s : State P) (p : P) (r : Int) (cs : List Write) : State P :=
  { s with calls := update s.calls p cs
           results := update s.results p (s.results p ++ [r]) }

/-- A step of process `p` in `filewrite`, for a file of an inode. -/
def step (sb : Superblock) (esb : Ext2Super) (devsw : Nat → Devsw) (s : State P) (p : P) :
    Except Err (State P) :=
  match s.calls p with
  | [] => .ok s
  | c :: cs =>
    if s.file.writable = false then .ok (s.ret p (-1) cs)
    else if c.i < c.addr.length then do
      let n1 := if MAXWRITE < c.addr.length - c.i then MAXWRITE else c.addr.length - c.i
      let (r, f, st) ← turn sb esb devsw c n1 s.file s.cache
      let s := { s with cache := st, file := f }
      if r < 0 then .ok (s.ret p (-1) cs)
      else if r ≠ (n1 : Int) then .error (.panic "short filewrite")
      else .ok { s with
        calls := update s.calls p ({ c with i := c.i + n1 } :: cs)
        stored := s.stored ++ [(p, (c.addr.drop c.i).take n1)] }
    else .ok (s.ret p (if c.i = c.addr.length then (c.addr.length : Int) else -1) cs)

end Step

/-! ## Pieces -/

/-- The pieces into which `filewrite` cuts its bytes. -/
def pieces (bs : List UInt8) : List (List UInt8) :=
  if bs = [] then [] else bs.take MAXWRITE :: pieces (bs.drop MAXWRITE)
termination_by bs.length
decreasing_by
  rename_i h
  have := List.length_pos_iff.mpr h
  rw [List.length_drop]
  unfold MAXWRITE MAXOPBLOCKS
  omega

lemma pieces_nil : pieces [] = [] := by rw [pieces, if_pos rfl]

lemma pieces_of_ne {bs : List UInt8} (h : bs ≠ []) :
    pieces bs = bs.take MAXWRITE :: pieces (bs.drop MAXWRITE) := by rw [pieces, if_neg h]

lemma flatten_pieces (bs : List UInt8) : (pieces bs).flatten = bs := by
  induction bs using pieces.induct with
  | case1 => rw [pieces_nil, List.flatten_nil]
  | case2 bs h ih => rw [pieces_of_ne h, List.flatten_cons, ih, List.take_append_drop]

lemma length_le_of_mem_pieces {bs d : List UInt8} (h : d ∈ pieces bs) : d.length ≤ MAXWRITE := by
  induction bs using pieces.induct with
  | case1 => rw [pieces_nil] at h; cases h
  | case2 bs hne ih =>
    rw [pieces_of_ne hne] at h
    rcases List.mem_cons.mp h with rfl | h
    · exact List.length_take_le _ _
    · exact ih h

/-- The pieces that are left of some calls. -/
def rest (cs : List Write) : List (List UInt8) := cs.flatMap (fun c => pieces (c.addr.drop c.i))

lemma rest_cons (c : Write) (cs : List Write) :
    rest (c :: cs) = pieces (c.addr.drop c.i) ++ rest cs := List.flatMap_cons

variable {c : Write}

/-- A call that has written all of its bytes. -/
lemma rest_done (h : c.addr.length ≤ c.i) (cs : List Write) : rest (c :: cs) = rest cs := by
  rw [rest_cons, List.drop_eq_nil_of_le h, pieces_nil, List.nil_append]

lemma rest_turn {n1 : Nat} (h : c.i < c.addr.length)
    (hn1 : n1 = min (c.addr.length - c.i) MAXWRITE) (cs : List Write) :
    rest (c :: cs) = (c.addr.drop c.i).take n1 :: rest ({ c with i := c.i + n1 } :: cs) := by
  have hne : c.addr.drop c.i ≠ [] := by
    intro e
    have := List.drop_eq_nil_iff.mp e
    omega
  have htake : (c.addr.drop c.i).take MAXWRITE = (c.addr.drop c.i).take n1 := by
    rw [List.take_eq_take_iff, List.length_drop]
    omega
  have hdrop : (c.addr.drop c.i).drop MAXWRITE = c.addr.drop (c.i + n1) := by
    rw [List.drop_drop, List.drop_eq_drop_iff]
    omega
  rw [rest_cons, rest_cons, pieces_of_ne hne, htake, hdrop, List.cons_append]

section Own

variable {P : Type} [DecidableEq P]

/-- The pieces of process `p`, in order. -/
def own (p : P) (stored : List (P × List UInt8)) : List (List UInt8) :=
  (stored.filter (fun e => decide (e.1 = p))).map Prod.snd

lemma own_append (p q : P) (stored : List (P × List UInt8)) (d : List UInt8) :
    own q (stored ++ [(p, d)]) = if q = p then own q stored ++ [d] else own q stored := by
  unfold own
  rw [List.filter_append, List.map_append]
  by_cases h : q = p
  · rw [if_pos h, List.filter_cons_of_pos (by simpa using h.symm)]
    rfl
  · rw [if_neg h, List.filter_cons_of_neg (by simpa using Ne.symm h)]
    exact List.append_nil _

end Own

/-! ## One piece -/

def inodeOf (sb : Superblock) (f : File) (st : Cache) : Dinode :=
  dinodeAt sb st.root.view (st.inode f.ip).inum

def bytesOf (sb : Superblock) (f : File) (st : Cache) : List UInt8 :=
  content (inodeOf sb f st) st.root.view

lemma splice_end {c d : List UInt8} {off : Nat} (h : off = c.length) : splice c off d = c ++ d := by
  rw [splice, h, List.take_length, List.drop_eq_nil_of_le (Nat.le_add_right _ _), List.append_nil]

/-- The file of an entry that a process has a reference to, with its offset at the end. -/
structure AtEnd (sb : Superblock) (f : File) (st : Cache) : Prop where
  sync : Sync sb st
  ref  : Referenced st f.ip
  type : (inodeOf sb f st).type = T_FILE
  off  : f.off = (inodeOf sb f st).size

/-- The disk and the file have space for `n` more bytes. -/
structure Space (sb : Superblock) (f : File) (st : Cache) (n : Nat) : Prop where
  fits : (inodeOf sb f st).size + n ≤ MAXFILE * BSIZE
  free : need (blocks (inodeOf sb f st).size) (blocks ((inodeOf sb f st).size + n)) ≤
    freeBlocks sb st.root.view

variable {sb : Superblock} {f : File} {st : Cache} {m : Nat}

lemma Space.mono {n : Nat} (h : Space sb f st n) (hm : m ≤ n) : Space sb f st m := by
  have hblocks : blocks (inodeOf sb f st).size ≤ blocks ((inodeOf sb f st).size + m) ∧
      blocks ((inodeOf sb f st).size + m) ≤ blocks ((inodeOf sb f st).size + n) := by
    unfold blocks BSIZE
    omega
  have hneed := need_trans hblocks.1 hblocks.2
  obtain ⟨hfits, hfree⟩ := h
  exact ⟨by omega, by omega⟩

/-- The space that is left when `m` bytes have been stored at the end. -/
lemma Space.after {f' : File} {st' : Cache} {n : Nat}
    (h : Space sb f st (m + n)) (hsize : (inodeOf sb f' st').size = (inodeOf sb f st).size + m)
    (hcount : freeBlocks sb st.root.view = freeBlocks sb st'.root.view +
      need (blocks (inodeOf sb f st).size) (blocks ((inodeOf sb f st).size + m))) :
    Space sb f' st' n := by
  have hblocks : blocks (inodeOf sb f st).size ≤ blocks ((inodeOf sb f st).size + m) ∧
      blocks ((inodeOf sb f st).size + m) ≤ blocks ((inodeOf sb f st).size + (m + n)) := by
    unfold blocks BSIZE
    omega
  have hneed := need_trans hblocks.1 hblocks.2
  obtain ⟨hfits, hfree⟩ := h
  refine ⟨by omega, ?_⟩
  rw [hsize, Nat.add_assoc]
  omega

/-- **One piece** is stored behind the content, and the offset is at the end again. -/
lemma turn_appends (hl : Layout sb) (esb : Ext2Super) (devsw : Nat → Devsw) {n1 : Nat}
    (h : AtEnd sb f st) (hpos : 0 < n1)
    (hn1 : c.i + n1 ≤ c.addr.length) (hspace : Space sb f st (n1 + m)) :
    ∃ st', turn sb esb devsw c n1 f st = .ok ((n1 : Int), { f with off := f.off + n1 }, st') ∧
      AtEnd sb { f with off := f.off + n1 } st' ∧
      bytesOf sb f st' = bytesOf sb f st ++ (c.addr.drop c.i).take n1 ∧
      Space sb { f with off := f.off + n1 } st' m := by
  obtain ⟨hmax, hfree⟩ := hspace.mono (Nat.le_add_right n1 m)
  obtain ⟨d, hd⟩ : ∃ d, d = (c.addr.drop c.i).take n1 := ⟨_, rfl⟩
  have hlen : d.length = n1 := by
    rw [hd, List.length_take, List.length_drop]
    omega
  have hlim : MAXFILE * BSIZE = 274432 := rfl
  -- the inode is locked
  obtain ⟨st1, hlock, hsync, hlocked, hview, hinum⟩ := h.sync.ilock_eq esb h.ref
    (show (inodeOf sb f st).type ≠ 0 by rw [h.type]; decide)
  have hip : dinodeAt sb st1.root.view (st1.inode f.ip).inum = inodeOf sb f st := by
    rw [hview, hinum]
    rfl
  have htype : (dinodeAt sb st1.root.view (st1.inode f.ip).inum).type = T_FILE := by
    rw [hip]
    exact h.type
  have hoff : f.off = (dinodeAt sb st1.root.view (st1.inode f.ip).inum).size := by
    rw [hip]
    exact h.off
  have hsize : max (dinodeAt sb st1.root.view (st1.inode f.ip).inum).size (f.off + n1) =
      (inodeOf sb f st).size + n1 := by
    rw [hip, h.off]
    omega
  -- the bytes are stored
  obtain ⟨⟨r, ip', bc⟩, hwrite, hr, hw, hcount⟩ := ((writei_counts hl devsw
    (fun k => c.addr.getD (c.i + k) 0) hsync.image
    (hsync.inUse hlocked.1.1 hlocked.1.2 hlocked.2) (.inl htype) (Nat.le_of_eq hoff)
    (show f.off + n1 ≤ _ by rw [h.off]; exact hmax)).mono (fun r hr => hr) (by
      rintro e ⟨-, hlt⟩
      rw [hsize, hip, hview] at hlt
      omega)).exists_ok
  dsimp only at hr hw hcount
  rw [hr] at hwrite
  rw [hsize, hip, hview] at hcount
  obtain ⟨st2, hentry, hsync2, hroot, hsame, -⟩ := hsync.onEntry_eq (f := fun inum ip s =>
    xv6fsWritei sb inum devsw ip (fun k => c.addr.getD (c.i + k) 0) f.off n1 s) hlocked hwrite
    hw.kept
  obtain ⟨-, hinum2, href2, -, -⟩ := hsame
  have hip2 : inodeOf sb f st2 = ip' := by
    rw [inodeOf, hroot, hinum2, hw.stored]
  have hsize2 : ip'.size = (inodeOf sb f st).size + n1 := by
    rw [← hsize, ← hw.fields]
  refine ⟨st2, ?_, ⟨hsync2, ⟨h.ref.1, ?_⟩, ?_, ?_⟩, ?_, ?_⟩
  · have hcall : writeEntry sb devsw f.ip (fun k => c.addr.getD (c.i + k) 0) f.off n1 st1 =
        .ok ((n1 : Int), st2) := hentry
    have hmod : (f.off + n1) % 2 ^ 32 = f.off + n1 := by
      rw [h.off]
      exact Nat.mod_eq_of_lt (by omega)
    rw [turn, hlock, ok_bind, hcall, ok_bind]
    dsimp only
    rw [if_pos (by omega), Int.toNat_natCast, hmod]
  · rw [href2]
    exact hlocked.1.2
  · show (inodeOf sb f st2).type = T_FILE
    rwa [hip2, ← hw.fields]
  · show f.off + n1 = (inodeOf sb f st2).size
    rw [hip2, hsize2, h.off]
  · -- the content, from the bytes that were stored
    have hsrc : Written sb (st1.inode f.ip).inum st1.root.view ip' bc.view f.off d.length
        (fun k => d.getD k 0) := by
      rw [hlen]
      refine ⟨hw.consistent, hw.stored, hw.fields, fun k hk => ?_, hw.others, hw.contents⟩
      rw [hw.bytes k hk]
      by_cases hin : f.off ≤ k ∧ k < f.off + n1
      · rw [if_pos hin, if_pos hin, List.getD_eq_getElem _ 0 (by omega),
          List.getD_eq_getElem _ 0 (by omega)]
        simp only [hd, List.getElem_take, List.getElem_drop]
      · rw [if_neg hin, if_neg hin]
    rw [bytesOf, hip2, hroot, hsrc.content_eq (Nat.le_of_eq hoff), ← hd, splice_end
      (by rw [length_content]; exact hoff), hip, hview]
    rfl
  · refine hspace.after ?_ (by rw [hcount, hroot])
    show (inodeOf sb f st2).size = _
    rw [hip2, hsize2]

/-! ## All interleavings -/

section Runs

variable {P : Type} [DecidableEq P] [Fintype P]

/-- The number of bytes that are not written yet. -/
def left (s : State P) : Nat := ∑ p, (rest (s.calls p)).flatten.length

/-- A sum over the processes when the calls of one of them change. -/
lemma sum_update (g : List Write → Nat) (calls : P → List Write) (p : P) (cs : List Write) :
    ∑ q, g (update calls p cs q) + g (calls p) = ∑ q, g (calls q) + g cs := by
  have hothers : ∑ q ∈ Finset.univ.erase p, g (update calls p cs q) =
      ∑ q ∈ Finset.univ.erase p, g (calls q) :=
    Finset.sum_congr rfl (fun q hq => by rw [update_of_ne (Finset.ne_of_mem_erase hq)])
  have h1 := Finset.add_sum_erase Finset.univ (fun q => g (update calls p cs q)) (Finset.mem_univ p)
  have h2 := Finset.add_sum_erase Finset.univ (fun q => g (calls q)) (Finset.mem_univ p)
  rw [update_self, hothers] at h1
  omega

/-- What is left to do: bytes to write, and calls to return from. -/
def work (s : State P) : Nat := left s + ∑ p, (s.calls p).length

/-- The state of a run that began in `s₀`. -/
structure Inv (sb : Superblock) (s₀ s : State P) : Prop where
  atEnd    : AtEnd sb s.file s.cache
  writable : s.file.writable = true
  bytes    : bytesOf sb s.file s.cache =
    bytesOf sb s₀.file s₀.cache ++ (s.stored.map Prod.snd).flatten
  order    : ∀ p, own p s.stored ++ rest (s.calls p) = rest (s₀.calls p)
  within   : ∀ p, ∀ c ∈ s.calls p, c.i ≤ c.addr.length
  results  : ∀ p, s.results p ++ (s.calls p).map (fun c => (c.addr.length : Int)) =
    (s₀.calls p).map (fun c => (c.addr.length : Int))
  space    : Space sb s.file s.cache (left s)

variable {sb : Superblock} {s₀ s : State P} {cs : List Write}

/-- A process returns from its call. -/
lemma Inv.ret (h : Inv sb s₀ s) {p : P} (hcalls : s.calls p = c :: cs)
    (hdone : c.i = c.addr.length) :
    Inv sb s₀ (s.ret p c.addr.length cs) ∧ work (s.ret p c.addr.length cs) < work s := by
  have hrest : rest (s.calls p) = rest cs := by
    rw [hcalls, rest_done (Nat.le_of_eq hdone.symm)]
  have hleft : left (s.ret p c.addr.length cs) = left s := by
    have hsum : left (s.ret p c.addr.length cs) + _ = left s + _ :=
      sum_update (fun cs => (rest cs).flatten.length) s.calls p cs
    rw [hrest] at hsum
    omega
  have hwork : work (s.ret p c.addr.length cs) < work s := by
    have hsum := sum_update List.length s.calls p cs
    have hcons : (s.calls p).length = cs.length + 1 := by rw [hcalls, List.length_cons]
    show left (s.ret p c.addr.length cs) + ∑ q, (update s.calls p cs q).length < _
    rw [hleft, work]
    omega
  refine ⟨⟨h.atEnd, h.writable, h.bytes, fun q => ?_, fun q d hd => ?_, fun q => ?_, ?_⟩, hwork⟩
  · show own q s.stored ++ rest (update s.calls p cs q) = _
    by_cases hq : q = p
    · rw [hq, update_self, ← hrest, h.order p]
    · rw [update_of_ne hq, h.order q]
  · have hd' : d ∈ update s.calls p cs q := hd
    by_cases hq : q = p
    · rw [hq, update_self] at hd'
      exact h.within p d (by rw [hcalls]; exact List.mem_cons_of_mem c hd')
    · rw [update_of_ne hq] at hd'
      exact h.within q d hd'
  · show update s.results p _ q ++ List.map _ (update s.calls p cs q) = _
    by_cases hq : q = p
    · rw [hq, update_self, update_self, ← h.results p, hcalls, List.map_cons,
        List.append_assoc, List.singleton_append]
    · rw [update_of_ne hq, update_of_ne hq, h.results q]
  · rw [hleft]
    exact h.space

lemma Inv.turn (h : Inv sb s₀ s) {p : P} {n1 : Nat} (hcalls : s.calls p = c :: cs)
    (hlt : c.i < c.addr.length) (hn1 : n1 = min (c.addr.length - c.i) MAXWRITE)
    (hend : AtEnd sb f st) (hf : f.writable = s.file.writable)
    (hbytes : bytesOf sb f st = bytesOf sb s.file s.cache ++ (c.addr.drop c.i).take n1)
    (hspace : Space sb f st (left { s with
      calls := update s.calls p ({ c with i := c.i + n1 } :: cs) })) :
    Inv sb s₀ { s with
      cache := st
      file := f
      calls := update s.calls p ({ c with i := c.i + n1 } :: cs)
      stored := s.stored ++ [(p, (c.addr.drop c.i).take n1)] } := by
  refine ⟨hend, hf.trans h.writable, ?_, fun q => ?_, fun q d hd => ?_, fun q => ?_, hspace⟩
  · show bytesOf sb f st = _
    rw [hbytes, h.bytes, List.map_append, List.flatten_append, List.append_assoc]
    simp
  · show own q (s.stored ++ [(p, (c.addr.drop c.i).take n1)]) ++
      rest (update s.calls p ({ c with i := c.i + n1 } :: cs) q) = _
    rw [own_append]
    by_cases hq : q = p
    · rw [if_pos hq, hq, update_self, ← h.order p, hcalls, rest_turn hlt hn1,
        List.append_assoc, List.singleton_append]
    · rw [if_neg hq, update_of_ne hq, h.order q]
  · have hd' : d ∈ update s.calls p ({ c with i := c.i + n1 } :: cs) q := hd
    by_cases hq : q = p
    · rw [hq, update_self] at hd'
      rcases List.mem_cons.mp hd' with rfl | hd'
      · dsimp only
        omega
      · exact h.within p d (by rw [hcalls]; exact List.mem_cons_of_mem c hd')
    · rw [update_of_ne hq] at hd'
      exact h.within q d hd'
  · show s.results q ++ List.map _ (update s.calls p ({ c with i := c.i + n1 } :: cs) q) = _
    by_cases hq : q = p
    · rw [hq, update_self, ← h.results p, hcalls, List.map_cons, List.map_cons]
    · rw [update_of_ne hq, h.results q]

/-- **A step** of one of the processes. -/
lemma Inv.step (hl : Layout sb) (esb : Ext2Super) (devsw : Nat → Devsw) (h : Inv sb s₀ s) (p : P) :
    ∃ s', step sb esb devsw s p = .ok s' ∧ Inv sb s₀ s' ∧ (s.calls p ≠ [] → work s' < work s) := by
  rw [Filewrite.step]
  cases hcalls : s.calls p with
  | nil => exact ⟨s, rfl, h, fun hne => absurd rfl hne⟩
  | cons c cs =>
    have hwithin := h.within p c (by rw [hcalls]; exact List.mem_cons_self)
    dsimp only
    rw [if_neg (by rw [h.writable]; exact Bool.noConfusion)]
    by_cases hlt : c.i < c.addr.length
    · -- the next piece
      obtain ⟨n1, hn1⟩ : ∃ n1, n1 = if MAXWRITE < c.addr.length - c.i then MAXWRITE
          else c.addr.length - c.i := ⟨_, rfl⟩
      have hmin : n1 = min (c.addr.length - c.i) MAXWRITE := by
        rw [hn1]
        split <;> omega
      have hpos : 0 < n1 := by
        have : 0 < MAXWRITE := by decide
        omega
      obtain ⟨s1, hs1⟩ : ∃ s1, s1 = { s with
          calls := update s.calls p ({ c with i := c.i + n1 } :: cs) } := ⟨_, rfl⟩
      have hleft : left s = n1 + left s1 := by
        have hsum : left s1 + (rest (s.calls p)).flatten.length =
            left s + (rest ({ c with i := c.i + n1 } :: cs)).flatten.length := by
          rw [hs1]
          exact sum_update (fun cs => (rest cs).flatten.length) s.calls p _
        have hlen : ((c.addr.drop c.i).take n1).length = n1 := by
          rw [List.length_take, List.length_drop]
          omega
        rw [hcalls, rest_turn hlt hmin, List.flatten_cons, List.length_append, hlen] at hsum
        omega
      have hwork : work s1 < work s := by
        have hsum := sum_update List.length s.calls p ({ c with i := c.i + n1 } :: cs)
        rw [hcalls, List.length_cons, List.length_cons] at hsum
        have hcount : ∑ q, (s1.calls q).length = ∑ q, (s.calls q).length := by
          rw [hs1]
          exact Nat.add_right_cancel hsum
        rw [work, work, hcount, hleft]
        omega
      obtain ⟨st', hturn, hend, hbytes, hspace⟩ := turn_appends hl esb devsw h.atEnd hpos
        (show c.i + n1 ≤ c.addr.length by omega) (hleft ▸ h.space)
      rw [if_pos hlt, ← hn1, hturn, ok_bind]
      dsimp only
      rw [if_neg (by omega), if_neg (fun hne => hne rfl)]
      rw [hs1] at hspace hwork
      exact ⟨_, rfl, h.turn hcalls hlt hmin hend rfl hbytes hspace, fun _ => hwork⟩
    · rw [if_neg hlt, if_pos (by omega)]
      obtain ⟨hinv, hwork⟩ := h.ret hcalls (by omega)
      exact ⟨_, rfl, hinv, fun _ => hwork⟩

lemma Inv.finish (hl : Layout sb) (esb : Ext2Super) (devsw : Nat → Devsw) (n : Nat) :
    ∀ s, Inv sb s₀ s → work s ≤ n →
    ∃ schedule t, Runs.exec (Filewrite.step sb esb devsw) schedule s = .ok t ∧ Inv sb s₀ t ∧
      ∀ p, t.calls p = [] := by
  induction n with
  | zero =>
    intro s h hn
    refine ⟨[], s, rfl, h, fun p => ?_⟩
    have hsum : ∑ q, (s.calls q).length = 0 := by
      rw [work] at hn
      omega
    exact List.length_eq_zero_iff.mp (Finset.sum_eq_zero_iff.mp hsum p (Finset.mem_univ p))
  | succ n ih =>
    intro s h hn
    by_cases hall : ∀ p, s.calls p = []
    · exact ⟨[], s, rfl, h, hall⟩
    obtain ⟨p, hp⟩ := not_forall.mp hall
    obtain ⟨s1, hstep, h1, hwork⟩ := h.step hl esb devsw p
    have := hwork hp
    obtain ⟨schedule, t, hexec, ht, hdone⟩ := ih s1 h1 (by omega)
    refine ⟨p :: schedule, t, ?_, ht, hdone⟩
    rw [Runs.exec, hstep, ok_bind, hexec]

/-- The processes begin: the offset is at the end of a regular file, and there is space for
    the bytes of all calls. -/
structure Started (sb : Superblock) (s : State P) : Prop where
  atEnd    : AtEnd sb s.file s.cache
  writable : s.file.writable = true
  calls    : ∀ p, ∀ c ∈ s.calls p, c.i = 0
  results  : ∀ p, s.results p = []
  stored   : s.stored = []
  space    : Space sb s.file s.cache (∑ p, ((s.calls p).map (fun c => c.addr.length)).sum)

def allPieces (cs : List Write) : List (List UInt8) := cs.flatMap (fun c => pieces c.addr)

lemma rest_eq_allPieces (h : ∀ c ∈ cs, c.i = 0) : rest cs = allPieces cs := by
  refine List.flatMap_congr (fun c hc => ?_)
  rw [h c hc, List.drop_zero]

lemma length_allPieces (cs : List Write) :
    (allPieces cs).flatten.length = (cs.map (fun c => c.addr.length)).sum := by
  induction cs with
  | nil => rfl
  | cons c cs ih =>
    rw [allPieces, List.flatMap_cons, List.flatten_append, List.length_append, flatten_pieces,
      List.map_cons, List.sum_cons, ← ih, allPieces]

lemma Started.inv (h : Started sb s) : Inv sb s s := by
  have hleft : left s = ∑ p, ((s.calls p).map (fun c => c.addr.length)).sum := by
    refine Finset.sum_congr rfl (fun p _ => ?_)
    rw [rest_eq_allPieces (h.calls p), length_allPieces]
  refine ⟨h.atEnd, h.writable, ?_, fun p => ?_, fun p c hc => ?_, fun p => ?_, ?_⟩
  · rw [h.stored, List.map_nil, List.flatten_nil, List.append_nil]
  · rw [h.stored]
    rfl
  · rw [h.calls p c hc]
    exact Nat.zero_le _
  · rw [h.results p, List.nil_append]
  · rw [hleft]
    exact h.space

/-- What the processes have made of the file: the old content, then the pieces that were stored,
    each whole and behind the one before; each process has stored its own in order. -/
structure Appended (sb : Superblock) (s t : State P) : Prop where
  bytes    : bytesOf sb t.file t.cache =
    bytesOf sb s.file s.cache ++ (t.stored.map Prod.snd).flatten
  off      : t.file.off = (bytesOf sb t.file t.cache).length
  short    : ∀ e ∈ t.stored, e.2.length ≤ 1536
  order    : ∀ p, own p t.stored <+: allPieces (s.calls p)
  complete : ∀ p, t.calls p = [] → own p t.stored = allPieces (s.calls p) ∧
    t.results p = (s.calls p).map (fun c => (c.addr.length : Int))

lemma Inv.appended {t : State P} (hs : Started sb s) (h : Inv sb s t) : Appended sb s t := by
  have horder : ∀ p, own p t.stored ++ rest (t.calls p) = allPieces (s.calls p) := by
    intro p
    rw [h.order p, rest_eq_allPieces (hs.calls p)]
  refine ⟨h.bytes, ?_, fun e he => ?_, fun p => ⟨_, horder p⟩, fun p hp => ⟨?_, ?_⟩⟩
  · rw [bytesOf, length_content]
    exact h.atEnd.off
  · have hmem : e.2 ∈ allPieces (s.calls e.1) := by
      rw [← horder e.1]
      refine List.mem_append_left _ (List.mem_map.mpr ⟨e, List.mem_filter.mpr ⟨he, ?_⟩, rfl⟩)
      exact decide_eq_true rfl
    obtain ⟨c, -, hc⟩ := List.mem_flatMap.mp hmem
    exact length_le_of_mem_pieces hc
  · have := horder p
    rwa [hp, rest, List.flatMap_nil, List.append_nil] at this
  · have := h.results p
    rwa [hp, List.map_nil, List.append_nil] at this

/-- **Main result.**  Over every schedule the calls write on, and the content of the file is
    the old one followed by the pieces of the processes in some order that keeps the order
    of each process; the offset is at the end.  All calls can return. -/
theorem writers_append {sb : Superblock} (hl : Layout sb) (esb : Ext2Super)
    (devsw : Nat → Devsw) (s : State P) (h : Started sb s) (schedule : List P) :
    ∃ t, Runs.exec (step sb esb devsw) schedule s = .ok t ∧ Appended sb s t ∧
      ∃ more u, Runs.exec (step sb esb devsw) more t = .ok u ∧ Appended sb s u ∧
        ∀ p, u.calls p = [] := by
  have hkeep : ∀ u p, Inv sb s u → True → Sat (step sb esb devsw u p) (Inv sb s)
      (fun _ => False) := by
    intro u p hu _
    obtain ⟨u', hstep, hu', -⟩ := hu.step hl esb devsw p
    rw [hstep]
    exact Sat.ok hu'
  obtain ⟨t, ht, hinv⟩ := (exec_sat hkeep schedule s h.inv
    (AllSteps.of_forall (fun _ _ => trivial) _ _)).exists_ok
  obtain ⟨more, u, hu, hinv', hdone⟩ := hinv.finish hl esb devsw (work t) t le_rfl
  exact ⟨t, ht, hinv.appended h, more, u, hu, hinv'.appended h, hdone⟩

end Runs

/-! ## Two processes -/

/-- The file of the small image is fetched. -/
def smallRun : Except Err Cache :=
  Runs.exec (callStep smallDisk Ext2Layout.smallSuper (fun _ => ⟨none, none⟩)) [.iget 2]
    (bootCache ⟨smallImage, fun _ => none⟩ blankDevice)

/-- Two processes write five and two bytes behind the five bytes of the file. -/
def twoWriters : State Bool where
  cache   := smallRun.toOption.getD (bootCache ⟨smallImage, fun _ => none⟩ blankDevice)
  file    := ⟨2, .inode, 0, 5, true, true⟩
  calls   := fun p => if p then [⟨[1, 2], 0⟩] else [⟨[3, 4, 5], 0⟩, ⟨[6, 7], 0⟩]
  results := fun _ => []
  stored  := []

lemma twoWriters_started : Started smallDisk twoWriters := by
  have hrun : Sat smallRun (Sync smallDisk) Expected :=
    exec_sat (fun st act hs hc => callStep_sat smallDisk_layout _ _ act hs hc) _ _
      (sync_boot _ _ smallImage_consistent) (by decide +kernel)
  obtain ⟨u, hu, -⟩ := exists_ok_of_map (f := fun _ => ()) (b := ())
    (show smallRun.map _ = .ok () by decide +kernel)
  have hsync : Sync smallDisk twoWriters.cache := by
    rw [twoWriters, hu]
    exact hrun.of_ok hu
  refine ⟨⟨hsync, by decide +kernel, by decide +kernel, by decide +kernel⟩, rfl, ?_,
    fun _ => rfl, rfl, ⟨by decide +kernel, by decide +kernel⟩⟩
  rintro (_ | _) c hc
  · rcases List.mem_cons.mp hc with rfl | hc
    · rfl
    · rw [List.mem_singleton.mp hc]
  · rw [List.mem_singleton.mp hc]

theorem writers_append_two :
    ∃ t, Runs.exec (step smallDisk Ext2Layout.smallSuper (fun _ => ⟨none, none⟩))
        [false, true, false, false] twoWriters = .ok t ∧ Appended smallDisk twoWriters t := by
  obtain ⟨t, ht, happ, -⟩ := writers_append smallDisk_layout Ext2Layout.smallSuper
    (fun _ => ⟨none, none⟩) twoWriters twoWriters_started [false, true, false, false]
  exact ⟨t, ht, happ⟩

end Filewrite
