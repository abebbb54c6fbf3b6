import Xv6Ext2.BufCacheProofs

/-! # Reading and writing the bytes of an inode

    `xv6fs_readi` and `ext2fs_readi` are the same loop over different block maps, and so are
    `xv6fs_writei` and `ext2fs_writei`, except that the first logs the blocks it changes and the
    second writes them.  The loops are defined here once, over the block map, the way a block is
    stored, and the update of the inode on disk. -/

namespace FileIo

open ByteBlock BufCache Outcome

def T_DIR : Nat := 1
def T_FILE : Nat := 2
def T_DEV : Nat := 3

def NDEV : Nat := 10

/-- The fields of an inode that are copies of the disk's: of `struct dinode`, and of `struct inode`
    with the pointers of its address slot.  The `short` fields are their 16 bits. -/
@[ext]
structure Dinode where
  type  : Nat
  major : Nat
  minor : Nat
  nlink : Nat
  size  : Nat
  addrs : Nat → Nat

/-- An entry of `devsw`: what the device's functions return for `n` bytes. -/
structure Devsw where
  read  : Option (Nat → Int × List UInt8)
  write : Option ((Nat → UInt8) → Nat → Int)

/-- An `unsigned int` returned as an `int`. -/
def asInt (n : Nat) : Int := if n < 2 ^ 31 then n else (n : Int) - 2 ^ 32

/-- `bmap` of a file system: the disk block of block `bn` of the inode. -/
abbrev Bmap := Dinode → Nat → Bcache → Except Err (Nat × Dinode × Bcache)

/-- The loop of `readi` with `r` bytes left; `fuel` bounds its turns. -/
def readLoop (bmap : Bmap) :
    Nat → Dinode → Nat → Nat → Bcache → Except Err (List UInt8 × Dinode × Bcache)
  | 0, ip, _, _, s => .ok ([], ip, s)
  | fuel + 1, ip, off, r, s =>
    if r = 0 then .ok ([], ip, s)
    else do
      let (b, ip, s) ← bmap ip (off / BSIZE) s
      let (d, s) ← bread [] b s
      let m := min r (BSIZE - off % BSIZE)
      let (rest, ip, s) ← readLoop bmap fuel ip (off + m) (r - m) s
      .ok ((List.range m).map (fun k => d (off % BSIZE + k)) ++ rest, ip, s)

/-- `readi`: what it returns, and the bytes it stores at `dst`. -/
def readi (bmap : Bmap) (devsw : Nat → Devsw) (ip : Dinode) (off n : Nat) (s : Bcache) :
    Except Err ((Int × List UInt8) × Dinode × Bcache) :=
  if ip.type = T_DEV then
    if NDEV ≤ ip.major then .ok ((-1, []), ip, s)
    else match (devsw ip.major).read with
      | none => .ok ((-1, []), ip, s)
      | some f => .ok (f n, ip, s)
  else if ip.size < off ∨ (off + n) % 2 ^ 32 < off then .ok ((-1, []), ip, s)
  else
    let n := if ip.size < (off + n) % 2 ^ 32 then ip.size - off else n
    do
      let (bytes, ip, s) ← readLoop bmap n ip off n s
      .ok ((asInt n, bytes), ip, s)

/-- The loop of `writei` with `r` bytes left; `put` stores the changed buffer. -/
def writeLoop (bmap : Bmap) (put : Nat → Block → Bcache → Bcache) :
    Nat → Dinode → (Nat → UInt8) → Nat → Nat → Bcache → Except Err (Dinode × Bcache)
  | 0, ip, _, _, _, s => .ok (ip, s)
  | fuel + 1, ip, src, off, r, s =>
    if r = 0 then .ok (ip, s)
    else do
      let (b, ip, s) ← bmap ip (off / BSIZE) s
      let (d, s) ← bread [] b s
      let m := min r (BSIZE - off % BSIZE)
      writeLoop bmap put fuel ip (fun k => src (m + k)) (off + m) (r - m)
        (put b (blit d (off % BSIZE) m src) s)

/-- `writei`: what it returns, for the bytes at `src`. -/
def writei (bmap : Bmap) (put : Nat → Block → Bcache → Bcache)
    (iupdate : Dinode → Bcache → Except Err Bcache) (maxBytes : Nat) (devsw : Nat → Devsw)
    (ip : Dinode) (src : Nat → UInt8) (off n : Nat) (s : Bcache) :
    Except Err (Int × Dinode × Bcache) :=
  if ip.type = T_DEV then
    if NDEV ≤ ip.major then .ok (-1, ip, s)
    else match (devsw ip.major).write with
      | none => .ok (-1, ip, s)
      | some f => .ok (f src n, ip, s)
  else if ip.size < off ∨ (off + n) % 2 ^ 32 < off then .ok (-1, ip, s)
  else if maxBytes < (off + n) % 2 ^ 32 then .ok (-1, ip, s)
  else do
    let (ip, s) ← writeLoop bmap put n ip src off n s
    if 0 < n ∧ ip.size < (off + n) % 2 ^ 32 then do
      let ip := { ip with size := (off + n) % 2 ^ 32 }
      let s ← iupdate ip s
      .ok (asInt n, ip, s)
    else .ok (asInt n, ip, s)

/-! ## What a read returns -/

/-- Byte `k` of a file whose block `bn` is the disk block `at_ bn`. -/
def byteAt (at_ : Nat → Nat) (v : Disk) (k : Nat) : UInt8 := v (at_ (k / BSIZE)) (k % BSIZE)

/-- The bytes of one block, as the loop of `readi` copies them. -/
lemma map_byteAt (at_ : Nat → Nat) (v : Disk) {off m : Nat} (hm : m ≤ BSIZE - off % BSIZE) :
    (List.range m).map (fun k => v (at_ (off / BSIZE)) (off % BSIZE + k)) =
      (List.range m).map (fun k => byteAt at_ v (off + k)) := by
  refine List.map_congr_left (fun k hk => ?_)
  have hk' := List.mem_range.mp hk
  have hdiv : (off + k) / BSIZE = off / BSIZE := by unfold BSIZE at *; omega
  have hmod : (off + k) % BSIZE = off % BSIZE + k := by unfold BSIZE at *; omega
  rw [byteAt, hdiv, hmod]

lemma range_map_append (f : Nat → UInt8) (m r : Nat) :
    (List.range m).map f ++ (List.range r).map (fun k => f (m + k)) =
      (List.range (m + r)).map f := by
  rw [List.range_add, List.map_append, List.map_map]
  rfl

variable {bmap : Bmap} {ip : Dinode} {v : Disk} {at_ : Nat → Nat}

/-- Over blocks that the block map finds, the loop of `readi` returns the bytes and changes
    no contents. -/
lemma readLoop_bytes (fuel : Nat) : ∀ (off r : Nat) (s : Bcache), r ≤ fuel → s.view = v →
      (∀ bn t, off / BSIZE ≤ bn → bn * BSIZE < off + r → t.view = v →
        ∃ t', bmap ip bn t = .ok (at_ bn, ip, t') ∧ t'.view = v) →
      ∃ s', readLoop bmap fuel ip off r s =
        .ok ((List.range r).map (fun k => byteAt at_ v (off + k)), ip, s') ∧ s'.view = v := by
  induction fuel with
  | zero =>
    intro off r s hr hs _
    obtain rfl : r = 0 := by omega
    exact ⟨s, rfl, hs⟩
  | succ fuel ih =>
    intro off r s hr hs hbmap
    rw [readLoop]
    by_cases hr0 : r = 0
    · subst hr0
      exact ⟨s, if_pos rfl, hs⟩
    rw [if_neg hr0]
    obtain ⟨m, hm⟩ : ∃ m, m = min r (BSIZE - off % BSIZE) := ⟨_, rfl⟩
    have hpos : 0 < m := by unfold BSIZE at *; omega
    obtain ⟨s1, hmap, hs1⟩ := hbmap (off / BSIZE) s le_rfl
      (Nat.lt_of_le_of_lt (Nat.div_mul_le_self off BSIZE) (by omega)) hs
    rw [hmap, ok_bind]
    dsimp only
    rw [bread_nil]
    dsimp only
    rw [← hm]
    obtain ⟨s2, hrest, hs2⟩ := ih (off + m) (r - m) (s1.touch (at_ (off / BSIZE))) (by omega)
      (by rw [touch_view, hs1]) (fun bn t h1 h2 => hbmap bn t
        (Nat.le_trans (Nat.div_le_div_right (Nat.le_add_right off m)) h1) (by omega))
    rw [hrest, ok_bind]
    dsimp only
    refine ⟨s2, ?_, hs2⟩
    rw [hs1, map_byteAt at_ v (by omega)]
    have hcat := range_map_append (fun k => byteAt at_ v (off + k)) m (r - m)
    simp only [← Nat.add_assoc] at hcat
    rw [hcat, show m + (r - m) = r by omega]

lemma readi_bytes (devsw : Nat → Devsw)
    {off n : Nat} {s : Bcache} (hdev : ip.type ≠ T_DEV) (hsize : ip.size < 2 ^ 32)
    (hend : off + n ≤ ip.size) (hn : n < 2 ^ 31) (hs : s.view = v)
    (hbmap : ∀ bn t, bn * BSIZE < ip.size → t.view = v →
      ∃ t', bmap ip bn t = .ok (at_ bn, ip, t') ∧ t'.view = v) : ∃ s', readi bmap devsw ip off n s =
      .ok ((n, (List.range n).map (fun k => byteAt at_ v (off + k))), ip, s') ∧ s'.view = v := by
  have hmod : (off + n) % 2 ^ 32 = off + n := Nat.mod_eq_of_lt (by omega)
  obtain ⟨s', hloop, hs'⟩ := readLoop_bytes n off n s (Nat.le_refl n) hs
    (fun bn t _ hbn ht => hbmap bn t (by omega) ht)
  refine ⟨s', ?_, hs'⟩
  rw [readi, if_neg hdev, hmod, if_neg (by omega), if_neg (by omega)]
  dsimp only
  rw [hloop, ok_bind, asInt, if_pos hn]

/-! ## A write in one block -/

lemma writeLoop_one {put : Nat → Block → Bcache → Bcache} {fuel off r : Nat}
    (hr : 0 < r) (hfuel : r ≤ fuel) (hblock : off % BSIZE + r ≤ BSIZE) (ip : Dinode)
    (src : Nat → UInt8) (s : Bcache) : writeLoop bmap put fuel ip src off r s = (do
      let (b, ip, s) ← bmap ip (off / BSIZE) s
      .ok (ip, put b (blit (s.view b) (off % BSIZE) r src) (s.touch b))) := by
  cases fuel with
  | zero => exact absurd hfuel (by omega)
  | succ fuel =>
    have hm : min r (BSIZE - off % BSIZE) = r := Nat.min_eq_left (by omega)
    have hdone : ∀ (ip : Dinode) (src : Nat → UInt8) (off : Nat) (s : Bcache),
        writeLoop bmap put fuel ip src off 0 s = .ok (ip, s) := by
      intro ip src off s
      cases fuel with
      | zero => rfl
      | succ fuel => exact if_pos rfl
    rw [writeLoop, if_neg (by omega)]
    simp only [bread_nil, hm, Nat.sub_self, hdone]

/-! ## Fields that the loops keep -/

section Field

-- What a block map keeps of the inode, reading and writing keep.
variable {α : Type} {p : Dinode → α} {bmap : Bmap} {ip ip' : Dinode} {s s' : Bcache}
  (hbmap : ∀ {ip : Dinode} {bn : Nat} {s : Bcache} {b : Nat} {ip' : Dinode} {s' : Bcache},
    bmap ip bn s = .ok (b, ip', s') → p ip' = p ip)
include hbmap

lemma writeLoop_field {put : Nat → Block → Bcache → Bcache} (fuel : Nat) :
    ∀ {ip ip' : Dinode} {src : Nat → UInt8} {off r : Nat} {s s' : Bcache},
      writeLoop bmap put fuel ip src off r s = .ok (ip', s') → p ip' = p ip := by
  induction fuel with
  | zero =>
    intro ip ip' src off r s s' h
    rw [(ok_pair_inj h).1]
  | succ fuel ih =>
    intro ip ip' src off r s s' h
    rw [writeLoop] at h
    split at h
    · rw [(ok_pair_inj h).1]
    obtain ⟨⟨b, ip₁, s₁⟩, h₁, h⟩ := bind_eq_ok.mp h
    obtain ⟨⟨d, s₂⟩, -, h⟩ := bind_eq_ok.mp h
    rw [ih h, hbmap h₁]

end Field

end FileIo
