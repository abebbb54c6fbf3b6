import Xv6Ext2.Ext2DirlinkProofs
import Xv6Ext2.SysfileProofs

/-! # What `dirlink` stores of its stack (fs.c, ext2fs.c)

    Both `dirlink` functions build the new record in a local variable `de`.  Here the memory
    from that variable on is an argument, and two runs with different memory are compared.

    - `findFree_two` : the loop over the records ends in the same place whatever was in `de`;
    - `xv6fs_two_runs` : `xv6fs_dirlink` writes 16 bytes, all of which it has set;
    - `writeLoop_last` : the last byte that `writei` is given ends up on the disk;
    - `dirlink_stackFree_iff` : so nothing of the stack gets on the disk exactly if
      `ext2fs_dirlink` does not come to write its record of 1024 bytes. -/

namespace DirlinkStack

open ByteBlock BufCache Param Outcome FileIo DirName Xv6Alloc Xv6Inode Xv6Image Ext2Alloc Ext2Bmap
  Ext2Inode Icache Kernel

open Except (ok.inj)

/-! ## `dirlink` with its local variable -/

/-- The loop of both functions for a free record: `n` bytes at a time are read into `de`. -/
def findFree (rd : Ext2Dir.Reader) (n : Nat) (msg : String) (free : Block → Bool) :
    Nat → Nat → Block → Dinode → Bcache → Except Err (Nat × Block × Dinode × Bcache)
  | 0, off, de, ip, s => .ok (off, de, ip, s)
  | fuel + 1, off, de, ip, s =>
    if off < ip.size then do
      let ((r, bytes), ip, s) ← rd ip off n s
      if r ≠ (n : Int) then .error (.panic msg)
      else
        let de := blit de 0 n (fun k => bytes.getD k 0)
        if free de = true then .ok (off, de, ip, s)
        else findFree rd n msg free fuel (off + n) de ip s
    else .ok (off, de, ip, s)

/-- `strncpy(de.name, name, DIRSIZ)` and `de.inum = inum` of `xv6fs_dirlink`. -/
def xv6Dirent (de : Block) (name : List UInt8) (inum : Nat) : Block :=
  putLE (blit de 2 Xv6Dir.DIRSIZ (strncpyByte (cstr name))) 2 0 inum

variable (cfg : Config)

/-- The part of `dirlink` that adds the record; `de` is what the memory from the local
    variable on contains. -/
def addIn (de : Block) (name : List UInt8) (inum : Nat) :
    Iops → Nat → Dinode → Bcache → Except Err (Int × Dinode × Bcache)
  | .xv6fs, dnum, ip, s => do
      let (off, de, ip, s) ← findFree (readiOf cfg .xv6fs dnum) Xv6Dir.DIRENT "dirlink read"
        (fun de => Xv6Dir.deInum de == 0) ip.size 0 de ip s
      let (r, ip, s) ← writeiOf cfg .xv6fs dnum ip (xv6Dirent de name inum) off Xv6Dir.DIRENT s
      if r ≠ (Xv6Dir.DIRENT : Int) then .error (.panic "dirlink")
      else .ok (0, ip, s)
  | .ext2fs, dnum, ip, s => do
      let (off, de, ip, s) ← findFree (readiOf cfg .ext2fs dnum) Ext2Dir.DIRENT "ext2fs_dirlink read"
        (fun de => Ext2Dir.deInode de == 0) ip.size 0 de ip s
      Ext2Dir.storeRecord cfg.esb dnum cfg.devsw (Ext2Dir.newDirent de name inum) off ip s

def dirlinkIn (de : Block) (a : Nat) (name : List UInt8) (inum : Nat) : Sys Int := do
  match ← dirlookup cfg a name with
  | some (_, b) => do
      iput cfg b
      return -1
  | none => dispatch a (addIn cfg de name inum)

/-! ## The loop over the records -/

lemma blit_agree {b b' : Block} {k : Nat} (h : b k = b' k) (o n : Nat) (src : Nat → UInt8) :
    blit b o n src k = blit b' o n src k := by
  unfold blit
  rw [h]

/-- Two runs of the loop that began with `de` and `de'`: bytes that were equal are equal, and
    nothing behind the record was touched. -/
def Alike (n : Nat) (de de' : Block) :
    Nat × Block × Dinode × Bcache → Nat × Block × Dinode × Bcache → Prop :=
  fun x y => x.1 = y.1 ∧ x.2.2 = y.2.2 ∧ (∀ k, de k = de' k → x.2.1 k = y.2.1 k) ∧
    (∀ k, n ≤ k → x.2.1 k = de k) ∧ ∀ k, n ≤ k → y.2.1 k = de' k

lemma findFree_two {rd : Ext2Dir.Reader} {n : Nat} {msg : String} {free : Block → Bool}
    (hfree : ∀ d d' : Block, (∀ k < n, d k = d' k) → free d = free d') (fuel : Nat) :
    ∀ (off : Nat) (de de' : Block) (ip : Dinode) (s : Bcache),
      Rel (Alike n de de') (findFree rd n msg free fuel off de ip s)
        (findFree rd n msg free fuel off de' ip s) := by
  induction fuel with
  | zero =>
    intro off de de' ip s
    exact Rel.ok ⟨rfl, rfl, fun _ h => h, fun _ _ => rfl, fun _ _ => rfl⟩
  | succ fuel ih =>
    intro off de de' ip s
    rw [findFree, findFree]
    by_cases hoff : off < ip.size
    · rw [if_pos hoff, if_pos hoff]
      refine Rel.bind (R := Eq) ?_ ?_
      · cases rd ip off n s with
        | error e => exact Rel.error e
        | ok x => exact Rel.ok rfl
      rintro ⟨⟨r, bytes⟩, ip₁, s₁⟩ _ rfl
      dsimp only
      by_cases hr : r = (n : Int)
      · rw [if_neg (not_not.mpr hr), if_neg (not_not.mpr hr)]
        have hread : ∀ k < n, blit de 0 n (fun k => bytes.getD k 0) k =
            blit de' 0 n (fun k => bytes.getD k 0) k := by
          intro k hk
          rw [blit_in (by omega), blit_in (by omega)]
        have hbehind : ∀ (d : Block) k, n ≤ k → blit d 0 n (fun k => bytes.getD k 0) k = d k :=
          fun d k hk => blit_out (by omega)
        have hagree : ∀ k, de k = de' k → blit de 0 n (fun k => bytes.getD k 0) k =
          blit de' 0 n (fun k => bytes.getD k 0) k := fun k h => blit_agree h _ _ _
        rw [hfree _ _ hread]
        by_cases hf : free (blit de' 0 n (fun k => bytes.getD k 0)) = true
        · rw [if_pos hf, if_pos hf]
          exact Rel.ok ⟨rfl, rfl, hagree, hbehind de, hbehind de'⟩
        rw [if_neg hf, if_neg hf]
        -- the rest of the loop starts with what was read
        refine (ih (off + n) (blit de 0 n (fun k => bytes.getD k 0))
          (blit de' 0 n (fun k => bytes.getD k 0)) ip₁ s₁).mono ?_
        rintro x y ⟨hoff, hstate, heq, hx, hy⟩
        exact ⟨hoff, hstate, fun k h => heq k (hagree k h),
          fun k hk => (hx k hk).trans (hbehind de k hk),
          fun k hk => (hy k hk).trans (hbehind de' k hk)⟩
      · rw [if_pos hr, if_pos hr]
        exact Rel.error _
    · rw [if_neg hoff, if_neg hoff]
      exact Rel.ok ⟨rfl, rfl, fun _ h => h, fun _ _ => rfl, fun _ _ => rfl⟩

/-- A word of `m` bytes at the start of the record is what was read. -/
lemma word_free {m n : Nat} (hm : m ≤ n) (d d' : Block) (h : ∀ k < n, d k = d' k) :
    (getLE d m 0 == 0) = (getLE d' m 0 == 0) := by
  rw [getLE_congr (fun k _ hk => h k (by omega))]

/-! ## The model without the variable -/

lemma findFree_ext2fs (rd : Ext2Dir.Reader) (fuel : Nat) :
    ∀ (off : Nat) (de : Block) (ip : Dinode) (s : Bcache),
      findFree rd Ext2Dir.DIRENT "ext2fs_dirlink read" (fun de => Ext2Dir.deInode de == 0)
        fuel off de ip s = Ext2Dir.freeDirent rd fuel off de ip s := by
  induction fuel with
  | zero => exact fun _ _ _ _ => rfl
  | succ fuel ih =>
    intro off de ip s
    rw [findFree, Ext2Dir.freeDirent]
    split
    · rw [Ext2Dir.readDirent]
      cases rd ip off Ext2Dir.DIRENT s with
      | error e => rfl
      | ok x =>
        obtain ⟨⟨r, bytes⟩, ip₁, s₁⟩ := x
        rw [ok_bind, ok_bind]
        dsimp only
        split
        · rfl
        · simp only [ok_bind, beq_iff_eq, ih]
    · rfl

/-- `ext2fs_dirlink` of the kernel is the run with the memory that the machine has there. -/
lemma addIn_ext2fs (name : List UInt8) (inum : Nat) :
    addIn cfg cfg.de name inum .ext2fs = addOf cfg name inum .ext2fs := by
  funext dnum ip s
  rw [addIn, findFree_ext2fs]
  rfl

lemma findFree_xv6fs (de : Block) (fuel dnum : Nat) :
    ∀ (off : Nat) (d : Block) (ip : Dinode) (s : Bcache), (∀ k, Xv6Dir.DIRENT ≤ k → d k = de k) →
      Rel (fun x y => x.1 = y.1.1 ∧ x.2.2 = y.2 ∧ ∀ k, Xv6Dir.DIRENT ≤ k → x.2.1 k = de k)
        (findFree (readiOf cfg .xv6fs dnum) Xv6Dir.DIRENT "dirlink read"
          (fun de => Xv6Dir.deInum de == 0) fuel off d ip s)
        (Xv6Dir.scanFrom cfg.sb cfg.devsw "dirlink read" (fun de => Xv6Dir.deInum de == 0)
          fuel off ip s) := by
  induction fuel with
  | zero => exact fun _ _ _ _ hd => Rel.ok ⟨rfl, rfl, hd⟩
  | succ fuel ih =>
    intro off d ip s hd
    rw [findFree, Xv6Dir.scanFrom]
    split
    · rw [Xv6Dir.readDirent]
      show Rel _ (xv6fsReadi cfg.sb cfg.devsw ip off Xv6Dir.DIRENT s >>= _) _
      cases xv6fsReadi cfg.sb cfg.devsw ip off Xv6Dir.DIRENT s with
      | error e => exact Rel.error e
      | ok x =>
        obtain ⟨⟨r, bytes⟩, ip₁, s₁⟩ := x
        rw [ok_bind, ok_bind]
        dsimp only
        split
        · exact Rel.error _
        have hbehind : ∀ k, Xv6Dir.DIRENT ≤ k →
            blit d 0 Xv6Dir.DIRENT (fun k => bytes.getD k 0) k = de k :=
          fun k hk => (blit_out (by omega)).trans (hd k hk)
        have hword : Xv6Dir.deInum (blit d 0 Xv6Dir.DIRENT (fun k => bytes.getD k 0)) =
            Xv6Dir.deInum (fun k => bytes.getD k 0) :=
          getLE_congr (fun k _ hk => blit_in ⟨Nat.zero_le k, by unfold Xv6Dir.DIRENT; omega⟩)
        rw [ok_bind, hword]
        dsimp only
        split
        · exact Rel.ok ⟨rfl, rfl, hbehind⟩
        · exact ih _ _ _ _ hbehind
    · exact Rel.ok ⟨rfl, rfl, hd⟩

/-- `xv6fs_dirlink` of the kernel is the run in which the memory behind `de` goes on as the
    copied name does. -/
lemma addIn_xv6fs (name : List UInt8) (inum : Nat) :
    addIn cfg (fun k => strncpyByte (cstr name) (k - 2)) name inum .xv6fs =
      addOf cfg name inum .xv6fs := by
  funext dnum ip s
  show _ = Xv6Dir.addDirent cfg.sb cfg.devsw name inum dnum ip s
  rw [addIn, Xv6Dir.addDirent, Xv6Dir.freeDirent]
  have hloop := findFree_xv6fs cfg (fun k => strncpyByte (cstr name) (k - 2)) ip.size dnum 0
    (fun k => strncpyByte (cstr name) (k - 2)) ip s (fun _ _ => rfl)
  refine hloop.bind_eq ?_
  rintro ⟨off, d, ip₁, s₁⟩ ⟨⟨off', r⟩, ip₂, s₂⟩ ⟨hoff, hstate, hbehind⟩
  dsimp only at hoff hstate hbehind ⊢
  obtain ⟨rfl, rfl⟩ := Prod.mk.inj hstate
  subst hoff
  have hsame : xv6Dirent d name inum = Xv6Dir.newDirent name inum := by
    funext k
    rw [xv6Dirent, Xv6Dir.newDirent]
    by_cases hk : k < 2
    · rw [putLE, putLE, blit_in (by omega), blit_in (by omega)]
    rw [putLE_out (.inr (by omega)), putLE_out (.inr (by omega))]
    by_cases hin : k < 2 + Xv6Dir.DIRSIZ
    · exact blit_in (by omega)
    · exact (blit_out (by omega)).trans (hbehind k (Nat.le_of_not_lt hin))
  rw [hsame]
  rfl

/-! ## What `writei` does with its bytes -/

section Write

variable {bmap : Bmap} {put : Nat → Block → Bcache → Bcache}

lemma writeLoop_congr (fuel : Nat) : ∀ (ip : Dinode) (src src' : Nat → UInt8) (off r : Nat)
    (s : Bcache), (∀ k < r, src k = src' k) →
      writeLoop bmap put fuel ip src off r s = writeLoop bmap put fuel ip src' off r s := by
  induction fuel with
  | zero => exact fun _ _ _ _ _ _ _ => rfl
  | succ fuel ih =>
    intro ip src src' off r s h
    rw [writeLoop, writeLoop]
    by_cases hr : r = 0
    · rw [if_pos hr, if_pos hr]
    rw [if_neg hr, if_neg hr]
    congr 1
    funext x
    obtain ⟨b, ip₁, s₁⟩ := x
    dsimp only
    congr 1
    funext y
    obtain ⟨d, s₂⟩ := y
    dsimp only
    rw [blit_congr (fun k hk => h k (by omega)),
      ih _ _ (fun k => src' (min r (BSIZE - off % BSIZE) + k)) _ _ _ (fun k hk => h _ (by omega))]

lemma writei_two {iupdate : Dinode → Bcache → Except Err Bcache} {maxBytes : Nat}
    {devsw : Nat → Devsw} {ip : Dinode} {src src' : Nat → UInt8} {off n : Nat} {s : Bcache}
    {x x' : Int × Dinode × Bcache} (h : ∀ k < n, src k = src' k)
    (hx : FileIo.writei bmap put iupdate maxBytes devsw ip src off n s = .ok x)
    (hx' : FileIo.writei bmap put iupdate maxBytes devsw ip src' off n s = .ok x') :
    x.2 = x'.2 := by
  by_cases hdev : ip.type = T_DEV
  · -- a device gets the bytes, and nothing is stored
    have hstate : ∀ {src : Nat → UInt8} {x : Int × Dinode × Bcache},
        FileIo.writei bmap put iupdate maxBytes devsw ip src off n s = .ok x → x.2 = (ip, s) := by
      intro src x hx
      rw [FileIo.writei, if_pos hdev] at hx
      split at hx
      · rw [← ok.inj hx]
      split at hx
      · rw [← ok.inj hx]
      · rw [← ok.inj hx]
    rw [hstate hx, hstate hx']
  · rw [FileIo.writei, if_neg hdev, writeLoop_congr n ip src src' off n s h] at hx
    rw [FileIo.writei, if_neg hdev, hx] at hx'
    rw [ok.inj hx']

/-- The last byte is stored by the last turn of the loop, up to which the two runs are the same. -/
lemma writeLoop_last (fuel : Nat) : ∀ {ip ip' : Dinode} {src src' : Nat → UInt8} {off r : Nat}
    {s s' : Bcache}, (∀ k, k + 1 < r → src k = src' k) → 0 < r → r ≤ fuel →
      writeLoop bmap bwrite fuel ip src off r s = .ok (ip', s') →
      ∃ s'' b o, writeLoop bmap bwrite fuel ip src' off r s = .ok (ip', s'') ∧
        s'.disk b o = src (r - 1) ∧ s''.disk b o = src' (r - 1) := by
  induction fuel with
  | zero => intro ip ip' src src' off r s s' _ hpos hfuel; omega
  | succ fuel ih =>
    intro ip ip' src src' off r s s' hagree hpos hfuel h
    rw [writeLoop, if_neg (Nat.ne_of_gt hpos)] at h ⊢
    obtain ⟨⟨b, ip₁, s₁⟩, hmap, h⟩ := bind_eq_ok.mp h
    rw [hmap, ok_bind]
    obtain ⟨⟨d, s₂⟩, hread, h⟩ := bind_eq_ok.mp h
    dsimp only
    rw [hread, ok_bind]
    dsimp only at h ⊢
    have hblock : off % BSIZE < BSIZE := Nat.mod_lt off (by decide)
    by_cases hlast : r ≤ BSIZE - off % BSIZE
    · have hdone : ∀ (src : Nat → UInt8) (t : Bcache),
          writeLoop bmap bwrite fuel ip₁ src (off + r) 0 t = .ok (ip₁, t) := by
        intro src t
        cases fuel with
        | zero => rfl
        | succ fuel => rw [writeLoop, if_pos rfl]
      have hstored : ∀ (src : Nat → UInt8),
          (bwrite b (blit d (off % BSIZE) r src) s₂).disk b (off % BSIZE + (r - 1)) =
            src (r - 1) := by
        intro src
        rw [bwrite_disk, Function.update_self, fillBlock_in (by omega), blit_in (by omega),
          Nat.add_sub_cancel_left]
      rw [Nat.min_eq_left hlast, Nat.sub_self, hdone] at h
      rw [Nat.min_eq_left hlast, Nat.sub_self, hdone]
      obtain ⟨rfl, rfl⟩ := ok_pair_inj h
      exact ⟨_, b, off % BSIZE + (r - 1), rfl, hstored src, hstored src'⟩
    · have hmin : min r (BSIZE - off % BSIZE) = BSIZE - off % BSIZE := Nat.min_eq_right (by omega)
      rw [hmin] at h ⊢
      rw [blit_congr (fun k hk => hagree k (by omega))] at h
      obtain ⟨s'', b', o, hrun, h1, h2⟩ := ih
        (fun k hk => hagree (BSIZE - off % BSIZE + k) (by omega)) (by omega) (by omega) h
      refine ⟨s'', b', o, hrun, h1.trans (congrArg src ?_), h2.trans (congrArg src' ?_)⟩
      · omega
      · omega

end Write

/-! ## Two runs -/

section Runs

variable {cfg} {de de' : Block} {name : List UInt8} {inum dnum : Nat} {ip : Dinode} {s : Bcache}
  {x x' : Int × Dinode × Bcache}

lemma xv6Dirent_set (d d' : Block) (name : List UInt8) (inum : Nat) {k : Nat}
    (hk : k < Xv6Dir.DIRENT) : xv6Dirent d name inum k = xv6Dirent d' name inum k := by
  have h16 : Xv6Dir.DIRENT = 2 + Xv6Dir.DIRSIZ := rfl
  rw [xv6Dirent, xv6Dirent]
  by_cases h2 : k < 2
  · rw [putLE, putLE, blit_in (by omega), blit_in (by omega)]
  · rw [putLE_out (.inr (by omega)), putLE_out (.inr (by omega)), blit_in (by omega),
      blit_in (by omega)]

lemma xv6fs_two_runs (hx : addIn cfg de name inum .xv6fs dnum ip s = .ok x)
    (hx' : addIn cfg de' name inum .xv6fs dnum ip s = .ok x') : x = x' := by
  obtain ⟨⟨off, d, ip₁, s₁⟩, hfree, hx⟩ := bind_eq_ok.mp hx
  obtain ⟨⟨off', d', ip₁', s₁'⟩, hfree', hx'⟩ := bind_eq_ok.mp hx'
  obtain ⟨_, hsame, hoff, hstate, -⟩ := (findFree_two (word_free (by decide)) ip.size 0 de de' ip
    s).exists_ok hfree
  obtain rfl := ok.inj (hsame.symm.trans hfree')
  dsimp only at hoff hstate
  obtain ⟨rfl, rfl⟩ := Prod.mk.inj hstate
  subst hoff
  obtain ⟨⟨r, ip₂, s₂⟩, hw, hx⟩ := bind_eq_ok.mp hx
  obtain ⟨⟨r', ip₂', s₂'⟩, hw', hx'⟩ := bind_eq_ok.mp hx'
  have hleft := writei_two (fun k hk => xv6Dirent_set d d' name inum hk) hw hw'
  dsimp only at hx hx' hleft
  obtain ⟨rfl, rfl⟩ := Prod.mk.inj hleft
  split at hx
  · cases hx
  split at hx'
  · cases hx'
  · exact (ok.inj hx).symm.trans (ok.inj hx')

/-- `ext2fs_dirlink` comes to write a record, and returns. -/
def Writes (cfg : Config) (de : Block) (name : List UInt8) (inum dnum : Nat) (ip : Dinode)
    (s : Bcache) : Prop :=
  (∃ off d ip₁ s₁, findFree (readiOf cfg .ext2fs dnum) Ext2Dir.DIRENT "ext2fs_dirlink read"
      (fun de => Ext2Dir.deInode de == 0) ip.size 0 de ip s = .ok (off, d, ip₁, s₁) ∧
    ip₁.type ≠ T_DEV ∧ off + BSIZE ≤ EXT2_MAXFILE * BSIZE % 2 ^ 32) ∧
  ∃ x, addIn cfg de name inum .ext2fs dnum ip s = .ok x

/-- A record that `writei` refuses to write, or that goes to a device, is not stored. -/
lemma storeRecord_refused {sb : Ext2Super} {devsw : Nat → Devsw} {src : Block} {off : Nat}
    (h : ¬(ip.type ≠ T_DEV ∧ off + BSIZE ≤ EXT2_MAXFILE * BSIZE % 2 ^ 32)) :
    Ext2Dir.storeRecord sb dnum devsw src off ip s = (do
      let s ← ext2fsIupdate sb dnum { ip with size := (off + BSIZE) % 2 ^ 32 } s
      .ok (0, { ip with size := (off + BSIZE) % 2 ^ 32 }, s)) := by
  rw [Ext2Dir.storeRecord]
  dsimp only
  congr 1
  funext s₁
  have hlimit : EXT2_MAXFILE * BSIZE % 2 ^ 32 = 67383296 := by decide
  have h1024 : BSIZE = 1024 := rfl
  by_cases hdev : ip.type = T_DEV
  · rw [ext2fsWritei, FileIo.writei, if_pos hdev]
    split
    · rfl
    · split <;> rfl
  have hbig : ¬off + BSIZE ≤ EXT2_MAXFILE * BSIZE % 2 ^ 32 := fun hle => h ⟨hdev, hle⟩
  rw [ext2fsWritei, FileIo.writei, if_neg hdev]
  by_cases hwrap : (off + BSIZE) % 2 ^ 32 < off
  · rw [if_pos (.inr hwrap)]
    rfl
  · rw [if_neg (by rintro (hlt | hlt) <;> exact hwrap hlt), if_pos (by omega)]
    rfl

lemma ext2fs_two_runs (hno : ∀ de, ¬Writes cfg de name inum dnum ip s)
    (hx : addIn cfg de name inum .ext2fs dnum ip s = .ok x)
    (hx' : addIn cfg de' name inum .ext2fs dnum ip s = .ok x') : x = x' := by
  have hx₀ := hx
  obtain ⟨⟨off, d, ip₁, s₁⟩, hfree, hx⟩ := bind_eq_ok.mp hx
  obtain ⟨⟨off', d', ip₁', s₁'⟩, hfree', hx'⟩ := bind_eq_ok.mp hx'
  obtain ⟨_, hsame, hoff, hstate, -⟩ := (findFree_two (word_free (by decide)) ip.size 0 de de' ip
    s).exists_ok hfree
  obtain rfl := ok.inj (hsame.symm.trans hfree')
  dsimp only at hoff hstate
  obtain ⟨rfl, rfl⟩ := Prod.mk.inj hstate
  subst hoff
  have hrefused : ¬(ip₁.type ≠ T_DEV ∧ off + BSIZE ≤ EXT2_MAXFILE * BSIZE % 2 ^ 32) :=
    fun h => hno de ⟨⟨off, d, ip₁, s₁, hfree, h⟩, x, hx₀⟩
  dsimp only at hx hx'
  rw [storeRecord_refused hrefused] at hx hx'
  exact ok.inj (hx.symm.trans hx')

lemma newDirent_behind (d : Block) (name : List UInt8) (inum : Nat) {k : Nat}
    (hk : Ext2Dir.DIRENT ≤ k) : Ext2Dir.newDirent d name inum k = d k := by
  have h264 : Ext2Dir.DIRENT = 264 := rfl
  have hlen : Ext2Dir.deNameLen d < 256 := (d 6).toNat_lt
  rw [Ext2Dir.newDirent, putLE_out (.inr (by omega)), putLE_out (.inr (by omega)), putLE_out (.inr (by omega)),
    blit_out (.inr (by omega))]

lemma newDirent_agree {d d' : Block} {n : Nat} (hn : Ext2Dir.DIRENT ≤ n)
    (h : ∀ k < n, d k = d' k) (name : List UInt8) (inum : Nat) :
    ∀ k < n, Ext2Dir.newDirent d name inum k = Ext2Dir.newDirent d' name inum k := by
  have h264 : Ext2Dir.DIRENT = 264 := rfl
  have hlen : Ext2Dir.deNameLen d = Ext2Dir.deNameLen d' := congrArg UInt8.toNat (h 6 (by omega))
  intro k hk
  rw [Ext2Dir.newDirent, Ext2Dir.newDirent, hlen]
  exact blit_agree (blit_agree (blit_agree (blit_agree (h k hk) _ _ _) _ _ _) _ _ _) _ _ _

/-- With another byte on the stack another byte is on the disk. -/
lemma ext2fs_runs_differ (h : Writes cfg de name inum dnum ip s)
    (hde : ∀ k < BSIZE - 1, de k = de' k) (hne : de (BSIZE - 1) ≠ de' (BSIZE - 1)) :
    ∃ r ip₁ s₁ s₂, addIn cfg de name inum .ext2fs dnum ip s = .ok (r, ip₁, s₁) ∧
      addIn cfg de' name inum .ext2fs dnum ip s = .ok (r, ip₁, s₂) ∧ s₁.disk ≠ s₂.disk := by
  obtain ⟨⟨off, d, ip₁, s₁, hfree, hdev, hend⟩, x, hx⟩ := h
  have hlimit : EXT2_MAXFILE * BSIZE % 2 ^ 32 = 67383296 := by decide
  have h1024 : BSIZE = 1024 := rfl
  have h264 : Ext2Dir.DIRENT = 264 := rfl
  have htwo : Rel (Alike Ext2Dir.DIRENT de de')
      (findFree (readiOf cfg .ext2fs dnum) Ext2Dir.DIRENT "ext2fs_dirlink read"
        (fun de => Ext2Dir.deInode de == 0) ip.size 0 de ip s)
      (findFree (readiOf cfg .ext2fs dnum) Ext2Dir.DIRENT "ext2fs_dirlink read"
        (fun de => Ext2Dir.deInode de == 0) ip.size 0 de' ip s) :=
    findFree_two (word_free (by decide)) ip.size 0 de de' ip s
  obtain ⟨⟨off', d', ip₁', s₁'⟩, hfree', hoff, hstate, heq, hleft, hright⟩ := htwo.exists_ok hfree
  dsimp only at hoff hstate heq hleft hright
  obtain ⟨rfl, rfl⟩ := Prod.mk.inj hstate
  subst hoff
  have hx₀ := hx
  rw [addIn, hfree, ok_bind] at hx
  obtain ⟨s₂, hup, hx⟩ := bind_eq_ok.mp hx
  obtain ⟨⟨r, ip₃, s₃⟩, hw, hx⟩ := bind_eq_ok.mp hx
  have hmod : (off + BSIZE) % 2 ^ 32 = off + BSIZE := Nat.mod_eq_of_lt (by omega)
  rw [ext2fsWritei, FileIo.writei, if_neg hdev, hmod, if_neg (by dsimp only; omega),
    if_neg (by omega)] at hw
  obtain ⟨⟨ip₄, s₄⟩, hloop, hw⟩ := bind_eq_ok.mp hw
  have hsize : ip₄.size = off + BSIZE := FileIo.writeLoop_field (p := Dinode.size) Ext2Dir.inodeBmap_size _ hloop
  obtain ⟨s₅, b, o, hloop', hb, hb'⟩ := writeLoop_last BSIZE
    (fun k hk => newDirent_agree (by omega) (fun k hk => heq k (hde k hk)) name inum k (by omega))
    (by omega) le_rfl hloop
  dsimp only at hw
  rw [hsize, if_neg (by omega)] at hw
  obtain ⟨rfl, rfl, rfl⟩ := ok_triple_inj hw
  refine ⟨0, ip₄, s₄, s₅, hx₀.trans hx.symm, ?_, fun hdisk => hne ?_⟩
  · rw [addIn, hfree', ok_bind]
    dsimp only
    rw [Ext2Dir.storeRecord]
    dsimp only
    rw [hup, ok_bind, ext2fsWritei, FileIo.writei, if_neg hdev, hmod, if_neg (by dsimp only; omega),
      if_neg (by omega), hloop', ok_bind]
    dsimp only
    rw [hsize, if_neg (by omega)]
    rfl
  · rw [hdisk, hb', newDirent_behind _ _ _ (by omega), newDirent_behind _ _ _ (by omega),
      hleft _ (by omega), hright _ (by omega)] at hb
    exact hb.symm

end Runs

/-! ## The disks -/

/-- The same contents of both disks, and of the buffers. -/
def SameContents (k k' : State) : Prop :=
  ∀ f, (k.cache.device f).disk = (k'.cache.device f).disk ∧
    (k.cache.device f).view = (k'.cache.device f).view

/-- `dirlink` comes to write a record of `ext2fs_dirlink`, and returns. -/
def StoresRecord (de : Block) (a : Nat) (name : List UInt8) (inum : Nat) (k : State) : Prop :=
  ∃ k₁ p, dirlookup cfg a name k = .ok (none, k₁) ∧
    (k₁.cache.inode a).iops = some .ext2fs ∧ (k₁.cache.inode a).addrs = some p ∧
    Writes cfg de name inum (k₁.cache.inode a).inum
      ((k₁.cache.inode a).copy (k₁.cache.slot p).addrs) (k₁.cache.device .ext2fs)

lemma byte_succ_ne (x : UInt8) : x + 1 ≠ x := by
  intro h
  have hnat := congrArg UInt8.toNat h
  have hlt := x.toNat_lt
  rw [UInt8.toNat_add, UInt8.toNat_one] at hnat
  omega

/-- A name that is not there. -/
lemma dirlinkIn_absent {a : Nat} {name : List UInt8} {k k₁ : State}
    (h : dirlookup cfg a name k = .ok (none, k₁)) (de : Block) (inum : Nat) :
    dirlinkIn cfg de a name inum k = dispatch a (addIn cfg de name inum) k₁ := by
  rw [dirlinkIn, bind_eq_of_ok h]

/-- **Main result.**  The disks do not depend on the stack exactly if no record of
    `ext2fs_dirlink` is written. -/
theorem dirlink_stackFree_iff (a : Nat) (name : List UInt8) (inum : Nat) (k : State) :
    (∀ de de' r r' k₁ k₂, dirlinkIn cfg de a name inum k = .ok (r, k₁) →
      dirlinkIn cfg de' a name inum k = .ok (r', k₂) → SameContents k₁ k₂) ↔
    ∀ de, ¬StoresRecord cfg de a name inum k := by
  constructor
  · rintro hsame de ⟨k₁, p, hlook, hops, hp, hw⟩
    obtain ⟨r, ip', s₁, s₂, hrun, hrun', hdisk⟩ := ext2fs_runs_differ hw
      (fun k hk => (Function.update_of_ne (Nat.ne_of_lt hk) (de (BSIZE - 1) + 1) de).symm)
      (by rw [Function.update_self]; exact (byte_succ_ne _).symm)
    have hcall := dispatch_eq hops hp hrun
    have hcall' := dispatch_eq hops hp hrun'
    rw [← dirlinkIn_absent cfg hlook] at hcall hcall'
    refine hdisk ?_
    have hdisks := (hsame _ _ _ _ _ _ hcall hcall' .ext2fs).1
    cases p with
    | xv6fs i => exact hdisks
    | ext2fs i => exact hdisks
  · intro hno de de' r r' k₁ k₂ h h'
    obtain ⟨⟨found, k₀⟩, hlook, h₁⟩ := bind_eq_ok.mp h
    cases found with
    | some x =>
      -- the memory is not used
      have hcode : dirlinkIn cfg de a name inum k = dirlinkIn cfg de' a name inum k := by
        rw [dirlinkIn, dirlinkIn, bind_eq_of_ok hlook, bind_eq_of_ok hlook]
      obtain ⟨-, rfl⟩ := ok_pair_inj (h.symm.trans (hcode.trans h'))
      exact fun f => ⟨rfl, rfl⟩
    | none =>
      rw [dirlinkIn_absent cfg hlook] at h h'
      obtain ⟨f, p, d, bc, hops, hp, hg⟩ := dispatch_ok h
      obtain ⟨f', p', d', bc', hops', hp', hg'⟩ := dispatch_ok h'
      obtain rfl := Option.some.inj (hops.symm.trans hops')
      obtain rfl := Option.some.inj (hp.symm.trans hp')
      have heq : (r, d, bc) = (r', d', bc') := by
        cases f with
        | xv6fs => exact xv6fs_two_runs hg hg'
        | ext2fs =>
          exact ext2fs_two_runs (fun de hw => hno de ⟨k₀, p, hlook, hops, hp, hw⟩) hg hg'
      obtain ⟨rfl, rfl, rfl⟩ := ok_triple_inj (congrArg Except.ok heq : (Except.ok _ : Except Err _) = _)
      obtain ⟨-, rfl⟩ := ok_pair_inj (h.symm.trans (dispatch_eq hops hp hg))
      obtain ⟨-, rfl⟩ := ok_pair_inj (h'.symm.trans (dispatch_eq hops hp hg'))
      exact fun f => ⟨rfl, rfl⟩

/-! ## The first entry of a directory -/

/-- Entry 1 of the cache is a new ext2 directory, without blocks. -/
def newDirState : State :=
  { bootState blankDevice Ext2Dir.dirCache with
    cache := ((bootCache blankDevice Ext2Dir.dirCache).setSlot (.ext2fs 0)
      ⟨1, Ext2Dir.emptyDir.addrs⟩).setInode 1
        ⟨EXT2DEV, 2, 1, true, some .ext2fs, T_DIR, 0, 0, 1, 0, some (.ext2fs 0)⟩ }

def newDirConfig : Config := ⟨rootSuper, Ext2Dir.dirSuper, fun _ => ⟨none, none⟩, fun _ => 0⟩

/-- `dirlink` of `.`, as `create` calls it, with zeros and with ones on the stack: the last byte
    of the new block is the one from the stack. -/
theorem dirlink_leaks_stack : (dirlinkIn newDirConfig (fun _ => 0) 1 [46] 2 newDirState).map
      (fun r => (r.1, r.2.cache.ext2.disk 11 1023)) = .ok (0, 0) ∧
    (dirlinkIn newDirConfig (fun _ => 255) 1 [46] 2 newDirState).map
      (fun r => (r.1, r.2.cache.ext2.disk 11 1023)) = .ok (0, 255) := by
  refine ⟨by decide +kernel, by decide +kernel⟩

end DirlinkStack
