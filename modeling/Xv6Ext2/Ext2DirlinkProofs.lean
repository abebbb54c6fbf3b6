import Xv6Ext2.Ext2StoreRecordProofs

/-! # What ext2fs_dirlink does to a directory (ext2fs.c)

    `ext2fs_dirlink` looks for a free record in steps of `sizeof(de)` bytes, not from record to
    record, stores a record of `EXT2_BSIZE` bytes where it stops, and makes the directory end there.

    - `FreeAt` : where the loop of `ext2fs_dirlink` stops;
    - `newRecord` : the fields of the record that is stored;
    - `dirlink_inserts_iff` : the directories and names for which this inserts the name and
      keeps the other ones. -/

namespace Ext2Dir

open ByteBlock BufCache Outcome FileIo DirName Ext2Alloc Ext2Bmap Ext2Inode Ext2Stored

/-! ## Where the loop stops -/

/-- The loop on the bytes of the directory: where it stops, and the memory at `de`. -/
def firstFree (c : Block) (size : Nat) : Nat → Nat → Block → Except Err (Nat × Block)
  | 0, off, de => .ok (off, de)
  | fuel + 1, off, de =>
    if off < size then
      if size < off + DIRENT then .error (.panic "ext2fs_dirlink read")
      else if recInode c off = 0 then .ok (off, blit de 0 DIRENT (fun k => c (off + k)))
      else firstFree c size fuel (off + DIRENT) (blit de 0 DIRENT (fun k => c (off + k)))
    else .ok (off, de)

lemma freeDirent_eq (sb : Ext2Super) (dnum : Nat) (devsw : Nat → Devsw) {ip : Dinode} {v : Disk}
    (h : Readable ip v) (fuel : Nat) : ∀ (off : Nat) (de : Block) (s : Bcache), s.view = v →
      ∃ s', s'.view = v ∧ freeDirent (ext2fsReadi sb dnum devsw) fuel off de ip s =
        (firstFree (content ip v) ip.size fuel off de).map (fun r => (r.1, r.2, ip, s')) := by
  induction fuel with
  | zero => exact fun off de s hs => ⟨s, hs, rfl⟩
  | succ fuel ih =>
    intro off de s hs
    rw [freeDirent, firstFree]
    by_cases hoff : off < ip.size
    · obtain ⟨s1, hs1, hread⟩ := readDirent_eq sb dnum devsw h "ext2fs_dirlink read" hoff de hs
      rw [if_pos hoff, if_pos hoff, hread]
      by_cases hcut : ip.size < off + DIRENT
      · rw [if_pos hcut, if_pos hcut]
        exact ⟨s1, hs1, rfl⟩
      rw [if_neg hcut, if_neg hcut, ok_bind]
      dsimp only
      rw [(blit_record de (content ip v) off).1]
      by_cases hfree : recInode (content ip v) off = 0
      · rw [if_pos hfree, if_pos hfree]
        exact ⟨s1, hs1, rfl⟩
      · rw [if_neg hfree, if_neg hfree]
        exact ih _ _ s1 hs1
    · rw [if_neg hoff, if_neg hoff]
      exact ⟨s, hs, rfl⟩

/-- The loop stops at `off`: the first multiple of `sizeof(de)` at which the bytes of
    `de.inode` are zero, or the end. -/
structure FreeAt (c : Block) (size off : Nat) : Prop where
  step  : off % DIRENT = 0
  stop  : off = size ∨ (off + DIRENT ≤ size ∧ recInode c off = 0)
  going : ∀ o < off, o % DIRENT = 0 → o + DIRENT ≤ size ∧ recInode c o ≠ 0

lemma blit_blit (b : Block) (o n : Nat) (src src' : Nat → UInt8) :
    blit (blit b o n src) o n src' = blit b o n src' := by
  funext k
  by_cases hk : o ≤ k ∧ k < o + n
  · rw [blit_in hk, blit_in hk]
  · rw [blit_out (by omega), blit_out (by omega), blit_out (by omega)]

/-- The memory at `de` before the turn at `off`: the record of the turn before. -/
def beforeRead (c : Block) (off : Nat) (de : Block) : Block :=
  if off = 0 then de else blit de 0 DIRENT (fun k => c (off - DIRENT + k))

lemma blit_beforeRead (c : Block) (off : Nat) (de : Block) (src : Nat → UInt8) :
    blit (beforeRead c off de) 0 DIRENT src = blit de 0 DIRENT src := by
  rw [beforeRead]
  split
  · rfl
  · exact blit_blit _ _ _ _ _

/-- The memory at `de` when the loop has stopped. -/
def lastRead (c : Block) (size off : Nat) (de : Block) : Block :=
  if off < size then blit de 0 DIRENT (fun k => c (off + k)) else beforeRead c off de

variable {c de de' : Block} {size off : Nat}

lemma firstFree_iff (fuel : Nat) : ∀ o, o ≤ size → size ≤ o + DIRENT * fuel → o % DIRENT = 0 →
      (∀ o' < o, o' % DIRENT = 0 → o' + DIRENT ≤ size ∧ recInode c o' ≠ 0) →
      (firstFree c size fuel o (beforeRead c o de) = .ok (off, de') ↔
        (FreeAt c size off ∧ o ≤ off) ∧ de' = lastRead c size off de) := by
  have h264 : DIRENT = 264 := rfl
  -- the loop is at the end
  have hend : ∀ o, o = size → o % DIRENT = 0 →
      (∀ o' < o, o' % DIRENT = 0 → o' + DIRENT ≤ size ∧ recInode c o' ≠ 0) →
      ((.ok (o, beforeRead c o de) : Except Err (Nat × Block)) = .ok (off, de') ↔
        (FreeAt c size off ∧ o ≤ off) ∧ de' = lastRead c size off de) := by
    rintro o rfl hstep hgoing
    constructor
    · intro h
      obtain ⟨rfl, rfl⟩ := ok_pair_inj h
      refine ⟨⟨⟨hstep, .inl rfl, hgoing⟩, le_rfl⟩, ?_⟩
      rw [lastRead, if_neg (Nat.lt_irrefl _)]
    · rintro ⟨⟨hfree, hle⟩, rfl⟩
      obtain rfl : off = o := by
        rcases hfree.stop with h | h
        · exact h
        · omega
      rw [lastRead, if_neg (Nat.lt_irrefl _)]
  induction fuel with
  | zero => exact fun o hle hfuel => hend o (by omega)
  | succ fuel ih =>
    intro o hle hfuel hstep hgoing
    rw [firstFree]
    split
    · next hlt =>
      by_cases hcut : size < o + DIRENT
      · rw [if_pos hcut]
        refine ⟨fun h => (nomatch h), fun ⟨⟨hfree, hle'⟩, _⟩ => ?_⟩
        rcases Nat.eq_or_lt_of_le hle' with rfl | hlt'
        · rcases hfree.stop with h | h <;> omega
        · have := (hfree.going o hlt' hstep).1
          omega
      rw [if_neg hcut, blit_beforeRead]
      split
      · next hzero =>
        constructor
        · intro h
          obtain ⟨rfl, rfl⟩ := ok_pair_inj h
          refine ⟨⟨⟨hstep, .inr ⟨Nat.not_lt.mp hcut, hzero⟩, hgoing⟩, le_rfl⟩, ?_⟩
          rw [lastRead, if_pos hlt]
        · rintro ⟨⟨hfree, hle'⟩, rfl⟩
          rcases Nat.eq_or_lt_of_le hle' with rfl | hlt'
          · rw [lastRead, if_pos hlt]
          · exact absurd hzero (hfree.going o hlt' hstep).2
      · next hzero =>
        have hnext : blit de 0 DIRENT (fun k => c (o + k)) = beforeRead c (o + DIRENT) de := by
          rw [beforeRead, if_neg (by omega), Nat.add_sub_cancel]
        rw [hnext, ih (o + DIRENT) (by omega) (by unfold DIRENT at *; omega)
          (by unfold DIRENT at *; omega) (fun o' ho' hstep' => ?_)]
        · refine and_congr_left (fun _ => and_congr_right (fun hfree => ?_))
          refine ⟨fun h => by omega, fun h => ?_⟩
          rcases Nat.eq_or_lt_of_le h with rfl | hlt'
          · rcases hfree.stop with h | h
            · omega
            · exact absurd h.2 hzero
          have := hfree.step
          unfold DIRENT at *
          omega
        · by_cases hoo : o' < o
          · exact hgoing o' hoo hstep'
          · obtain rfl : o' = o := by unfold DIRENT at *; omega
            exact ⟨Nat.not_lt.mp hcut, hzero⟩
    · exact hend o (by omega) hstep hgoing

/-- **Where the loop of `ext2fs_dirlink` stops.** -/
lemma firstFree_eq_iff : firstFree c size size 0 de = .ok (off, de') ↔
      FreeAt c size off ∧ de' = lastRead c size off de := by
  have h : firstFree c size size 0 (beforeRead c 0 de) = .ok (off, de') ↔
      (FreeAt c size off ∧ 0 ≤ off) ∧ de' = lastRead c size off de :=
    firstFree_iff size 0 (Nat.zero_le _) (by unfold DIRENT; omega) rfl
      (fun o ho => absurd ho (Nat.not_lt_zero o))
  exact h.trans ⟨fun h => ⟨h.1.1, h.2⟩, fun h => ⟨⟨h.1, Nat.zero_le _⟩, h.2⟩⟩

/-! ## The record that is stored -/

/-- `strncpy` copies `de.name_len` bytes, a field of the record that was read last; behind
    them the name in `de` already has the right bytes. -/
def NameFits (de : Block) (name : List UInt8) : Prop :=
  ∀ k, deNameLen de ≤ k → k < name.length → de (8 + k) = cstr name k

variable {name : List UInt8}

lemma strlen_of_isName (h : IsName name) : strlen name = name.length := by
  rw [strlen, List.takeWhile_eq_self_iff.mpr (fun b hb => by simpa using h.1 b hb)]

lemma strncpyByte_of_lt (h : IsName name) {k : Nat} (hk : k < name.length) :
    strncpyByte (cstr name) k = cstr name k := by
  refine if_pos (List.all_eq_true.mpr (fun j hj => ?_))
  have hj := List.mem_range.mp hj
  have hmem : cstr name j ∈ name := by
    rw [cstr, List.getD_eq_getElem _ 0 (by omega)]
    exact List.getElem_mem _
  simpa using h.1 _ hmem

section NewRecord

variable {c de : Block} {off inum : Nat} {name : List UInt8}

lemma newDirent_name (hname : IsName name) {k : Nat} (hk : k < name.length) :
    newDirent de name inum (8 + k) = if k < deNameLen de then cstr name k else de (8 + k) := by
  rw [newDirent, putLE_out (by omega), putLE_out (by omega), putLE_out (by omega)]
  by_cases hlen : k < deNameLen de
  · rw [if_pos hlen, blit_in (by omega), Nat.add_sub_cancel_left, strncpyByte_of_lt hname hk]
  · rw [if_neg hlen, blit_out (by omega)]

/-- The string of `n` bytes is `name` when all bytes are there. -/
lemma strn_eq_iff {p : Nat → UInt8} (hname : IsName name) :
    strn p name.length = name ↔ ∀ k < name.length, p k = cstr name k := by
  constructor
  · intro h k hk
    have hall : (List.range name.length).map p = name := by
      have hpre := List.takeWhile_prefix (fun c : UInt8 => c != 0) (l := (List.range name.length).map p)
      rw [show List.takeWhile (fun c => c != 0) ((List.range name.length).map p) = name from h] at hpre
      exact (hpre.eq_of_length (by rw [List.length_map, List.length_range])).symm
    rw [cstr, ← hall, List.getD_eq_getElem _ 0 (by rw [List.length_map, List.length_range]; exact hk),
      List.getElem_map, List.getElem_range]
  · intro h
    rw [strn_congr h, strn_cstr hname.1 le_rfl]

lemma newRecord (hname : IsName name) (hinum : inum < 2 ^ 32)
    (hc : ∀ k < BSIZE, c (off + k) = newDirent de name inum k) :
    recInode c off = inum ∧ recLen c off = BSIZE ∧ recNameLen c off = name.length ∧
      (recName c off = name ↔ NameFits de name) := by
  have hle : name.length ≤ 255 := hname.2
  have hb : BSIZE = 1024 := rfl
  have hword : ∀ n o, o + n ≤ BSIZE → getLE c n (off + o) = getLE (newDirent de name inum) n o := by
    intro n o ho
    rw [← getLE_shift]
    exact getLE_congr (fun k _ hk => hc k (by omega))
  have hlen : recNameLen c off = name.length := by
    rw [recNameLen, hc 6 (by omega), newDirent, putLE, blit_in (by omega), strlen_of_isName hname]
    show (UInt8.ofNat (name.length / 256 ^ (6 - 6))).toNat = _
    rw [Nat.sub_self, Nat.pow_zero, Nat.div_one, UInt8.toNat_ofNat']
    exact Nat.mod_eq_of_lt (by omega)
  refine ⟨?_, ?_, hlen, ?_⟩
  · rw [recInode, ← Nat.add_zero off, hword 4 0 (by omega), newDirent,
      getLE_putLE_of_disjoint (by omega), getLE_putLE_of_disjoint (by omega), getLE_putLE]
    exact Nat.mod_eq_of_lt (by omega)
  · rw [recLen, hword 2 4 (by omega), newDirent, getLE_putLE_of_disjoint (by omega), getLE_putLE]
    exact Nat.mod_eq_of_lt (by decide)
  · rw [recName, hlen, strn_eq_iff hname]
    constructor
    · intro h k hk1 hk2
      have := h k hk2
      rwa [Nat.add_assoc, hc _ (by omega), newDirent_name hname hk2, if_neg (by omega)] at this
    · intro h k hk
      rw [Nat.add_assoc, hc _ (by omega), newDirent_name hname hk]
      by_cases hkl : k < deNameLen de
      · rw [if_pos hkl]
      · rw [if_neg hkl]
        exact h k (by omega) hk

end NewRecord

/-! ## The directory afterwards -/

/-- No two records in use have one name. -/
def DistinctNames (c : Block) (l : List Nat) : Prop :=
  ∀ o ∈ l, ∀ o' ∈ l, recInode c o ≠ 0 → recInode c o' ≠ 0 → recName c o = recName c o' → o = o'

/-- The name is looked for up to its record. -/
lemma findIn_present {o : Nat} {l : List Nat} (hl : Records c size off l) (ho : o ∈ l)
    (hit : Hit c name o = true) (honly : ∀ o' ∈ l, Hit c name o' = true → o' = o) :
    findIn c size name l = if size < o + DIRENT then .error (.panic "ext2fs_dirlookup: read error")
      else .ok (some (o, recInode c o)) := by
  induction hl with
  | nil => exact absurd ho List.not_mem_nil
  | @cons off l hoff hfits hrest ih =>
    rw [findIn]
    by_cases heq : off = o
    · subst heq
      rw [if_pos (hit_iff.mp hit)]
    have hnot : ¬(recInode c off ≠ 0 ∧ recName c off = name) := fun h =>
      heq (honly off List.mem_cons_self (hit_iff.mpr h))
    have ho : o ∈ l := (List.mem_cons.mp ho).resolve_left (Ne.symm heq)
    have hle := (hrest.bounds ho).1
    rw [if_neg hnot]
    by_cases hcut : size < off + DIRENT
    · rw [if_pos hcut, if_pos (by omega)]
    · rw [if_neg hcut]
      exact ih ho (fun o' ho' => honly o' (List.mem_cons_of_mem off ho'))

section After

variable {c c' : Block} {size off inum : Nat} {name : List UInt8} {de : Block} {l₁ l₂ : List Nat}

lemma hit_congr (h₁ : Records c off 0 l₁) (hc : ∀ k < off, c' k = c k) (n : List UInt8) {o : Nat}
    (ho : o ∈ l₁) : Hit c' n o = Hit c n o ∧ recInode c' o = recInode c o := by
  obtain ⟨-, hend, hfits⟩ := h₁.bounds ho
  have hlen := hfits.name
  have hinode : recInode c' o = recInode c o := getLE_congr (fun k _ hk => hc k (by omega))
  have hnlen : recNameLen c' o = recNameLen c o := by
    rw [recNameLen, recNameLen, hc _ (by omega)]
  have hname : recName c' o = recName c o := by
    rw [recName, recName, hnlen]
    exact strn_congr (fun k hk => hc _ (by omega))
  rw [Hit, Hit, hinode, hname]
  exact ⟨rfl, rfl⟩

variable (hname : IsName name) (hinum : inum < 2 ^ 32) (h₁ : Records c off 0 l₁)
  (hbefore : ∀ k < off, c' k = c k)
  (hnew : ∀ k < BSIZE, c' (off + k) = newDirent de name inum k)
include hname hinum h₁ hbefore hnew

lemma records_after (hoff : off % BSIZE = 0) : Records c' (off + BSIZE) 0 (l₁ ++ [off]) := by
  obtain ⟨-, hlen, hnlen, -⟩ := newRecord hname hinum hnew
  have hb : BSIZE = 1024 := rfl
  have h255 : name.length ≤ 255 := hname.2
  refine (h₁.congr (fun k _ hk => hbefore k hk)).append (.cons (by omega) ⟨?_, ?_, ?_⟩ ?_)
  · rw [hlen]
    decide
  · rw [hlen, hnlen]
    omega
  · rw [hlen]
    omega
  · rw [hlen]
    exact .nil

lemma find_after (hpos : 0 < inum) (n : List UInt8) : findIn c' (off + BSIZE) n (l₁ ++ [off]) =
      .ok (((l₁.find? (Hit c n)).map (fun o => (o, recInode c o))).or
        (if recName c' off = n then some (off, inum) else none)) := by
  have hb : BSIZE = 1024 := rfl
  have h264 : DIRENT = 264 := rfl
  obtain ⟨hinode, -⟩ := newRecord hname hinum hnew
  rw [findIn_eq_find n (fun o ho => ?_)]
  · rw [List.find?_append]
    congr 1
    have hfind : l₁.find? (Hit c' n) = l₁.find? (Hit c n) := by
      rw [← List.head?_filter, ← List.head?_filter,
        List.filter_congr (fun o ho => (hit_congr h₁ hbefore n ho).1)]
    rw [hfind]
    cases hf : l₁.find? (Hit c n) with
    | some o =>
      have ho := List.mem_of_find?_eq_some hf
      rw [Option.some_or, Option.map_some, Option.map_some, Option.some_or,
        (hit_congr h₁ hbefore n ho).2]
    | none =>
      rw [Option.none_or, List.find?_singleton, Option.map_none, Option.none_or]
      by_cases hn : recName c' off = n
      · rw [if_pos (hit_iff.mpr ⟨by omega, hn⟩), if_pos hn, Option.map_some, hinode]
      · rw [if_neg (fun h => hn (hit_iff.mp h).2), if_neg hn, Option.map_none]
  · rcases List.mem_append.mp ho with ho | ho
    · have := (h₁.bounds ho).2.1
      omega
    · rw [List.mem_singleton.mp ho]
      omega

end After

/-! ## When a name is inserted -/

/-- `ext2fs_dirlink` of the directory with inode number `dnum`; `de` is the memory from the
    local variable on. -/
def dirlink (sb : Ext2Super) (dnum : Nat) (devsw : Nat → Devsw) (name : List UInt8) (inum : Nat)
    (de : Block) (ip : Dinode) (s : Bcache) : Except Err (Int × Dinode × Bcache) :=
  ext2fsDirlink dnum (ext2fsReadi sb dnum devsw) (ext2fsWritei sb dnum devsw)
    (ext2fsIupdate sb dnum) name inum de ip s

/-- The inode number to which a name looks up. -/
def lookupInode (sb : Ext2Super) (dnum : Nat) (devsw : Nat → Devsw) (name : List UInt8)
    (ip : Dinode) (s : Bcache) : Except Err (Option Nat) :=
  (ext2fsDirlookup (ext2fsReadi sb dnum devsw) name ip s).map (fun r => r.1.map Prod.snd)

/-- What `ext2fs_dirlink` is for: a name that no record of the directory has is inserted,
    every other name stays, and so does the format; a name that is there changes nothing. -/
def Inserts (sb : Ext2Super) (dnum : Nat) (devsw : Nat → Devsw) (name : List UInt8) (inum : Nat)
    (de : Block) (ip : Dinode) (s : Bcache) (l : List Nat) : Prop :=
  ((∀ o ∈ l, Hit (content ip s.view) name o = false) →
    ∃ ip' s', dirlink sb dnum devsw name inum de ip s = .ok (0, ip', s') ∧
      WellFormed (content ip' s'.view) ip'.size ∧
      lookupInode sb dnum devsw name ip' s' = .ok (some inum) ∧
      ∀ n, IsName n → n ≠ name →
        lookupInode sb dnum devsw n ip' s' = lookupInode sb dnum devsw n ip s) ∧
  ((∃ o ∈ l, Hit (content ip s.view) name o = true) →
    ∃ s', dirlink sb dnum devsw name inum de ip s = .ok (-1, ip, s') ∧ s'.view = s.view)

/-- The directories, with records at `l`, and the names for which it does so.  The search
    reads `sizeof(de)` bytes at each record; the loop for a free one must stop at the start
    of a block behind which no record is in use; the bytes of the name that `strncpy` does not
    copy must be there; and the directory can only grow if there is a block.  A name that is
    there must not be one of the directory itself, whose lock is held. -/
def Insertable (sb : Ext2Super) (dnum : Nat) (name : List UInt8) (de : Block) (ip : Dinode)
    (v : Disk) (l : List Nat) : Prop :=
  ((∀ o ∈ l, Hit (content ip v) name o = false) →
    (∀ o ∈ l, o + DIRENT ≤ ip.size) ∧
    ∃ off, FreeAt (content ip v) ip.size off ∧ off % BSIZE = 0 ∧
      (∀ o ∈ l, off ≤ o → recInode (content ip v) o = 0) ∧
      NameFits (lastRead (content ip v) ip.size off de) name ∧
      (off = ip.size → Stored ip.addrs v (off / BSIZE) ∨
        (ext2fsFreeBlock sb (v (bitmapOf sb v dnum))).isSome = true)) ∧
  ((∃ o ∈ l, Hit (content ip v) name o = true) →
    ∃ o ∈ l, Hit (content ip v) name o = true ∧ o + DIRENT ≤ ip.size ∧
      recInode (content ip v) o ≠ dnum)

section Insert

variable {sb : Ext2Super} {dnum : Nat} {devsw : Nat → Devsw} {name : List UInt8} {inum : Nat}
  {de : Block} {ip : Dinode} {s : Bcache} {l : List Nat}

lemma lookupInode_eq (h : Readable ip s.view) (hl : Records (content ip s.view) ip.size 0 l)
    {n : List UInt8} (hn : IsName n) : lookupInode sb dnum devsw n ip s =
      (findIn (content ip s.view) ip.size n l).map (fun r => r.map Prod.snd) := by
  obtain ⟨s', -, hr⟩ := dirlookup_eq sb dnum devsw h hn hl rfl
  rw [lookupInode, hr]
  cases findIn (content ip s.view) ip.size n l <;> rfl

variable (h : Readable ip s.view) (hl : Records (content ip s.view) ip.size 0 l)
  (hname : IsName name)
include h hl hname

/-- A name that is there. -/
lemma dirlink_present (hdist : DistinctNames (content ip s.view) l) {o : Nat} (ho : o ∈ l)
    (hit : Hit (content ip s.view) name o = true) :
    (∃ s', dirlink sb dnum devsw name inum de ip s = .ok (-1, ip, s') ∧ s'.view = s.view) ↔
      o + DIRENT ≤ ip.size ∧ recInode (content ip s.view) o ≠ dnum := by
  have honly : ∀ o' ∈ l, Hit (content ip s.view) name o' = true → o' = o := by
    intro o' ho' hit'
    obtain ⟨h1, h2⟩ := hit_iff.mp hit
    obtain ⟨h1', h2'⟩ := hit_iff.mp hit'
    exact hdist o' ho' o ho h1' h1 (h2'.trans h2.symm)
  obtain ⟨s₁, hs₁, hlook⟩ := dirlookup_eq sb dnum devsw h hname hl rfl
  rw [findIn_present hl ho hit honly] at hlook
  rw [dirlink, ext2fsDirlink, hlook]
  by_cases hcut : ip.size < o + DIRENT
  · rw [if_pos hcut]
    exact ⟨fun ⟨_, h, _⟩ => (nomatch h), fun h => absurd h.1 (by omega)⟩
  rw [if_neg hcut]
  by_cases hself : recInode (content ip s.view) o = dnum
  · refine ⟨fun ⟨s', h, _⟩ => ?_, fun h => absurd hself h.2⟩
    have herr : (if recInode (content ip s.view) o = dnum then
        (.error .deadlock : Except Err (Int × Dinode × Bcache)) else .ok (-1, ip, s₁)) =
        .ok (-1, ip, s') := h
    rw [if_pos hself] at herr
    exact nomatch herr
  · exact ⟨fun _ => ⟨by omega, hself⟩, fun _ => ⟨s₁, if_neg hself, hs₁⟩⟩

lemma dirlink_absent (habsent : ∀ o ∈ l, Hit (content ip s.view) name o = false)
    (hread : ∀ o ∈ l, o + DIRENT ≤ ip.size) : ∃ s₁, s₁.view = s.view ∧
      dirlink sb dnum devsw name inum de ip s = (do
        let (off, de) ← firstFree (content ip s.view) ip.size ip.size 0 de
        storeRecord sb dnum devsw (newDirent de name inum) off ip s₁) := by
  obtain ⟨s₁, hs₁, hlook⟩ := dirlookup_eq sb dnum devsw h hname hl rfl
  have hnone : l.find? (Hit (content ip s.view) name) = none :=
    List.find?_eq_none.mpr (fun o ho => by rw [habsent o ho]; exact Bool.false_ne_true)
  rw [findIn_eq_find name hread, hnone] at hlook
  obtain ⟨s₂, hs₂, hfree⟩ := freeDirent_eq sb dnum devsw h ip.size 0 de s₁ hs₁
  refine ⟨s₂, hs₂, ?_⟩
  rw [dirlink, ext2fsDirlink, hlook]
  show (freeDirent (ext2fsReadi sb dnum devsw) ip.size 0 de ip s₁ >>= _) = _
  rw [hfree]
  cases firstFree (content ip s.view) ip.size ip.size 0 de <;> rfl

lemma readable_of_dirlink (habsent : ∀ o ∈ l, Hit (content ip s.view) name o = false)
    {r : Int × Dinode × Bcache} (hr : dirlink sb dnum devsw name inum de ip s = .ok r) :
    ∀ o ∈ l, o + DIRENT ≤ ip.size := by
  obtain ⟨s₁, hs₁, hlook⟩ := dirlookup_eq sb dnum devsw h hname hl rfl
  obtain ⟨r₁, hr₁, -⟩ := bind_eq_ok.mp hr
  rw [hlook] at hr₁
  cases hfind : findIn (content ip s.view) ip.size name l with
  | error e => rw [hfind] at hr₁; exact nomatch hr₁
  | ok r₂ => exact (findIn_absent habsent hfind).2

/-- Once the record is stored, what is left are its name and the records behind it. -/
lemma placed_inserts_iff {off : Nat} {ip' : Dinode} {s' : Bcache}
    (hp : Placed ip s.view off (newDirent de name inum) ip' s'.view) (hpos : 0 < inum)
    (hinum : inum < 2 ^ 32) (hoff : off % BSIZE = 0) (hle : off ≤ ip.size)
    (hdist : DistinctNames (content ip s.view) l) (hread : ∀ o ∈ l, o + DIRENT ≤ ip.size)
    (habsent : ∀ o ∈ l, Hit (content ip s.view) name o = false) :
    (WellFormed (content ip' s'.view) ip'.size ∧
      lookupInode sb dnum devsw name ip' s' = .ok (some inum) ∧ ∀ n, IsName n → n ≠ name →
        lookupInode sb dnum devsw n ip' s' = lookupInode sb dnum devsw n ip s) ↔
      NameFits de name ∧ ∀ o ∈ l, off ≤ o → recInode (content ip s.view) o = 0 := by
  obtain ⟨l₁, l₂, rfl, h₁, h₂⟩ := hl.split (Nat.zero_le off) hle hoff
  have hafter := records_after hname hinum h₁ hp.before hp.new hoff
  obtain ⟨-, -, -, hfits⟩ := newRecord hname hinum hp.new
  -- the lookups before and afterwards
  have hlook : ∀ n, IsName n → lookupInode sb dnum devsw n ip' s' =
      .ok ((((l₁.find? (Hit (content ip s.view) n)).map
          (fun o => (o, recInode (content ip s.view) o))).or
        (if recName (content ip' s'.view) off = n then some (off, inum) else none)).map Prod.snd) := by
    intro n hn
    rw [lookupInode_eq hp.readable (by rw [hp.size]; exact hafter) hn, hp.size,
      find_after hname hinum h₁ hp.before hp.new hpos]
    rfl
  have hlook₀ : ∀ n, IsName n → lookupInode sb dnum devsw n ip s =
      .ok (((l₁ ++ l₂).find? (Hit (content ip s.view) n)).map (recInode (content ip s.view))) := by
    intro n hn
    rw [lookupInode_eq h hl hn, findIn_eq_find n hread]
    exact congrArg Except.ok (Option.map_map _ _ _)
  have hnone : l₁.find? (Hit (content ip s.view) name) = none :=
    List.find?_eq_none.mpr (fun o ho => by
      rw [habsent o (List.mem_append_left _ ho)]
      exact Bool.false_ne_true)
  have hlt : ∀ o ∈ l₁, o < off := by
    intro o ho
    obtain ⟨-, hend, hf⟩ := h₁.bounds ho
    have := hf.name
    omega
  have hself := hlook name hname
  rw [hnone, Option.map_none, Option.none_or] at hself
  constructor
  · rintro ⟨-, hfound, hothers⟩
    have hrec : recName (content ip' s'.view) off = name := by
      by_contra hne
      rw [hself, if_neg hne] at hfound
      exact nomatch hfound
    refine ⟨hfits.mp hrec, fun o ho hge => ?_⟩
    by_contra hlive
    have ho₂ : o ∈ l₂ := (List.mem_append.mp ho).resolve_left (fun h => absurd (hlt o h) (by omega))
    -- a record in use behind `off` would be lost
    obtain ⟨n, hn⟩ : ∃ n, n = recName (content ip s.view) o := ⟨_, rfl⟩
    have hit : Hit (content ip s.view) n o = true := hit_iff.mpr ⟨hlive, hn.symm⟩
    have hisname : IsName n := hn ▸ recName_isName _ _
    have hne : n ≠ name := by
      rintro rfl
      rw [habsent o ho] at hit
      exact nomatch hit
    have hgone : l₁.find? (Hit (content ip s.view) n) = none := by
      refine List.find?_eq_none.mpr (fun o' ho' hit' => ?_)
      obtain ⟨hlive', hn'⟩ := hit_iff.mp hit'
      have := hdist o' (List.mem_append_left _ ho') o ho hlive' hlive (hn'.trans hn)
      have := hlt o' ho'
      omega
    have heq := hothers n hisname hne
    rw [hlook n hisname, hlook₀ n hisname, List.find?_append, hgone, Option.map_none,
      Option.none_or, hrec, if_neg hne.symm, Option.none_or] at heq
    cases hfind : l₂.find? (Hit (content ip s.view) n) with
    | none => exact List.find?_eq_none.mp hfind o ho₂ hit
    | some o' =>
      rw [hfind] at heq
      exact nomatch heq
  · rintro ⟨hnf, hfree⟩
    have hrec := hfits.mpr hnf
    refine ⟨⟨?_, l₁ ++ [off], by rw [hp.size]; exact hafter⟩, by rw [hself, if_pos hrec]; rfl,
      fun n hn hne => ?_⟩
    · rw [hp.size]
      unfold BSIZE at *
      omega
    · have hrest : l₂.find? (Hit (content ip s.view) n) = none := by
        refine List.find?_eq_none.mpr (fun o ho hit => ?_)
        exact (hit_iff.mp hit).1 (hfree o (List.mem_append_right _ ho) (h₂.bounds ho).1)
      rw [hlook n hn, hlook₀ n hn, List.find?_append, hrest, Option.or_none, hrec,
        if_neg hne.symm, Option.or_none, Option.map_map]
      rfl

/-- **`ext2fs_dirlink` inserts a name exactly into these directories.** -/
theorem dirlink_inserts_iff (hown : OwnBlocks sb dnum ip s.view)
    (hdist : DistinctNames (content ip s.view) l) (hpos : 0 < inum) (hinum : inum < 2 ^ 32) :
    Inserts sb dnum devsw name inum de ip s l ↔ Insertable sb dnum name de ip s.view l := by
  refine and_congr (imp_congr_right (fun habsent => ?_)) (imp_congr_right (fun hpresent => ?_))
  · constructor
    · rintro ⟨ip', s', hr, hprop⟩
      have hread := readable_of_dirlink h hl hname habsent hr
      obtain ⟨s₁, hs₁, hrun⟩ := dirlink_absent h hl hname habsent hread
      rw [hrun] at hr
      obtain ⟨⟨off, de'⟩, hfirst, hstore⟩ := bind_eq_ok.mp hr
      dsimp only at hstore
      obtain ⟨hfree, rfl⟩ := firstFree_eq_iff.mp hfirst
      have hle : off ≤ ip.size := by
        rcases hfree.stop with h | h <;> omega
      -- the directory ends `EXT2_BSIZE` bytes behind the record
      have hoff : off % BSIZE = 0 := by
        have hwhole := hprop.1.1
        rw [storeRecord_size hstore] at hwhole
        unfold BSIZE at *
        omega
      rw [← hs₁] at h hown
      have hroom := storeRecord_room hown h hoff hle hfree.step hstore
      obtain ⟨ip₂, s₂, hstore₂, hp⟩ := storeRecord_eq devsw
        (newDirent (lastRead (content ip s.view) ip.size off de) name inum) hown h hoff hle hfree.step
        (fun _ => hroom)
      rw [hstore] at hstore₂
      obtain ⟨-, rfl, rfl⟩ := ok_triple_inj hstore₂
      rw [hs₁] at h hroom hp
      obtain ⟨hfits, hrest⟩ := (placed_inserts_iff h hl hname hp hpos hinum hoff hle hdist hread
        habsent).mp hprop
      exact ⟨hread, off, hfree, hoff, hrest, hfits, fun _ => hroom⟩
    · rintro ⟨hread, off, hfree, hoff, hrest, hfits, hroom⟩
      have hle : off ≤ ip.size := by
        rcases hfree.stop with h | h <;> omega
      obtain ⟨s₁, hs₁, hrun⟩ := dirlink_absent h hl hname habsent hread
      obtain ⟨ip₂, s₂, hstore, hp⟩ := storeRecord_eq devsw
        (newDirent (lastRead (content ip s.view) ip.size off de) name inum) (hs₁ ▸ hown) (hs₁ ▸ h)
        hoff hle hfree.step (by rw [hs₁]; exact hroom)
      rw [hs₁] at hp
      refine ⟨ip₂, s₂, ?_, (placed_inserts_iff h hl hname hp hpos hinum hoff hle hdist hread
        habsent).mpr ⟨hfits, hrest⟩⟩
      rwa [hrun, firstFree_eq_iff.mpr ⟨hfree, rfl⟩, ok_bind]
  · obtain ⟨o, ho, hit⟩ := hpresent
    rw [dirlink_present h hl hname hdist ho hit]
    refine ⟨fun hc => ⟨o, ho, hit, hc⟩, fun ⟨o', ho', hit', hc⟩ => ?_⟩
    obtain ⟨hlive, hn⟩ := hit_iff.mp hit
    obtain ⟨hlive', hn'⟩ := hit_iff.mp hit'
    obtain rfl := hdist o' ho' o ho hlive' hlive (hn'.trans hn.symm)
    exact hc

end Insert

/-! ## Two directories -/

/-- A device of one group: the bitmap is block 3 and has one free block, the inode table is block 5,
    and block 6 holds the records of `.`, `..` and `lost+found`, as `mke2fs` lays them out. -/
def dirSuper : Ext2Super := ⟨64, 1, 1, 8, 128⟩

def dirRecords : Block :=
  fun k => ([2, 0, 0, 0, 12, 0, 1, 2, 46, 0, 0, 0,
    2, 0, 0, 0, 12, 0, 2, 2, 46, 46, 0, 0,
    11, 0, 0, 0, 232, 3, 10, 2, 108, 111, 115, 116, 43, 102, 111, 117, 110, 100] : List UInt8).getD k 0

def dirDisk : Disk := fun b =>
  if b = 2 then putLE (putLE (fun _ => 0) 4 0 3) 4 8 5
  else if b = 3 then fun k => if k = 1 then 127 else 255
  else if b = 6 then dirRecords else fun _ => 0

def dirCache : Bcache := ⟨dirDisk, fun _ => none⟩

/-- The directory with these records, and one without blocks. -/
def rootDir : Dinode := ⟨T_DIR, 0, 0, 3, BSIZE, fun i => if i = 0 then 6 else 0⟩
def emptyDir : Dinode := ⟨T_DIR, 0, 0, 2, 0, fun _ => 0⟩

variable {b : Nat}

lemma dirDisk_fresh (h : Fresh dirSuper 2 dirDisk b) : b = 11 := by
  obtain ⟨f, hf, hclear, rfl⟩ := h
  have hbit : ∀ f < 64, scanBit (dirDisk 3) f = false → f = 8 := by decide
  have h3 : bitmapOf dirSuper dirDisk 2 = 3 := by decide
  rw [h3] at hclear ⊢
  rw [hbit f (Nat.lt_of_lt_of_eq hf (by decide)) hclear]
  decide

lemma rootDir_stored {bn : Nat} (hbn : bn * BSIZE ≤ rootDir.size)
    (h : Stored rootDir.addrs dirDisk bn) : bn = 0 := by
  have hle : bn ≤ 1 := by
    have : rootDir.size = BSIZE := rfl
    unfold BSIZE at *
    omega
  by_contra hne
  obtain rfl : bn = 1 := by omega
  exact absurd h (by decide)

lemma emptyDir_stored {bn : Nat} (hbn : bn * BSIZE ≤ emptyDir.size)
    (h : Stored emptyDir.addrs dirDisk bn) : False := by
  obtain rfl : bn = 0 := by
    have : emptyDir.size = 0 := rfl
    unfold BSIZE at *
    omega
  exact absurd h (by decide)

lemma dirDisk_meta : Meta dirSuper 2 dirDisk b ↔ b = 2 ∨ b = 5 ∨ b = 3 := by
  rw [Meta, show (inodeHome dirSuper (dirDisk 2) 2).1 = 5 by decide,
    show bitmapOf dirSuper dirDisk 2 = 3 by decide]

lemma rootDir_used (h : Used rootDir dirDisk b) : b = 6 := by
  obtain ⟨bn, hbn, hst, hb⟩ := h
  obtain rfl := rootDir_stored hbn hst
  rw [bmapLeaf_direct (by decide), bmapInner_direct (by decide)] at hb
  exact hb.resolve_right List.not_mem_nil

lemma emptyDir_own : OwnBlocks dirSuper 2 emptyDir dirDisk where
  geometry := by decide
  leaf bn _ hbn _ hst := absurd hst (emptyDir_stored hbn)
  inner bn _ hbn _ hst := absurd hst (emptyDir_stored hbn)
  home := by decide
  bitmap := by decide
  used := fun b ⟨bn, hbn, hst, _⟩ => absurd hst (emptyDir_stored hbn)
  fresh b hb := by
    obtain rfl := dirDisk_fresh hb
    refine ⟨by decide, by rw [dirDisk_meta]; decide, fun ⟨bn, hbn, hst, _⟩ => ?_⟩
    exact emptyDir_stored hbn hst

lemma rootDir_own : OwnBlocks dirSuper 2 rootDir dirDisk where
  geometry := by decide
  leaf bn bn' hbn hbn' hst hst' _ := (rootDir_stored hbn hst).trans (rootDir_stored hbn' hst').symm
  inner bn bn' _ hbn' _ hst' := by
    obtain rfl := rootDir_stored hbn' hst'
    rw [bmapInner_direct (by decide)]
    exact List.not_mem_nil
  home := by decide
  bitmap := by decide
  used b hb := by
    rw [rootDir_used hb, dirDisk_meta]
    decide
  fresh b hb := by
    obtain rfl := dirDisk_fresh hb
    exact ⟨by decide, by rw [dirDisk_meta]; decide, fun h => absurd (rootDir_used h) (by decide)⟩

lemma emptyDir_readable : Readable emptyDir dirCache.view :=
  ⟨rfl, by decide, fun bn hbn => absurd hbn (Nat.not_lt_zero _)⟩

lemma rootDir_readable : Readable rootDir dirCache.view := by
  refine ⟨rfl, by decide, fun bn hbn => ?_⟩
  obtain rfl : bn = 0 := by
    have : rootDir.size = BSIZE := rfl
    unfold BSIZE at *
    omega
  exact reach_of_stored (by decide) (by decide)

lemma rootDir_records : Records (content rootDir dirCache.view) BSIZE 0 [0, 12, 24] := by
  refine .cons (by decide) (by decide) ?_
  rw [show 0 + recLen (content rootDir dirCache.view) 0 = 12 by decide]
  refine .cons (by decide) (by decide) ?_
  rw [show 12 + recLen (content rootDir dirCache.view) 12 = 24 by decide]
  refine .cons (by decide) (by decide) ?_
  rw [show 24 + recLen (content rootDir dirCache.view) 24 = BSIZE by decide]
  exact .nil

/-- A name for an empty directory. -/
theorem dirlink_inserts_empty :
    Inserts dirSuper 2 (fun _ => ⟨none, none⟩) [97] 11 (fun _ => 255) emptyDir dirCache [] := by
  refine (dirlink_inserts_iff emptyDir_readable Records.nil ⟨by decide +kernel, by decide +kernel⟩ emptyDir_own
    (fun o ho => absurd ho List.not_mem_nil) (by decide) (by decide)).mpr ⟨fun _ => ?_, ?_⟩
  · refine ⟨fun o ho => absurd ho List.not_mem_nil, 0,
      ⟨rfl, .inl rfl, fun o ho => absurd ho (Nat.not_lt_zero o)⟩, rfl,
      fun o ho => absurd ho List.not_mem_nil, fun k h1 h2 => ?_, fun _ => .inr (by decide)⟩
    exact absurd (Nat.le_trans h1 (Nat.le_of_lt_succ h2)) (by decide)
  · rintro ⟨o, ho, -⟩
    exact absurd ho List.not_mem_nil

/-- The loop stops inside the record of `lost+found`, and the directory ends 264 bytes into
    its second block. -/
theorem dirlink_breaks_root : Readable rootDir dirCache.view ∧
    Records (content rootDir dirCache.view) rootDir.size 0 [0, 12, 24] ∧
    DistinctNames (content rootDir dirCache.view) [0, 12, 24] ∧
    OwnBlocks dirSuper 2 rootDir dirCache.view ∧ IsName [97] ∧
    (∀ o ∈ [0, 12, 24], Hit (content rootDir dirCache.view) [97] o = false) ∧
    (dirlink dirSuper 2 (fun _ => ⟨none, none⟩) [97] 11 (fun _ => 0) rootDir dirCache).map
      (fun r => (r.1, r.2.1.size)) = .ok (0, 264 + BSIZE) ∧
    ¬Inserts dirSuper 2 (fun _ => ⟨none, none⟩) [97] 11 (fun _ => 0) rootDir dirCache [0, 12, 24] := by
  have habsent : ∀ o ∈ [0, 12, 24], Hit (content rootDir dirCache.view) [97] o = false := by
    decide
  have hrun : (dirlink dirSuper 2 (fun _ => ⟨none, none⟩) [97] 11 (fun _ => 0) rootDir dirCache).map
      (fun r => (r.1, r.2.1.size)) = .ok (0, 264 + BSIZE) := by
    decide +kernel
  have hdist : DistinctNames (content rootDir dirCache.view) [0, 12, 24] := by
    unfold DistinctNames
    decide
  refine ⟨rootDir_readable, rootDir_records, hdist, rootDir_own, ⟨by decide +kernel, by decide +kernel⟩, habsent,
    hrun, fun h => ?_⟩
  obtain ⟨ip', s', hr, hwf, -⟩ := h.1 habsent
  rw [hr] at hrun
  have hsize : ip'.size = 264 + BSIZE := (ok_pair_inj hrun).2
  have hwhole := hwf.1
  rw [hsize] at hwhole
  exact absurd hwhole (by decide)

end Ext2Dir
