import Xv6Ext2.Ext2StoredProofs

/-! # The records of an ext2 directory

    The bytes of a directory are those that `ext2fs_readi` returns.  `Records c size off l` says
    that the records from `off` to the end tile the blocks, and that they start at the offsets `l`.

    - `dirlookup_eq` : on a directory whose blocks are stored, `ext2fs_dirlookup` goes
      through the records one after another, and panics at one that starts less than
      `sizeof(de)` bytes before the end. -/

namespace Ext2Dir

open ByteBlock BufCache Outcome FileIo DirName Ext2Alloc Ext2Bmap Ext2Inode Ext2Stored

/-! ## Records -/

def recInode (c : Block) (off : Nat) : Nat := getLE c 4 off
def recLen (c : Block) (off : Nat) : Nat := getLE c 2 (off + 4)
def recNameLen (c : Block) (off : Nat) : Nat := (c (off + 6)).toNat

/-- Its name, up to a NUL. -/
def recName (c : Block) (off : Nat) : List UInt8 :=
  strn (fun k => c (off + 8 + k)) (recNameLen c off)

/-- The record at `off` lies in one block, and its name fits. -/
structure Fits (c : Block) (off : Nat) : Prop where
  aligned : recLen c off % 4 = 0
  name    : 8 + recNameLen c off ≤ recLen c off
  block   : off % BSIZE + recLen c off ≤ BSIZE

instance (c : Block) (off : Nat) : Decidable (Fits c off) :=
  decidable_of_iff (_ ∧ _ ∧ _) ⟨fun h => ⟨h.1, h.2.1, h.2.2⟩, fun h => ⟨h.1, h.2, h.3⟩⟩

/-- The records from `off` to `size`. -/
inductive Records (c : Block) (size : Nat) : Nat → List Nat → Prop
  | nil : Records c size size []
  | cons {off : Nat} {l : List Nat} : off < size → Fits c off →
      Records c size (off + recLen c off) l → Records c size off (off :: l)

/-- A well-formed directory: whole blocks, tiled by records. -/
def WellFormed (c : Block) (size : Nat) : Prop :=
  size % BSIZE = 0 ∧ ∃ l, Records c size 0 l

variable {c : Block} {size off : Nat} {l : List Nat}

/-- A record has at least eight bytes. -/
lemma Records.length_le (h : Records c size off l) : off + 8 * l.length ≤ size := by
  induction h with
  | nil => exact le_rfl
  | cons _ hfits _ ih =>
    have := hfits.name
    rw [List.length_cons]
    omega

lemma Records.bounds {o : Nat} (h : Records c size off l)
    (ho : o ∈ l) : off ≤ o ∧ o + recLen c o ≤ size ∧ Fits c o := by
  induction h with
  | nil => exact absurd ho List.not_mem_nil
  | @cons off l hoff hfits hrest ih =>
    rcases List.mem_cons.mp ho with rfl | ho
    · have := hrest.length_le
      exact ⟨le_rfl, by omega, hfits⟩
    · obtain ⟨h1, h2⟩ := ih ho
      exact ⟨by omega, h2⟩

lemma Records.unique {l' : List Nat} (h : Records c size off l)
    (h' : Records c size off l') : l = l' := by
  induction h generalizing l' with
  | nil =>
    cases h' with
    | nil => rfl
    | cons hlt => exact absurd hlt (Nat.lt_irrefl _)
  | cons hlt _ _ ih =>
    cases h' with
    | nil => exact absurd hlt (Nat.lt_irrefl _)
    | cons _ _ hrest => rw [ih hrest]

lemma Records.congr {c' : Block} (h : Records c size off l)
    (hc : ∀ k, off ≤ k → k < size → c' k = c k) : Records c' size off l := by
  induction h with
  | nil => exact .nil
  | @cons off l hoff hfits hrest ih =>
    have hend := hrest.length_le
    have hname := hfits.name
    have hlen : recLen c' off = recLen c off :=
      getLE_congr (fun k h1 h2 => hc k (by omega) (by omega))
    have hnlen : recNameLen c' off = recNameLen c off := by
      rw [recNameLen, recNameLen, hc _ (by omega) (by omega)]
    refine .cons hoff ⟨?_, ?_, ?_⟩ ?_
    · rw [hlen]
      exact hfits.aligned
    · rwa [hlen, hnlen]
    · rw [hlen]
      exact hfits.block
    · rw [hlen]
      exact ih (fun k h1 h2 => hc k (by omega) h2)

lemma Records.split {mid : Nat} (h : Records c size off l)
    (hoff : off ≤ mid) (hmid : mid ≤ size) (hblock : mid % BSIZE = 0) :
    ∃ l₁ l₂, l = l₁ ++ l₂ ∧ Records c mid off l₁ ∧ Records c size mid l₂ := by
  induction h with
  | nil =>
    obtain rfl := Nat.le_antisymm hoff hmid
    exact ⟨[], [], rfl, .nil, .nil⟩
  | @cons off l hlt hfits hrest ih =>
    by_cases heq : off = mid
    · subst heq
      exact ⟨[], off :: l, rfl, .nil, .cons hlt hfits hrest⟩
    -- a record does not reach over the end of its block
    have hle : off + recLen c off ≤ mid := by
      have := hfits.block
      unfold BSIZE at *
      omega
    obtain ⟨l₁, l₂, rfl, h1, h2⟩ := ih hle
    exact ⟨off :: l₁, l₂, rfl, .cons (by omega) hfits h1, h2⟩

lemma Records.append {mid : Nat} {l₁ l₂ : List Nat}
    (h₁ : Records c mid off l₁) (h₂ : Records c size mid l₂) : Records c size off (l₁ ++ l₂) := by
  have hmid := h₂.length_le
  induction h₁ with
  | nil => exact h₂
  | cons hlt hfits _ ih => exact .cons (by omega) hfits ih

/-- The search among the records at the offsets `l`. -/
def findIn (c : Block) (size : Nat) (name : List UInt8) :
    List Nat → Except Err (Option (Nat × Nat))
  | [] => .ok none
  | off :: l =>
    if size < off + DIRENT then .error (.panic "ext2fs_dirlookup: read error")
    else if recInode c off ≠ 0 ∧ recName c off = name then .ok (some (off, recInode c off))
    else findIn c size name l

/-- A record in use with this name. -/
def Hit (c : Block) (name : List UInt8) (off : Nat) : Bool :=
  decide (recInode c off ≠ 0 ∧ recName c off = name)

variable {name : List UInt8}

lemma hit_iff :
    Hit c name off = true ↔ recInode c off ≠ 0 ∧ recName c off = name := decide_eq_true_iff

/-- The search without the panic. -/
lemma findIn_eq_find (name : List UInt8) (h : ∀ off ∈ l, off + DIRENT ≤ size) :
    findIn c size name l = .ok ((l.find? (Hit c name)).map (fun off => (off, recInode c off))) := by
  induction l with
  | nil => rfl
  | cons off l ih =>
    rw [findIn, if_neg (Nat.not_lt.mpr (h off List.mem_cons_self)), List.find?_cons]
    by_cases hit : recInode c off ≠ 0 ∧ recName c off = name
    · rw [if_pos hit, hit_iff.mpr hit]
      rfl
    · rw [if_neg hit, ih (fun o ho => h o (List.mem_cons_of_mem off ho)),
        Bool.eq_false_iff.mpr (fun h => hit (hit_iff.mp h))]

lemma findIn_absent (habsent : ∀ off ∈ l, Hit c name off = false) {r : Option (Nat × Nat)}
    (h : findIn c size name l = .ok r) : r = none ∧ ∀ off ∈ l, off + DIRENT ≤ size := by
  induction l with
  | nil => exact ⟨(Except.ok.inj h).symm, fun _ ho => absurd ho List.not_mem_nil⟩
  | cons off l ih =>
    rw [findIn] at h
    by_cases hcut : size < off + DIRENT
    · rw [if_pos hcut] at h
      exact nomatch h
    have hno : ¬(recInode c off ≠ 0 ∧ recName c off = name) := fun hit => by
      have := habsent off List.mem_cons_self
      rw [hit_iff.mpr hit] at this
      exact nomatch this
    rw [if_neg hcut, if_neg hno] at h
    obtain ⟨h1, h2⟩ := ih (fun o ho => habsent o (List.mem_cons_of_mem off ho)) h
    refine ⟨h1, fun o ho => ?_⟩
    rcases List.mem_cons.mp ho with rfl | ho
    · exact Nat.not_lt.mp hcut
    · exact h2 o ho

/-- A C string that `file_name` can hold. -/
def IsName (name : List UInt8) : Prop := (∀ b ∈ name, b ≠ 0) ∧ name.length ≤ EXT2_NAME_LEN

lemma recNameLen_le (c : Block) (off : Nat) : recNameLen c off ≤ EXT2_NAME_LEN :=
  Nat.le_of_lt_succ (c (off + 6)).toNat_lt

lemma recName_isName (c : Block) (off : Nat) : IsName (recName c off) :=
  ⟨fun _ hb => ne_zero_of_mem_strn hb, (length_strn_le _ _).trans (recNameLen_le c off)⟩

/-! ## The bytes of a directory -/

/-- The bytes of a file, as `ext2fs_readi` finds them. -/
def content (ip : Dinode) (v : Disk) : Block := byteAt (bmapLeaf ip.addrs v) v

/-- `ext2fs_bmap` finds the block: no pointer is null, and no index block occurs twice on
    the way, where its buffer would be locked already. -/
structure Reach (addrs : Nat → Nat) (v : Disk) (bn : Nat) : Prop where
  stored : Stored addrs v bn
  nodup  : (bmapInner addrs v bn).Nodup

lemma followWords_returns (sb : Ext2Super) (inum : Nat) (is : List Nat) :
    ∀ (held : List Nat) (blk : Nat) (s : Bcache), leafOf s.view blk is ≠ 0 →
      (∀ b ∈ innerOf s.view blk is, b ≠ 0 ∧ b ∉ held) → (innerOf s.view blk is).Nodup →
      ∃ s', followWords sb inum is held blk s = .ok (leafOf s.view blk is, s') ∧ Quiet s s' := by
  induction is with
  | nil => exact fun held blk s _ _ _ => ⟨s, rfl, Quiet.refl s⟩
  | cons i is ih =>
    intro held blk s hleaf hin hnodup
    obtain ⟨hblk, hnodup⟩ := List.nodup_cons.mp hnodup
    have htail : ∀ b ∈ innerOf s.view (getLE (s.view blk) 4 (4 * i)) is, b ≠ 0 :=
      fun b hb => (hin b (List.mem_cons_of_mem _ hb)).1
    have hword : wordSlot sb held inum blk i s =
        .ok (getLE (s.view blk) 4 (4 * i), s.touch blk) := by
      rw [wordSlot, bread_of_notMem (hin blk List.mem_cons_self).2, ok_bind]
      exact if_neg (root_ne_zero (show leafOf s.view (getLE (s.view blk) 4 (4 * i)) is ≠ 0 from hleaf)
        htail)
    have hq := Quiet.touch s blk
    rw [followWords, hword, ok_bind]
    obtain ⟨s', hrest, hq'⟩ := ih (blk :: held) (getLE (s.view blk) 4 (4 * i)) (s.touch blk)
      (by rw [hq.1]; exact hleaf) (fun b hb => by
        rw [hq.1] at hb
        refine ⟨htail b hb, fun hmem => ?_⟩
        rcases List.mem_cons.mp hmem with rfl | hmem
        · exact hblk hb
        · exact (hin b (List.mem_cons_of_mem _ hb)).2 hmem)
      (by rw [hq.1]; exact hnodup)
    rw [hq.1] at hrest
    exact ⟨s', hrest, hq.trans hq'⟩

/-- `ext2fs_bmap` of a block that it reaches. -/
lemma inodeBmap_returns (sb : Ext2Super) (inum : Nat) {ip : Dinode} {bn : Nat} {s : Bcache}
    (h : Reach ip.addrs s.view bn) :
    ∃ s', inodeBmap sb inum ip bn s = .ok (bmapLeaf ip.addrs s.view bn, ip, s') ∧ Quiet s s' := by
  obtain ⟨hst, hnodup⟩ := h
  rw [inodeBmap, ext2fsBmap_eq_followPath]
  unfold Stored bmapLeaf bmapInner at *
  cases hp : bmapPath bn with
  | none =>
    rw [hp] at hst
    exact absurd rfl hst.1
  | some p =>
    obtain ⟨root, is⟩ := p
    rw [hp] at hst hnodup
    obtain ⟨s', hwords, hq⟩ := followWords_returns sb inum is [] (ip.addrs root) s hst.1
      (fun b hb => ⟨hst.2 b hb, List.not_mem_nil⟩) hnodup
    refine ⟨s', ?_, hq⟩
    rw [followPath, inodeSlot, if_neg (root_ne_zero hst.1 hst.2), ok_bind]
    dsimp only
    rw [hwords]
    rfl

/-- A directory whose blocks are there. -/
structure Readable (ip : Dinode) (v : Disk) : Prop where
  dir   : ip.type = T_DIR
  size  : ip.size < 2 ^ 32
  reach : ∀ bn, bn * BSIZE < ip.size → Reach ip.addrs v bn

section Lookup

variable (sb : Ext2Super) (dnum : Nat) (devsw : Nat → Devsw) {ip : Dinode} {v : Disk}

variable {s : Bcache}

lemma readDirent_eq (h : Readable ip v) (msg : String) (hoff : off < ip.size)
    (de : Block) (hs : s.view = v) :
    ∃ s', s'.view = v ∧ readDirent (ext2fsReadi sb dnum devsw) msg ip off de s =
      if ip.size < off + DIRENT then .error (.panic msg)
      else .ok (blit de 0 DIRENT (fun k => content ip v (off + k)), ip, s') := by
  have h264 : DIRENT = 264 := rfl
  have hsize := h.size
  have hbmap : ∀ bn t, bn * BSIZE < ip.size → t.view = v →
      ∃ t', inodeBmap sb dnum ip bn t = .ok (bmapLeaf ip.addrs v bn, ip, t') ∧ t'.view = v := by
    rintro bn t hbn rfl
    obtain ⟨t', hr, hq⟩ := inodeBmap_returns sb dnum (h.reach bn hbn)
    exact ⟨t', hr, hq.1⟩
  have hloop : ∀ n, off + n ≤ ip.size → ∃ s', readLoop (inodeBmap sb dnum) n ip off n s =
      .ok ((List.range n).map (fun k => content ip v (off + k)), ip, s') ∧ s'.view = v :=
    fun n hn => readLoop_bytes n off n s (Nat.le_refl n) hs
      (fun bn t _ hbn ht => hbmap bn t (by omega) ht)
  have hdev : ip.type ≠ T_DEV := by rw [h.dir]; decide
  rw [readDirent, ext2fsReadi, FileIo.readi, if_neg hdev]
  by_cases hwhole : off + DIRENT ≤ ip.size
  · have hmod : (off + DIRENT) % 2 ^ 32 = off + DIRENT := Nat.mod_eq_of_lt (by omega)
    obtain ⟨s', hr, hs'⟩ := hloop DIRENT hwhole
    refine ⟨s', hs', ?_⟩
    rw [hmod, if_neg (by omega), if_neg (Nat.not_lt.mpr hwhole)]
    dsimp only
    rw [if_neg (Nat.not_lt.mpr hwhole), hr, ok_bind, ok_bind]
    dsimp only
    rw [if_neg (by decide)]
    congr 2
    refine blit_congr (fun k hk => ?_)
    rw [List.getD_eq_getElem _ 0 (by rw [List.length_map, List.length_range]; exact hk)]
    simp only [List.getElem_map, List.getElem_range]
  -- the end cuts the record off: fewer bytes come back, or none
  have hcut : ip.size < off + DIRENT := Nat.not_le.mp hwhole
  by_cases hwrap : ip.size < off ∨ (off + DIRENT) % 2 ^ 32 < off
  · refine ⟨s, hs, ?_⟩
    rw [if_pos hwrap, ok_bind, if_pos hcut]
    exact if_pos (by decide)
  have hmod : (off + DIRENT) % 2 ^ 32 = off + DIRENT := by omega
  obtain ⟨s', hr, hs'⟩ := hloop (ip.size - off) (by omega)
  refine ⟨s', hs', ?_⟩
  rw [if_neg hwrap, if_pos hcut, hmod]
  dsimp only
  rw [if_pos hcut, hr, ok_bind, ok_bind]
  dsimp only
  rw [asInt, if_pos (by omega)]

/-- The fields of a record that was read. -/
lemma blit_record (de c : Block) (off : Nat) :
    deInode (blit de 0 DIRENT (fun k => c (off + k))) = recInode c off ∧
    deRecLen (blit de 0 DIRENT (fun k => c (off + k))) = recLen c off ∧
    deNameLen (blit de 0 DIRENT (fun k => c (off + k))) = recNameLen c off ∧
    strn (fileName (blit de 0 DIRENT (fun k => c (off + k)))) EXT2_NAME_LEN = recName c off := by
  have hbyte : ∀ k < DIRENT, blit de 0 DIRENT (fun k => c (off + k)) k = c (off + k) := by
    intro k hk
    rw [blit_in ⟨Nat.zero_le k, by omega⟩, Nat.sub_zero]
  have h264 : DIRENT = 264 := rfl
  have hlen : deNameLen (blit de 0 DIRENT (fun k => c (off + k))) = recNameLen c off := by
    rw [deNameLen, hbyte 6 (by decide)]
    rfl
  have hle := recNameLen_le c off
  have h255 : EXT2_NAME_LEN = 255 := rfl
  refine ⟨?_, ?_, hlen, ?_⟩
  · rw [deInode, getLE_blit_in (by omega), getLE_shift]
    rfl
  · rw [deRecLen, getLE_blit_in (by omega), getLE_shift]
    rfl
  · have hname : fileName (blit de 0 DIRENT (fun k => c (off + k))) = fun k =>
        if k < recNameLen c off then
          strncpyByte (fun j => blit de 0 DIRENT (fun k => c (off + k)) (8 + j)) k else 0 := by
      funext k
      rw [fileName, hlen]
    rw [hname, strn_cut _ hle, strn_strncpyByte, recName]
    refine strn_congr (fun k hk => ?_)
    rw [hbyte _ (by omega), Nat.add_assoc]

lemma dirlookupFrom_step (h : Readable ip v) (name : List UInt8) (fuel off : Nat)
    (hs : s.view = v) :
    ∃ s', s'.view = v ∧ dirlookupFrom (ext2fsReadi sb dnum devsw) name (fuel + 1) off ip s =
      if off < ip.size then
        if ip.size < off + DIRENT then .error (.panic "ext2fs_dirlookup: read error")
        else if Hit (content ip v) (strn (cstr name) EXT2_NAME_LEN) off = true then
          .ok (some (off, recInode (content ip v) off), ip, s')
        else dirlookupFrom (ext2fsReadi sb dnum devsw) name fuel
          ((off + recLen (content ip v) off) % 2 ^ 32) ip s'
      else .ok (none, ip, s') := by
  by_cases hoff : off < ip.size
  · obtain ⟨s1, hs1, hread⟩ :=
      readDirent_eq sb dnum devsw h "ext2fs_dirlookup: read error" hoff (fun _ => 0) hs
    obtain ⟨hinode, hlen, -, hnam⟩ := blit_record (fun _ => 0) (content ip v) off
    refine ⟨s1, hs1, ?_⟩
    rw [dirlookupFrom, if_pos hoff, if_pos hoff, hread]
    by_cases hcut : ip.size < off + DIRENT
    · rw [if_pos hcut, if_pos hcut]
      rfl
    rw [if_neg hcut, if_neg hcut, ok_bind]
    dsimp only
    have hmatch : strncmpEq (cstr name) (fileName (blit (fun _ => 0) 0 DIRENT
        (fun k => content ip v (off + k)))) EXT2_NAME_LEN 0 = true ↔
        recName (content ip v) off = strn (cstr name) EXT2_NAME_LEN := by
      rw [strncmpEq_strn, hnam]
      exact eq_comm
    rw [hinode, hlen]
    by_cases hfound : Hit (content ip v) (strn (cstr name) EXT2_NAME_LEN) off = true
    · obtain ⟨hlive, hname⟩ := hit_iff.mp hfound
      rw [if_pos ⟨hlive, hmatch.mpr hname⟩, if_pos hfound]
    · rw [if_neg (fun hm => hfound (hit_iff.mpr ⟨hm.1, hmatch.mp hm.2⟩)), if_neg hfound]
  · exact ⟨s, hs, by rw [dirlookupFrom, if_neg hoff, if_neg hoff]⟩

variable {name : List UInt8}

lemma dirlookupFrom_eq (h : Readable ip v) (hname : IsName name)
    (hl : Records (content ip v) ip.size off l) :
    ∀ (fuel : Nat) (s : Bcache), l.length < fuel → s.view = v →
      ∃ s', s'.view = v ∧ dirlookupFrom (ext2fsReadi sb dnum devsw) name fuel off ip s =
        (findIn (content ip v) ip.size name l).map (fun r => (r, ip, s')) := by
  have hstr : strn (cstr name) EXT2_NAME_LEN = name := strn_cstr hname.1 hname.2
  induction hl with
  | nil =>
    intro fuel s hfuel hs
    cases fuel with
    | zero => exact absurd hfuel (Nat.not_lt_zero _)
    | succ fuel => exact ⟨s, hs, if_neg (Nat.lt_irrefl _)⟩
  | @cons off l hoff hfits hrest ih =>
    intro fuel s hfuel hs
    cases fuel with
    | zero => exact absurd hfuel (Nat.not_lt_zero _)
    | succ fuel =>
      have hsize := h.size
      obtain ⟨s1, hs1, hstep⟩ := dirlookupFrom_step sb dnum devsw h name fuel off hs
      rw [hstep, if_pos hoff, hstr, findIn]
      by_cases hcut : ip.size < off + DIRENT
      · rw [if_pos hcut, if_pos hcut]
        exact ⟨s1, hs1, rfl⟩
      rw [if_neg hcut, if_neg hcut]
      by_cases hfound : recInode (content ip v) off ≠ 0 ∧ recName (content ip v) off = name
      · rw [if_pos (hit_iff.mpr hfound), if_pos hfound]
        exact ⟨s1, hs1, rfl⟩
      rw [if_neg (fun hm => hfound (hit_iff.mp hm)), if_neg hfound,
        Nat.mod_eq_of_lt (by have := hrest.length_le; omega)]
      exact ih fuel s1 (by rw [List.length_cons] at hfuel; omega) hs1

/-- **`ext2fs_dirlookup` is the search among the records.** -/
lemma dirlookup_eq (h : Readable ip v) (hname : IsName name)
    (hl : Records (content ip v) ip.size 0 l) (hs : s.view = v) :
    ∃ s', s'.view = v ∧ ext2fsDirlookup (ext2fsReadi sb dnum devsw) name ip s =
      (findIn (content ip v) ip.size name l).map (fun r => (r, ip, s')) := by
  have := hl.length_le
  have := h.size
  exact dirlookupFrom_eq sb dnum devsw h hname hl _ s (by omega) hs

end Lookup

end Ext2Dir
