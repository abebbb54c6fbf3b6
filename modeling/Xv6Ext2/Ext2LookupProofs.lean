import Xv6Ext2.Ext2DirlinkProofs
import Xv6Ext2.RunsProofs

/-! # Looking up names in ext2 directories

    `ext2fs_dirlookup` reads 264 bytes at every record and steps by its `rec_len`.

    - `dirlookup_right_iff` : on a well-formed directory it is right exactly if every record
      that it looks at starts 264 bytes before the end at the latest, and no name that it
      takes for the given one goes on behind a NUL;
    - `dirlookup_ends_iff` : on any bytes the loop ends exactly if it comes to no offset
      twice, which for all but the largest directories means that it finds no `rec_len` 0. -/

namespace Ext2Dir

open ByteBlock BufCache Outcome Runs FileIo DirName Ext2Alloc Ext2Bmap Ext2Inode Ext2Stored

/-! ## Well-formed directories -/

/-- The name of the record at `off`, all its bytes. -/
def rawName (c : Block) (off : Nat) : List UInt8 :=
  (List.range (recNameLen c off)).map (fun k => c (off + 8 + k))

/-- A live entry with this name. -/
def Entry (c : Block) (name : List UInt8) (off : Nat) : Prop :=
  recInode c off ≠ 0 ∧ rawName c off = name

/-- The disk block of block `bn` of a file in the ext2 format. -/
def ext2Leaf (addrs : Nat → Nat) (v : Disk) (bn : Nat) : Nat :=
  match ext2Path bn with
  | some (root, is) => leafOf v (addrs root) is
  | none => 0

/-- The bytes of a file in the ext2 format. -/
def ext2Bytes (ip : Dinode) (v : Disk) : Block := byteAt (ext2Leaf ip.addrs v) v

/-- A directory of whole blocks that are tiled by the records at `l`, with distinct names.  It has
    at most 269 blocks: up to there `ext2fs_bmap` finds the blocks of the format. -/
structure Directory (ip : Dinode) (v : Disk) (l : List Nat) : Prop where
  readable : Readable ip v
  small    : ip.size ≤ 269 * BSIZE
  whole    : ip.size % BSIZE = 0
  records  : Records (ext2Bytes ip v) ip.size 0 l
  distinct : ∀ o ∈ l, ∀ o' ∈ l, recInode (ext2Bytes ip v) o ≠ 0 →
    recInode (ext2Bytes ip v) o' ≠ 0 →
    rawName (ext2Bytes ip v) o = rawName (ext2Bytes ip v) o' → o = o'

/-- What `ext2fs_readi` finds in it are the bytes of the format. -/
lemma content_eq_ext2Bytes {ip : Dinode} (v : Disk) (h : ip.size ≤ 269 * BSIZE) {k : Nat}
    (hk : k < ip.size) : content ip v k = ext2Bytes ip v k := by
  have hbn : k / BSIZE < 269 := by
    unfold BSIZE at *
    omega
  have hpath : bmapPath (k / BSIZE) = ext2Path (k / BSIZE) :=
    (bmapPath_eq_ext2Path_iff (Nat.lt_trans hbn (by decide))).mpr (by unfold DigitsAgree; omega)
  rw [content, ext2Bytes, byteAt, byteAt, bmapLeaf, ext2Leaf]
  generalize bmapPath (k / BSIZE) = p at hpath ⊢
  subst hpath
  rfl

/-- The records that the loop looks at. -/
def seen (c : Block) (name : List UInt8) : List Nat → List Nat
  | [] => []
  | off :: l => off :: if Hit c name off = true then [] else seen c name l

section Search

variable {c : Block} {size : Nat} {name : List UInt8} {l : List Nat}

/-- The loop ends at the first record with the name. -/
lemma find_iff_seen {off : Nat} :
    l.find? (Hit c name) = some off ↔ off ∈ seen c name l ∧ Hit c name off = true := by
  induction l with
  | nil => exact ⟨(fun h => by cases h), fun h => absurd h.1 List.not_mem_nil⟩
  | cons o l ih =>
    rw [seen, List.mem_cons]
    by_cases hit : Hit c name o = true
    · rw [List.find?_cons_of_pos hit, if_pos hit, Option.some.injEq]
      refine ⟨fun h => h ▸ ⟨.inl rfl, hit⟩, fun h => ?_⟩
      exact (h.1.resolve_right List.not_mem_nil).symm
    rw [List.find?_cons_of_neg hit, if_neg hit, ih]
    refine ⟨fun h => ⟨.inr h.1, h.2⟩, fun h => ⟨h.1.resolve_left ?_, h.2⟩⟩
    rintro rfl
    exact hit h.2

/-- The records depend on the bytes below the end only. -/
lemma Records.fields {c' : Block} {off : Nat} (h : Records c size off l)
    (hc : ∀ k < size, c' k = c k) {o : Nat} (ho : o ∈ l) :
    recInode c' o = recInode c o ∧ recName c' o = recName c o := by
  obtain ⟨-, hend, hfits⟩ := h.bounds ho
  have hname := hfits.name
  have hlen : recNameLen c' o = recNameLen c o := by
    rw [recNameLen, recNameLen, hc _ (by omega)]
  have hraw : rawName c' o = rawName c o := by
    rw [rawName, rawName, hlen]
    refine List.map_congr_left (fun k hk => hc _ ?_)
    have := List.mem_range.mp hk
    omega
  exact ⟨getLE_congr (fun k _ hk => hc k (by omega)),
    congrArg (List.takeWhile (fun b => b != 0)) hraw⟩

lemma findIn_congr {c' : Block}
    (h : ∀ o ∈ l, recInode c' o = recInode c o ∧ recName c' o = recName c o) :
    findIn c' size name l = findIn c size name l := by
  induction l with
  | nil => rfl
  | cons o l ih =>
    obtain ⟨hinode, hname⟩ := h o List.mem_cons_self
    rw [findIn, findIn, hinode, hname, ih (fun o ho => h o (List.mem_cons_of_mem _ ho))]

/-- The search panics at a record that the end cuts off, and at no other place. -/
lemma findIn_seen (name : List UInt8) :
    (∃ r, findIn c size name l = .ok r) ↔ ∀ off ∈ seen c name l, off + DIRENT ≤ size := by
  induction l with
  | nil => exact ⟨fun _ _ ho => absurd ho List.not_mem_nil, fun _ => ⟨none, rfl⟩⟩
  | cons o l ih =>
    rw [findIn, seen]
    by_cases hcut : size < o + DIRENT
    · rw [if_pos hcut]
      refine ⟨(by rintro ⟨r, h⟩; cases h), fun h => ?_⟩
      exact absurd (h o List.mem_cons_self) (Nat.not_le.mpr hcut)
    rw [if_neg hcut, List.forall_mem_cons]
    by_cases hit : recInode c o ≠ 0 ∧ recName c o = name
    · rw [if_pos hit, if_pos (hit_iff.mpr hit)]
      exact ⟨fun _ => ⟨Nat.not_lt.mp hcut, fun _ ho => absurd ho List.not_mem_nil⟩, fun _ => ⟨_, rfl⟩⟩
    · rw [if_neg hit, if_neg (fun h => hit (hit_iff.mp h)), ih]
      exact ⟨fun h => ⟨Nat.not_lt.mp hcut, h⟩, fun h => h.2⟩

lemma findIn_ok {r : Option (Nat × Nat)} (h : findIn c size name l = .ok r) :
    r = (l.find? (Hit c name)).map (fun off => (off, recInode c off)) := by
  induction l with
  | nil => exact (Except.ok.inj h).symm
  | cons o l ih =>
    rw [findIn] at h
    by_cases hcut : size < o + DIRENT
    · rw [if_pos hcut] at h
      cases h
    rw [if_neg hcut] at h
    split at h
    · next hit =>
      rw [List.find?_cons_of_pos (hit_iff.mpr hit)]
      exact (Except.ok.inj h).symm
    · next hit =>
      rw [List.find?_cons_of_neg (fun h => hit (hit_iff.mp h))]
      exact ih h

lemma Entry.hit (hname : IsName name) {off : Nat} (h : Entry c name off) :
    Hit c name off = true := by
  refine hit_iff.mpr ⟨h.1, ?_⟩
  have hraw : recName c off = (rawName c off).takeWhile (fun b => b != 0) := rfl
  rw [hraw, h.2, List.takeWhile_eq_self_iff]
  intro b hb
  simpa using hname.1 b hb

end Search

section Lookup

variable (sb : Ext2Super) (dnum : Nat) (devsw : Nat → Devsw)

/-- `ext2fs_dirlookup` returns the live entry with this name and its offset, and 0 if there
    is none. -/
def LookupRight (name : List UInt8) (ip : Dinode) (s : Bcache) (l : List Nat) : Prop :=
  ∃ r s', ext2fsDirlookup (ext2fsReadi sb dnum devsw) name ip s = .ok (r, ip, s') ∧
    s'.view = s.view ∧
    (∀ off ∈ l, Entry (ext2Bytes ip s.view) name off →
      r = some (off, recInode (ext2Bytes ip s.view) off)) ∧
    (r = none ↔ ∀ off ∈ l, ¬Entry (ext2Bytes ip s.view) name off)

/-- The records that the loop looks at are not cut off, and one whose name it takes for the
    given one has this name. -/
def LookupFits (name : List UInt8) (ip : Dinode) (v : Disk) (l : List Nat) : Prop :=
  ∀ off ∈ seen (ext2Bytes ip v) name l, off + DIRENT ≤ ip.size ∧
    (Hit (ext2Bytes ip v) name off = true → rawName (ext2Bytes ip v) off = name)

/-- **Main result.**  When `ext2fs_dirlookup` is right on a well-formed directory. -/
theorem dirlookup_right_iff (name : List UInt8) (hname : IsName name) (ip : Dinode) (s : Bcache)
    (l : List Nat) (hd : Directory ip s.view l) :
    LookupRight sb dnum devsw name ip s l ↔ LookupFits name ip s.view l := by
  obtain ⟨s1, hs1, hrun⟩ := dirlookup_eq sb dnum devsw hd.readable hname
    (hd.records.congr (fun _ _ hk => content_eq_ext2Bytes s.view hd.small hk)) rfl
  rw [findIn_congr (fun _ ho => hd.records.fields
    (fun _ hk => content_eq_ext2Bytes s.view hd.small hk) ho)] at hrun
  constructor
  · rintro ⟨r, s', hok, -, hfound, hnone⟩
    rw [hrun] at hok
    obtain ⟨r', hfind, hr'⟩ := exists_ok_of_map hok
    obtain rfl : r' = r := (Prod.mk.inj hr').1
    intro off hoff
    refine ⟨(findIn_seen name).mp ⟨_, hfind⟩ off hoff, fun hit => ?_⟩
    -- the record is returned, so that there is an entry, and it is the one returned
    have hr := findIn_ok hfind
    rw [find_iff_seen.mpr ⟨hoff, hit⟩] at hr
    by_contra hraw
    have hno : ∀ o ∈ l, ¬Entry (ext2Bytes ip s.view) name o := by
      intro o ho he
      have := hfound o ho he
      rw [hr] at this
      obtain rfl := (Prod.mk.inj (Option.some.inj this)).1
      exact hraw he.2
    rw [hnone.mpr hno] at hr
    cases hr
  · intro hfits
    obtain ⟨r, hfind⟩ := (findIn_seen name).mpr (fun off hoff => (hfits off hoff).1)
    have hr := findIn_ok hfind
    refine ⟨r, s1, by rw [hrun, hfind]; rfl, hs1, fun off hoff he => ?_, ?_⟩
    · cases hf : l.find? (Hit (ext2Bytes ip s.view) name) with
      | none =>
        have := List.find?_eq_none.mp hf off hoff
        exact absurd (he.hit hname) this
      | some o =>
        obtain ⟨hseen, hit⟩ := find_iff_seen.mp hf
        have heq := hd.distinct off hoff o (List.mem_of_find?_eq_some hf) he.1 (hit_iff.mp hit).1
          (he.2.trans ((hfits o hseen).2 hit).symm)
        rw [hr, hf, heq]
        rfl
    · rw [hr, Option.map_eq_none_iff]
      refine ⟨fun hf off hoff he => List.find?_eq_none.mp hf off hoff (he.hit hname), fun hno => ?_⟩
      cases hf : l.find? (Hit (ext2Bytes ip s.view) name) with
      | none => rfl
      | some o =>
        obtain ⟨hseen, hit⟩ := find_iff_seen.mp hf
        exact absurd ⟨(hit_iff.mp hit).1, (hfits o hseen).2 hit⟩
          (hno o (List.mem_of_find?_eq_some hf))

end Lookup

theorem dirlookup_right_iff_root : Directory rootDir dirCache.view [0, 12, 24] ∧ IsName [46] ∧
    LookupRight dirSuper 2 (fun _ => ⟨none, none⟩) [46] rootDir dirCache [0, 12, 24] := by
  have hname : IsName [46] := ⟨by decide +kernel, by decide +kernel⟩
  have hd : Directory rootDir dirCache.view [0, 12, 24] :=
    ⟨rootDir_readable, by decide, by decide, rootDir_records.congr (fun _ _ hk =>
      (content_eq_ext2Bytes dirCache.view (by decide) hk).symm), by decide⟩
  refine ⟨hd, hname, (dirlookup_right_iff dirSuper 2 (fun _ => ⟨none, none⟩) [46] hname rootDir
    dirCache [0, 12, 24] hd).mpr ?_⟩
  unfold LookupFits
  decide

/-- A block with a record of 800 bytes and one of 224. -/
def cutRecords : Block := fun k =>
  if k < 800 then ([2, 0, 0, 0, 32, 3, 1, 2, 46] : List UInt8).getD k 0
  else ([11, 0, 0, 0, 224, 0, 1, 1, 97] : List UInt8).getD (k - 800) 0

/-- The directory `rootDir` with the block `d`. -/
def oneBlock (d : Block) : Bcache := ⟨fun b => if b = 6 then d else fun _ => 0, fun _ => none⟩

lemma oneBlock_readable (d : Block) : Readable rootDir (oneBlock d).view := by
  refine ⟨rfl, by decide, fun bn hbn => ?_⟩
  obtain rfl : bn = 0 := by
    have : rootDir.size = BSIZE := rfl
    unfold BSIZE at *
    omega
  have hinner : bmapInner rootDir.addrs (oneBlock d).view 0 = [] := bmapInner_direct (by decide)
  refine reach_of_stored (by decide) ⟨?_, by rw [hinner]; exact fun _ hb => absurd hb List.not_mem_nil⟩
  rw [bmapLeaf_direct (by decide)]
  decide

/-- The entry is there, but less than 264 bytes before the end. -/
theorem dirlookup_panics_at_end : Directory rootDir (oneBlock cutRecords).view [0, 800] ∧
    Entry (ext2Bytes rootDir (oneBlock cutRecords).view) [97] 800 ∧
    (ext2fsDirlookup (ext2fsReadi dirSuper 2 (fun _ => ⟨none, none⟩)) [97] rootDir
      (oneBlock cutRecords)).map Prod.fst = .error (.panic "ext2fs_dirlookup: read error") ∧
    ¬LookupRight dirSuper 2 (fun _ => ⟨none, none⟩) [97] rootDir (oneBlock cutRecords) [0, 800] := by
  have hrecords : Records (ext2Bytes rootDir (oneBlock cutRecords).view) BSIZE 0 [0, 800] := by
    refine .cons (by decide) (by decide) ?_
    rw [show 0 + recLen (ext2Bytes rootDir (oneBlock cutRecords).view) 0 = 800 by decide]
    refine .cons (by decide) (by decide) ?_
    rw [show 800 + recLen (ext2Bytes rootDir (oneBlock cutRecords).view) 800 = BSIZE by decide]
    exact .nil
  have hrun : (ext2fsDirlookup (ext2fsReadi dirSuper 2 (fun _ => ⟨none, none⟩)) [97] rootDir
      (oneBlock cutRecords)).map Prod.fst = .error (.panic "ext2fs_dirlookup: read error") := by
    decide
  refine ⟨⟨oneBlock_readable cutRecords, by decide, by decide, hrecords, by decide⟩,
    ⟨by decide, by decide⟩, hrun, ?_⟩
  rintro ⟨r, s', hok, -⟩
  rw [hok] at hrun
  cases hrun

/-! ## Any bytes -/

/-- The offset after the record at `off`; `off` is an `unsigned int`. -/
def nextOff (c : Block) (off : Fin (2 ^ 32)) : Fin (2 ^ 32) :=
  ⟨(off.val + recLen c off.val) % 2 ^ 32, Nat.mod_lt _ (Nat.two_pow_pos 32)⟩

/-- The loop goes on after the record at `off`: it is not cut off and has not the name. -/
def GoesOn (c : Block) (size : Nat) (name : List UInt8) (off : Fin (2 ^ 32)) : Prop :=
  off.val + DIRENT ≤ size ∧ Hit c (strn (cstr name) EXT2_NAME_LEN) off.val = false

section Loop

variable (sb : Ext2Super) (dnum : Nat) (devsw : Nat → Devsw) {ip : Dinode} {v : Disk}
  {name : List UInt8}

/-- The loop of `ext2fs_dirlookup` ends, with a result or a panic. -/
def Terminates (name : List UInt8) (ip : Dinode) (s : Bcache) : Prop :=
  ∃ turns, dirlookupFrom (ext2fsReadi sb dnum devsw) name turns 0 ip s ≠ .error .hang

/-- With `fuel` turns the loop ends exactly if it stops in one of them. -/
lemma dirlookupFrom_hang_iff (h : Readable ip v) (fuel : Nat) :
    ∀ (off : Fin (2 ^ 32)) (s : Bcache), s.view = v →
      (dirlookupFrom (ext2fsReadi sb dnum devsw) name fuel off.val ip s ≠ .error .hang ↔
        ∃ n < fuel, ¬GoesOn (content ip v) ip.size name ((nextOff (content ip v))^[n] off)) := by
  induction fuel with
  | zero =>
    intro off s _
    exact ⟨fun hne => absurd rfl hne, fun ⟨n, hn, _⟩ => absurd hn (Nat.not_lt_zero n)⟩
  | succ fuel ih =>
    intro off s hs
    obtain ⟨s', hs', hstep⟩ := dirlookupFrom_step sb dnum devsw h name fuel off.val hs
    by_cases hgo : GoesOn (content ip v) ip.size name off
    · have h264 : DIRENT = 264 := rfl
      have hlt := hgo.1
      rw [hstep, if_pos (by omega), if_neg (by omega),
        if_neg (by rw [hgo.2]; exact Bool.false_ne_true)]
      refine (ih (nextOff (content ip v) off) s' hs').trans ⟨?_, ?_⟩
      · rintro ⟨n, hn, hstop⟩
        exact ⟨n + 1, by omega, hstop⟩
      · rintro ⟨n, hn, hstop⟩
        cases n with
        | zero => exact absurd hgo hstop
        | succ n => exact ⟨n, by omega, hstop⟩
    refine ⟨fun _ => ⟨0, Nat.succ_pos _, hgo⟩, fun _ => ?_⟩
    rw [hstep]
    split
    · by_cases hcut : ip.size < off.val + DIRENT
      · rw [if_pos hcut]
        exact fun e => by cases e
      rw [if_neg hcut, if_pos]
      · exact fun e => by cases e
      · by_contra hno
        exact hgo ⟨Nat.not_lt.mp hcut, Bool.not_eq_true _ ▸ hno⟩
    · exact fun e => by cases e

lemma terminates_iff_ends {s : Bcache} (h : Readable ip s.view) :
    Terminates sb dnum devsw name ip s ↔
      Ends (nextOff (content ip s.view)) (GoesOn (content ip s.view) ip.size name) 0 := by
  constructor
  · rintro ⟨turns, hne⟩
    obtain ⟨n, -, hstop⟩ := (dirlookupFrom_hang_iff sb dnum devsw h turns 0 s rfl).mp hne
    exact ⟨n, hstop⟩
  · rintro ⟨n, hstop⟩
    exact ⟨n + 1, (dirlookupFrom_hang_iff sb dnum devsw h (n + 1) 0 s rfl).mpr
      ⟨n, Nat.lt_succ_self n, hstop⟩⟩

/-- As long as the offset does not wrap around, only a `rec_len` 0 makes the loop return. -/
lemma returns_iff_zero {c : Block} {size : Nat} (hsize : size + 2 ^ 16 ≤ 2 ^ 32) :
    Returns (nextOff c) (GoesOn c size name) 0 ↔
      ∃ n, (∀ k ≤ n, GoesOn c size name ((nextOff c)^[k] 0)) ∧
        recLen c ((nextOff c)^[n] 0).val = 0 := by
  constructor
  · rintro ⟨m, n, hlt, heq, hgo⟩
    by_contra hno
    -- the offsets grow
    have hgrow : ∀ k < n, ((nextOff c)^[k] 0).val < ((nextOff c)^[k + 1] 0).val := by
      intro k hk
      have hpos : recLen c ((nextOff c)^[k] 0).val ≠ 0 := fun hz =>
        hno ⟨k, fun j hj => hgo j (by omega), hz⟩
      have hend := (hgo k hk).1
      have hlen : recLen c ((nextOff c)^[k] 0).val < 256 ^ 2 := getLE_lt c 2 _
      rw [Function.iterate_succ_apply']
      show _ < (_ + recLen c _) % 2 ^ 32
      rw [Nat.mod_eq_of_lt (by omega)]
      omega
    have hmono : ∀ d, m + 1 + d ≤ n →
        ((nextOff c)^[m] 0).val < ((nextOff c)^[m + 1 + d] 0).val := by
      intro d
      induction d with
      | zero => exact fun _ => hgrow m hlt
      | succ d ih => exact fun hd => Nat.lt_trans (ih (by omega)) (hgrow (m + 1 + d) (by omega))
    have := hmono (n - (m + 1)) (by omega)
    rw [show m + 1 + (n - (m + 1)) = n by omega, heq] at this
    exact Nat.lt_irrefl _ this
  · rintro ⟨n, hgo, hzero⟩
    refine ⟨n, n + 1, Nat.lt_succ_self n, ?_, fun k hk => hgo k (by omega)⟩
    rw [Function.iterate_succ_apply']
    refine Fin.ext ?_
    show _ = (_ + recLen c _) % 2 ^ 32
    rw [hzero, Nat.add_zero, Nat.mod_eq_of_lt (Fin.is_lt _)]

/-- **Main result.**  On every bytes the loop ends exactly if it comes to no offset a second
    time; unless the directory has nearly 2^32 bytes, exactly if it finds no `rec_len` 0 where
    it goes on. -/
theorem dirlookup_ends_iff (name : List UInt8) (ip : Dinode) (s : Bcache) (h : Readable ip s.view) :
    (Terminates sb dnum devsw name ip s ↔
      ¬Returns (nextOff (content ip s.view)) (GoesOn (content ip s.view) ip.size name) 0) ∧
    (ip.size + 2 ^ 16 ≤ 2 ^ 32 → (Terminates sb dnum devsw name ip s ↔
      ∀ n, (∀ k ≤ n, GoesOn (content ip s.view) ip.size name ((nextOff (content ip s.view))^[k] 0)) →
        recLen (content ip s.view) ((nextOff (content ip s.view))^[n] 0).val ≠ 0)) := by
  have hends : Terminates sb dnum devsw name ip s ↔
      ¬Returns (nextOff (content ip s.view)) (GoesOn (content ip s.view) ip.size name) 0 :=
    (terminates_iff_ends sb dnum devsw h).trans (ends_iff_not_returns 0)
  refine ⟨hends, fun hsize => ?_⟩
  rw [hends, returns_iff_zero hsize]
  exact ⟨fun hno n hgo hzero => hno ⟨n, hgo, hzero⟩, fun hall ⟨n, hgo, hzero⟩ => hall n hgo hzero⟩

end Loop

theorem dirlookup_ends_iff_root : ¬Returns (nextOff (content rootDir dirCache.view))
      (GoesOn (content rootDir dirCache.view) BSIZE [97]) 0 := by
  refine (dirlookup_ends_iff dirSuper 2 (fun _ => ⟨none, none⟩) [97] rootDir dirCache
    rootDir_readable).1.mp ⟨4, fun hang => ?_⟩
  have hok : (dirlookupFrom (ext2fsReadi dirSuper 2 (fun _ => ⟨none, none⟩)) [97] 4 0 rootDir
      dirCache).isOk = true := by
    decide +kernel
  rw [hang] at hok
  cases hok

/-- A block of zeros: the loop stays at offset 0. -/
theorem dirlookup_stays_at_zero : Readable rootDir (oneBlock (fun _ => 0)).view ∧
    ¬Terminates dirSuper 2 (fun _ => ⟨none, none⟩) [97] rootDir (oneBlock (fun _ => 0)) := by
  have hread := oneBlock_readable (fun _ => 0)
  refine ⟨hread, fun h => ?_⟩
  have hends := (terminates_iff_ends dirSuper 2 (fun _ => ⟨none, none⟩) hread).mp h
  refine Returns.not_ends ⟨0, 1, Nat.zero_lt_one, ?_, fun k hk => ?_⟩ hends
  · decide
  · obtain rfl : k = 0 := by omega
    exact ⟨by decide, by decide⟩

end Ext2Dir
