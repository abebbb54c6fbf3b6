import Xv6Ext2.Ext2DirProofs

/-! # What the ext2 functions depend on

    Two caches with the same view hold the same block contents, some of them in buffers and some
    only on the device.  The functions of the file system see the view only: from caches with the
    same view a call ends in the same way, with the same results, and the caches have the same view
    again.  Which blocks have a buffer makes a difference only when one is dropped.

    One lemma per function, each from those of the functions it calls. -/

namespace Ext2View

open ByteBlock BufCache Outcome FileIo DirName Ext2Alloc Ext2Bmap Ext2Inode Ext2Dir

/-- The same contents. -/
def SameView (s t : Bcache) : Prop := s.view = t.view

variable {s t : Bcache}

lemma SameView.touch (h : SameView s t) (b : Nat) : SameView (s.touch b) (t.touch b) := by
  rwa [SameView, touch_view, touch_view]

lemma SameView.bput (h : SameView s t) (b : Nat) (d : Block) :
    SameView (bput b d s) (bput b d t) := by
  rw [SameView, bput_view, bput_view, show s.view = t.view from h]

lemma SameView.bwrite (h : SameView s t) (b : Nat) (d : Block) :
    SameView (bwrite b d s) (bwrite b d t) := by
  rw [SameView, bwrite_view, bwrite_view, show s.view = t.view from h]

lemma bread_same (h : SameView s t) (held : List Nat) (b : Nat) :
    Rel (EqFst SameView) (bread held b s) (bread held b t) := by
  unfold bread
  by_cases hb : b ∈ held
  · rw [if_pos hb, if_pos hb]
    exact Rel.error _
  · rw [if_neg hb, if_neg hb]
    exact Rel.ok ⟨congrFun h b, h.touch b⟩

/-! ## Allocation and the block map -/

lemma checkDiv_same (d : Nat) : Rel (fun _ _ => True) (checkDiv d) (checkDiv d) := by
  cases checkDiv d with
  | ok u => exact Rel.ok trivial
  | error e => exact Rel.error e

lemma ext2fsBalloc_same (h : SameView s t) (sb : Ext2Super) (held : List Nat) (inum : Nat) :
    Rel (EqFst SameView) (ext2fsBalloc sb held inum s) (ext2fsBalloc sb held inum t) := by
  refine (checkDiv_same _).bind ?_
  rintro - - -
  refine (bread_same h _ _).bind ?_
  rintro ⟨d1, s⟩ ⟨-, t⟩ ⟨rfl, h⟩
  refine (bread_same h _ _).bind ?_
  rintro ⟨d2, s⟩ ⟨-, t⟩ ⟨rfl, h⟩
  dsimp only
  cases ext2fsFreeBlock sb d2 with
  | none => exact Rel.error _
  | some r =>
    obtain ⟨fbit, d⟩ := r
    have hzero : Rel SameView (ext2fsBzero (bgBlockBitmap d1 (getGroupNo inum sb) :: held)
          ((bgBlockBitmap d1 (getGroupNo inum sb) + fbit) % 2 ^ 32)
          (bwrite (bgBlockBitmap d1 (getGroupNo inum sb)) d s))
        (ext2fsBzero (bgBlockBitmap d1 (getGroupNo inum sb) :: held)
          ((bgBlockBitmap d1 (getGroupNo inum sb) + fbit) % 2 ^ 32)
          (bwrite (bgBlockBitmap d1 (getGroupNo inum sb)) d t)) := by
      refine (bread_same (h.bwrite _ _) _ _).bind ?_
      rintro ⟨-, s⟩ ⟨-, t⟩ ⟨-, h⟩
      exact Rel.ok (h.bwrite _ _)
    refine hzero.bind ?_
    intro s t h
    exact Rel.ok ⟨rfl, h⟩

lemma inodeSlot_same (h : SameView s t) (sb : Ext2Super) (inum i : Nat) (addrs : Nat → Nat) :
    Rel (EqFst (EqFst SameView)) (inodeSlot sb inum i addrs s) (inodeSlot sb inum i addrs t) := by
  unfold inodeSlot
  by_cases hi : addrs i = 0
  · rw [if_pos hi, if_pos hi]
    refine (ext2fsBalloc_same h sb [] inum).bind ?_
    rintro ⟨addr, s⟩ ⟨-, t⟩ ⟨rfl, h⟩
    exact Rel.ok ⟨rfl, rfl, h⟩
  · rw [if_neg hi, if_neg hi]
    exact Rel.ok ⟨rfl, rfl, h⟩

lemma wordSlot_same (h : SameView s t) (sb : Ext2Super) (held : List Nat) (inum blk i : Nat) :
    Rel (EqFst SameView) (wordSlot sb held inum blk i s) (wordSlot sb held inum blk i t) := by
  refine (bread_same h held blk).bind ?_
  rintro ⟨a, s⟩ ⟨-, t⟩ ⟨rfl, h⟩
  dsimp only
  by_cases hi : getLE a 4 (4 * i) = 0
  · rw [if_pos hi, if_pos hi]
    refine (ext2fsBalloc_same h sb (blk :: held) inum).bind ?_
    rintro ⟨addr, s⟩ ⟨-, t⟩ ⟨rfl, h⟩
    dsimp only
    rw [show s.view = t.view from h]
    exact Rel.ok ⟨rfl, h.bput _ _⟩
  · rw [if_neg hi, if_neg hi]
    exact Rel.ok ⟨rfl, h⟩

lemma followWords_same (sb : Ext2Super) (inum : Nat) (is : List Nat) :
    ∀ (held : List Nat) (blk : Nat) (s t : Bcache), SameView s t →
      Rel (EqFst SameView) (followWords sb inum is held blk s)
        (followWords sb inum is held blk t) := by
  induction is with
  | nil =>
    intro held blk s t h
    exact Rel.ok ⟨rfl, h⟩
  | cons i is ih =>
    intro held blk s t h
    refine (wordSlot_same h sb held inum blk i).bind ?_
    rintro ⟨b, s⟩ ⟨-, t⟩ ⟨rfl, h⟩
    exact ih (blk :: held) b s t h

lemma ext2fsBmap_same (h : SameView s t) (sb : Ext2Super) (inum bn : Nat) (addrs : Nat → Nat) :
    Rel (EqFst (EqFst SameView)) (ext2fsBmap sb inum bn addrs s)
      (ext2fsBmap sb inum bn addrs t) := by
  rw [ext2fsBmap_eq_followPath, ext2fsBmap_eq_followPath]
  cases bmapPath bn with
  | none => exact Rel.error _
  | some p =>
    obtain ⟨root, is⟩ := p
    refine (inodeSlot_same h sb inum root addrs).bind ?_
    rintro ⟨blk, addrs, s⟩ ⟨-, -, t⟩ ⟨rfl, rfl, h⟩
    refine (followWords_same sb inum is [] blk s t h).bind ?_
    rintro ⟨addr, s⟩ ⟨-, t⟩ ⟨rfl, h⟩
    exact Rel.ok ⟨rfl, rfl, h⟩

/-! ## The bytes of an inode -/

/-- A block map that sees the view only. -/
def BmapSame (bmap : Bmap) : Prop :=
  ∀ ip bn s t, SameView s t → Rel (EqFst (EqFst SameView)) (bmap ip bn s) (bmap ip bn t)

lemma inodeBmap_same (sb : Ext2Super) (inum : Nat) : BmapSame (inodeBmap sb inum) := by
  intro ip bn s t h
  refine (ext2fsBmap_same h sb inum bn ip.addrs).bind ?_
  rintro ⟨addr, addrs, s⟩ ⟨-, -, t⟩ ⟨rfl, rfl, h⟩
  exact Rel.ok ⟨rfl, rfl, h⟩

variable {bmap : Bmap}

lemma readLoop_same (hb : BmapSame bmap) (fuel : Nat) :
    ∀ (ip : Dinode) (off r : Nat) (s t : Bcache), SameView s t →
      Rel (EqFst (EqFst SameView)) (readLoop bmap fuel ip off r s)
        (readLoop bmap fuel ip off r t) := by
  induction fuel with
  | zero =>
    intro ip off r s t h
    exact Rel.ok ⟨rfl, rfl, h⟩
  | succ fuel ih =>
    intro ip off r s t h
    rw [readLoop, readLoop]
    by_cases hr : r = 0
    · rw [if_pos hr, if_pos hr]
      exact Rel.ok ⟨rfl, rfl, h⟩
    rw [if_neg hr, if_neg hr]
    refine (hb ip _ s t h).bind ?_
    rintro ⟨b, ip, s⟩ ⟨-, -, t⟩ ⟨rfl, rfl, h⟩
    refine (bread_same h [] b).bind ?_
    rintro ⟨d, s⟩ ⟨-, t⟩ ⟨rfl, h⟩
    refine (ih ip _ _ s t h).bind ?_
    rintro ⟨rest, ip, s⟩ ⟨-, -, t⟩ ⟨rfl, rfl, h⟩
    exact Rel.ok ⟨rfl, rfl, h⟩

lemma readi_same (hb : BmapSame bmap) (h : SameView s t)
    (devsw : Nat → Devsw) (ip : Dinode) (off n : Nat) :
    Rel (EqFst (EqFst SameView)) (readi bmap devsw ip off n s) (readi bmap devsw ip off n t) := by
  unfold readi
  by_cases hdev : ip.type = T_DEV
  · rw [if_pos hdev, if_pos hdev]
    by_cases hmaj : NDEV ≤ ip.major
    · rw [if_pos hmaj, if_pos hmaj]
      exact Rel.ok ⟨rfl, rfl, h⟩
    rw [if_neg hmaj, if_neg hmaj]
    cases (devsw ip.major).read with
    | none => exact Rel.ok ⟨rfl, rfl, h⟩
    | some f => exact Rel.ok ⟨rfl, rfl, h⟩
  rw [if_neg hdev, if_neg hdev]
  by_cases hoff : ip.size < off ∨ (off + n) % 2 ^ 32 < off
  · rw [if_pos hoff, if_pos hoff]
    exact Rel.ok ⟨rfl, rfl, h⟩
  rw [if_neg hoff, if_neg hoff]
  refine (readLoop_same hb _ ip off _ s t h).bind ?_
  rintro ⟨bytes, ip, s⟩ ⟨-, -, t⟩ ⟨rfl, rfl, h⟩
  exact Rel.ok ⟨rfl, rfl, h⟩

lemma writeLoop_same (hb : BmapSame bmap) (fuel : Nat) :
    ∀ (ip : Dinode) (src : Nat → UInt8) (off r : Nat) (s t : Bcache), SameView s t →
      Rel (EqFst SameView) (writeLoop bmap bwrite fuel ip src off r s)
        (writeLoop bmap bwrite fuel ip src off r t) := by
  induction fuel with
  | zero =>
    intro ip src off r s t h
    exact Rel.ok ⟨rfl, h⟩
  | succ fuel ih =>
    intro ip src off r s t h
    rw [writeLoop, writeLoop]
    by_cases hr : r = 0
    · rw [if_pos hr, if_pos hr]
      exact Rel.ok ⟨rfl, h⟩
    rw [if_neg hr, if_neg hr]
    refine (hb ip _ s t h).bind ?_
    rintro ⟨b, ip, s⟩ ⟨-, -, t⟩ ⟨rfl, rfl, h⟩
    refine (bread_same h [] b).bind ?_
    rintro ⟨d, s⟩ ⟨-, t⟩ ⟨rfl, h⟩
    exact ih ip _ _ _ _ _ (h.bwrite _ _)

variable {iupdate : Dinode → Bcache → Except Err Bcache}

lemma writei_same (hb : BmapSame bmap)
    (hi : ∀ ip s t, SameView s t → Rel SameView (iupdate ip s) (iupdate ip t)) (h : SameView s t)
    (maxBytes : Nat) (devsw : Nat → Devsw) (ip : Dinode) (src : Nat → UInt8) (off n : Nat) :
    Rel (EqFst (EqFst SameView)) (writei bmap bwrite iupdate maxBytes devsw ip src off n s)
      (writei bmap bwrite iupdate maxBytes devsw ip src off n t) := by
  unfold writei
  by_cases hdev : ip.type = T_DEV
  · rw [if_pos hdev, if_pos hdev]
    by_cases hmaj : NDEV ≤ ip.major
    · rw [if_pos hmaj, if_pos hmaj]
      exact Rel.ok ⟨rfl, rfl, h⟩
    rw [if_neg hmaj, if_neg hmaj]
    cases (devsw ip.major).write with
    | none => exact Rel.ok ⟨rfl, rfl, h⟩
    | some f => exact Rel.ok ⟨rfl, rfl, h⟩
  rw [if_neg hdev, if_neg hdev]
  by_cases hoff : ip.size < off ∨ (off + n) % 2 ^ 32 < off
  · rw [if_pos hoff, if_pos hoff]
    exact Rel.ok ⟨rfl, rfl, h⟩
  rw [if_neg hoff, if_neg hoff]
  by_cases hmax : maxBytes < (off + n) % 2 ^ 32
  · rw [if_pos hmax, if_pos hmax]
    exact Rel.ok ⟨rfl, rfl, h⟩
  rw [if_neg hmax, if_neg hmax]
  refine (writeLoop_same hb _ ip src off n s t h).bind ?_
  rintro ⟨ip, s⟩ ⟨-, t⟩ ⟨rfl, h⟩
  dsimp only
  by_cases hgrow : 0 < n ∧ ip.size < (off + n) % 2 ^ 32
  · rw [if_pos hgrow, if_pos hgrow]
    refine (hi _ s t h).bind ?_
    intro s t h
    exact Rel.ok ⟨rfl, rfl, h⟩
  · rw [if_neg hgrow, if_neg hgrow]
    exact Rel.ok ⟨rfl, rfl, h⟩

/-! ## Inodes and directories -/

lemma checkGeometry_same (sb : Ext2Super) :
    Rel (fun _ _ => True) (checkGeometry sb) (checkGeometry sb) := by
  cases checkGeometry sb with
  | ok u => exact Rel.ok trivial
  | error e => exact Rel.error e

lemma ext2fsIupdate_same (sb : Ext2Super) (inum : Nat) (ip : Dinode) (s t : Bcache)
    (h : SameView s t) :
    Rel SameView (ext2fsIupdate sb inum ip s) (ext2fsIupdate sb inum ip t) := by
  refine (checkGeometry_same sb).bind ?_
  rintro - - -
  refine (bread_same h [] 2).bind ?_
  rintro ⟨desc, s⟩ ⟨-, t⟩ ⟨rfl, h⟩
  refine (bread_same h [] _).bind ?_
  rintro ⟨d, s⟩ ⟨-, t⟩ ⟨rfl, h⟩
  exact Rel.ok (h.bwrite _ _)

/-- A reader that sees the view only. -/
def ReaderSame (rd : Reader) : Prop :=
  ∀ ip off n s t, SameView s t →
    Rel (EqFst (EqFst SameView)) (rd ip off n s) (rd ip off n t)

/-- A writer that sees the view only. -/
def WriterSame (wr : Writer) : Prop :=
  ∀ ip src off n s t, SameView s t →
    Rel (EqFst (EqFst SameView)) (wr ip src off n s) (wr ip src off n t)

lemma ext2fsReadi_same (sb : Ext2Super) (inum : Nat) (devsw : Nat → Devsw) :
    ReaderSame (ext2fsReadi sb inum devsw) :=
  fun ip off n _ _ h => readi_same (inodeBmap_same sb inum) h devsw ip off n

lemma ext2fsWritei_same (sb : Ext2Super) (inum : Nat) (devsw : Nat → Devsw) :
    WriterSame (ext2fsWritei sb inum devsw) := fun ip src off n _ _ h =>
    writei_same (inodeBmap_same sb inum) (ext2fsIupdate_same sb inum) h _ devsw ip src off n

variable {rd : Reader}

lemma readDirent_same (hrd : ReaderSame rd)
    (h : SameView s t) (msg : String) (ip : Dinode) (off : Nat) (de : Block) :
    Rel (EqFst (EqFst SameView)) (readDirent rd msg ip off de s)
      (readDirent rd msg ip off de t) := by
  refine (hrd ip off DIRENT s t h).bind ?_
  rintro ⟨⟨r, bytes⟩, ip, s⟩ ⟨-, -, t⟩ ⟨rfl, rfl, h⟩
  dsimp only
  by_cases hr : r ≠ (DIRENT : Int)
  · rw [if_pos hr, if_pos hr]
    exact Rel.error _
  · rw [if_neg hr, if_neg hr]
    exact Rel.ok ⟨rfl, rfl, h⟩

lemma dirlookupFrom_same (hrd : ReaderSame rd) (name : List UInt8) (fuel : Nat) :
    ∀ (off : Nat) (ip : Dinode) (s t : Bcache), SameView s t →
      Rel (EqFst (EqFst SameView)) (dirlookupFrom rd name fuel off ip s)
        (dirlookupFrom rd name fuel off ip t) := by
  induction fuel with
  | zero =>
    intro off ip s t h
    exact Rel.error _
  | succ fuel ih =>
    intro off ip s t h
    rw [dirlookupFrom, dirlookupFrom]
    by_cases hoff : off < ip.size
    · rw [if_pos hoff, if_pos hoff]
      refine (readDirent_same hrd h _ ip off _).bind ?_
      rintro ⟨de, ip, s⟩ ⟨-, -, t⟩ ⟨rfl, rfl, h⟩
      dsimp only
      split
      · exact Rel.ok ⟨rfl, rfl, h⟩
      · exact ih _ ip s t h
    · rw [if_neg hoff, if_neg hoff]
      exact Rel.ok ⟨rfl, rfl, h⟩

lemma freeDirent_same (hrd : ReaderSame rd) (fuel : Nat) :
    ∀ (off : Nat) (de : Block) (ip : Dinode) (s t : Bcache), SameView s t →
      Rel (EqFst (EqFst (EqFst SameView))) (freeDirent rd fuel off de ip s)
        (freeDirent rd fuel off de ip t) := by
  induction fuel with
  | zero =>
    intro off de ip s t h
    exact Rel.ok ⟨rfl, rfl, rfl, h⟩
  | succ fuel ih =>
    intro off de ip s t h
    rw [freeDirent, freeDirent]
    by_cases hoff : off < ip.size
    · rw [if_pos hoff, if_pos hoff]
      refine (readDirent_same hrd h _ ip off de).bind ?_
      rintro ⟨de, ip, s⟩ ⟨-, -, t⟩ ⟨rfl, rfl, h⟩
      dsimp only
      split
      · exact Rel.ok ⟨rfl, rfl, rfl, h⟩
      · exact ih _ de ip s t h
    · rw [if_neg hoff, if_neg hoff]
      exact Rel.ok ⟨rfl, rfl, rfl, h⟩

lemma ext2fsDirlink_same {wr : Writer} (hrd : ReaderSame rd) (hwr : WriterSame wr)
    (hi : ∀ ip s t, SameView s t → Rel SameView (iupdate ip s) (iupdate ip t)) (h : SameView s t)
    (dnum : Nat) (name : List UInt8) (inum : Nat) (de : Block) (ip : Dinode) :
    Rel (EqFst (EqFst SameView)) (ext2fsDirlink dnum rd wr iupdate name inum de ip s)
      (ext2fsDirlink dnum rd wr iupdate name inum de ip t) := by
  refine (dirlookupFrom_same hrd name _ 0 ip s t h).bind ?_
  rintro ⟨found, ip, s⟩ ⟨-, -, t⟩ ⟨rfl, rfl, h⟩
  cases found with
  | some r =>
    dsimp only
    split
    · exact Rel.error _
    · exact Rel.ok ⟨rfl, rfl, h⟩
  | none =>
    refine (freeDirent_same hrd _ 0 de ip s t h).bind ?_
    rintro ⟨off, de, ip, s⟩ ⟨-, -, -, t⟩ ⟨rfl, rfl, rfl, h⟩
    refine (hi _ s t h).bind ?_
    intro s t h
    refine (hwr _ _ _ _ s t h).bind ?_
    rintro ⟨r, ip, s⟩ ⟨-, -, t⟩ ⟨rfl, rfl, h⟩
    exact Rel.ok ⟨rfl, rfl, h⟩

end Ext2View
