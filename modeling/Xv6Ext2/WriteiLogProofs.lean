import Xv6Ext2.FilewriteLogProofs
import Xv6Ext2.LogProtocolProofs

/-! # Writes of the root device within the log

    A call of `xv6fs_writei` stops when `log_write` finds the log full, however many blocks of the
    disk are free.  `writeiLogged` is the call with its calls of `log_write`, over the fields of
    `struct log` that they read.

    - `logBlocks_iff` : the calls of `log_write` return exactly if there is room for all but the
      last block;
    - `writei_refines` : what a call does to the content of the file, when it stops and when it
      refuses;
    - `files_refine_byte_strings` : this with reads, and a bound on the room that a call needs. -/

namespace Xv6Image

open BufCache Param Outcome FileIo Xv6Alloc Xv6Inode FilewriteLog

open LogProtocol (absorb mem_absorb nodup_absorb)

/-! ## The log -/

/-- The fields of `struct log` that `log_write` uses; a block stands in the header once. -/
structure LogHead where
  lh          : List Nat
  size        : Nat
  outstanding : Nat
  nodup       : lh.Nodup

/-- The blocks that the header may have when `log_write` is called are fewer. -/
def LogHead.limit (g : LogHead) : Nat := min LOGSIZE (g.size - 1)

/-- `log_write` of block `b`.  It panics in a full log also for a block that the log has. -/
def logBlock (g : LogHead) (b : Nat) : Except Err LogHead :=
  if LOGSIZE ≤ g.lh.length ∨ g.size - 1 ≤ g.lh.length then
    .error (.panic "too big a transaction")
  else if g.outstanding < 1 then .error (.panic "log_write outside of trans")
  else .ok { g with lh := absorb b g.lh, nodup := nodup_absorb g.nodup }

/-- The calls of `log_write` for the blocks `bs`. -/
def logBlocks (bs : List Nat) (g : LogHead) : Except Err LogHead := bs.foldlM logBlock g

/-- There is room for the blocks `bs`: the call is in an operation, and before the last of them is
    logged the log is not full. -/
def HasRoom (g : LogHead) (bs : List Nat) : Prop :=
  bs = [] ∨ (1 ≤ g.outstanding ∧ (g.lh ++ bs.dropLast).toFinset.card < g.limit)

/-- `xv6fs_writei` with its calls of `log_write`.  A panic of its own comes after all of them: the
    list ends where the call stops. -/
def writeiLogged (sb : Superblock) (inum : Nat) (devsw : Nat → Devsw) (ip : Dinode)
    (src : Nat → UInt8) (off n : Nat) (g : LogHead) (s : Bcache) :
    Except Err ((Int × Dinode × Bcache) × LogHead) := do
  let g ← logBlocks (writeiLogs sb inum ip src off n s) g
  let r ← xv6fsWritei sb inum devsw ip src off n s
  .ok (r, g)

variable {g : LogHead}

lemma logBlock_ok {b : Nat} (hout : 1 ≤ g.outstanding) (hlt : g.lh.length < g.limit) :
    logBlock g b = .ok { g with lh := absorb b g.lh, nodup := nodup_absorb g.nodup } := by
  unfold LogHead.limit at hlt
  rw [logBlock, if_neg (by omega), if_neg (by omega)]

lemma logBlock_of_ok {b : Nat} {g' : LogHead} (h : logBlock g b = .ok g') :
    1 ≤ g.outstanding ∧ g.lh.length < g.limit := by
  rw [logBlock] at h
  unfold LogHead.limit
  split_ifs at h
  omega

lemma length_le_card (g : LogHead) (bs : List Nat) : g.lh.length ≤ (g.lh ++ bs).toFinset.card := by
  rw [← List.toFinset_card_of_nodup g.nodup]
  refine Finset.card_le_card (fun b hb => ?_)
  rw [List.mem_toFinset] at *
  exact List.mem_append_left _ hb

lemma hasRoom_cons {b c : Nat} {bs : List Nat} (hout : 1 ≤ g.outstanding) :
    HasRoom g (b :: c :: bs) ↔
      HasRoom { g with lh := absorb b g.lh, nodup := nodup_absorb g.nodup } (c :: bs) := by
  have hset : (g.lh ++ (b :: c :: bs).dropLast).toFinset =
      (absorb b g.lh ++ (c :: bs).dropLast).toFinset := by
    ext x
    rw [List.dropLast_cons_of_ne_nil (List.cons_ne_nil _ _)]
    simp only [List.mem_toFinset, List.mem_append, List.mem_cons, mem_absorb]
    tauto
  simp only [HasRoom, List.cons_ne_nil, false_or, hset, hout, true_and]
  rfl

/-- **The calls of `log_write`** return exactly if there is room. -/
lemma logBlocks_iff (bs : List Nat) : ∀ g, (∃ g', logBlocks bs g = .ok g') ↔ HasRoom g bs := by
  induction bs with
  | nil => exact fun g => iff_of_true ⟨g, rfl⟩ (.inl rfl)
  | cons b bs ih =>
    intro g
    rw [logBlocks, List.foldlM_cons]
    constructor
    · rintro ⟨g', hg'⟩
      obtain ⟨g₁, hb, hrest⟩ := bind_eq_ok.mp hg'
      obtain ⟨hout, hlt⟩ := logBlock_of_ok hb
      rw [logBlock_ok hout hlt] at hb
      obtain rfl := Except.ok.inj hb
      cases bs with
      | nil =>
        refine .inr ⟨hout, ?_⟩
        rwa [List.dropLast_singleton, List.append_nil, List.toFinset_card_of_nodup g.nodup]
      | cons c bs => exact (hasRoom_cons hout).mpr ((ih _).mp ⟨g', hrest⟩)
    · rintro (h | ⟨hout, hlt⟩)
      · cases h
      have hroom : HasRoom g (b :: bs) := .inr ⟨hout, hlt⟩
      rw [logBlock_ok hout (Nat.lt_of_le_of_lt (length_le_card g _) hlt), ok_bind]
      cases bs with
      | nil => exact ⟨_, rfl⟩
      | cons c bs => exact (ih _).mpr ((hasRoom_cons hout).mp hroom)

lemma HasRoom.of_card {bs : List Nat} (hout : 1 ≤ g.outstanding)
    (h : g.lh.length + bs.toFinset.card < g.limit) : HasRoom g bs := by
  refine .inr ⟨hout, Nat.lt_of_le_of_lt ?_ h⟩
  rw [List.toFinset_append]
  refine (Finset.card_union_le _ _).trans (Nat.add_le_add (List.toFinset_card_le _) ?_)
  exact Finset.card_le_card (fun b hb => List.mem_toFinset.mpr
    (List.mem_of_mem_dropLast (List.mem_toFinset.mp hb)))

/-! ## Writes -/

variable {sb : Superblock} {inum off : Nat} {d : List UInt8}

/-- A call of `xv6fs_writei` as an operation on the content of the file. -/
structure WriteRefines (sb : Superblock) (inum : Nat) (devsw : Nat → Devsw) (g : LogHead)
    (s : Bcache) (off : Nat) (d : List UInt8) : Prop where
  /-- Within the limits, with enough free blocks and room in the log, the content is spliced; the
      other inodes and their content stay. -/
  writes  : off ≤ (content (dinodeAt sb s.view inum) s.view).length →
    off + d.length ≤ MAXFILE * BSIZE →
    need (blocks (dinodeAt sb s.view inum).size)
      (blocks (max (dinodeAt sb s.view inum).size (off + d.length))) ≤ freeBlocks sb s.view →
    HasRoom g (writeiLogs sb inum (dinodeAt sb s.view inum) (fun k => d.getD k 0) off d.length s) →
    ∃ s' g', writeiLogged sb inum devsw (dinodeAt sb s.view inum) (fun k => d.getD k 0) off d.length
        g s = .ok ((d.length, dinodeAt sb s'.view inum, s'), g') ∧
      Consistent sb s'.view ∧
      content (dinodeAt sb s'.view inum) s'.view =
        splice (content (dinodeAt sb s.view inum) s.view) off d ∧
      (dinodeAt sb s'.view inum).size =
        max (content (dinodeAt sb s.view inum) s.view).length (off + d.length) ∧
      ∀ j, j ≠ inum → InUse sb (dinodeAt sb s.view) j →
        dinodeAt sb s'.view j = dinodeAt sb s.view j ∧
        (IsFile (dinodeAt sb s.view j) →
          content (dinodeAt sb s'.view j) s'.view = content (dinodeAt sb s.view j) s.view)
  /-- Without room it does not return. -/
  stops   : ¬HasRoom g (writeiLogs sb inum (dinodeAt sb s.view inum) (fun k => d.getD k 0) off
      d.length s) → ∀ r, writeiLogged sb inum devsw (dinodeAt sb s.view inum) (fun k => d.getD k 0)
      off d.length g s ≠ .ok r
  /-- The limits. -/
  refuses : (∃ ip' s' g', writeiLogged sb inum devsw (dinodeAt sb s.view inum)
      (fun k => d.getD k 0) off d.length g s = .ok ((-1, ip', s'), g')) ↔
    (content (dinodeAt sb s.view inum) s.view).length < off ∨ 2 ^ 32 ≤ off + d.length ∨
      MAXFILE * BSIZE < off + d.length
  /-- Outside the limits nothing changes. -/
  leaves  : ∀ ip' s' g', writeiLogged sb inum devsw (dinodeAt sb s.view inum)
      (fun k => d.getD k 0) off d.length g s = .ok ((-1, ip', s'), g') →
    ip' = dinodeAt sb s.view inum ∧ s' = s ∧ g' = g

/-- Outside the limits nothing is logged. -/
lemma writeiLogs_refused {ip : Dinode} {src : Nat → UInt8} {n : Nat} {s : Bcache}
    (h : ip.size < off ∨ (off + n) % 2 ^ 32 < off ∨ MAXFILE * BSIZE < (off + n) % 2 ^ 32) :
    writeiLogs sb inum ip src off n s = [] := by
  rw [writeiLogs]
  split
  · rfl
  split
  · rfl
  split
  · rfl
  · omega

lemma writei_refines (hl : Layout sb) {s : Bcache} (h : Consistent sb s.view)
    (hu : InUse sb (dinodeAt sb s.view) inum) (hf : IsFile (dinodeAt sb s.view inum))
    (devsw : Nat → Devsw) (g : LogHead) (hoff : off < 2 ^ 32) (hd : d.length < 2 ^ 32) :
    WriteRefines sb inum devsw g s off d := by
  have hlim : MAXFILE * BSIZE = 274432 := rfl
  have hwrap := wraps_iff hoff hd
  -- outside the limits the call refuses, within them it does not
  have hout : (content (dinodeAt sb s.view inum) s.view).length < off ∨
      2 ^ 32 ≤ off + d.length ∨ MAXFILE * BSIZE < off + d.length →
      writeiLogged sb inum devsw (dinodeAt sb s.view inum) (fun k => d.getD k 0) off d.length g s =
        .ok ((-1, dinodeAt sb s.view inum, s), g) := by
    rw [length_content]
    intro hcond
    rw [writeiLogged, writeiLogs_refused (by omega), writei_refuses hf (by omega)]
    rfl
  have hin : ¬((content (dinodeAt sb s.view inum) s.view).length < off ∨
      2 ^ 32 ≤ off + d.length ∨ MAXFILE * BSIZE < off + d.length) → ∀ ip' s' g',
      writeiLogged sb inum devsw (dinodeAt sb s.view inum) (fun k => d.getD k 0) off d.length g s ≠
        .ok ((-1, ip', s'), g') := by
    rw [length_content]
    intro hcond ip' s' g' hrun
    obtain ⟨g₁, -, hrun⟩ := bind_eq_ok.mp hrun
    obtain ⟨r, hcall, hrun⟩ := bind_eq_ok.mp hrun
    obtain ⟨rfl, -⟩ := ok_pair_inj hrun
    have hsat := (writei_sat hl devsw (fun k => d.getD k 0) h hu hf
      (show off ≤ _ by omega) (show off + d.length ≤ _ by omega)).of_ok hcall
    have := hsat.1
    dsimp only at this
    omega
  refine ⟨fun hle hmax hfree hroom => ?_, fun hno r hrun => ?_,
    ⟨?_, fun hcond => ⟨_, _, _, hout hcond⟩⟩, fun ip' s' g' hcall => ?_⟩
  · rw [length_content] at hle
    have hsat := writei_sat hl devsw (fun k => d.getD k 0) h hu hf hle hmax
    obtain ⟨⟨r, ip', s'⟩, hcall, hr, hw⟩ := (hsat.mono (fun r hr => hr) (by
      rintro e ⟨-, hlt⟩
      omega)).exists_ok
    dsimp only at hr hw
    rw [hr] at hcall
    have hstored := hw.stored
    subst hstored
    obtain ⟨g', hlog⟩ := (logBlocks_iff _ g).mpr hroom
    refine ⟨s', g', by rw [writeiLogged, hlog, ok_bind, hcall]; rfl, hw.consistent,
      hw.content_eq hle, ?_, fun j hj hu' => ⟨hw.others j hj hu'.2.1, hw.contents j hj hu'⟩⟩
    rw [← hw.fields, length_content]
  · obtain ⟨g₁, hlog, -⟩ := bind_eq_ok.mp hrun
    exact hno ((logBlocks_iff _ g).mp ⟨g₁, hlog⟩)
  · rintro ⟨ip', s', g', hcall⟩
    by_contra hcond
    exact hin hcond ip' s' g' hcall
  · by_cases hcond : (content (dinodeAt sb s.view inum) s.view).length < off ∨
        2 ^ 32 ≤ off + d.length ∨ MAXFILE * BSIZE < off + d.length
    · rw [hout hcond] at hcall
      obtain ⟨hres, hg⟩ := ok_pair_inj hcall
      obtain ⟨-, hrest⟩ := Prod.mk.inj hres
      exact ⟨(Prod.mk.inj hrest).1.symm, (Prod.mk.inj hrest).2.symm, hg.symm⟩
    · exact absurd hcall (hin hcond ip' s' g')

/-- **Main result.**  On a consistent image, `xv6fs_writei` and `xv6fs_readi` of a file or a
    directory are operations on its content; a write that is within the limits returns exactly if
    the log has room for it.  For that it is enough that the log has room for two blocks for each
    block that the range touches, and three more. -/
theorem files_refine_byte_strings {sb : Superblock} (hl : Layout sb) (s : Bcache)
    (h : Consistent sb s.view) (inum : Nat) (hu : InUse sb (dinodeAt sb s.view) inum)
    (hf : IsFile (dinodeAt sb s.view inum)) (devsw : Nat → Devsw) (g : LogHead) (off : Nat)
    (hoff : off < 2 ^ 32) :
    (∀ d : List UInt8, d.length < 2 ^ 32 → WriteRefines sb inum devsw g s off d) ∧
    (∀ n < 2 ^ 32, ReadRefines sb inum devsw s off n) ∧
    ∀ (src : Nat → UInt8) (n : Nat), n < 2 ^ 31 → 1 ≤ g.outstanding →
      g.lh.length + 2 * turns off n + 3 < g.limit →
      HasRoom g (writeiLogs sb inum (dinodeAt sb s.view inum) src off n s) := by
  refine ⟨fun _ hd => writei_refines hl h hu hf devsw g hoff hd,
    fun _ hn => readi_refines h hu hf devsw hoff hn, fun src n hn hout hroom => ?_⟩
  have hcard : (writeiLogs sb inum (dinodeAt sb s.view inum) src off n s).toFinset.card ≤
      2 * turns off n + 3 := writei_logs_card hl h hu src hn
  exact .of_card hout (by omega)

/-- The log at the beginning of the first operation. -/
def freshLog : LogHead := ⟨[], 30, 1, List.nodup_nil⟩

lemma smallImage_inUse_file : InUse smallDisk (dinodeAt smallDisk smallImage) 2 :=
  ⟨by decide, by decide, by rw [smallImage_file]; decide⟩

lemma smallImage_isFile : IsFile (dinodeAt smallDisk smallImage 2) := by
  rw [smallImage_file]
  exact .inl rfl

/-- Three bytes over the last one of the five. -/
theorem files_refine_byte_strings_small :
    ∃ s' g', writeiLogged smallDisk 2 (fun _ => ⟨none, none⟩) (dinodeAt smallDisk smallImage 2)
        (fun k => [7, 8, 9].getD k 0) 4 3 freshLog ⟨smallImage, fun _ => none⟩ =
          .ok ((3, dinodeAt smallDisk s'.view 2, s'), g') ∧
      content (dinodeAt smallDisk s'.view 2) s'.view = [0, 0, 0, 0, 7, 8, 9] := by
  obtain ⟨hwrite, -, hroom⟩ := files_refine_byte_strings smallDisk_layout
    ⟨smallImage, fun _ => none⟩ smallImage_consistent 2 smallImage_inUse_file smallImage_isFile
    (fun _ => ⟨none, none⟩) freshLog 4 (by decide)
  have hcontent : content (dinodeAt smallDisk smallImage 2) smallImage = [0, 0, 0, 0, 0] := by
    rw [smallImage_file]
    decide
  obtain ⟨s', g', hcall, -, hsplice, -⟩ := (hwrite [7, 8, 9] (by decide)).writes
    (show 4 ≤ (content (dinodeAt smallDisk smallImage 2) smallImage).length by
      rw [hcontent]; decide)
    (by decide)
    (show need (blocks (dinodeAt smallDisk smallImage 2).size) _ ≤ _ by
      rw [smallImage_file]; exact Nat.zero_le _)
    (hroom _ 3 (by decide) (by decide) (by decide))
  refine ⟨s', g', hcall, ?_⟩
  rw [hsplice]
  show splice (content (dinodeAt smallDisk smallImage 2) smallImage) 4 [7, 8, 9] = _
  rw [hcontent]
  rfl

/-- Twenty-seven blocks from the beginning of the file: there are blocks enough, but with the
    bitmap block and the indirect block the log is full before the last one is stored. -/
theorem write_too_big :
    InUse smallDisk (dinodeAt smallDisk smallImage) 2 ∧ IsFile (dinodeAt smallDisk smallImage 2) ∧
    Consistent smallDisk smallImage ∧ 27 * BSIZE ≤ MAXFILE * BSIZE ∧
    need (blocks 5) (blocks (27 * BSIZE)) ≤ freeBlocks smallDisk smallImage ∧
    (writeiLogged smallDisk 2 (fun _ => ⟨none, none⟩) (dinodeAt smallDisk smallImage 2)
      (fun _ => 7) 0 (27 * BSIZE) freshLog ⟨smallImage, fun _ => none⟩).map (fun _ => ()) =
        .error (.panic "too big a transaction") := by
  refine ⟨smallImage_inUse_file, smallImage_isFile, smallImage_consistent, by decide, ?_, ?_⟩
  · decide +kernel
  · decide +kernel

end Xv6Image
