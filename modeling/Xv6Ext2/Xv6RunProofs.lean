import Xv6Ext2.Xv6CallsProofs

/-! # Runs on the root device

    From the boot of the kernel on a consistent image, every run of calls leaves the image
    consistent, growing across the direct and indirect blocks and truncation included.
    The errors that stop a run are those of `Expected`; `freeing free block` is not one of
    them, and a call of `xv6fs_readi` neither fails nor changes a block.

    - `callStep_sat` : one call;
    - `runs_keep_image_consistent` : whole runs. -/

namespace Xv6Calls

open BufCache Param Outcome Runs FileIo Xv6Alloc Xv6Inode Xv6Image Icache Ext2Alloc

section Steps

variable {sb : Superblock} {st : Cache}

/-- **Each call** keeps the cache in step with a consistent image. -/
lemma callStep_sat (hl : Layout sb) (esb : Ext2Super) (devsw : Nat → Devsw) (act : Call)
    (h : Sync sb st) (hc : Called sb st act) :
    Sat (callStep sb esb devsw st act) (Sync sb) Expected := by
  cases act with
  | iget inum =>
    refine Sat.map ((h.iget hc).mono (fun r hr => hr) ?_)
    rintro e rfl
    exact expected_panic (by decide)
  | idup a => exact Sat.ok (h.idup hc)
  | ilock a =>
    refine (h.ilock esb hc).mono (fun r hr => hr) ?_
    rintro e rfl
    exact expected_panic (by decide)
  | ialloc type =>
    refine Sat.map ((h.ialloc hl hc).mono (fun r hr => hr) ?_)
    rintro e (rfl | rfl) <;> exact expected_panic (by decide)
  | readi a off n =>
    have hread : Sat (xv6fsReadi sb devsw (dinodeAt sb st.root.view (st.inode a).inum) off n
        st.root) (fun r => True ∧ Kept sb (st.inode a).inum st.root.view r.2.1 r.2.2.view)
        Expected := by
      refine (readi_kept devsw off h.image (h.inUse hc.1.1.1 hc.1.1.2 hc.1.2) hc.2).mono ?_
        (fun e he => he.elim)
      rintro r ⟨hip, hview⟩
      rw [hip]
      exact ⟨trivial, Kept.of_view h.image hview⟩
    exact Sat.map ((h.onEntry hc.1 hread).mono (fun r hr => hr.2.1) (fun e he => he))
  | writei a src off n =>
    have hwrite : Sat (xv6fsWritei sb (st.inode a).inum devsw
        (dinodeAt sb st.root.view (st.inode a).inum) src off n st.root)
        (fun r => True ∧ Kept sb (st.inode a).inum st.root.view r.2.1 r.2.2.view) Expected := by
      refine (writei_kept hl devsw src h.image (h.inUse hc.1.1.1 hc.1.1.2 hc.1.2) hc.2).mono
        (fun r hr => ⟨trivial, hr⟩) ?_
      rintro e rfl
      exact expected_panic (by decide)
    exact Sat.map ((h.onEntry hc.1 hwrite).mono (fun r hr => hr.2.1) (fun e he => he))
  | dirlink a name inum => exact Sat.map (h.dirlink hl esb devsw name inum hc)
  | setFields a major minor nlink =>
    obtain ⟨hlock, hmajor, hminor, hnlink⟩ := hc
    have hupdate : Sat (updateFields sb major minor nlink (st.inode a).inum
        (dinodeAt sb st.root.view (st.inode a).inum) st.root)
        (fun r => True ∧ Kept sb (st.inode a).inum st.root.view r.2.1 r.2.2.view) Expected := by
      obtain ⟨s', hupd, hkept⟩ := iupdate_fields hl h.image
        (h.inUse hlock.1.1 hlock.1.2 hlock.2) hmajor hminor hnlink
      rw [updateFields, hupd, ok_bind]
      exact Sat.ok ⟨trivial, hkept⟩
    exact Sat.map ((h.onEntry hlock hupdate).mono (fun r hr => hr.2.1) (fun e he => he))
  | iput a => exact (h.iput hl esb hc).mono (fun r hr => hr) (fun e he => he.elim)

lemma sync_boot (root ext2 : Bcache) (h : Consistent sb root.view) :
    Sync sb (bootCache root ext2) :=
  ⟨bootCache_inv root ext2, fun _ _ hr => absurd hr (Nat.lt_irrefl 0),
    fun _ _ _ _ hr => absurd hr (Nat.lt_irrefl 0), fun _ _ hr => absurd hr (Nat.lt_irrefl 0), h⟩

/-- A call of `xv6fs_readi` in a state that a run reaches. -/
lemma Sync.readEntry_eq (h : Sync sb st) (devsw : Nat → Devsw) (off : Nat) {a n : Nat}
    (hlock : Locked st a) (hn : n < 2 ^ 32) :
    ∃ r st', readEntry sb devsw a off n st = .ok (r, st') ∧ st'.root.view = st.root.view := by
  obtain ⟨⟨ha, hr⟩, hv⟩ := hlock
  obtain ⟨-, i, hp⟩ := h.entry ha hr
  obtain ⟨⟨r, ip, bc⟩, hread, -, hview⟩ :=
    (readi_kept devsw off h.image (h.inUse ha hr hv) hn).exists_ok
  have hcall : readEntry sb devsw a off n st = .ok (r, ((st.setDevice .xv6fs bc).setSlot (.xv6fs i)
      { st.slot (.xv6fs i) with addrs := ip.addrs }).setInode a ((st.inode a).load ip)) := by
    rw [readEntry, Xv6Calls.onEntry, hp]
    dsimp only
    rw [(h.synced a ha hr hv _ hp).1, hread, ok_bind]
  refine ⟨r, _, hcall, ?_⟩
  rwa [setInode_root, setSlot_root, setDevice_root]

end Steps

/-- **Main result.**  A run of calls from the boot on a consistent image leaves the image
    consistent, and in the state it reaches `xv6fs_readi` of a locked inode returns without
    a change of any block.  A run that stops does so for one of the expected reasons, so
    `xv6fs_bfree` never finds a block free. -/
theorem runs_keep_image_consistent {sb : Superblock} (hl : Layout sb) (esb : Ext2Super)
    (devsw : Nat → Devsw) (root ext2 : Bcache) (h : Consistent sb root.view) (acts : List Call)
    (hcalled : AllSteps (callStep sb esb devsw) (Called sb) acts (bootCache root ext2)) :
    (∀ u, exec (callStep sb esb devsw) acts (bootCache root ext2) = .ok u →
      Consistent sb u.root.view ∧ ∀ a off n, Locked u a → n < 2 ^ 32 →
        ∃ r u', readEntry sb devsw a off n u = .ok (r, u') ∧ u'.root.view = u.root.view) ∧
    ∀ e, exec (callStep sb esb devsw) acts (bootCache root ext2) = .error e →
      Expected e ∧ e ≠ .panic "freeing free block" := by
  have hrun : Sat (exec (callStep sb esb devsw) acts (bootCache root ext2)) (Sync sb) Expected :=
    exec_sat (fun st act hs hc => callStep_sat hl esb devsw act hs hc) acts _
      (sync_boot root ext2 h) hcalled
  refine ⟨fun u hu => ?_, fun e he => ⟨hrun.of_error he, ?_⟩⟩
  · have hs := hrun.of_ok hu
    exact ⟨hs.image, fun a off n hlock hn => hs.readEntry_eq devsw off hlock hn⟩
  · rintro rfl
    rcases hrun.of_error he with hbad | ⟨msg, hmsg, hbad⟩
    · exact nomatch hbad
    · obtain rfl := Err.panic.inj hbad
      exact absurd hmsg (by decide)

instance (st : Cache) (a : Nat) : Decidable (Referenced st a) :=
  inferInstanceAs (Decidable (_ ∧ _))

instance (st : Cache) (a : Nat) : Decidable (Locked st a) :=
  inferInstanceAs (Decidable (_ ∧ _))

instance (sb : Superblock) (st : Cache) : (act : Call) → Decidable (Called sb st act)
  | .iget _ => inferInstanceAs (Decidable (_ ∧ _))
  | .idup a => inferInstanceAs (Decidable (Referenced st a))
  | .ilock a => inferInstanceAs (Decidable (Referenced st a))
  | .ialloc _ => inferInstanceAs (Decidable (_ ∨ _))
  | .readi _ _ _ => inferInstanceAs (Decidable (_ ∧ _))
  | .writei _ _ _ _ => inferInstanceAs (Decidable (_ ∧ _))
  | .dirlink a _ _ => inferInstanceAs (Decidable (Locked st a))
  | .setFields _ _ _ _ => inferInstanceAs (Decidable (_ ∧ _))
  | .iput a => inferInstanceAs (Decidable (Referenced st a))

/-- The file of the small image grows by two blocks, gets a name and is then freed, and a
    new file takes its inode. -/
def growAndFree : List Call :=
  [.iget 1, .ilock 0, .iget 2, .ilock 1, .writei 1 (fun _ => 7) 5 2000, .dirlink 0 [102] 2,
    .readi 1 0 10, .iput 1, .ialloc T_FILE, .iput 0]

theorem runs_keep_image_consistent_growAndFree :
    ∃ u, exec (callStep smallDisk Ext2Layout.smallSuper (fun _ => ⟨none, none⟩)) growAndFree
        (bootCache ⟨smallImage, fun _ => none⟩ blankDevice) = .ok u ∧
      Consistent smallDisk u.root.view := by
  have hrun := runs_keep_image_consistent smallDisk_layout Ext2Layout.smallSuper
    (fun _ => ⟨none, none⟩) ⟨smallImage, fun _ => none⟩ blankDevice smallImage_consistent
    growAndFree (by decide +kernel)
  have hok : (exec (callStep smallDisk Ext2Layout.smallSuper (fun _ => ⟨none, none⟩)) growAndFree
      (bootCache ⟨smallImage, fun _ => none⟩ blankDevice)).isOk = true := by
    decide +kernel
  cases hu : exec (callStep smallDisk Ext2Layout.smallSuper (fun _ => ⟨none, none⟩)) growAndFree
      (bootCache ⟨smallImage, fun _ => none⟩ blankDevice) with
  | ok u => exact ⟨u, rfl, (hrun.1 u hu).1⟩
  | error e =>
    rw [hu] at hok
    exact nomatch hok

/-- **The cached inodes are those on disk.**  In the state that a run of calls reaches, an entry
    that is in use and valid has the fields and the addresses of its inode on the disk. -/
theorem runs_keep_entries_synced {sb : Superblock} (hl : Layout sb) (esb : Ext2Super)
    (devsw : Nat → Devsw) (root ext2 : Bcache) (h : Consistent sb root.view) (acts : List Call)
    (hcalled : AllSteps (callStep sb esb devsw) (Called sb) acts (bootCache root ext2))
    (u : Cache) (hu : exec (callStep sb esb devsw) acts (bootCache root ext2) = .ok u) :
    ∀ a < NINODE, 0 < (u.inode a).ref → (u.inode a).valid = true → ∃ p, (u.inode a).addrs = some p ∧
        (u.inode a).copy (u.slot p).addrs = dinodeAt sb u.root.view (u.inode a).inum := by
  intro a ha href hvalid
  have hs : Sync sb u := (exec_sat (fun st act hs hc => callStep_sat hl esb devsw act hs hc) acts _
    (sync_boot root ext2 h) hcalled).of_ok hu
  obtain ⟨-, i, hp⟩ := hs.entry ha href
  exact ⟨_, hp, (hs.synced a ha href hvalid _ hp).1⟩

theorem runs_keep_entries_synced_grow :
    ∃ u, exec (callStep smallDisk Ext2Layout.smallSuper (fun _ => ⟨none, none⟩))
        (growAndFree.take 3) (bootCache ⟨smallImage, fun _ => none⟩ blankDevice) = .ok u ∧
      ∃ p, (u.inode 0).addrs = some p ∧ (u.inode 0).copy (u.slot p).addrs
        = dinodeAt smallDisk u.root.view (u.inode 0).inum := by
  refine (exists_ok_of_map (f := fun u => decide (0 < (u.inode 0).ref ∧ (u.inode 0).valid = true))
    (b := true) ?_).imp fun u ⟨hu, heq⟩ => ⟨hu, ?_⟩
  · decide +kernel
  · obtain ⟨href, hvalid⟩ := of_decide_eq_true heq
    exact runs_keep_entries_synced smallDisk_layout _ _ ⟨smallImage, fun _ => none⟩ _
      smallImage_consistent _ (by decide +kernel) u hu 0 (by decide) href hvalid

end Xv6Calls
