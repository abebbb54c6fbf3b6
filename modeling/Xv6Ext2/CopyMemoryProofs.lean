import Xv6Ext2.UserMemoryProofs

/-! # The memory of a child

    `setupkvm`, `freevm` and `copyuvm` over the pages with their contents.

    * `mapKernel_spec`, `setupkvm_spec` — a new directory gets the kernel part, or there is
      none and the free list is what it was.  The lines of `kmap` have no page in common, so
      `mappages` does not find a page mapped twice.
    * `freevm_spec` — `freevm` returns and gives back every page of a directory.
    * `copyuvmFrom_spec` — the loop of `copyuvm`: each page of the child is a page of its own
      with the flags and the bytes of the parent's.
    * `copyuvm_copies` — a copy, or nothing. -/

namespace CopyMemory

open Outcome PageMemory UserMemory Param

open Multiset (map_zero mem_add mem_cons_self nodup_add sum_zero)

open BufCache (Err)

open Vm (Entry Machine Kmap Own DEVSPACE NPDENTRIES NPTENTRIES PDX PTX PGROUNDUP PGROUNDDOWN PDX_lt
  PTX_lt owned)

variable {m : Machine} {pages held : Multiset Nat} {M M₁ M' : Memory} {d v va : Nat}

/-- No directory: the pages are free or held. -/
abbrev OwnNone (pages held : Multiset Nat) (M : Memory) : Prop := Own pages 0 held (phys M)

/-! ## The kernel part -/

/-- **The loop of `mappages` in the kernel part** returns, and other entries stay. -/
lemma mappagesFrom_spec {last : Nat} (perm : BitVec 12) (hlast : last < UINT)
    (hround : last % PGSIZE = 0) : ∀ (fuel a pa : Nat) (M : Memory),
    OwnDir pages held d M → KERNBASE ≤ a → a ≤ last → a % PGSIZE = 0 →
    last / PGSIZE - a / PGSIZE < fuel →
    (∀ va < UINT, a ≤ va → va < last + PGSIZE → (pteAt M d va).present = false) →
    ∃ r M', mappagesFrom d last perm fuel a pa M = .ok (r, M') ∧ OwnDir pages held d M' ∧
      (∀ va < UINT, va < a ∨ last + PGSIZE ≤ va → pteAt M' d va = pteAt M d va) ∧
      ∀ v, v ∉ pages ∨ v ∈ held → M'.word v = M.word v := by
  intro fuel
  induction fuel with
  | zero => exact fun a _ _ _ _ _ _ hfuel => absurd hfuel (Nat.not_lt_zero _)
  | succ fuel ih =>
    intro a pa M h hhigh hle ha hfuel habs
    have hpos : 0 < PGSIZE := by decide
    rw [mappagesFrom]
    rcases walkpgdir_spec h a with heq | ⟨M₁, heq, hp, h₁, hpte, hframe, hinner⟩
    · rw [heq]
      exact ⟨false, M, rfl, h, fun _ _ _ => rfl, fun _ _ => rfl⟩
    rw [heq]
    dsimp only
    have hfree : (M₁.word (M₁.word d (PDX a)).addr (PTX a)).present = false := by
      rw [← pteAt_of_table hp, hpte]
      exact habs a (by omega) (Nat.le_refl a) (by omega)
    rw [if_neg (by rw [hfree]; decide)]
    have hpdx : PDX KERNBASE ≤ PDX a := by
      rw [PDX, PDX, KERNBASE, UINT] at *
      omega
    have h₂ : OwnDir pages held d
        (setWord (M₁.word d (PDX a)).addr (PTX a) ⟨pa, perm ||| PTE_P⟩ M₁) :=
      h₁.setPte hp (by rw [Vm.mapped_kernel hpdx, Vm.mapped_kernel hpdx])
    have hentries : ∀ va < UINT, va < a ∨ a + PGSIZE ≤ va →
        pteAt (setWord (M₁.word d (PDX a)).addr (PTX a) ⟨pa, perm ||| PTE_P⟩ M₁) d va
          = pteAt M d va := fun va hva hout => by
      rw [pteAt_setWord h₁.nodup_dir hp, hpte, if_neg]
      rw [samePage ha (by omega) hva]
      omega
    have hkept : ∀ v, v ∉ pages ∨ v ∈ held →
        (setWord (M₁.word d (PDX a)).addr (PTX a) ⟨pa, perm ||| PTE_P⟩ M₁).word v
          = M.word v := fun v hv => by
      have hnot := h.out_notInner hv
      have hvt : v ≠ (M₁.word d (PDX a)).addr := fun heq' => hnot (hinner v (.inr (.inr
        (Vm.mem_present.mpr ⟨PDX a, PDX_lt a, hp, heq'.symm⟩))))
      rw [setWord_other hvt, hframe v hnot]
    split
    · exact ⟨true, _, rfl, h₂, fun va hva hout => hentries va hva (by omega), hkept⟩
    have hnext : (a + PGSIZE) % UINT = a + PGSIZE ∧ a + PGSIZE ≤ last ∧
        (a + PGSIZE) % PGSIZE = 0 ∧ last / PGSIZE - (a + PGSIZE) / PGSIZE < fuel := by
      rw [UINT, PGSIZE] at *
      omega
    rw [hnext.1]
    obtain ⟨r, M', hrun, hown, hsame, hout⟩ := ih (a + PGSIZE) (pa + 1) _ h₂ (by omega)
      hnext.2.1 hnext.2.2.1 hnext.2.2.2 (fun va hva hlo hhi => by
        rw [hentries va hva (.inr hlo)]
        exact habs va hva (by omega) hhi)
    refine ⟨r, M', hrun, hown, fun va hva hrange => ?_, fun v hv => ?_⟩
    · rw [hsame va hva (by omega), hentries va hva (by omega)]
    · rw [hout v hv, hkept v hv]

/-- The address `va` is in a page of the line `k`. -/
def Kmap.Covers (k : Kmap) (va : Nat) : Prop :=
  PGROUNDDOWN k.virt ≤ va ∧ va < PGROUNDDOWN (k.virt + k.size - 1) + PGSIZE

/-- No page is in two lines. -/
def Apart (ks : List Kmap) : Prop :=
  ks.Pairwise (fun k k' => ∀ va < UINT, Kmap.Covers k va → ¬Kmap.Covers k' va)

/-- **The loop of `setupkvm`** returns; the user part stays as it is. -/
lemma mapKernel_spec : ∀ (ks : List Kmap) (M : Memory), (∀ k ∈ ks, k.High) → Apart ks →
    OwnDir pages held d M →
    (∀ k ∈ ks, ∀ va < UINT, Kmap.Covers k va → (pteAt M d va).present = false) →
    ∃ r M', mapKernel d ks M = .ok (r, M') ∧ OwnDir pages held d M' ∧
      (∀ va < KERNBASE, pteAt M' d va = pteAt M d va) ∧
      ∀ v, v ∉ pages ∨ v ∈ held → M'.word v = M.word v := by
  intro ks
  induction ks with
  | nil => exact fun M _ _ h _ => ⟨true, M, rfl, h, fun _ _ => rfl, fun _ _ => rfl⟩
  | cons k ks ih =>
    intro M hhigh hapart h habs
    obtain ⟨hk1, hk2, hk3⟩ := hhigh k List.mem_cons_self
    obtain ⟨hhead, htail⟩ := List.pairwise_cons.mp hapart
    have hlast : (k.virt + k.size + (UINT - 1)) % UINT = k.virt + k.size - 1 := by
      rw [UINT] at *
      omega
    have hround : PGROUNDDOWN (k.virt + k.size - 1) < UINT ∧
        PGROUNDDOWN (k.virt + k.size - 1) % PGSIZE = 0 ∧ KERNBASE ≤ PGROUNDDOWN k.virt ∧
        PGROUNDDOWN k.virt ≤ PGROUNDDOWN (k.virt + k.size - 1) ∧
        PGROUNDDOWN k.virt % PGSIZE = 0 ∧ PGROUNDDOWN (k.virt + k.size - 1) / PGSIZE
          - PGROUNDDOWN k.virt / PGSIZE < UINT / PGSIZE := by
      rw [PGROUNDDOWN, PGROUNDDOWN, PGSIZE, UINT, KERNBASE] at *
      omega
    obtain ⟨r₁, M₁, hrun₁, h₁, hsame₁, hout₁⟩ := mappagesFrom_spec
      (if k.w = true then PTE_W else 0#12) hround.1 hround.2.1 (UINT / PGSIZE)
      (PGROUNDDOWN k.virt) (k.physStart / PGSIZE) M h hround.2.2.1 hround.2.2.2.1
      hround.2.2.2.2.1 hround.2.2.2.2.2
      (fun va hva hlo hhi => habs k List.mem_cons_self va hva ⟨hlo, hhi⟩)
    have huser₁ : ∀ va < KERNBASE, pteAt M₁ d va = pteAt M d va := fun va hva =>
      hsame₁ va (Nat.lt_trans hva (by decide)) (.inl (by omega))
    rw [mapKernel, mappages, hlast, hrun₁, ok_bind]
    dsimp only
    split
    · obtain ⟨r, M', hrun, h', huser, hout⟩ := ih M₁
        (fun k' hk' => hhigh k' (List.mem_cons_of_mem _ hk')) htail h₁ (fun k' hk' va hva hcov => by
          have hnot : ¬Kmap.Covers k va := fun hc => hhead k' hk' va hva hc hcov
          rw [hsame₁ va hva (by unfold Kmap.Covers at hnot; omega)]
          exact habs k' (List.mem_cons_of_mem _ hk') va hva hcov)
      refine ⟨r, M', hrun, h', fun va hva => (huser va hva).trans (huser₁ va hva),
        fun v hv => (hout v hv).trans (hout₁ v hv)⟩
    · exact ⟨false, M₁, rfl, h₁, huser₁, hout₁⟩

/-! ## Freeing a directory -/

/-- The loop of `freevm` returns; it writes only pages of the directory. -/
lemma freeTables_spec {row : Nat → Word} : ∀ (n i : Nat) (M : Memory), i + n = NPDENTRIES →
    M.word d = row → (∀ k < NPDENTRIES, (row k).present = true →
      (row k).addr ≠ d ∧ m.first ≤ (row k).addr ∧ (row k).addr < m.top) →
    ∃ M', freeTables m d n i M = .ok M' ∧
      ∀ v, (∀ k < NPDENTRIES, (row k).present = true → v ≠ (row k).addr) → M'.word v = M.word v := by
  intro n
  induction n with
  | zero => exact fun i M _ _ _ => ⟨M, rfl, fun _ _ => rfl⟩
  | succ n ih =>
    intro i M hi hrow hgood
    rw [freeTables, hrow]
    split
    · next hp =>
      obtain ⟨hne, hrange⟩ := hgood i (by omega) hp
      rw [kfree_ok hrange, ok_bind]
      obtain ⟨M', hrun, hframe⟩ := ih (i + 1)
        { memset (row i).addr .junk M with free := (row i).addr :: M.free } (by omega)
        ((fill_other hne.symm ..).trans hrow) hgood
      refine ⟨M', hrun, fun v hv => ?_⟩
      rw [hframe v hv]
      exact fill_other (hv i (by omega) hp) ..
    · exact ih (i + 1) M (by omega) hrow hgood

/-- **`freevm` returns**, and every page of the directory is free. -/
lemma freevm_spec (hm : Managed m pages) (h : OwnDir pages held d M) :
    ∃ M', freevm m d M = .ok M' ∧ OwnNone pages held M' ∧
      ∀ v, v ∉ pages ∨ v ∈ held → M'.word v = M.word v := by
  obtain ⟨M₁, hrun₁, hcleared⟩ := deallocuvm_spec hm h le_rfl (by decide : 0 < KERNBASE)
  have h₁ := hcleared.own
  obtain ⟨M₂, hrun₂, hframe⟩ := freeTables_spec NPDENTRIES 0 M₁ (Nat.zero_add _) rfl
    (fun k hk hp => ⟨Vm.table_ne h₁.nodup_dir hk hp, (hm _ (h₁.owned_mem (mem_owned_table hk hp))).2⟩)
  have hself : d ∈ owned (phys M₁).page d := Vm.self_mem_owned
  have hrun : freevm m d M = .ok { memset d .junk M₂ with free := d :: M₂.free } := by
    rw [freevm, hrun₁, ok_bind]
    dsimp only
    rw [hrun₂, ok_bind, kfree_ok (hm d (h₁.owned_mem hself)).2]
  refine ⟨_, hrun, ?_, fun v hv => ?_⟩
  · refine Vm.freevm_own (m := m) h ?_
    rw [freevm_phys, hrun]
    rfl
  · have hnot : v ∉ owned (phys M₁).page d := by
      intro hmem
      rcases hv with hv | hv
      · exact hv (h₁.owned_mem hmem)
      · exact (h₁.owned_notMem hmem).2 hv
    have hvd : v ≠ d := fun heq => hnot (heq ▸ hself)
    have hkept := hframe v (fun k hk hp heq => hnot (heq ▸ mem_owned_table hk hp))
    exact ((fill_other hvd ..).trans hkept).trans (hcleared.out v hv)

/-- **`setupkvm` returns** a directory without user pages, or nothing. -/
lemma setupkvm_spec (hm : Managed m pages) (hapart : Apart m.kmap)
    (htop : KERNBASE + m.top * PGSIZE ≤ DEVSPACE) (h : OwnNone pages held M) :
    ∃ r M', setupkvm m M = .ok (r, M') ∧ (∀ v, v ∉ pages ∨ v ∈ held → M'.word v = M.word v) ∧
      (r = none ∧ OwnNone pages held M' ∨
        ∃ d, r = some d ∧ OwnDir pages held d M' ∧ Exactly M' d 0) := by
  rw [setupkvm]
  rcases kalloc_spec h with ⟨-, heq⟩ | ⟨d, M₁, heq, hword, -, h₁⟩
  · rw [heq]
    exact ⟨none, M, rfl, fun _ _ => rfl, .inl ⟨rfl, h⟩⟩
  rw [heq]
  dsimp only
  rw [if_neg (by omega)]
  have hself := mem_cons_self d held
  have hzero : (phys (memset d .zero M₁)).page d = fun _ => .zero := by
    funext i
    exact (congrArg Word.entry (congrFun (fill_self ..) i)).trans entry_zero
  have h₂ : OwnDir pages held d (memset d .zero M₁) := by
    refine Vm.Own.newDir ?_ hzero
    rw [phys_memset]
    exact h₁.memset hself _
  have hempty : ∀ va, (pteAt (memset d .zero M₁) d va).present = false := fun va => by
    rw [pteAt_noTable (congrArg Entry.p (congrFun hzero (PDX va)))]
    decide
  have hout₂ : ∀ v, v ∉ pages ∨ v ∈ held → (memset d .zero M₁).word v = M.word v := fun v hv => by
    have hne : v ≠ d := by
      rintro rfl
      have hn := h₁.nodup
      rw [← h₁.total] at hn hv
      rcases hv with hv | hv
      · exact hv (mem_add.mpr (.inl (mem_add.mpr (.inr hself))))
      · rw [nodup_add, nodup_add] at hn
        exact (Multiset.nodup_cons.mp hn.1.2.1).1 hv
    rw [memset, fill_other hne, hword]
  obtain ⟨r, M₃, hrun, h₃, huser, hout⟩ := mapKernel_spec m.kmap _ m.high hapart h₂
    (fun _ _ va _ _ => hempty va)
  rw [hrun, ok_bind]
  dsimp only
  cases r with
  | true =>
    refine ⟨some d, M₃, rfl, fun v hv => (hout v hv).trans (hout₂ v hv),
      .inr ⟨d, rfl, h₃, fun va hva => ?_⟩⟩
    rw [huser va hva, hempty va]
    exact iff_of_false (by decide) (Nat.not_lt_zero va)
  | false =>
    obtain ⟨M', hfree, hown, hout'⟩ := freevm_spec hm h₃
    refine ⟨none, M', ?_, fun v hv => ?_, .inl ⟨rfl, hown⟩⟩
    · rw [if_neg (by decide), hfree]
      rfl
    · rw [hout' v hv, hout v hv, hout₂ v hv]

/-! ## The copy -/

/-- The directory, its page tables and its user pages below `hi` are present, and none of
    the pages that the call works with. -/
structure Parent (pages held : Multiset Nat) (pgdir hi : Nat) (M : Memory) : Prop where
  dir   : pgdir ∉ pages ∨ pgdir ∈ held
  table : ∀ i < NPDENTRIES, (M.word pgdir i).present = true →
    (M.word pgdir i).addr ∉ pages ∨ (M.word pgdir i).addr ∈ held
  user  : ∀ va < hi, (pteAt M pgdir va).present = true ∧
    ((pteAt M pgdir va).addr ∉ pages ∨ (pteAt M pgdir va).addr ∈ held)

lemma Parent.entries {pgdir hi : Nat} (h : Parent pages held pgdir hi M)
    (hout : ∀ v, v ∉ pages ∨ v ∈ held → M'.word v = M.word v) (va : Nat) :
    pteAt M' pgdir va = pteAt M pgdir va :=
  pteAt_congr (hout pgdir h.dir) (fun i hi hp => hout _ (h.table i hi hp)) va

/-- The parent is not changed. -/
lemma Parent.keep {pgdir hi : Nat} (h : Parent pages held pgdir hi M)
    (hout : ∀ v, v ∉ pages ∨ v ∈ held → M'.word v = M.word v) : Parent pages held pgdir hi M' := by
  refine ⟨h.dir, fun i hi hp => ?_, fun va hva => ?_⟩
  · rw [hout pgdir h.dir] at hp ⊢
    exact h.table i hi hp
  · rw [h.entries hout]
    exact h.user va hva

/-- The child's user pages below `lo` are what they were, those from `lo` to `hi` have the
    flags and the contents of the parent's, and no other is present. -/
structure Copied (pgdir d lo hi : Nat) (M M' : Memory) : Prop where
  kept    : ∀ va < KERNBASE, va < lo → pteAt M' d va = pteAt M d va ∧
    M'.word (pteAt M d va).addr = M.word (pteAt M d va).addr
  copied  : ∀ va < KERNBASE, lo ≤ va → va < hi →
    (pteAt M' d va).flags = (pteAt M pgdir va).flags ∧
      M'.word (pteAt M' d va).addr = M.word (pteAt M pgdir va).addr
  exactly : Exactly M' d hi

/-- **The loop of `copyuvm`** returns, with a copy or without a page. -/
lemma copyuvmFrom_spec (hm : Managed m pages) {pgdir sz : Nat} (hsz : sz < KERNBASE) :
    ∀ (fuel i : Nat) (M : Memory), OwnDir pages held d M →
      Parent pages held pgdir (PGROUNDUP sz) M → i % PGSIZE = 0 → i ≤ PGROUNDUP sz →
      sz - i < fuel → Exactly M d i →
      ∃ r M', copyuvmFrom m pgdir d sz fuel i M = .ok (r, M') ∧ OwnDir pages held d M' ∧
        (∀ v, v ∉ pages ∨ v ∈ held → M'.word v = M.word v) ∧
        (r = true → Copied pgdir d i (PGROUNDUP sz) M M') := by
  intro fuel
  induction fuel with
  | zero => exact fun i _ _ _ _ _ hfuel => absurd hfuel (Nat.not_lt_zero _)
  | succ fuel ih =>
    intro i M h hparent hi hround hfuel hpresent
    rw [copyuvmFrom]
    split
    · have hiK : i < KERNBASE := by omega
      have hnext : (i + PGSIZE) % UINT = i + PGSIZE ∧ (i + PGSIZE) % PGSIZE = 0 ∧
          i + PGSIZE ≤ PGROUNDUP sz := by
        rw [PGROUNDUP, UINT, PGSIZE, KERNBASE] at *
        omega
      have hpos : 0 < PGSIZE := by decide
      have huint : KERNBASE ≤ UINT := by decide
      obtain ⟨hpage, houtside⟩ := hparent.user i (by omega)
      have htable := table_of_present hpage
      rw [walkpgdir, if_pos htable]
      dsimp only
      rw [← pteAt_of_table htable, if_neg (by rw [hpage]; decide)]
      rcases kalloc_spec h with ⟨-, heq⟩ | ⟨mem, M₁, heq, hword, -, h₁⟩
      · rw [heq]
        exact ⟨false, M, rfl, h, fun _ _ => rfl, fun hr => Bool.noConfusion hr⟩
      rw [heq]
      dsimp only
      have hentries₁ : ∀ d' va, pteAt M₁ d' va = pteAt M d' va := fun _ =>
        pteAt_congr (by rw [hword]) (fun _ _ _ => by rw [hword])
      have hnone : (pteAt M₁ d i).present = false := by
        rw [hentries₁]
        exact Bool.not_eq_true _ ▸ fun hp => Nat.lt_irrefl i ((hpresent i hiK).mp hp)
      rw [memmove, hword]
      rcases mapNew_spec (pteAt M pgdir i).flags h₁ (M.word (pteAt M pgdir i).addr) hi hiK
        hnone with hmap | ⟨M₃, hmap, h₃, hentries, hrow, huser, hout⟩
      · -- no page for the page table
        rw [hmap, ok_bind]
        dsimp only
        rw [if_neg (by decide)]
        have h₂ := OwnDir.fill h₁ (mem_cons_self mem held) (M.word (pteAt M pgdir i).addr)
        obtain ⟨hfree, hown⟩ := kfree_spec hm h₂
        refine ⟨false, _, ?_, hown, fun v hv => ?_, fun hr => Bool.noConfusion hr⟩
        · rw [hfree]
          rfl
        · have hne : v ≠ mem := by
            rintro rfl
            rcases hv with hv | hv
            · exact hv (OwnDir.held_mem h₁ (mem_cons_self v held))
            · exact OwnDir.notMem_rest h₁ hv
          exact (fill_other hne ..).trans ((fill_other hne ..).trans (by rw [hword]))
      rw [hmap, ok_bind]
      dsimp only
      rw [if_pos rfl]
      have hout₃ : ∀ v, v ∉ pages ∨ v ∈ held → M₃.word v = M.word v := fun v hv => by
        rw [hout v hv, hword]
      have hpresent₃ : Exactly M₃ d (i + PGSIZE) := fun va hva => by
        rw [hentries va (by omega)]
        by_cases hin : i ≤ va ∧ va < i + PGSIZE
        · rw [if_pos hin]
          exact ⟨fun _ => hin.2, fun _ => present_or _⟩
        · rw [if_neg hin, hentries₁, hpresent va hva]
          omega
      obtain ⟨r, M', hrun, hown, hout', hcopied⟩ := ih (i + PGSIZE) M₃ h₃
        (hparent.keep hout₃) hnext.2.1 hnext.2.2 (by omega) hpresent₃
      refine ⟨r, M', ?_, hown, fun v hv => (hout' v hv).trans (hout₃ v hv), fun hr => ?_⟩
      · rwa [hnext.1]
      · have hrest := hcopied hr
        refine ⟨fun va hva hlo => ?_, fun va hva hle hlt' => ?_, hrest.exactly⟩
        · obtain ⟨hpte, hkept⟩ := hrest.kept va hva (by omega)
          have hold := huser va hva (by rw [hentries₁]; exact (hpresent va hva).mpr hlo)
          rw [hentries va (by omega), if_neg (by omega), hentries₁] at hpte hkept
          rw [hentries₁, hword] at hold
          exact ⟨hpte, hkept.trans hold⟩
        · by_cases hin : va < i + PGSIZE
          · -- the addresses of the page at `i`
            obtain ⟨hpte, hkept⟩ := hrest.kept va hva hin
            rw [hentries va (by omega), if_pos ⟨hle, hin⟩] at hpte hkept
            have hsame : pteAt M pgdir va = pteAt M pgdir i := by
              obtain ⟨hpdx, hptx⟩ := (samePage hi (by omega) (by omega)).mpr ⟨hle, hin⟩
              rw [pteAt, pteAt, hpdx, hptx]
            rw [hpte, hsame]
            exact ⟨or_present hpage, hkept.trans hrow⟩
          · obtain ⟨hflags, hbytes⟩ := hrest.copied va hva (by omega) hlt'
            rw [hparent.entries hout₃] at hflags hbytes
            exact ⟨hflags, hbytes.trans (hout₃ _ (hparent.user va hlt').2)⟩
    · have hend : i = PGROUNDUP sz := by
        rw [PGROUNDUP, PGSIZE, UINT, KERNBASE] at *
        omega
      refine ⟨true, M, rfl, h, fun _ _ => rfl, fun _ => ⟨fun _ _ _ => ⟨rfl, rfl⟩,
        fun va _ hle hlt' => absurd hlt' (by omega), hend ▸ hpresent⟩⟩

/-- The lines of `kmap` have no page in common if the data segment starts with a page, as
    the linker script has it. -/
lemma kmap_apart {data : Nat} (hlow : Vm.KERNLINK < data) (hhigh : data < KERNBASE + Vm.PHYSTOP)
    (hdata : data % PGSIZE = 0) : Apart (Vm.kmap data) := by
  unfold Apart Vm.kmap Kmap.Covers
  simp only [List.pairwise_cons, List.mem_cons, forall_eq_or_imp, List.not_mem_nil,
    false_imp_iff, implies_true, List.Pairwise.nil, and_true, Vm.Kmap.size, PGROUNDDOWN, PGSIZE, UINT,
    Vm.KERNLINK, KERNBASE, Vm.EXTMEM, Vm.PHYSTOP, DEVSPACE] at *
  refine ⟨⟨?_, ?_, ?_⟩, ⟨?_, ?_⟩, ?_⟩ <;> (intro va hva; omega)

/-- **A copy, or nothing.**  `copyuvm` returns.  The parent's directory, page tables and pages
    are not changed.  Either the child has the parent's pages up to `sz` with their flags and
    bytes, each in a page that is none of the parent's and mapped once, and no other user
    page; or there is no child and the free pages are those from before. -/
theorem copyuvm_copies {data first others : Nat} (hlow : Vm.KERNLINK < data)
    (hhigh : data < KERNBASE + Vm.PHYSTOP) (hdata : data % PGSIZE = 0) {pgdir sz : Nat}
    (hd : Clean (Vm.xv6 data first others hlow hhigh) M pgdir) (hsz : sz < KERNBASE)
    (hpresent : ∀ va < PGROUNDUP sz, (pteAt M pgdir va).present = true) :
    ∃ r M', copyuvm (Vm.xv6 data first others hlow hhigh) pgdir sz M = .ok (r, M') ∧
      (∀ v ∈ owned (phys M).page pgdir, M'.word v = M.word v) ∧ (r = none ∧ M'.free.Perm M.free ∨
        ∃ d, r = some d ∧ Exactly M' d (PGROUNDUP sz) ∧
          (∀ va < PGROUNDUP sz, (pteAt M' d va).flags = (pteAt M pgdir va).flags ∧
            M'.word (pteAt M' d va).addr = M.word (pteAt M pgdir va).addr ∧
            (pteAt M' d va).addr ∉ owned (phys M).page pgdir) ∧
          ∀ va < PGROUNDUP sz, ∀ va' < PGROUNDUP sz,
            (pteAt M' d va').addr = (pteAt M' d va).addr → va' / PGSIZE = va / PGSIZE) := by
  have hroundK : PGROUNDUP sz ≤ KERNBASE := by
    rw [PGROUNDUP, PGSIZE, UINT, KERNBASE] at *
    omega
  -- the call works with the pages of the free list, and the parent's are not on it
  have hm : Managed (Vm.xv6 data first others hlow hhigh) (M.free : Multiset Nat) := fun v hv =>
    hd.range v (mem_add.mpr (.inl hv))
  have hnodup := nodup_add.mp hd.nodup
  have hparentOut : ∀ v ∈ owned (phys M).page pgdir,
      v ∉ (M.free : Multiset Nat) ∨ v ∈ (0 : Multiset Nat) := fun v hv =>
    .inl (Multiset.disjoint_right.mp hnodup.2.2 hv)
  have hnone : OwnNone (M.free : Multiset Nat) 0 M := by
    refine ⟨hnodup.1, ?_⟩
    rw [map_zero, sum_zero, add_zero, add_zero]
    rfl
  have hperm : ∀ {M' : Memory}, OwnNone (M.free : Multiset Nat) 0 M' → M'.free.Perm M.free :=
    fun h => by
      have htotal := h.total
      rw [map_zero, sum_zero, add_zero, add_zero] at htotal
      exact Multiset.coe_eq_coe.mp htotal
  have hparent : Parent (M.free : Multiset Nat) 0 pgdir (PGROUNDUP sz) M := by
    refine ⟨hparentOut _ Vm.self_mem_owned, fun i hi hp => hparentOut _ ?_, fun va hva =>
      ⟨hpresent va hva, hparentOut _ (user_owned (by omega) (hpresent va hva))⟩⟩
    exact mem_owned_table hi hp
  obtain ⟨r, M₁, hsetup, hout₁, hcases⟩ := setupkvm_spec hm (kmap_apart hlow hhigh hdata)
    (by decide : KERNBASE + Vm.PHYSTOP / PGSIZE * PGSIZE ≤ DEVSPACE) hnone
  rw [copyuvm, hsetup, ok_bind]
  rcases hcases with ⟨rfl, hown⟩ | ⟨d, rfl, hown, hempty⟩
  · exact ⟨none, M₁, rfl, fun v hv => hout₁ v (hparentOut v hv), .inl ⟨rfl, hperm hown⟩⟩
  dsimp only
  obtain ⟨r, M₂, hloop, hown₂, hout₂, hcopied⟩ := copyuvmFrom_spec hm hsz (sz + 1) 0 M₁ hown
    (hparent.keep hout₁) rfl (Nat.zero_le _) (by omega) hempty
  rw [hloop, ok_bind]
  dsimp only
  have hout : ∀ v ∈ owned (phys M).page pgdir, M₂.word v = M.word v := fun v hv =>
    (hout₂ v (hparentOut v hv)).trans (hout₁ v (hparentOut v hv))
  cases r with
  | true =>
    have hcopy := hcopied rfl
    have hpage : ∀ va < PGROUNDUP sz, (pteAt M₂ d va).present = true := fun va hva =>
      (hcopy.exactly va (by omega)).mpr hva
    refine ⟨some d, M₂, rfl, hout, .inr ⟨d, rfl, hcopy.exactly, fun va hva => ?_,
      fun va hva va' hva' heq => ?_⟩⟩
    · obtain ⟨hflags, hbytes⟩ := hcopy.copied va (by omega) (Nat.zero_le _) hva
      rw [hparent.entries hout₁] at hflags hbytes
      refine ⟨hflags, hbytes.trans (hout₁ _ (hparent.user va hva).2), fun hmem => ?_⟩
      have hmine := hown₂.owned_mem (user_owned (by omega) (hpage va hva))
      exact Multiset.disjoint_right.mp hnodup.2.2 hmem hmine
    · have hplace := hown₂.user_inj (by omega) (by omega) (hpage va hva) (hpage va' hva') heq
      rw [PDX, PDX, PTX, PTX] at hplace
      rw [KERNBASE] at hroundK
      rw [PGSIZE]
      omega
  | false =>
    obtain ⟨M', hfree, hown', hout'⟩ := freevm_spec hm hown₂
    refine ⟨none, M', ?_, fun v hv => ?_, .inl ⟨rfl, hperm hown'⟩⟩
    · rw [if_neg (by decide), hfree]
      rfl
    · rw [hout' v (hparentOut v hv), hout v hv]

theorem copyuvm_onePage : ∃ r M',
    copyuvm (Vm.xv6 0x80101000 1 0 (by decide) (by decide)) 1 1 (onePage [4]) = .ok (r, M') ∧
      (∀ v ∈ owned (phys (onePage [4])).page 1, M'.word v = (onePage [4]).word v) ∧
      (r = none ∧ M'.free.Perm [4] ∨ ∃ d, r = some d ∧ Exactly M' d (PGROUNDUP 1) ∧
          (∀ va < PGROUNDUP 1, (pteAt M' d va).flags = (pteAt (onePage [4]) 1 va).flags ∧
            M'.word (pteAt M' d va).addr = (onePage [4]).word (pteAt (onePage [4]) 1 va).addr ∧
            (pteAt M' d va).addr ∉ owned (phys (onePage [4])).page 1) ∧
          ∀ va < PGROUNDUP 1, ∀ va' < PGROUNDUP 1,
            (pteAt M' d va').addr = (pteAt M' d va).addr → va' / PGSIZE = va / PGSIZE) := by
  have hsum := onePage_own.sum
  rw [add_zero] at hsum
  refine copyuvm_copies (by decide) (by decide) (by decide) ⟨?_, ?_⟩ (by decide) (fun va hva => ?_)
  · rw [hsum]
    decide
  · rw [hsum]
    unfold Managed
    decide
  · have hplace : PDX va = 0 ∧ PTX va = 0 := by
      rw [PGROUNDUP, PGSIZE, UINT] at hva
      rw [PDX, PTX]
      omega
    rw [pteAt, hplace.1, hplace.2]
    decide

end CopyMemory
