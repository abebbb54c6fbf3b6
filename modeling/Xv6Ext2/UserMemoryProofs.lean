import Xv6Ext2.PageMemoryProofs

/-! # Growing and shrinking user memory

    `allocuvm`, `deallocuvm` and `growproc` over the pages with their contents.

    * `Clean m M d` — the free pages and the pages of the directory `d` are distinct pages
      that `kfree` accepts.
    * `Resized d lo hi M M'` — from `M` to `M'` the user pages below `lo` are what they
      were, those from `lo` to `hi` are new ones full of zeros, and no other is present.
    * `deallocuvmFrom_eq` — the loop of `deallocuvm` does what the plain loop does.
    * `visitAll_spec`, `allocuvmFrom_spec` — the two loops return, whatever the number of free
      pages.
    * `allocuvm_allOrNothing` — `allocuvm` gives all pages, or leaves what there was.
    * `deallocuvm_plain` — `deallocuvm`, which jumps over absent page tables, frees each
      present page of the range once, clears its entry and changes no other.
    * `growproc_right_iff` — `growproc` does what it says unless the size is to go to zero
      or below. -/

namespace UserMemory

open Outcome PageMemory Param

open BufCache (Err)

open Vm (Machine Own NPDENTRIES NPTENTRIES PDX PTX PGROUNDUP PDX_lt PTX_lt PDX_user owned userPages)

/-- Pages of the allocator, for which `kfree` does not panic. -/
def Managed (m : Machine) (pages : Multiset Nat) : Prop :=
  ∀ v ∈ pages, 0 < v ∧ m.first ≤ v ∧ v < m.top

variable {m : Machine} {pages held : Multiset Nat} {M M₁ M' : Memory} {d v va lo hi : Nat}

lemma kfree_ok (hv : m.first ≤ v ∧ v < m.top) :
    kfree m v M = .ok { memset v .junk M with free := v :: M.free } := if_neg (by omega)

/-! ## Freeing user pages -/

/-- The entries from `lo` to the end of the page of `hi` are gone, the others and the pages
    behind them are what they were. -/
structure Cleared (pages held : Multiset Nat) (d lo hi : Nat) (M M' : Memory) : Prop where
  own  : OwnDir pages held d M'
  kept : ∀ va < KERNBASE, va < lo ∨ PGROUNDUP hi ≤ va → pteAt M' d va = pteAt M d va
  gone : ∀ va < KERNBASE, lo ≤ va → va < PGROUNDUP hi → (pteAt M' d va).present = false
  user : ∀ va < KERNBASE, (pteAt M' d va).present = true →
    M'.word (pteAt M' d va).addr = M.word (pteAt M' d va).addr
  out  : ∀ v, v ∉ pages ∨ v ∈ held → M'.word v = M.word v

lemma unmap_spec (hm : Managed m pages) (h : OwnDir pages held d M) (hva : va < KERNBASE)
    (hp : (pteAt M d va).present = true) : ∃ M₁, kfree m (pteAt M d va).addr M = .ok M₁ ∧
      OwnDir pages held d (setWord (M.word d (PDX va)).addr (PTX va) .zero M₁) ∧
      (∀ va', pteAt (setWord (M.word d (PDX va)).addr (PTX va) .zero M₁) d va'
        = if PDX va' = PDX va ∧ PTX va' = PTX va then .zero else pteAt M d va') ∧
      (setWord (M.word d (PDX va)).addr (PTX va) .zero M₁).word d = M.word d ∧
      ∀ v, ¬Inner (setWord (M.word d (PDX va)).addr (PTX va) .zero M₁) d v →
        (setWord (M.word d (PDX va)).addr (PTX va) .zero M₁).word v = M.word v := by
  have htable := table_of_present hp
  have howned := user_owned hva hp
  have hfree := kfree_ok (M := M) (hm _ (h.owned_mem howned)).2
  have huser := Vm.user_ne h.nodup_dir (user_mem hva hp)
  generalize hM₁ : ({ memset (pteAt M d va).addr .junk M with
    free := (pteAt M d va).addr :: M.free } : Memory) = M₁ at hfree
  have hother : ∀ v, v ≠ (pteAt M d va).addr → M₁.word v = M.word v := fun v hv => by
    rw [← hM₁]
    exact fill_other hv ..
  have hd : M₁.word d = M.word d := hother d (Ne.symm huser.1)
  have hrows : ∀ i < NPDENTRIES, (M.word d i).present = true →
      M₁.word (M.word d i).addr = M.word (M.word d i).addr := fun i hi hpi =>
    hother _ (huser.2 i hi hpi).symm
  have hsame : owned (phys M₁).page d = owned (phys M).page d := owned_word_congr hd hrows
  have hown : OwnDir pages held d (setWord (M.word d (PDX va)).addr (PTX va) .zero M₁) := by
    have hlow := PDX_user hva
    rw [OwnDir, phys_setWord, entry_zero]
    refine (Vm.unmap_own (m := m) h hlow htable ?_ ?_).1
    · rwa [pteAt_of_table htable] at hp
    · have hphys : Vm.kfree m (pteAt M d va).addr (phys M) = .ok (phys M₁) := by
        rw [kfree_phys, hfree]
        rfl
      rwa [pteAt_of_table htable] at hphys
  have hkeep : (setWord (M.word d (PDX va)).addr (PTX va) .zero M₁).word d = M.word d := by
    have hne : (M.word d (PDX va)).addr ≠ d := Vm.table_ne h.nodup_dir (PDX_lt va) htable
    rw [setWord_other hne.symm, hd]
  refine ⟨M₁, hfree, hown, fun va' => ?_, hkeep, fun v hv => ?_⟩
  · have htable₁ : (M₁.word d (PDX va)).present = true := by rw [hd, htable]
    have hset := pteAt_setWord (by rw [hsame]; exact h.nodup_dir) htable₁ .zero va'
    rw [hd] at hset
    rw [hset, pteAt_congr hd hrows]
  · have hvt : v ≠ (M.word d (PDX va)).addr := by
      rintro rfl
      refine hv (.inr (.inr (Vm.mem_present.mpr ⟨PDX va, PDX_lt va, ?_, ?_⟩)))
      · exact (congrArg Word.present (congrFun hkeep _)).trans htable
      · exact congrArg Word.addr (congrFun hkeep _)
    have hvp : v ≠ (pteAt M d va).addr := by
      rintro rfl
      refine hv (.inl ?_)
      show _ ∈ M₁.free
      rw [← hM₁]
      exact List.mem_cons_self
    rw [setWord_other hvt, hother v hvp]

/-! ## The plain loop -/

/-- Free the page of `a` and clear its entry, if it is present. -/
def visit (m : Machine) (pgdir : Nat) (M : Memory) (a : Nat) : Except Err Memory :=
  match walkpgdir pgdir a false M with
  | (none, M) => .ok M
  | (some (t, j), M) =>
    if (M.word t j).present = true then
      if (M.word t j).addr = 0 then .error (.panic "kfree")
      else do
        let M ← kfree m (M.word t j).addr M
        .ok (setWord t j .zero M)
    else .ok M

/-- The pages from `lo`, where a page starts, up to `hi`. -/
def pagesOf (lo hi : Nat) : List Nat := List.range' lo ((hi - lo + (PGSIZE - 1)) / PGSIZE) PGSIZE

/-- `deallocuvm` without the jump over absent page tables. -/
def plainDealloc (m : Machine) (pgdir oldsz newsz : Nat) (M : Memory) :
    Except Err (Nat × Memory) :=
  if oldsz ≤ newsz then .ok (oldsz, M)
  else do
    let M ← (pagesOf (PGROUNDUP newsz) oldsz).foldlM (visit m pgdir) M
    .ok (newsz, M)

lemma pagesOf_nil (h : hi ≤ lo) : pagesOf lo hi = [] := by
  rw [pagesOf, show hi - lo = 0 by omega]
  rfl

lemma pagesOf_cons (h : lo < hi) : pagesOf lo hi = lo :: pagesOf (lo + PGSIZE) hi := by
  have hn : (hi - lo + (PGSIZE - 1)) / PGSIZE
      = (hi - (lo + PGSIZE) + (PGSIZE - 1)) / PGSIZE + 1 := by
    rw [PGSIZE]
    omega
  rw [pagesOf, hn, List.range'_succ, pagesOf]

variable {a : Nat}

lemma visit_absent (hp : (M.word d (PDX a)).present = false) : visit m d M a = .ok M := by
  rw [visit, walkpgdir, if_neg (by rw [hp]; decide), if_pos rfl]

/-- The pages of an absent page table can be left out. -/
lemma skip_pages {i : Nat} (hp : (M.word d i).present = false) (n : Nat) :
    ∀ b, (∀ k < n, PDX (b + k * PGSIZE) = i) → (pagesOf b hi).foldlM (visit m d) M
        = (pagesOf (b + n * PGSIZE) hi).foldlM (visit m d) M := by
  induction n with
  | zero => exact fun b _ => by rw [Nat.zero_mul, Nat.add_zero]
  | succ n ih =>
    intro b hb
    by_cases hlt : b < hi
    · have h0 := hb 0 (Nat.succ_pos n)
      rw [Nat.zero_mul, Nat.add_zero] at h0
      have hnext : ∀ k, b + PGSIZE + k * PGSIZE = b + (k + 1) * PGSIZE := fun k => by
        rw [Nat.succ_mul]
        omega
      rw [pagesOf_cons hlt, List.foldlM_cons, visit_absent (h0 ▸ hp), ok_bind,
        ih (b + PGSIZE) (fun k hk => hnext k ▸ hb (k + 1) (by omega)), hnext]
    · rw [pagesOf_nil (by omega), pagesOf_nil (by omega)]

lemma next_table (ha : a % PGSIZE = 0) (hlt : a < KERNBASE) :
    ∃ n, (((PDX a + 1) * 0x400000 + (UINT - PGSIZE)) % UINT + PGSIZE) % UINT
        = a + PGSIZE + n * PGSIZE ∧ (a + PGSIZE + n * PGSIZE) % PGSIZE = 0 ∧
      ∀ k < n, PDX (a + PGSIZE + k * PGSIZE) = PDX a := by
  have hPTX : PDX a * 0x400000 + PTX a * PGSIZE = a := by
    rw [PDX, PTX, PGSIZE, KERNBASE] at *
    omega
  have hlt' := PTX_lt a
  have hPDX : PDX a < 0x200 := by
    rw [PDX, KERNBASE] at *
    omega
  refine ⟨1023 - PTX a, ?_, ?_, fun k hk => ?_⟩
  · rw [UINT, PGSIZE, NPTENTRIES] at *
    omega
  · rw [PGSIZE] at *
    omega
  · have hdiv : (a + PGSIZE + k * PGSIZE) / 0x400000 = PDX a := by
      rw [PGSIZE] at *
      omega
    rw [PDX, hdiv]
    exact Nat.mod_eq_of_lt (by omega)

/-- **The loop of `deallocuvm` is the plain loop**, whatever is in memory. -/
lemma deallocuvmFrom_eq (hhi : hi ≤ KERNBASE) :
    ∀ (fuel a : Nat) (M : Memory), a % PGSIZE = 0 → hi - a < fuel →
      deallocuvmFrom m d hi fuel a M = (pagesOf a hi).foldlM (visit m d) M := by
  intro fuel
  induction fuel with
  | zero => exact fun a _ _ hfuel => absurd hfuel (Nat.not_lt_zero _)
  | succ fuel ih =>
    intro a M ha hfuel
    rw [deallocuvmFrom]
    by_cases hlt : a < hi
    · have hpos : 0 < PGSIZE := by decide
      have hnext : (a + PGSIZE) % UINT = a + PGSIZE ∧ (a + PGSIZE) % PGSIZE = 0 := by
        rw [UINT, PGSIZE, KERNBASE] at *
        omega
      rw [if_pos hlt, pagesOf_cons hlt, List.foldlM_cons]
      by_cases hp : (M.word d (PDX a)).present = true
      · rw [visit, walkpgdir, if_pos hp]
        dsimp only
        by_cases hpte : (M.word (M.word d (PDX a)).addr (PTX a)).present = true
        · rw [if_pos hpte, if_pos hpte]
          by_cases h0 : (M.word (M.word d (PDX a)).addr (PTX a)).addr = 0
          · rw [if_pos h0, if_pos h0, error_bind]
          rw [if_neg h0, if_neg h0]
          cases kfree m (M.word (M.word d (PDX a)).addr (PTX a)).addr M with
          | error e => rw [error_bind, error_bind, error_bind]
          | ok M₁ =>
            rw [ok_bind, ok_bind, ok_bind, hnext.1]
            exact ih _ _ hnext.2 (by omega)
        · rw [if_neg hpte, if_neg hpte, ok_bind, hnext.1]
          exact ih _ _ hnext.2 (by omega)
      · -- no page table: the loop goes on at the first address of the next one
        obtain ⟨n, hn, hmod, hpdx⟩ := next_table ha (Nat.lt_of_lt_of_le hlt hhi)
        have habsent : (M.word d (PDX a)).present = false := Bool.not_eq_true _ ▸ hp
        rw [visit_absent habsent, ok_bind, walkpgdir, if_neg hp, if_pos rfl]
        dsimp only
        rw [hn, ih _ M hmod (by omega)]
        exact (skip_pages habsent n _ hpdx).symm
    · rw [if_neg hlt, pagesOf_nil (by omega)]
      rfl

variable {oldsz newsz : Nat}

lemma deallocuvm_eq (hold : oldsz ≤ KERNBASE) :
    deallocuvm m d oldsz newsz M = plainDealloc m d oldsz newsz M := by
  rw [deallocuvm, plainDealloc]
  by_cases hle : oldsz ≤ newsz
  · rw [if_pos hle, if_pos hle]
  · rw [if_neg hle, if_neg hle, deallocuvmFrom_eq hold _ _ _ (Vm.PGROUNDUP_mod newsz) (by omega)]

/-- The pages of `l` were visited: the present ones are free, each once, and their entries
    cleared; the other entries and the pages behind them are what they were. -/
structure Visited (pages held : Multiset Nat) (d : Nat) (l : List Nat) (M M' : Memory) : Prop where
  own   : OwnDir pages held d M'
  free  : M'.free = ((l.filter (fun a => (pteAt M d a).present)).map
    (fun a => (pteAt M d a).addr)).reverse ++ M.free
  dir   : M'.word d = M.word d
  entry : ∀ va < UINT, pteAt M' d va =
    if (∃ a ∈ l, a ≤ va ∧ va < a + PGSIZE) ∧ (pteAt M d va).present = true then .zero
    else pteAt M d va
  user  : ∀ va < KERNBASE, (pteAt M' d va).present = true →
    M'.word (pteAt M' d va).addr = M.word (pteAt M' d va).addr
  out   : ∀ v, v ∉ pages ∨ v ∈ held → M'.word v = M.word v

lemma lt_UINT (h : va < KERNBASE) : va < UINT := Nat.lt_trans h (by decide)

/-- An entry that is still present has not changed. -/
lemma Visited.eq_of_present {l : List Nat} (h : Visited pages held d l M M') (hva : va < KERNBASE)
    (hp : (pteAt M' d va).present = true) : pteAt M' d va = pteAt M d va := by
  rw [h.entry va (lt_UINT hva)] at hp ⊢
  split_ifs at hp ⊢ with hin
  · exact absurd hp (by decide)
  · rfl

lemma visit_spec (hm : Managed m pages) (h : OwnDir pages held d M)
    (ha : a % PGSIZE = 0) (hlt : a < KERNBASE) :
    ∃ M', visit m d M a = .ok M' ∧ Visited pages held d [a] M M' := by
  have hsame : ∀ va < UINT, (PDX va = PDX a ∧ PTX va = PTX a) ↔ a ≤ va ∧ va < a + PGSIZE :=
    fun va hva => samePage ha (lt_UINT hlt) hva
  by_cases hpte : (pteAt M d a).present = true
  · obtain ⟨M₁, hfree, h₁, hentries, hdir, hframe⟩ := unmap_spec hm h hlt hpte
    have hpage := hm _ (h.owned_mem (user_owned hlt hpte))
    have hM₁ : M₁.free = (pteAt M d a).addr :: M.free := by
      rw [kfree_ok hpage.2] at hfree
      rw [← Except.ok.inj hfree]
    refine ⟨setWord (M.word d (PDX a)).addr (PTX a) .zero M₁, ?_, h₁, ?_, hdir, fun va hva => ?_,
      fun va hva hp => ?_, fun v hv => hframe v (h₁.out_notInner hv)⟩
    · rw [visit, walkpgdir, if_pos (table_of_present hpte)]
      dsimp only
      rw [← pteAt_of_table (table_of_present hpte), if_pos hpte, if_neg (by omega), hfree, ok_bind]
    · show M₁.free = _
      rw [List.filter_cons, if_pos hpte, hM₁]
      rfl
    · rw [hentries]
      simp only [hsame va hva, List.mem_singleton, exists_eq_left]
      by_cases hin : a ≤ va ∧ va < a + PGSIZE
      · have heq := (hsame va hva).mpr hin
        have hva' : pteAt M d va = pteAt M d a := by
          unfold pteAt
          rw [heq.1, heq.2]
        rw [if_pos hin, if_pos ⟨hin, hva' ▸ hpte⟩]
      · rw [if_neg hin, if_neg (fun h' => hin h'.1)]
    · exact hframe _ (h₁.user_notInner hva hp)
  · refine ⟨M, ?_, h, ?_, rfl, fun va hva => ?_, fun _ _ _ => rfl, fun _ _ => rfl⟩
    · rw [visit, walkpgdir]
      by_cases hp : (M.word d (PDX a)).present = true
      · rw [if_pos hp]
        dsimp only
        rw [← pteAt_of_table hp, if_neg hpte]
      · rw [if_neg hp, if_pos rfl]
    · rw [List.filter_cons, if_neg hpte]
      rfl
    · rw [if_neg]
      rintro ⟨⟨b, hb, hin⟩, hp⟩
      obtain rfl := List.mem_singleton.mp hb
      have heq := (hsame va hva).mpr hin
      unfold pteAt at hp hpte
      rw [heq.1, heq.2] at hp
      exact hpte hp

/-- **The plain loop** over distinct pages returns. -/
lemma visitAll_spec (hm : Managed m pages) :
    ∀ (l : List Nat) (M : Memory), OwnDir pages held d M → l.Nodup →
      (∀ a ∈ l, a % PGSIZE = 0 ∧ a < KERNBASE) →
      ∃ M', l.foldlM (visit m d) M = .ok M' ∧ Visited pages held d l M M' := by
  intro l
  induction l with
  | nil =>
    intro M h _ _
    refine ⟨M, rfl, h, rfl, rfl, fun va _ => ?_, fun _ _ _ => rfl, fun _ _ => rfl⟩
    rw [if_neg]
    rintro ⟨⟨a, ha, -⟩, -⟩
    exact List.not_mem_nil ha
  | cons a l ih =>
    intro M h hn hl
    obtain ⟨ha, hl'⟩ := List.forall_mem_cons.mp hl
    obtain ⟨hnot, hn'⟩ := List.nodup_cons.mp hn
    obtain ⟨M₁, hrun₁, h₁⟩ := visit_spec hm h ha.1 ha.2
    obtain ⟨M', hrun, h'⟩ := ih M₁ h₁.own hn' hl'
    -- the other pages are not that of `a`
    have hother : ∀ b ∈ l, pteAt M₁ d b = pteAt M d b := by
      intro b hb
      rw [h₁.entry b (lt_UINT (hl' b hb).2), if_neg]
      rintro ⟨⟨c, hc, hin⟩, -⟩
      obtain rfl := List.mem_singleton.mp hc
      have hne : b ≠ c := fun heq => hnot (heq ▸ hb)
      have h1 := (hl' b hb).1
      have h2 := ha.1
      rw [PGSIZE] at *
      omega
    refine ⟨M', ?_, h'.own, ?_, h'.dir.trans h₁.dir, fun va hva => ?_, fun va hva hp => ?_,
      fun v hv => ?_⟩
    · rw [List.foldlM_cons, hrun₁, ok_bind, hrun]
    · have hfilter : l.filter (fun b => (pteAt M₁ d b).present)
          = l.filter (fun b => (pteAt M d b).present) :=
        List.filter_congr (fun b hb => by rw [hother b hb])
      have hmap : (l.filter (fun b => (pteAt M d b).present)).map (fun b => (pteAt M₁ d b).addr)
          = (l.filter (fun b => (pteAt M d b).present)).map (fun b => (pteAt M d b).addr) :=
        List.map_congr_left (fun b hb => by rw [hother b (List.mem_of_mem_filter hb)])
      rw [h'.free, h₁.free, hfilter, hmap, ← List.append_assoc, ← List.reverse_append,
        ← List.map_append, ← List.filter_append, List.singleton_append]
    · rw [h'.entry va hva, h₁.entry va hva]
      simp only [List.mem_singleton, exists_eq_left]
      simp only [List.mem_cons, exists_eq_or_imp]
      by_cases hp : (pteAt M d va).present = true
      · by_cases hin : a ≤ va ∧ va < a + PGSIZE
        · simp only [hin, hp, and_self, true_or, if_true, ite_self]
        · simp only [hin, false_and, false_or, if_false]
      · simp only [hp, Bool.false_eq_true, and_false, if_false]
    · rw [h'.user va hva hp]
      have heq := h'.eq_of_present hva hp
      rw [heq] at hp ⊢
      exact h₁.user va hva hp
    · rw [h'.out v hv, h₁.out v hv]

lemma pagesOf_spec (hlo : lo % PGSIZE = 0) (hhi : hi ≤ KERNBASE) :
    (pagesOf lo hi).Nodup ∧ (∀ a ∈ pagesOf lo hi, a % PGSIZE = 0 ∧ a < KERNBASE) ∧
      ∀ va, (∃ a ∈ pagesOf lo hi, a ≤ va ∧ va < a + PGSIZE) ↔ lo ≤ va ∧ va < PGROUNDUP hi := by
  refine ⟨List.nodup_range' _ (by decide), fun a ha => ?_, fun va => ⟨?_, fun hva => ?_⟩⟩
  · obtain ⟨k, hk, rfl⟩ := List.mem_range'.mp ha
    rw [PGSIZE, KERNBASE] at *
    omega
  · rintro ⟨a, ha, hin⟩
    obtain ⟨k, hk, rfl⟩ := List.mem_range'.mp ha
    rw [PGROUNDUP, PGSIZE, UINT, KERNBASE] at *
    omega
  · refine ⟨lo + PGSIZE * ((va - lo) / PGSIZE), List.mem_range'.mpr ⟨_, ?_, rfl⟩, ?_⟩ <;>
    · rw [PGROUNDUP, PGSIZE, UINT, KERNBASE] at *
      omega

lemma deallocuvm_spec (hm : Managed m pages) (h : OwnDir pages held d M)
    (hold : oldsz ≤ KERNBASE) (hlt : newsz < oldsz) :
    ∃ M', deallocuvm m d oldsz newsz M = .ok (newsz, M') ∧
      Cleared pages held d (PGROUNDUP newsz) oldsz M M' := by
  obtain ⟨hn, hl, hcover⟩ := pagesOf_spec (Vm.PGROUNDUP_mod newsz) hold
  obtain ⟨M', hrun, hv⟩ := visitAll_spec hm _ M h hn hl
  refine ⟨M', ?_, hv.own, fun va hva hrange => ?_, fun va hva h1 h2 => ?_, hv.user, hv.out⟩
  · rw [deallocuvm_eq hold, plainDealloc, if_neg (by omega), hrun, ok_bind]
  · rw [hv.entry va (lt_UINT hva), if_neg]
    rintro ⟨hin, -⟩
    have := (hcover va).mp hin
    omega
  · rw [hv.entry va (lt_UINT hva)]
    split_ifs with hin
    · decide
    · exact Bool.not_eq_true _ ▸ fun hp => hin ⟨(hcover va).mpr ⟨h1, h2⟩, hp⟩

/-! ## Growing -/

/-- The present user pages are those below `sz`. -/
def Exactly (M : Memory) (d sz : Nat) : Prop :=
  ∀ va < KERNBASE, (pteAt M d va).present = true ↔ va < sz

/-- The user pages below `lo` and their contents are what they were, those from `lo` to `hi`
    are writable for the user and full of zeros, and no other user page is present. -/
structure Resized (d lo hi : Nat) (M M' : Memory) : Prop where
  kept    : ∀ va < KERNBASE, va < lo → pteAt M' d va = pteAt M d va ∧
    M'.word (pteAt M d va).addr = M.word (pteAt M d va).addr
  added   : ∀ va < KERNBASE, lo ≤ va → va < hi →
    (pteAt M' d va).flags = PTE_W ||| PTE_U ||| PTE_P ∧
      M'.word (pteAt M' d va).addr = fun _ => .zero
  exactly : Exactly M' d hi

lemma Resized.refl (h : Exactly M d hi) : Resized d hi hi M M :=
  ⟨fun _ _ _ => ⟨rfl, rfl⟩, fun va _ hle hlt => absurd hlt (by omega), h⟩

/-- What was there before the call is what was there before its first turn. -/
lemma Resized.rebase (h : Resized d lo hi M₁ M')
    (hstep : ∀ va < KERNBASE, va < lo → pteAt M₁ d va = pteAt M d va ∧
      M₁.word (pteAt M d va).addr = M.word (pteAt M d va).addr) : Resized d lo hi M M' := by
  refine ⟨fun va hva hlt => ?_, h.added, h.exactly⟩
  obtain ⟨hpte, hword⟩ := h.kept va hva hlt
  obtain ⟨hpte₁, hword₁⟩ := hstep va hva hlt
  rw [hpte₁] at hpte hword
  exact ⟨hpte, hword.trans hword₁⟩

lemma Cleared.resized (h : Cleared pages held d lo hi M M') (hpresent : Exactly M d a)
    (hlo : lo ≤ a) (hhi : a ≤ PGROUNDUP hi) : Resized d lo lo M M' := by
  have hexactly : Exactly M' d lo := fun va hva => by
    constructor
    · intro hp
      by_contra hle
      by_cases hin : va < PGROUNDUP hi
      · rw [h.gone va hva (by omega) hin] at hp
        exact absurd hp (by decide)
      · rw [h.kept va hva (.inr (by omega)), hpresent va hva] at hp
        omega
    · intro hlt
      rw [h.kept va hva (.inl hlt), hpresent va hva]
      omega
  refine ⟨fun va hva hlt => ?_, fun va _ hle hlt => absurd hlt (by omega), hexactly⟩
  have hpte := h.kept va hva (.inl hlt)
  refine ⟨hpte, ?_⟩
  rw [← hpte]
  exact h.user va hva ((hexactly va hva).mpr hlt)

lemma Resized.kfree {mem : Nat} (h : Resized d lo lo M M')
    (hown : OwnDir pages (mem ::ₘ held) d M') :
    Resized d lo lo M { memset mem .junk M' with free := mem :: M'.free } := by
  have hmem := hown.held_notMem (Multiset.mem_cons_self mem held) (Multiset.mem_cons_self d 0)
  have hentries : ∀ va,
      pteAt { memset mem .junk M' with free := mem :: M'.free } d va = pteAt M' d va :=
    fun va => pteAt_fill hmem _ va
  refine ⟨fun va hva hlt => ?_, fun va _ hle hlt => absurd hlt (by omega), fun va hva => ?_⟩
  · obtain ⟨hpte, hword⟩ := h.kept va hva hlt
    refine ⟨(hentries va).trans hpte, ?_⟩
    have hne : (pteAt M d va).addr ≠ mem := by
      intro heq
      refine hmem ?_
      rw [← heq, ← hpte]
      exact user_owned hva ((h.exactly va hva).mpr hlt)
    exact (fill_other hne ..).trans hword
  · rw [hentries]
    exact h.exactly va hva

lemma kfree_spec {mem : Nat} (hm : Managed m pages) (h : OwnDir pages (mem ::ₘ held) d M) :
    kfree m mem M = .ok { memset mem .junk M with free := mem :: M.free } ∧
      OwnDir pages held d { memset mem .junk M with free := mem :: M.free } := by
  have hfree := kfree_ok (M := M) (hm mem (h.held_mem (Multiset.mem_cons_self mem held))).2
  have hphys := kfree_phys m mem M
  rw [hfree] at hphys
  exact ⟨hfree, Vm.kfree_own h hphys⟩

/-- **The loop of `allocuvm`** returns.  It gives every page up to `newsz`, or what it leaves
    are the pages below `oldsz`. -/
lemma allocuvmFrom_spec (hm : Managed m pages) (hnew : newsz < KERNBASE) (hsz : oldsz ≤ newsz) :
    ∀ (fuel a : Nat) (M : Memory), OwnDir pages held d M → a % PGSIZE = 0 → PGROUNDUP oldsz ≤ a →
      a ≤ PGROUNDUP newsz → newsz - a < fuel → Exactly M d a →
      ∃ r M', allocuvmFrom m d oldsz newsz fuel a M = .ok (r, M') ∧ OwnDir pages held d M' ∧
        (r = true → Resized d a (PGROUNDUP newsz) M M') ∧
        (r = false → Resized d (PGROUNDUP oldsz) (PGROUNDUP oldsz) M M') := by
  intro fuel
  induction fuel with
  | zero => exact fun a _ _ _ _ _ hfuel => absurd hfuel (Nat.not_lt_zero _)
  | succ fuel ih =>
    intro a M h ha hold hround hfuel hpresent
    rw [allocuvmFrom]
    split
    · have hshrink : oldsz < newsz := by
        rw [PGROUNDUP, PGSIZE, UINT, KERNBASE] at *
        omega
      have haK : a < KERNBASE := by omega
      rcases kalloc_spec h with ⟨-, heq⟩ | ⟨mem, M₁, heq, hword, -, h₁⟩
      · rw [heq]
        dsimp only
        obtain ⟨M', hrun, hcleared⟩ := deallocuvm_spec hm h hnew.le hshrink
        refine ⟨false, M', ?_, hcleared.own, fun hr => Bool.noConfusion hr,
          fun _ => hcleared.resized hpresent hold hround⟩
        rw [hrun]
        rfl
      rw [heq]
      dsimp only
      have hentries₁ : ∀ va, pteAt M₁ d va = pteAt M d va :=
        pteAt_congr (by rw [hword]) (fun _ _ _ => by rw [hword])
      have hpresent₁ : Exactly M₁ d a := fun va hva => by
        rw [hentries₁]
        exact hpresent va hva
      have hnone : (pteAt M₁ d a).present = false :=
        Bool.not_eq_true _ ▸ fun hp => Nat.lt_irrefl a ((hpresent₁ a haK).mp hp)
      rcases mapNew_spec (PTE_W ||| PTE_U) h₁ (fun _ => .zero) ha haK hnone with
        hmap | ⟨M₃, hmap, h₃, hentries, hzero, huser, -⟩
      · -- no page for the page table: the pages and `mem` go back
        rw [memset, hmap, ok_bind]
        dsimp only
        rw [if_neg (by decide)]
        have hmem := h₁.held_notMem (Multiset.mem_cons_self mem held) (Multiset.mem_cons_self d 0)
        have h₂ := OwnDir.fill h₁ (Multiset.mem_cons_self mem held) (fun _ => .zero)
        have hpresent₂ : Exactly (fill mem (fun _ => .zero) M₁) d a := fun va hva => by
          rw [pteAt_fill hmem]
          exact hpresent₁ va hva
        obtain ⟨M', hrun, hcleared⟩ := deallocuvm_spec hm h₂ hnew.le hshrink
        obtain ⟨hfree, hown⟩ := kfree_spec hm hcleared.own
        refine ⟨false, _, ?_, hown, fun hr => Bool.noConfusion hr, fun _ => ?_⟩
        · rw [hrun, ok_bind]
          dsimp only
          rw [hfree]
          rfl
        · refine ((hcleared.resized hpresent₂ hold hround).kfree hcleared.own).rebase
            (fun va hva hlo => ?_)
          have hp := (hpresent₁ va hva).mpr (by omega)
          have hne : (pteAt M₁ d va).addr ≠ mem := fun heq' =>
            hmem (heq' ▸ user_owned hva hp)
          rw [hentries₁] at hne
          rw [pteAt_fill hmem, hentries₁, fill_other hne, hword]
          exact ⟨rfl, rfl⟩
      rw [memset, hmap, ok_bind]
      dsimp only
      rw [if_pos rfl]
      have huint : KERNBASE ≤ UINT := by decide
      have hnext : (a + PGSIZE) % UINT = a + PGSIZE ∧ (a + PGSIZE) % PGSIZE = 0 ∧
          a + PGSIZE ≤ PGROUNDUP newsz := by
        rw [PGROUNDUP, UINT, PGSIZE, KERNBASE] at *
        omega
      have hpos : 0 < PGSIZE := by decide
      have hpresent₃ : Exactly M₃ d (a + PGSIZE) := fun va hva => by
        rw [hentries va (by omega)]
        by_cases hin : a ≤ va ∧ va < a + PGSIZE
        · rw [if_pos hin]
          exact ⟨fun _ => hin.2, fun _ => present_or _⟩
        · rw [if_neg hin, hpresent₁ va hva]
          omega
      have hstep : ∀ va < KERNBASE, va < a → pteAt M₃ d va = pteAt M d va ∧
          M₃.word (pteAt M d va).addr = M.word (pteAt M d va).addr := fun va hva hlo => by
        have hkept := huser va hva ((hpresent₁ va hva).mpr hlo)
        rw [hentries va (by omega), if_neg (by omega)]
        rw [hentries₁] at hkept ⊢
        exact ⟨rfl, hkept.trans (by rw [hword])⟩
      obtain ⟨r, M', hrun, hown, hgot, hlost⟩ := ih (a + PGSIZE) M₃ h₃ hnext.2.1 (by omega)
        hnext.2.2 (by omega) hpresent₃
      refine ⟨r, M', ?_, hown, fun hr => ?_, fun hr => ?_⟩
      · rwa [hnext.1]
      · -- the page at `a` is new, the others are those of the turns after this one
        have hrest := hgot hr
        refine Resized.rebase ⟨fun va hva hlo => hrest.kept va hva (by omega),
          fun va hva hle hlt' => ?_, hrest.exactly⟩ hstep
        by_cases hin : va < a + PGSIZE
        · obtain ⟨hpte, hkept⟩ := hrest.kept va hva hin
          rw [hpte]
          rw [hentries va (by omega), if_pos ⟨hle, hin⟩] at hkept ⊢
          exact ⟨rfl, hkept.trans hzero⟩
        · exact hrest.added va hva (by omega) hlt'
      · exact (hlost hr).rebase (fun va hva hlo => hstep va hva (by omega))
    · have hend : a = PGROUNDUP newsz := by
        rw [PGROUNDUP, PGSIZE, UINT, KERNBASE] at *
        omega
      refine ⟨true, M, rfl, h, fun _ => hend ▸ Resized.refl hpresent, fun hr => Bool.noConfusion hr⟩

lemma userPages_eq (M : Memory) (d : Nat) : userPages (phys M).page d
    = ∑ i ∈ Finset.range (PDX KERNBASE), ∑ j ∈ Finset.range NPTENTRIES,
      if (pteAt M d (i * 0x400000 + j * 0x1000)).present = true
      then ({(pteAt M d (i * 0x400000 + j * 0x1000)).addr} : Multiset Nat) else 0 := by
  unfold userPages
  refine Finset.sum_congr rfl (fun i hi => ?_)
  have hi : i < 512 := Finset.mem_range.mp hi
  have hva : ∀ j < NPTENTRIES,
      PDX (i * 0x400000 + j * 0x1000) = i ∧ PTX (i * 0x400000 + j * 0x1000) = j := by
    intro j hj
    rw [NPTENTRIES] at hj
    rw [PDX, PTX]
    omega
  by_cases hp : (M.word d i).present = true
  · rw [if_pos (show ((phys M).page d i).p = true from hp), Vm.present]
    refine Finset.sum_congr rfl (fun j hj => ?_)
    obtain ⟨hpdx, hptx⟩ := hva j (Finset.mem_range.mp hj)
    rw [pteAt_of_table (by rw [hpdx, hp]), hpdx, hptx]
    rfl
  rw [if_neg (show ¬((phys M).page d i).p = true from hp)]
  refine (Finset.sum_eq_zero (fun j hj => ?_)).symm
  obtain ⟨hpdx, -⟩ := hva j (Finset.mem_range.mp hj)
  rw [pteAt_noTable (by rw [hpdx]; exact Bool.not_eq_true _ ▸ hp)]
  exact if_neg (by decide)

/-- The pages that the directory's entries give as page tables. -/
def tables (M : Memory) (d : Nat) : Multiset Nat := Vm.present NPDENTRIES ((phys M).page d)

/-- With the same user pages as before, only page tables can have left the free list. -/
lemma Resized.free_tables (h : Resized d lo lo M M') (hpresent : Exactly M d lo)
    (hown : OwnDir pages held d M) (hown' : OwnDir pages held d M') :
    (M'.free : Multiset Nat) + tables M' d = M.free + tables M d := by
  have huser : userPages (phys M').page d = userPages (phys M).page d := by
    rw [userPages_eq, userPages_eq]
    refine Finset.sum_congr rfl (fun i hi => Finset.sum_congr rfl (fun j hj => ?_))
    have hva : i * 0x400000 + j * 0x1000 < KERNBASE := by
      have hi : i < 512 := Finset.mem_range.mp hi
      have hj : j < 1024 := Finset.mem_range.mp hj
      rw [KERNBASE]
      omega
    by_cases hlt : i * 0x400000 + j * 0x1000 < lo
    · rw [(h.kept _ hva hlt).1]
    · rw [if_neg (fun hp => hlt ((h.exactly _ hva).mp hp)),
        if_neg (fun hp => hlt ((hpresent _ hva).mp hp))]
  have hsum := hown'.sum.trans hown.sum.symm
  rw [owned, owned, huser] at hsum
  refine add_right_cancel (b := held + ({d} + userPages (phys M).page d)) ?_
  calc (M'.free : Multiset Nat) + tables M' d + (held + ({d} + userPages (phys M).page d))
      = M'.free + held + ({d} + tables M' d + userPages (phys M).page d) := by abel
    _ = M.free + held + ({d} + tables M d + userPages (phys M).page d) := hsum
    _ = M.free + tables M d + (held + ({d} + userPages (phys M).page d)) := by abel

/-- The free pages and the pages of the directory `d` are distinct pages of the allocator. -/
structure Clean (m : Machine) (M : Memory) (d : Nat) : Prop where
  nodup : ((M.free : Multiset Nat) + owned (phys M).page d).Nodup
  range : Managed m ((M.free : Multiset Nat) + owned (phys M).page d)

lemma Clean.own (h : Clean m M d) :
    OwnDir ((M.free : Multiset Nat) + owned (phys M).page d) 0 d M :=
  OwnDir.of_sum h.nodup (by rw [add_zero])

lemma free_nodup (h : OwnDir pages held d M) : M.free.Nodup := by
  have hn := h.nodup
  rw [← h.sum, Multiset.nodup_add, Multiset.nodup_add] at hn
  exact Multiset.coe_nodup.mp hn.1.1

/-- `allocuvm` gives every page, or leaves what there was. -/
lemma allocuvm_spec (hm : Managed m pages) (h : OwnDir pages held d M)
    (hsz : oldsz ≤ newsz) (hnew : newsz < KERNBASE) (hpresent : Exactly M d (PGROUNDUP oldsz)) :
    ∃ r M', allocuvm m d oldsz newsz M = .ok (r, M') ∧ OwnDir pages held d M' ∧
      (r = newsz ∧ Resized d (PGROUNDUP oldsz) (PGROUNDUP newsz) M M' ∨
        r = 0 ∧ Resized d (PGROUNDUP oldsz) (PGROUNDUP oldsz) M M') := by
  have hround : PGROUNDUP oldsz ≤ PGROUNDUP newsz := by
    rw [PGROUNDUP, PGROUNDUP, PGSIZE, UINT, KERNBASE] at *
    omega
  obtain ⟨r, M', hrun, hown, hgot, hlost⟩ := allocuvmFrom_spec hm hnew hsz (newsz + 1)
    (PGROUNDUP oldsz) M h (Vm.PGROUNDUP_mod oldsz) le_rfl hround (by omega) hpresent
  refine ⟨if r = true then newsz else 0, M', ?_, hown, ?_⟩
  · rw [allocuvm, if_neg (by omega), if_neg (by omega), hrun]
    rfl
  · cases r with
    | true => exact .inl ⟨rfl, hgot rfl⟩
    | false => exact .inr ⟨rfl, hlost rfl⟩

/-- **All or nothing.**  `allocuvm` returns.  It gives the size asked for, with the pages up
    to it, the new ones full of zeros; or it returns 0, the user pages are those from before,
    and the free list has every page back that has not become a page table, each once. -/
theorem allocuvm_allOrNothing {oldsz newsz : Nat} (hd : Clean m M d) (hsz : oldsz ≤ newsz)
    (hnew : newsz < KERNBASE) (hpresent : Exactly M d (PGROUNDUP oldsz)) :
    ∃ r M', allocuvm m d oldsz newsz M = .ok (r, M') ∧
      (r = newsz ∧ Resized d (PGROUNDUP oldsz) (PGROUNDUP newsz) M M' ∨
        r = 0 ∧ Resized d (PGROUNDUP oldsz) (PGROUNDUP oldsz) M M' ∧ M'.free.Nodup ∧
          (M'.free : Multiset Nat) + tables M' d = M.free + tables M d) := by
  obtain ⟨r, M', hrun, hown, hcases⟩ := allocuvm_spec hd.range hd.own hsz hnew hpresent
  refine ⟨r, M', hrun, hcases.imp id (fun ⟨hr, hsame⟩ => ⟨hr, hsame, ?_, ?_⟩)⟩
  · exact free_nodup hown
  · exact hsame.free_tables hpresent hd.own hown

/-- Pages 1 to 9 and no kernel part. -/
def nine : Machine := ⟨[], 1, 10, 0, fun _ hk => absurd hk List.not_mem_nil⟩

/-- An empty directory in page 1, and two free pages. -/
def twoFree : Memory := ⟨fun _ _ => .zero, [2, 3]⟩

lemma twoFree_clean : Clean nine twoFree 1 := by
  have howned : owned (phys twoFree).page 1 = {1} := Vm.owned_zero (by
    funext i
    exact entry_zero)
  constructor
  · rw [howned]
    decide
  · rw [howned]
    unfold Managed
    decide

lemma twoFree_exactly : Exactly twoFree 1 (PGROUNDUP 0) := fun va _ => by
  rw [pteAt_noTable (show Word.zero.present = false by decide)]
  exact iff_of_false (by decide) (Nat.not_lt_zero va)

theorem allocuvm_twoFree : ∃ r M', allocuvm nine 1 0 1 twoFree = .ok (r, M') ∧
    (r = 1 ∧ Resized 1 (PGROUNDUP 0) (PGROUNDUP 1) twoFree M' ∨
      r = 0 ∧ Resized 1 (PGROUNDUP 0) (PGROUNDUP 0) twoFree M' ∧ M'.free.Nodup ∧
        (M'.free : Multiset Nat) + tables M' 1 = twoFree.free + tables twoFree 1) :=
  allocuvm_allOrNothing twoFree_clean (by decide) (by decide) twoFree_exactly

/-! ## growproc -/

/-- What `growproc(n)` is to do: the size is `sz + n` and so are the pages, or nothing has
    happened. -/
def Grows (n : Int) (p : Proc) (M : Memory) (r : Int) (p' : Proc) (M' : Memory) : Prop :=
  r = 0 ∧ (p'.sz : Int) = p.sz + n ∧ p'.sz ≤ KERNBASE ∧ p'.pgdir = p.pgdir ∧
      Resized p.pgdir (min (PGROUNDUP p.sz) (PGROUNDUP p'.sz)) (PGROUNDUP p'.sz) M M' ∨
    r = -1 ∧ p' = p ∧ Resized p.pgdir (PGROUNDUP p.sz) (PGROUNDUP p.sz) M M'

lemma PGROUNDUP_mono {b : Nat} (hle : a ≤ b) (hb : b ≤ KERNBASE) : PGROUNDUP a ≤ PGROUNDUP b := by
  rw [PGROUNDUP, PGROUNDUP, PGSIZE, UINT, KERNBASE] at *
  omega

section Growproc

variable {n : Int} {p : Proc}

/-- A positive `n`. -/
lemma growproc_up (hd : Clean m M p.pgdir) (hsz : p.sz < KERNBASE)
    (hpresent : Exactly M p.pgdir (PGROUNDUP p.sz)) (hn : 0 < n) (hint : n < 2 ^ 31) :
    ∃ r p' M', growproc m n p M = .ok (r, p', M') ∧ Grows n p M r p' M' := by
  have hnewsz : (((p.sz + n) % UINT).toNat : Int) = p.sz + n := by
    rw [KERNBASE] at hsz
    rw [UINT]
    omega
  rw [growproc, if_pos hn]
  generalize ((p.sz + n) % UINT).toNat = newsz at hnewsz
  by_cases hbig : KERNBASE ≤ newsz
  · refine ⟨-1, p, M, ?_, .inr ⟨rfl, rfl, Resized.refl hpresent⟩⟩
    rw [allocuvm, if_pos hbig]
    rfl
  have hle : p.sz ≤ newsz := by omega
  obtain ⟨r, M', hrun, -, hcases⟩ := allocuvm_spec hd.range hd.own hle (by omega) hpresent
  rw [hrun]
  rcases hcases with ⟨rfl, hgrown⟩ | ⟨rfl, hsame⟩
  · refine ⟨0, { p with sz := r }, M', if_neg (by omega),
      .inl ⟨rfl, hnewsz, show r ≤ KERNBASE by omega, rfl, ?_⟩⟩
    rwa [Nat.min_eq_left (PGROUNDUP_mono hle (by omega))]
  · exact ⟨-1, p, M', rfl, .inr ⟨rfl, rfl, hsame⟩⟩

lemma growproc_down (hd : Clean m M p.pgdir) (hsz : p.sz < KERNBASE)
    (hpresent : Exactly M p.pgdir (PGROUNDUP p.sz)) (hn : n < 0) (hpos : 0 < p.sz + n) :
    ∃ r p' M', growproc m n p M = .ok (r, p', M') ∧ Grows n p M r p' M' := by
  have hnewsz : (((p.sz + n) % UINT).toNat : Int) = p.sz + n := by
    rw [KERNBASE] at hsz
    rw [UINT]
    omega
  rw [growproc, if_neg (by omega), if_pos hn]
  generalize ((p.sz + n) % UINT).toNat = newsz at hnewsz
  have hlt : newsz < p.sz := by omega
  obtain ⟨M', hrun, hcleared⟩ := deallocuvm_spec hd.range hd.own hsz.le hlt
  have hmono := PGROUNDUP_mono hlt.le hsz.le
  rw [hrun]
  refine ⟨0, { p with sz := newsz }, M', if_neg (by omega),
    .inl ⟨rfl, hnewsz, show newsz ≤ KERNBASE by omega, rfl, ?_⟩⟩
  rw [Nat.min_eq_right hmono]
  exact hcleared.resized hpresent hmono le_rfl

lemma growproc_toZero (hd : Clean m M p.pgdir) (hsz : p.sz < KERNBASE) (hpos : 0 < p.sz)
    (hn : p.sz + n = 0) : ∃ M', growproc m n p M = .ok (-1, p, M') ∧
      (pteAt M' p.pgdir 0).present = false := by
  obtain ⟨M', hrun, hcleared⟩ := deallocuvm_spec hd.range hd.own hsz.le hpos
  refine ⟨M', ?_, hcleared.gone 0 (by decide) le_rfl ?_⟩
  · rw [growproc, if_neg (by omega), if_pos (by omega), hn]
    show (deallocuvm m p.pgdir p.sz 0 M >>= _) = _
    rw [hrun]
    rfl
  · rw [PGROUNDUP, PGSIZE, UINT, KERNBASE] at *
    omega

/-- Below zero: `sz + n` wraps to a number that is not smaller, and nothing is freed. -/
lemma growproc_belowZero (hsz : p.sz < KERNBASE) (hint : -2 ^ 31 ≤ n) (hn : p.sz + n < 0) :
    growproc m n p M = .ok (if p.sz = 0 then -1 else 0, p, M) := by
  have hle : p.sz ≤ ((p.sz + n) % UINT).toNat := by
    rw [KERNBASE] at hsz
    rw [UINT]
    omega
  rw [growproc, if_neg (by omega), if_pos (by omega), deallocuvm, if_pos hle, ok_bind]
  dsimp only
  by_cases hzero : p.sz = 0
  · rw [if_pos hzero, if_pos hzero]
  · rw [if_neg hzero, if_neg hzero]

/-- **`growproc` does what it says, or nothing, exactly when** the size does not go from a
    positive one to zero or below. -/
theorem growproc_right_iff (hd : Clean m M p.pgdir) (hsz : p.sz < KERNBASE)
    (hpresent : Exactly M p.pgdir (PGROUNDUP p.sz)) (hint : -2 ^ 31 ≤ n ∧ n < 2 ^ 31) :
    (∃ r p' M', growproc m n p M = .ok (r, p', M') ∧ Grows n p M r p' M') ↔
      0 ≤ n ∨ 0 < p.sz + n ∨ p.sz = 0 := by
  constructor
  · rintro ⟨r, p', M', hrun, hgrows⟩
    by_contra hnot
    by_cases hzero : p.sz + n = 0
    · obtain ⟨M₁, hrun₁, hgone⟩ := growproc_toZero hd hsz (by omega) hzero
      obtain ⟨rfl, rfl, rfl⟩ := ok_triple_inj (hrun₁.symm.trans hrun)
      rcases hgrows with ⟨hr, -⟩ | ⟨-, -, hsame⟩
      · exact absurd hr (by decide)
      have hp := (hsame.exactly 0 (by decide)).mpr (by
        rw [PGROUNDUP, PGSIZE, UINT, KERNBASE] at *
        omega)
      rw [hgone] at hp
      exact absurd hp (by decide)
    · rw [growproc_belowZero hsz hint.1 (by omega), if_neg (by omega)] at hrun
      obtain ⟨rfl, rfl, rfl⟩ := ok_triple_inj hrun
      rcases hgrows with ⟨-, hsize, -⟩ | ⟨hr, -⟩
      · omega
      · exact absurd hr (by decide)
  · intro hcond
    by_cases hup : 0 < n
    · exact growproc_up hd hsz hpresent hup hint.2
    by_cases hdown : n < 0
    · by_cases hpos : 0 < p.sz + n
      · exact growproc_down hd hsz hpresent hdown hpos
      · refine ⟨-1, p, M, ?_, .inr ⟨rfl, rfl, Resized.refl hpresent⟩⟩
        rw [growproc_belowZero hsz hint.1 (by omega), if_pos (by omega)]
    refine ⟨0, p, M, ?_, .inl ⟨rfl, by omega, Nat.le_of_lt hsz, rfl, ?_⟩⟩
    · rw [growproc, if_neg hup, if_neg hdown]
    · rw [Nat.min_self]
      exact Resized.refl hpresent

theorem growproc_right_iff_twoFree : (∃ r p' M', growproc nine 1 ⟨0, 1⟩ twoFree = .ok (r, p', M') ∧
      Grows 1 ⟨0, 1⟩ twoFree r p' M') ↔ (0 : Int) ≤ 1 ∨ (0 : Int) < (0 : Nat) + 1 ∨ 0 = 0 :=
  growproc_right_iff (p := ⟨0, 1⟩) twoFree_clean (by decide) twoFree_exactly (by decide)

/-- A process of one byte: the directory in page 1, its page table in page 2, its page 3. -/
def onePage (free : List Nat) : Memory :=
  setWord 2 0 ⟨3, 7#12⟩ (setWord 1 0 ⟨2, 7#12⟩ ⟨fun _ _ => .zero, free⟩)

/-- With one byte, `growproc(-1)` answers -1 after freeing the page, and `growproc(-2)`
    answers 0 with the size unchanged. -/
theorem growproc_shrinks_wrong : (pteAt (onePage []) 1 0).present = true ∧
      (growproc nine (-1) ⟨1, 1⟩ (onePage [])).map
          (fun r => (r.1, r.2.1, (pteAt r.2.2 1 0).present, r.2.2.free))
        = .ok (-1, ⟨1, 1⟩, false, [3]) ∧ (growproc nine (-2) ⟨1, 1⟩ (onePage [])).map
          (fun r => (r.1, r.2.1, (pteAt r.2.2 1 0).present, r.2.2.free))
        = .ok (0, ⟨1, 1⟩, true, []) := by
  refine ⟨by decide, by decide +kernel, by decide +kernel⟩

end Growproc

/-! ## Shrinking, page by page -/

/-- **Main result.** `deallocuvm` does what the loop over every page of the range does.  It
    returns, the present pages of the range go to the free list, each once, their entries are
    cleared, and no other entry of a page table or of the directory changes. -/
theorem deallocuvm_plain (hd : Clean m M d) {oldsz newsz : Nat} (hold : oldsz ≤ KERNBASE)
    (hnew : newsz ≤ KERNBASE) : deallocuvm m d oldsz newsz M = plainDealloc m d oldsz newsz M ∧
    ∃ M', deallocuvm m d oldsz newsz M = .ok (if newsz < oldsz then newsz else oldsz, M') ∧
      M'.free = (((pagesOf (PGROUNDUP newsz) oldsz).filter (fun a => (pteAt M d a).present)).map
        (fun a => (pteAt M d a).addr)).reverse ++ M.free ∧ M'.free.Nodup ∧ M'.word d = M.word d ∧
      ∀ va < UINT, pteAt M' d va =
        if (PGROUNDUP newsz ≤ va ∧ va < PGROUNDUP oldsz) ∧ (pteAt M d va).present = true
        then .zero else pteAt M d va := by
  obtain ⟨hn, hl, hcover⟩ := pagesOf_spec (Vm.PGROUNDUP_mod newsz) hold
  obtain ⟨M', hrun, hv⟩ := visitAll_spec hd.range _ M hd.own hn hl
  refine ⟨deallocuvm_eq hold, M', ?_, hv.free, free_nodup hv.own, hv.dir, fun va hva => ?_⟩
  · rw [deallocuvm_eq hold, plainDealloc]
    by_cases hlt : newsz < oldsz
    · rw [if_neg (by omega), if_pos hlt, hrun, ok_bind]
    have hround : oldsz ≤ PGROUNDUP newsz := by
      rw [PGROUNDUP, PGSIZE, UINT, KERNBASE] at *
      omega
    rw [pagesOf_nil hround] at hrun
    rw [if_pos (by omega), if_neg hlt, Except.ok.inj hrun]
  · rw [hv.entry va hva]
    simp only [hcover]

lemma onePage_own : OwnDir {1, 2, 3, 4} 0 1 (onePage [4]) := by
  have hzero : Word.entry .zero = .zero := entry_zero
  have h₁ : Own {1, 2, 3, 4} (1 ::ₘ 0) (2 ::ₘ 3 ::ₘ 0) (phys ⟨fun _ _ => .zero, [4]⟩) := by
    refine OwnDir.of_sum (by decide) ?_
    rw [Vm.owned_zero (funext fun _ => hzero)]
    decide
  have h₂ : OwnDir {1, 2, 3, 4} (3 ::ₘ 0) 1 (setWord 1 0 ⟨2, 7#12⟩ ⟨fun _ _ => .zero, [4]⟩) := by
    rw [OwnDir, phys_setWord, show (7#12) = PTE_P ||| PTE_W ||| PTE_U by decide, entry_table]
    exact h₁.newTable (by decide) (by decide) (funext fun _ => hzero)
  show OwnDir _ 0 1 (setWord ((setWord 1 0 ⟨2, 7#12⟩ ⟨fun _ _ => .zero, [4]⟩).word 1 (PDX 0)).addr
    (PTX 0) ⟨3, 7#12⟩ _)
  refine h₂.setPte (by decide) ?_
  rw [show pteAt (setWord 1 0 ⟨2, 7#12⟩ ⟨fun _ _ => .zero, [4]⟩) 1 0 = .zero by decide]
  decide

/-- The page of `onePage` goes to the free list. -/
theorem deallocuvm_onePage : ∃ M', deallocuvm nine 1 1 0 (onePage [4]) = .ok (0, M') ∧
    M'.free = [3, 4] ∧ pteAt M' 1 0 = .zero := by
  have hsum := onePage_own.sum
  rw [add_zero] at hsum
  have hclean : Clean nine (onePage [4]) 1 := by
    refine ⟨?_, ?_⟩ <;> rw [hsum]
    · decide
    · unfold Managed
      decide
  have hold : 1 ≤ KERNBASE := by decide
  obtain ⟨-, M', hrun, hfree, -, -, hentry⟩ := deallocuvm_plain hclean hold (Nat.zero_le _)
  exact ⟨M', hrun, hfree.trans (by decide), (hentry 0 (by decide)).trans (by decide)⟩

end UserMemory
