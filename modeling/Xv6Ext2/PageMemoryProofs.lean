import Xv6Ext2.VmProofs

/-! # The pages with their contents

    `vm.c` over pages that hold words: what `memset` and `memmove` put into a user page, and
    all twelve flag bits of an entry.  A word is kept as the two parts that `PTE_ADDR` and
    `PTE_FLAGS` take of it; a page is known by its physical page number.  The free list is
    kept apart from the pages that are on it.

    * `phys` — the memory as the page tables of `Vm` see it: each word read as an entry.
    * `kfree_phys`, `walkpgdir_phys`, `deallocuvm_phys`, `freevm_phys` — the functions here
      do to the page tables what those of `Vm` do.
    * `pteAt M d va` — the entry that the directory `d` has for the address `va`.
    * `walkpgdir_spec`, `mappages_spec` — what a new mapping does to the entries of the
      directory and to the contents of the pages. -/

namespace PageMemory

open Outcome Param

open Multiset (map_cons map_zero mem_add mem_cons_self nodup_add sum_cons sum_zero)

open Function (update update_of_ne update_self)

open BufCache (Err)

open Vm (Entry Kmap Machine Own Phys DEVSPACE NPDENTRIES NPTENTRIES PDX PTX PGROUNDUP PGROUNDDOWN
  PDX_lt PTX_lt PDX_user PGROUNDDOWN_page mapped owned userPages)

/-! ## Words and pages -/

/-- A 32-bit word: its page number and its low twelve bits. -/
structure Word where
  addr  : Nat
  flags : BitVec 12
  deriving DecidableEq, Repr

def PTE_P : BitVec 12 := 0x001#12
def PTE_W : BitVec 12 := 0x002#12
def PTE_U : BitVec 12 := 0x004#12

def Word.zero : Word := ⟨0, 0#12⟩

/-- `0x01010101`, from `memset(v, 1, PGSIZE)`. -/
def Word.junk : Word := ⟨0x01010, 0x101#12⟩

/-- The bit `PTE_P`. -/
def Word.present (x : Word) : Bool := x.flags.getLsbD 0

/-- The words of the pages, and the free list. -/
structure Memory where
  word : Nat → Nat → Word
  free : List Nat

/-- The page `v` gets the words of `row`. -/
def fill (v : Nat) (row : Nat → Word) (M : Memory) : Memory :=
  { M with word := update M.word v row }

def memset (v : Nat) (x : Word) (M : Memory) : Memory := fill v (fun _ => x) M

def memmove (v src : Nat) (M : Memory) : Memory := fill v (M.word src) M

def setWord (t j : Nat) (x : Word) (M : Memory) : Memory :=
  { M with word := update M.word t (update (M.word t) j x) }

def kalloc (M : Memory) : Option Nat × Memory :=
  match M.free with
  | [] => (none, M)
  | r :: next => (some r, { M with free := next })

variable (m : Machine)

def kfree (v : Nat) (M : Memory) : Except Err Memory :=
  if v < m.first ∨ m.top ≤ v then .error (.panic "kfree")
  else
    let M := memset v .junk M
    .ok { M with free := v :: M.free }

/-! ## Page tables -/

/-- The PTE for the address `va`: its page table and its index there. -/
def walkpgdir (pgdir va : Nat) (alloc : Bool) (M : Memory) : Option (Nat × Nat) × Memory :=
  let pde := M.word pgdir (PDX va)
  if pde.present = true then (some (pde.addr, PTX va), M)
  else if alloc = false then (none, M)
  else
    match kalloc M with
    | (none, M) => (none, M)
    | (some pgtab, M) =>
      (some (pgtab, PTX va),
        setWord pgdir (PDX va) ⟨pgtab, PTE_P ||| PTE_W ||| PTE_U⟩ (memset pgtab .zero M))

/-- The loop of `mappages`; `pa` is a page. -/
def mappagesFrom (pgdir last : Nat) (perm : BitVec 12) :
    Nat → Nat → Nat → Memory → Except Err (Bool × Memory)
  | 0, _, _, _ => .error .hang
  | fuel + 1, a, pa, M =>
    match walkpgdir pgdir a true M with
    | (none, M) => .ok (false, M)
    | (some (t, j), M) =>
      if (M.word t j).present = true then .error (.panic "remap")
      else
        let M := setWord t j ⟨pa, perm ||| PTE_P⟩ M
        if a = last then .ok (true, M)
        else mappagesFrom pgdir last perm fuel ((a + PGSIZE) % UINT) (pa + 1) M

/-- Create PTEs for the addresses from `va` on; `false` is the answer -1. -/
def mappages (pgdir va size pa : Nat) (perm : BitVec 12) (M : Memory) :
    Except Err (Bool × Memory) :=
  mappagesFrom pgdir (PGROUNDDOWN ((va + size + (UINT - 1)) % UINT)) perm (UINT / PGSIZE)
    (PGROUNDDOWN va) pa M

def deallocuvmFrom (pgdir oldsz : Nat) : Nat → Nat → Memory → Except Err Memory
  | 0, _, _ => .error .hang
  | fuel + 1, a, M =>
    if a < oldsz then
      match walkpgdir pgdir a false M with
      | (none, M) =>
        -- `a = PGADDR(PDX(a) + 1, 0, 0) - PGSIZE`, and the step of the loop
        deallocuvmFrom pgdir oldsz fuel
          ((((PDX a + 1) * 0x400000 + (UINT - PGSIZE)) % UINT + PGSIZE) % UINT) M
      | (some (t, j), M) =>
        if (M.word t j).present = true then
          if (M.word t j).addr = 0 then .error (.panic "kfree")
          else do
            let M ← kfree m (M.word t j).addr M
            deallocuvmFrom pgdir oldsz fuel ((a + PGSIZE) % UINT) (setWord t j .zero M)
        else deallocuvmFrom pgdir oldsz fuel ((a + PGSIZE) % UINT) M
    else .ok M

/-- Deallocate user pages to bring the process size from `oldsz` to `newsz`. -/
def deallocuvm (pgdir oldsz newsz : Nat) (M : Memory) : Except Err (Nat × Memory) :=
  if oldsz ≤ newsz then .ok (oldsz, M)
  else do
    let M ← deallocuvmFrom m pgdir oldsz (oldsz + 1) (PGROUNDUP newsz) M
    .ok (newsz, M)

/-- The page tables of `pgdir` from entry `i` on. -/
def freeTables (pgdir : Nat) : Nat → Nat → Memory → Except Err Memory
  | 0, _, M => .ok M
  | n + 1, i, M =>
    if (M.word pgdir i).present = true then do
      let M ← kfree m (M.word pgdir i).addr M
      freeTables pgdir n (i + 1) M
    else freeTables pgdir n (i + 1) M

/-- Free a page table and all the physical memory pages in the user part. -/
def freevm (pgdir : Nat) (M : Memory) : Except Err Memory := do
  let (_, M) ← deallocuvm m pgdir KERNBASE 0 M
  let M ← freeTables m pgdir NPDENTRIES 0 M
  kfree m pgdir M

/-- The loop of `setupkvm`; `false` when `mappages` fails. -/
def mapKernel (pgdir : Nat) : List Kmap → Memory → Except Err (Bool × Memory)
  | [], M => .ok (true, M)
  | k :: ks, M => do
      let (r, M) ← mappages pgdir k.virt k.size (k.physStart / PGSIZE)
        (if k.w = true then PTE_W else 0#12) M
      if r = true then mapKernel pgdir ks M else .ok (false, M)

/-- Set up kernel part of a page table. -/
def setupkvm (M : Memory) : Except Err (Option Nat × Memory) :=
  match kalloc M with
  | (none, M) => .ok (none, M)
  | (some pgdir, M) =>
    if DEVSPACE < KERNBASE + m.top * PGSIZE then .error (.panic "PHYSTOP too high")
    else do
      let (r, M) ← mapKernel pgdir m.kmap (memset pgdir .zero M)
      if r = true then .ok (some pgdir, M)
      else do
        let M ← freevm m pgdir M
        .ok (none, M)

/-- The loop of `allocuvm`; `false` is a failure, after its cleanup. -/
def allocuvmFrom (pgdir oldsz newsz : Nat) : Nat → Nat → Memory → Except Err (Bool × Memory)
  | 0, _, _ => .error .hang
  | fuel + 1, a, M =>
    if a < newsz then
      match kalloc M with
      | (none, M) => do
          let (_, M) ← deallocuvm m pgdir newsz oldsz M
          .ok (false, M)
      | (some mem, M) => do
          let (r, M) ← mappages pgdir a PGSIZE mem (PTE_W ||| PTE_U) (memset mem .zero M)
          if r = true then allocuvmFrom pgdir oldsz newsz fuel ((a + PGSIZE) % UINT) M
          else do
            let (_, M) ← deallocuvm m pgdir newsz oldsz M
            let M ← kfree m mem M
            .ok (false, M)
    else .ok (true, M)

/-- Grow process from `oldsz` to `newsz`; the answer is the new size, or 0 on error. -/
def allocuvm (pgdir oldsz newsz : Nat) (M : Memory) : Except Err (Nat × Memory) :=
  if KERNBASE ≤ newsz then .ok (0, M)
  else if newsz < oldsz then .ok (oldsz, M)
  else do
    let (r, M) ← allocuvmFrom m pgdir oldsz newsz (newsz + 1) (PGROUNDUP oldsz) M
    .ok (if r = true then newsz else 0, M)

/-- The loop of `copyuvm`, without what it does at `bad`. -/
def copyuvmFrom (pgdir d sz : Nat) : Nat → Nat → Memory → Except Err (Bool × Memory)
  | 0, _, _ => .error .hang
  | fuel + 1, i, M =>
    if i < sz then
      match walkpgdir pgdir i false M with
      | (none, _) => .error (.panic "copyuvm: pte should exist")
      | (some (t, j), M) =>
        let pte := M.word t j
        if pte.present = false then .error (.panic "copyuvm: page not present")
        else
          match kalloc M with
          | (none, M) => .ok (false, M)
          | (some mem, M) => do
              let (r, M) ← mappages d i PGSIZE mem pte.flags (memmove mem pte.addr M)
              if r = true then copyuvmFrom pgdir d sz fuel ((i + PGSIZE) % UINT) M
              else do
                let M ← kfree m mem M
                .ok (false, M)
    else .ok (true, M)

/-- Given a parent process's page table, create a copy of it for a child. -/
def copyuvm (pgdir sz : Nat) (M : Memory) : Except Err (Option Nat × Memory) := do
  match ← setupkvm m M with
  | (none, M) => .ok (none, M)
  | (some d, M) => do
      let (r, M) ← copyuvmFrom m pgdir d sz (sz + 1) 0 M
      if r = true then .ok (some d, M)
      else do
        let M ← freevm m d M
        .ok (none, M)

/-- What `growproc` uses of `struct proc`. -/
structure Proc where
  sz    : Nat
  pgdir : Nat
  deriving DecidableEq, Repr

/-- Grow current process's memory by `n` bytes.  Return 0 on success, -1 on failure. -/
def growproc (n : Int) (p : Proc) (M : Memory) : Except Err (Int × Proc × Memory) :=
  let newsz := ((p.sz + n) % UINT).toNat
  if 0 < n then do
    let (sz, M) ← allocuvm m p.pgdir p.sz newsz M
    if sz = 0 then .ok (-1, p, M) else .ok (0, { p with sz := sz }, M)
  else if n < 0 then do
    let (sz, M) ← deallocuvm m p.pgdir p.sz newsz M
    if sz = 0 then .ok (-1, p, M) else .ok (0, { p with sz := sz }, M)
  else .ok (0, p, M)

/-! ## The page tables of `Vm` -/

/-- A word read as an entry of a page directory or a page table. -/
def Word.entry (x : Word) : Entry := ⟨x.present, x.flags.getLsbD 1, x.flags.getLsbD 2, x.addr⟩

/-- The memory as the page tables see it. -/
def phys (M : Memory) : Phys := ⟨fun v i => (M.word v i).entry, M.free⟩

section Phys

lemma entry_zero : Word.zero.entry = .zero := by decide

lemma entry_junk : Word.junk.entry = .junk := by decide

/-- The entry that `walkpgdir` makes. -/
lemma entry_table (r : Nat) : Word.entry ⟨r, PTE_P ||| PTE_W ||| PTE_U⟩ =
    ⟨true, true, true, r⟩ := by
  have hbits : (PTE_P ||| PTE_W ||| PTE_U).getLsbD 0 = true ∧
      (PTE_P ||| PTE_W ||| PTE_U).getLsbD 1 = true ∧
      (PTE_P ||| PTE_W ||| PTE_U).getLsbD 2 = true := by decide
  rw [Word.entry, Word.present, hbits.1, hbits.2.1, hbits.2.2]

lemma phys_memset (v : Nat) (x : Word) (M : Memory) :
    phys (memset v x M) = Vm.memset v x.entry (phys M) := by
  unfold phys memset fill Vm.memset
  congr 1
  funext u
  by_cases h : u = v
  · subst h
    simp only [update_self]
  · simp only [update_of_ne h]

lemma phys_setWord (t j : Nat) (x : Word) (M : Memory) :
    phys (setWord t j x M) = Vm.setEntry t j x.entry (phys M) := by
  unfold phys setWord Vm.setEntry
  congr 1
  funext u i
  by_cases h : u = t
  · subst h
    by_cases hi : i = j
    · subst hi
      simp only [update_self]
    · simp only [update_self, update_of_ne hi]
  · simp only [update_of_ne h]

lemma kalloc_phys (M : Memory) : Vm.kalloc (phys M) = ((kalloc M).1, phys (kalloc M).2) := by
  unfold Vm.kalloc kalloc
  show (match M.free with | [] => _ | r :: next => _) = _
  cases M.free with
  | nil => rfl
  | cons r next => rfl

lemma kfree_phys (v : Nat) (M : Memory) : Vm.kfree m v (phys M) = (kfree m v M).map phys := by
  rw [Vm.kfree, kfree]
  by_cases hv : v < m.first ∨ m.top ≤ v
  · rw [if_pos hv, if_pos hv]
    rfl
  rw [if_neg hv, if_neg hv]
  show Except.ok _ = Except.ok (phys _)
  have h := phys_memset v .junk M
  rw [entry_junk] at h
  exact congrArg (fun P : Phys => Except.ok { P with free := v :: M.free }) h.symm

lemma walkpgdir_phys (pgdir va : Nat) (alloc : Bool) (M : Memory) :
    Vm.walkpgdir pgdir va alloc (phys M)
      = ((walkpgdir pgdir va alloc M).1, phys (walkpgdir pgdir va alloc M).2) := by
  rw [Vm.walkpgdir, walkpgdir]
  by_cases hp : (M.word pgdir (PDX va)).present = true
  · rw [if_pos hp, if_pos (show ((phys M).page pgdir (PDX va)).p = true from hp)]
    rfl
  rw [if_neg hp, if_neg (show ¬((phys M).page pgdir (PDX va)).p = true from hp)]
  by_cases ha : alloc = false
  · rw [if_pos ha, if_pos ha]
  rw [if_neg ha, if_neg ha, kalloc_phys]
  rcases kalloc M with ⟨r, M₁⟩
  cases r with
  | none => rfl
  | some r =>
    show (some _, _) = (some _, phys _)
    rw [phys_setWord, phys_memset, entry_zero, entry_table]

lemma deallocuvmFrom_phys (pgdir oldsz : Nat) : ∀ (fuel a : Nat) (M : Memory),
    Vm.deallocuvmFrom m pgdir oldsz fuel a (phys M)
      = (deallocuvmFrom m pgdir oldsz fuel a M).map phys := by
  intro fuel
  induction fuel with
  | zero => exact fun _ _ => rfl
  | succ fuel ih =>
    intro a M
    rw [Vm.deallocuvmFrom, deallocuvmFrom, walkpgdir_phys]
    by_cases hlt : a < oldsz
    · rw [if_pos hlt, if_pos hlt]
      rcases walkpgdir pgdir a false M with ⟨r, M₁⟩
      rcases r with _ | ⟨t, j⟩
      · exact ih _ M₁
      dsimp only
      by_cases hp : (M₁.word t j).present = true
      · rw [if_pos hp, if_pos (show ((phys M₁).page t j).p = true from hp)]
        by_cases hz : (M₁.word t j).addr = 0
        · rw [if_pos hz, if_pos (show ((phys M₁).page t j).addr = 0 from hz)]
          rfl
        rw [if_neg hz, if_neg (show ¬((phys M₁).page t j).addr = 0 from hz)]
        rw [show ((phys M₁).page t j).addr = (M₁.word t j).addr from rfl, kfree_phys]
        cases kfree m (M₁.word t j).addr M₁ with
        | error e => rfl
        | ok M₂ =>
          show Vm.deallocuvmFrom m pgdir oldsz fuel _ (Vm.setEntry t j .zero (phys M₂))
            = (deallocuvmFrom m pgdir oldsz fuel _ (setWord t j .zero M₂)).map phys
          rw [← ih, phys_setWord, entry_zero]
      · rw [if_neg hp, if_neg (show ¬((phys M₁).page t j).p = true from hp)]
        exact ih _ M₁
    · rw [if_neg hlt, if_neg hlt]
      rfl

lemma freeTables_phys (pgdir : Nat) : ∀ (n i : Nat) (M : Memory),
    Vm.freeTables m pgdir n i (phys M) = (freeTables m pgdir n i M).map phys := by
  intro n
  induction n with
  | zero => exact fun _ _ => rfl
  | succ n ih =>
    intro i M
    rw [Vm.freeTables, freeTables]
    by_cases hp : (M.word pgdir i).present = true
    · rw [if_pos hp, if_pos (show ((phys M).page pgdir i).p = true from hp)]
      rw [show ((phys M).page pgdir i).addr = (M.word pgdir i).addr from rfl, kfree_phys]
      cases kfree m (M.word pgdir i).addr M with
      | error e => rfl
      | ok M₁ => exact ih _ M₁
    · rw [if_neg hp, if_neg (show ¬((phys M).page pgdir i).p = true from hp)]
      exact ih _ M

lemma freevm_phys (pgdir : Nat) (M : Memory) :
    Vm.freevm m pgdir (phys M) = (freevm m pgdir M).map phys := by
  unfold Vm.freevm freevm Vm.deallocuvm deallocuvm
  rw [if_neg (by decide), if_neg (by decide), deallocuvmFrom_phys]
  cases deallocuvmFrom m pgdir KERNBASE (KERNBASE + 1) (PGROUNDUP 0) M with
  | error e => rfl
  | ok M₁ =>
    show (Vm.freeTables m pgdir NPDENTRIES 0 (phys M₁) >>= _)
      = (freeTables m pgdir NPDENTRIES 0 M₁ >>= _).map phys
    rw [freeTables_phys]
    cases freeTables m pgdir NPDENTRIES 0 M₁ with
    | error e => rfl
    | ok M₂ => exact kfree_phys m pgdir M₂

end Phys

/-! ## The entries of a directory -/

/-- The entry of the directory `d` for the address `va`, 0 where it has no page table. -/
def pteAt (M : Memory) (d va : Nat) : Word :=
  if (M.word d (PDX va)).present = true then M.word (M.word d (PDX va)).addr (PTX va) else .zero

/-- The free pages, the directory and its page tables: what a new mapping may write. -/
def Inner (M : Memory) (d v : Nat) : Prop :=
  v ∈ M.free ∨ v = d ∨ v ∈ Vm.present NPDENTRIES ((phys M).page d)

/-- The pages of `pages` are the free ones, those in `held` and those of the directory `d`. -/
abbrev OwnDir (pages held : Multiset Nat) (d : Nat) (M : Memory) : Prop :=
  Own pages (d ::ₘ 0) held (phys M)

section Entries

variable {pages held : Multiset Nat} {M M' : Memory} {d v va va' : Nat} {x : Word}

lemma setWord_self (t j : Nat) (x : Word) (M : Memory) : (setWord t j x M).word t j = x := by
  show update M.word t (update (M.word t) j x) t j = x
  rw [update_self, update_self]

lemma setWord_other {t : Nat} (hv : v ≠ t) (j : Nat) (x : Word) (M : Memory) :
    (setWord t j x M).word v = M.word v := update_of_ne hv ..

lemma setWord_row {t i j : Nat} (hi : i ≠ j) : (setWord t j x M).word t i = M.word t i := by
  show update M.word t (update (M.word t) j x) t i = _
  rw [update_self, update_of_ne hi]

lemma fill_self (v : Nat) (row : Nat → Word) (M : Memory) : (fill v row M).word v = row :=
  update_self ..

lemma fill_other {t : Nat} (hv : v ≠ t) (row : Nat → Word) (M : Memory) :
    (fill t row M).word v = M.word v := update_of_ne hv ..

lemma pteAt_of_table (hp : (M.word d (PDX va)).present = true) :
    pteAt M d va = M.word (M.word d (PDX va)).addr (PTX va) := if_pos hp

lemma pteAt_noTable (hp : (M.word d (PDX va)).present = false) : pteAt M d va = .zero :=
  if_neg (by rw [hp]; decide)

/-- An entry that is present is in a page table. -/
lemma table_of_present (hp : (pteAt M d va).present = true) :
    (M.word d (PDX va)).present = true := by
  by_contra hnone
  rw [pteAt_noTable (Bool.not_eq_true _ ▸ hnone)] at hp
  exact absurd hp (by decide)

lemma pteAt_congr (hd : M'.word d = M.word d) (ht : ∀ i < NPDENTRIES, (M.word d i).present = true →
      M'.word (M.word d i).addr = M.word (M.word d i).addr) (va : Nat) :
    pteAt M' d va = pteAt M d va := by
  unfold pteAt
  rw [hd]
  by_cases hp : (M.word d (PDX va)).present = true
  · rw [if_pos hp, if_pos hp, ht _ (PDX_lt va) hp]
  · rw [if_neg hp, if_neg hp]

lemma OwnDir.sum (h : OwnDir pages held d M) :
    (M.free : Multiset Nat) + held + owned (phys M).page d = pages := by
  have htotal := h.total
  rwa [map_cons, sum_cons, map_zero, sum_zero, add_zero] at htotal

lemma OwnDir.of_sum (hn : pages.Nodup)
    (h : (M.free : Multiset Nat) + held + owned (phys M).page d = pages) :
    OwnDir pages held d M := by
  refine ⟨hn, ?_⟩
  rwa [map_cons, sum_cons, map_zero, sum_zero, add_zero]

lemma OwnDir.owned_notMem (h : OwnDir pages held d M) (hv : v ∈ owned (phys M).page d) :
    v ∉ M.free ∧ v ∉ held := by
  have hn := h.nodup
  rw [← h.sum, nodup_add] at hn
  have hdisj := Multiset.disjoint_right.mp hn.2.2 hv
  exact ⟨fun hmem => hdisj (mem_add.mpr (.inl hmem)), fun hmem => hdisj (mem_add.mpr (.inr hmem))⟩

lemma OwnDir.owned_mem (h : OwnDir pages held d M) (hv : v ∈ owned (phys M).page d) :
    v ∈ pages := by
  rw [← h.sum]
  exact mem_add.mpr (.inr hv)

lemma OwnDir.free_mem (h : OwnDir pages held d M) (hv : v ∈ M.free) : v ∈ pages ∧ v ∉ held := by
  have hn := h.nodup
  rw [← h.sum] at hn ⊢
  rw [nodup_add, nodup_add] at hn
  exact ⟨mem_add.mpr (.inl (mem_add.mpr (.inl hv))), Multiset.disjoint_left.mp hn.1.2.2 hv⟩

lemma OwnDir.held_mem (h : OwnDir pages held d M) (hv : v ∈ held) : v ∈ pages := by
  rw [← h.sum]
  exact mem_add.mpr (.inl (mem_add.mpr (.inr hv)))

lemma OwnDir.notMem_rest (h : OwnDir pages (v ::ₘ held) d M) : v ∉ held := by
  have hn := h.nodup
  rw [← h.sum, nodup_add, nodup_add, Multiset.nodup_cons] at hn
  exact hn.1.2.1.1

lemma mem_owned_table {i : Nat} (hi : i < NPDENTRIES) (hp : (M.word d i).present = true) :
    (M.word d i).addr ∈ owned (phys M).page d := by
  have hp' : ((phys M).page d i).p = true := hp
  exact Vm.table_mem_owned hi hp'

lemma OwnDir.out_notInner (h : OwnDir pages held d M) (hv : v ∉ pages ∨ v ∈ held) :
    ¬Inner M d v := by
  intro hin
  rcases hin with hfree | howned
  · rcases hv with hv | hv
    · exact hv (h.free_mem hfree).1
    · exact (h.free_mem hfree).2 hv
  have hmem : v ∈ owned (phys M).page d := Vm.mem_owned.mpr (by tauto)
  rcases hv with hv | hv
  · exact hv (h.owned_mem hmem)
  · exact (h.owned_notMem hmem).2 hv

lemma user_mem (hva : va < KERNBASE) (hp : (pteAt M d va).present = true) :
    (pteAt M d va).addr ∈ userPages (phys M).page d := by
  have htable := table_of_present hp
  rw [pteAt_of_table htable] at hp ⊢
  have hlow := PDX_user hva
  have htable' : ((phys M).page d (PDX va)).p = true := htable
  exact Vm.mem_userPages hlow htable' (PTX_lt va) hp

lemma user_owned (hva : va < KERNBASE) (hp : (pteAt M d va).present = true) :
    (pteAt M d va).addr ∈ owned (phys M).page d := Vm.mem_owned.mpr (.inr (.inr (user_mem hva hp)))

lemma OwnDir.user_notInner (h : OwnDir pages held d M) (hva : va < KERNBASE)
    (hp : (pteAt M d va).present = true) : ¬Inner M d (pteAt M d va).addr := by
  have huser := Vm.user_ne h.nodup_dir (user_mem hva hp)
  rintro (hfree | hself | htable)
  · exact (h.owned_notMem (user_owned hva hp)).1 hfree
  · exact huser.1 hself
  · obtain ⟨i, hi, hpi, heq⟩ := Vm.mem_present.mp htable
    exact huser.2 i hi hpi heq.symm

/-- **A PTE changes**, and no other entry of the directory. -/
lemma pteAt_setWord (hn : (owned (phys M).page d).Nodup)
    (hp : (M.word d (PDX va)).present = true) (x : Word) (va' : Nat) :
    pteAt (setWord (M.word d (PDX va)).addr (PTX va) x M) d va'
      = if PDX va' = PDX va ∧ PTX va' = PTX va then x else pteAt M d va' := by
  have hp' : ((phys M).page d (PDX va)).p = true := hp
  have htd : (M.word d (PDX va)).addr ≠ d := Vm.table_ne hn (PDX_lt va) hp'
  have hd : (setWord (M.word d (PDX va)).addr (PTX va) x M).word d = M.word d :=
    setWord_other htd.symm ..
  by_cases hsame : PDX va' = PDX va ∧ PTX va' = PTX va
  · rw [if_pos hsame, pteAt, hd, hsame.1, if_pos hp, hsame.2, setWord_self]
  rw [if_neg hsame, pteAt, pteAt, hd]
  by_cases hpv : (M.word d (PDX va')).present = true
  · rw [if_pos hpv, if_pos hpv]
    by_cases hpdx : PDX va' = PDX va
    · have hptx : PTX va' ≠ PTX va := fun heq => hsame ⟨hpdx, heq⟩
      rw [hpdx, setWord_row hptx]
    have hne : (M.word d (PDX va')).addr ≠ (M.word d (PDX va)).addr := fun heq =>
      hpdx (Vm.table_inj hn (PDX_lt va') (PDX_lt va) hpv hp' heq)
    rw [setWord_other hne]
  · rw [if_neg hpv, if_neg hpv]

lemma OwnDir.setPte {held' : Multiset Nat} (h : OwnDir pages held d M)
    (hp : (M.word d (PDX va)).present = true)
    (hheld : held + mapped (PDX va) (pteAt M d va).entry = held' + mapped (PDX va) x.entry) :
    OwnDir pages held' d (setWord (M.word d (PDX va)).addr (PTX va) x M) := by
  have hp' : ((phys M).page d (PDX va)).p = true := hp
  rw [pteAt_of_table hp] at hheld
  rw [OwnDir, phys_setWord]
  exact Vm.Own.setPte h (PDX_lt va) hp' (PTX_lt va) hheld

lemma present_or (perm : BitVec 12) : (perm ||| PTE_P).getLsbD 0 = true := by
  rw [BitVec.getLsbD_or, show PTE_P.getLsbD 0 = true by decide, Bool.or_true]

lemma OwnDir.user_inj (h : OwnDir pages held d M) (hva : va < KERNBASE) (hva' : va' < KERNBASE)
    (hp : (pteAt M d va).present = true) (hp' : (pteAt M d va').present = true)
    (heq : (pteAt M d va').addr = (pteAt M d va).addr) : PDX va' = PDX va ∧ PTX va' = PTX va := by
  by_contra hne
  have htable := table_of_present hp
  have hlow := PDX_user hva
  -- without the entry for `va` the page is not the directory's any more
  have h₁ : OwnDir pages ((pteAt M d va).addr ::ₘ held) d
      (setWord (M.word d (PDX va)).addr (PTX va) .zero M) := by
    refine h.setPte htable ?_
    rw [Vm.mapped_user hlow hp, entry_zero, Vm.mapped_absent rfl, add_zero,
      ← Multiset.singleton_add, add_comm]
    rfl
  have hkept := pteAt_setWord h.nodup_dir htable .zero va'
  rw [if_neg hne] at hkept
  have hmem := user_owned hva' (by rw [hkept]; exact hp')
  rw [hkept, heq] at hmem
  exact h₁.held_notMem (mem_cons_self _ held) (mem_cons_self d 0) hmem

lemma or_present {f : BitVec 12} (hf : f.getLsbD 0 = true) : f ||| PTE_P = f := by
  refine BitVec.eq_of_getLsbD_eq (fun i hi => ?_)
  rw [BitVec.getLsbD_or]
  by_cases hzero : i = 0
  · rw [hzero, hf, Bool.true_or]
  have hbit : PTE_P.getLsbD i = false := by
    rw [show PTE_P = BitVec.twoPow 12 0 by decide, BitVec.getLsbD_twoPow]
    rw [decide_eq_false (Ne.symm hzero), Bool.and_false]
  rw [hbit, Bool.or_false]

lemma samePage (hva : va % PGSIZE = 0) (hlt : va < UINT) (hlt' : va' < UINT) :
    (PDX va' = PDX va ∧ PTX va' = PTX va) ↔ va ≤ va' ∧ va' < va + PGSIZE := by
  rw [PDX, PDX, PTX, PTX, PGSIZE, UINT] at *
  omega

lemma kalloc_spec {dirs : Multiset Nat} (h : Own pages dirs held (phys M)) :
    (M.free = [] ∧ kalloc M = (none, M)) ∨
      ∃ r M', kalloc M = (some r, M') ∧ M'.word = M.word ∧ M.free = r :: M'.free ∧
        Own pages dirs (r ::ₘ held) (phys M') := by
  rcases Vm.kalloc_own h with heq | ⟨r, P, heq, -, hown⟩
  · rw [kalloc_phys] at heq
    cases hfree : M.free with
    | nil =>
      refine .inl ⟨rfl, ?_⟩
      rw [kalloc, hfree]
    | cons r next =>
      rw [kalloc, hfree] at heq
      exact absurd (congrArg Prod.fst heq) (by simp only [reduceCtorEq, not_false_eq_true])
  rw [kalloc_phys] at heq
  cases hfree : M.free with
  | nil =>
    rw [kalloc, hfree] at heq
    exact absurd (congrArg Prod.fst heq) (by simp only [reduceCtorEq, not_false_eq_true])
  | cons r' next =>
    refine .inr ⟨r', { M with free := next }, ?_, rfl, rfl, ?_⟩
    · rw [kalloc, hfree]
    · rw [kalloc, hfree] at heq
      obtain ⟨hr, hP⟩ := Prod.mk.inj heq
      obtain rfl := Option.some.inj hr
      rwa [← hP] at hown

/-- A directory gets a page table without entries; no entry for an address changes. -/
lemma pteAt_newTable {r : Nat} {f : BitVec 12} (hn : (owned (phys M).page d).Nodup)
    (hp : (M.word d (PDX va)).present = false) (hr : r ≠ d) (hzero : M.word r = fun _ => .zero)
    (hf : f.getLsbD 0 = true) (va' : Nat) :
    pteAt (setWord d (PDX va) ⟨r, f⟩ M) d va' = pteAt M d va' := by
  by_cases hpdx : PDX va' = PDX va
  · have hentry : (setWord d (PDX va) ⟨r, f⟩ M).word d (PDX va') = ⟨r, f⟩ := by
      rw [hpdx, setWord_self]
    have hnone : (M.word d (PDX va')).present = false := by rw [hpdx, hp]
    rw [pteAt_noTable hnone, pteAt, hentry, if_pos (show Word.present ⟨r, f⟩ = true from hf)]
    rw [setWord_other hr]
    exact congrFun hzero _
  · rw [pteAt, pteAt, setWord_row hpdx]
    by_cases hpv : (M.word d (PDX va')).present = true
    · have hne : (M.word d (PDX va')).addr ≠ d := Vm.table_ne hn (PDX_lt va') hpv
      rw [if_pos hpv, if_pos hpv, setWord_other hne]
    · rw [if_neg hpv, if_neg hpv]

lemma Inner.of_newTable {i r : Nat} {f : BitVec 12}
    (hv : Inner (setWord d i ⟨r, f⟩ M) d v) : Inner M d v ∨ v = r := by
  rcases hv with hfree | hself | htable
  · exact .inl (.inl hfree)
  · exact .inl (.inr (.inl hself))
  · obtain ⟨k, hk, hpk, heq⟩ := Vm.mem_present.mp htable
    by_cases hki : k = i
    · refine .inr (heq ▸ ?_)
      show ((setWord d i ⟨r, f⟩ M).word d k).addr = r
      rw [hki, setWord_self]
    have hsame : (phys (setWord d i ⟨r, f⟩ M)).page d k = (phys M).page d k := by
      show ((setWord d i ⟨r, f⟩ M).word d k).entry = (M.word d k).entry
      rw [setWord_row hki]
    rw [hsame] at hpk heq
    exact .inl (.inr (.inr (Vm.mem_present.mpr ⟨k, hk, hpk, heq⟩)))

/-- A page that the directory does not own can be written without changing its entries. -/
lemma pteAt_fill {r : Nat} (hr : r ∉ owned (phys M).page d) (row : Nat → Word) (va : Nat) :
    pteAt (fill r row M) d va = pteAt M d va := by
  have hrd : d ≠ r := fun heq => hr (heq ▸ Vm.self_mem_owned)
  refine pteAt_congr (fill_other hrd ..) (fun i hi hp => ?_) va
  have hne : (M.word d i).addr ≠ r := fun heq => hr (heq ▸ mem_owned_table hi hp)
  exact fill_other hne ..

lemma owned_word_congr (hd : M'.word d = M.word d)
    (ht : ∀ i < NPDENTRIES, (M.word d i).present = true →
      M'.word (M.word d i).addr = M.word (M.word d i).addr) :
    owned (phys M').page d = owned (phys M).page d := by
  refine Vm.owned_congr ?_ (fun i hi hp => ?_)
  · funext i
    exact congrArg Word.entry (congrFun hd i)
  · funext j
    exact congrArg Word.entry (congrFun (ht i (Vm.lt_entries hi) hp) j)

lemma OwnDir.fill (h : OwnDir pages held d M) (hv : v ∈ held) (row : Nat → Word) :
    OwnDir pages held d (fill v row M) := by
  have hmem := h.held_notMem hv (mem_cons_self d 0)
  have hd : d ≠ v := fun heq => hmem (heq ▸ Vm.self_mem_owned)
  have hsame : owned (phys (PageMemory.fill v row M)).page d = owned (phys M).page d := by
    refine owned_word_congr (fill_other hd ..) (fun i hi hp => ?_)
    have hne : (M.word d i).addr ≠ v := fun heq => hmem (heq ▸ mem_owned_table hi hp)
    exact fill_other hne ..
  refine OwnDir.of_sum h.nodup ?_
  rw [hsame]
  exact h.sum

/-- **`walkpgdir` that may allocate.**  It changes no entry for an address: a new page table
    has no present entries. -/
lemma walkpgdir_spec (h : OwnDir pages held d M) (va : Nat) : walkpgdir d va true M = (none, M) ∨
      ∃ M', walkpgdir d va true M = (some ((M'.word d (PDX va)).addr, PTX va), M') ∧
        (M'.word d (PDX va)).present = true ∧ OwnDir pages held d M' ∧
        (∀ va', pteAt M' d va' = pteAt M d va') ∧
        (∀ v, ¬Inner M d v → M'.word v = M.word v) ∧ ∀ v, Inner M' d v → Inner M d v := by
  rw [walkpgdir]
  by_cases hp : (M.word d (PDX va)).present = true
  · rw [if_pos hp]
    exact .inr ⟨M, rfl, hp, h, fun _ => rfl, fun _ _ => rfl, fun _ hv => hv⟩
  rw [if_neg hp, if_neg (by decide)]
  rcases kalloc_spec h with ⟨-, heq⟩ | ⟨r, M₁, heq, hword, hfree, h₁⟩
  · rw [heq]
    exact .inl rfl
  rw [heq]
  dsimp only
  have hbit : (PTE_P ||| PTE_W ||| PTE_U).getLsbD 0 = true := by decide
  have hr : r ∉ owned (phys M₁).page d := h₁.held_notMem (mem_cons_self r held) (mem_cons_self d 0)
  have hrd : r ≠ d := fun heq' => hr (heq' ▸ Vm.self_mem_owned)
  have hrfree : r ∈ M.free := hfree ▸ List.mem_cons_self
  have h₂ : OwnDir pages (r ::ₘ held) d (memset r .zero M₁) :=
    OwnDir.fill h₁ (mem_cons_self r held) _
  have hd : (memset r .zero M₁).word d = M.word d := by
    rw [memset, fill_other hrd.symm, hword]
  have hnone : ((memset r .zero M₁).word d (PDX va)).present = false := by
    rw [hd]
    exact Bool.not_eq_true _ ▸ hp
  have hzero : (memset r .zero M₁).word r = fun _ => .zero := fill_self ..
  refine .inr ⟨setWord d (PDX va) ⟨r, PTE_P ||| PTE_W ||| PTE_U⟩ (memset r .zero M₁),
    ?_, ?_, ?_, fun va' => ?_, fun v hv => ?_, fun v hv => ?_⟩
  · rw [setWord_self]
  · rwa [setWord_self]
  · rw [OwnDir, phys_setWord, entry_table]
    refine h₂.newTable (PDX_lt va) hnone ?_
    funext i
    exact congrArg Word.entry (congrFun hzero i) |>.trans entry_zero
  · rw [pteAt_newTable h₂.nodup_dir hnone hrd hzero hbit, memset, pteAt_fill hr]
    exact pteAt_congr (by rw [hword]) (fun _ _ _ => by rw [hword]) va'
  · have hvr : v ≠ r := fun heq' => hv (.inl (heq' ▸ hrfree))
    rw [setWord_other (fun heq' => hv (.inr (.inl heq'))), memset, fill_other hvr, hword]
  · rcases hv.of_newTable with hin | heq'
    · rcases hin with hin | hin | hin
      · refine .inl ?_
        rw [hfree]
        exact List.mem_cons_of_mem _ hin
      · exact .inr (.inl hin)
      · have hrow : (phys (memset r .zero M₁)).page d = (phys M).page d := by
          funext i
          exact congrArg Word.entry (congrFun hd i)
        rw [hrow] at hin
        exact .inr (.inr hin)
    · exact .inl (heq' ▸ hrfree)

/-- **One user page is mapped**, or there is no page for its page table. -/
lemma mappages_spec {mem : Nat} {perm : BitVec 12} (h : OwnDir pages (mem ::ₘ held) d M)
    (hva : va % PGSIZE = 0) (hlt : va < KERNBASE) (habs : (pteAt M d va).present = false) :
    mappages d va PGSIZE mem perm M = .ok (false, M) ∨
      ∃ M', mappages d va PGSIZE mem perm M = .ok (true, M') ∧ OwnDir pages held d M' ∧
        (∀ va' < UINT, pteAt M' d va'
          = if va ≤ va' ∧ va' < va + PGSIZE then ⟨mem, perm ||| PTE_P⟩ else pteAt M d va') ∧
        ∀ v, ¬Inner M d v → M'.word v = M.word v := by
  have hlast := PGROUNDDOWN_page hva hlt
  have hlow := PDX_user hlt
  have huint : va < UINT := by
    rw [KERNBASE] at hlt
    rw [UINT]
    omega
  rw [mappages, hlast.1, hlast.2, show UINT / PGSIZE = 1048575 + 1 from rfl, mappagesFrom]
  rcases walkpgdir_spec h va with heq | ⟨M₁, heq, hp, h₁, hpte, hframe, hinner⟩
  · rw [heq]
    exact .inl rfl
  rw [heq]
  dsimp only
  have hfree : (M₁.word (M₁.word d (PDX va)).addr (PTX va)).present = false := by
    rwa [← pteAt_of_table hp, hpte]
  rw [if_neg (by rw [hfree]; decide), if_pos rfl]
  refine .inr ⟨_, rfl, ?_, fun va' hlt' => ?_, fun v hv => ?_⟩
  · refine h₁.setPte hp ?_
    rw [hpte, Vm.mapped_absent (show (pteAt M d va).entry.p = false from habs),
      Vm.mapped_user hlow (present_or perm), add_zero, ← Multiset.singleton_add, add_comm]
    rfl
  · rw [pteAt_setWord h₁.nodup_dir hp, hpte]
    simp only [samePage hva huint hlt']
  · have hvt : v ≠ (M₁.word d (PDX va)).addr := fun heq' => hv (hinner v (.inr (.inr
      (Vm.mem_present.mpr ⟨PDX va, PDX_lt va, hp, heq'.symm⟩))))
    rw [setWord_other hvt, hframe v hv]

/-- **A new user page**, filled before it is mapped. -/
lemma mapNew_spec {mem : Nat} (perm : BitVec 12)
    (h : OwnDir pages (mem ::ₘ held) d M) (row : Nat → Word) (hva : va % PGSIZE = 0)
    (hlt : va < KERNBASE) (habs : (pteAt M d va).present = false) :
    mappages d va PGSIZE mem perm (fill mem row M) = .ok (false, fill mem row M) ∨
      ∃ M', mappages d va PGSIZE mem perm (fill mem row M) = .ok (true, M') ∧
        OwnDir pages held d M' ∧ (∀ va' < UINT, pteAt M' d va'
          = if va ≤ va' ∧ va' < va + PGSIZE then ⟨mem, perm ||| PTE_P⟩ else pteAt M d va') ∧
        M'.word mem = row ∧ (∀ va' < KERNBASE, (pteAt M d va').present = true →
          M'.word (pteAt M d va').addr = M.word (pteAt M d va').addr) ∧
        ∀ v, v ∉ pages ∨ v ∈ held → M'.word v = M.word v := by
  have hself := mem_cons_self mem held
  have hmem := h.held_notMem hself (mem_cons_self d 0)
  have hentries := pteAt_fill hmem row
  have h₂ := h.fill hself row
  rcases mappages_spec h₂ hva hlt (by rw [hentries]; exact habs) with
    heq | ⟨M', heq, h', hpte, hframe⟩
  · exact .inl heq
  refine .inr ⟨M', heq, h', fun va' hlt' => ?_, ?_, fun va' hlt' hp => ?_, fun v hv => ?_⟩
  · rw [hpte va' hlt', hentries]
  · rw [hframe mem (h₂.out_notInner (.inr hself)), fill_self]
  · have hne : (pteAt M d va').addr ≠ mem := fun heq' => hmem (heq' ▸ user_owned hlt' hp)
    have hin := h₂.user_notInner hlt' (by rw [hentries]; exact hp)
    rw [hentries] at hin
    rw [hframe _ hin, fill_other hne]
  · have hne : v ≠ mem := by
      rintro rfl
      rcases hv with hv | hv
      · exact hv (h.held_mem hself)
      · exact h.notMem_rest hv
    have hout : v ∉ pages ∨ v ∈ mem ::ₘ held := hv.imp id (Multiset.mem_cons_of_mem ·)
    rw [hframe v (h₂.out_notInner hout), fill_other hne]

end Entries

end PageMemory

