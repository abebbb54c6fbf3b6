import Xv6Ext2.SysRefsProofs

/-! # Walks along a path (fs.c)

    `namex` tests whether the path starts with the bytes `/mnt` before it takes the path apart.  The
    test fixes the device of the whole walk; from there on only the components of the path count.

    - `namei_walk` : `namei` is the walk over the components from where the path starts;
    - `same_components_same_inode_iff` : when two paths with the same components name the
      same inode;
    - `name_fits_iff` : when the elements of a path fit the buffers of `nameiparent`'s
      callers. -/

namespace Kernel

open BufCache Param Outcome FileIo DirName Xv6Alloc Ext2Alloc SlotTable Icache Path

/-! ## What an entry stands for -/

/-- The device and the number of the inode in entry `a`. -/
def Inode.id (ip : Icache.Inode) : Nat × Nat := (ip.dev, ip.inum)

variable {st : Cache}

variable {a : Nat}

lemma id_setInode {ip : Icache.Inode} (b : Nat) (h : Inode.id ip = Inode.id (st.inode a)) :
    Inode.id ((st.setInode a ip).inode b) = Inode.id (st.inode b) := by
  rw [setInode_inode]
  by_cases hba : b = a
  · rw [hba, Function.update_self, h]
  · rw [Function.update_of_ne hba]

variable {st' : Cache}

variable {sb : Superblock} {esb : Ext2Super}

lemma ilock_id (h : Icache.ilock sb esb a st = .ok st') (b : Nat) :
    Inode.id (st'.inode b) = Inode.id (st.inode b) := by
  have hwith : ∀ {f read}, ilockWith f read a st = .ok st' →
      Inode.id (st'.inode b) = Inode.id (st.inode b) := by
    intro f read h
    rcases ilockWith_ok h with ⟨-, rfl⟩ | ⟨p, d, bc, -, -, -, -, rfl⟩
    · rfl
    · rw [id_setInode b (by rw [setSlot_inode, setDevice_inode]; rfl), setSlot_inode,
        setDevice_inode]
  rw [Icache.ilock] at h
  split at h
  · cases h
  · exact hwith h
  · exact hwith h

lemma iput_id (h : Icache.iput sb esb a st = .ok st') (b : Nat) :
    Inode.id (st'.inode b) = Inode.id (st.inode b) := by
  have hwith : ∀ {f free}, iputWith f free a st = .ok st' →
      Inode.id (st'.inode b) = Inode.id (st.inode b) := by
    intro f free h
    rcases iputWith_ok h with ⟨-, rfl⟩ | ⟨-, p, -, ⟨-, rfl⟩ | ⟨d, bc, -, -, -, rfl⟩⟩
    · exact id_setInode b rfl
    · rw [id_setInode b (by rw [setSlot_inode]; rfl), setSlot_inode]
    · rw [id_setInode b (by rw [setSlot_inode, setDevice_inode]; rfl), setSlot_inode,
        setDevice_inode]
  rw [Icache.iput] at h
  split at h
  · cases h
  · exact hwith h
  · exact hwith h

lemma callOn_id {α : Type} {f : Iops}
    {g : Nat → Dinode → Bcache → Except Err (α × Dinode × Bcache)} {r : α × Cache}
    (h : callOn f g a st = .ok r) (b : Nat) : Inode.id (r.2.inode b) = Inode.id (st.inode b) := by
  rw [callOn] at h
  split at h
  · cases h
  obtain ⟨⟨x, d, bc⟩, -, h2⟩ := bind_eq_ok.mp h
  obtain rfl := Except.ok.inj h2
  rw [id_setInode b (by rw [setSlot_inode, setDevice_inode]; rfl), setSlot_inode, setDevice_inode]

variable {dev inum : Nat}

lemma iget_id (h : Icache.iget dev inum st = .ok (a, st')) :
    Inode.id (st'.inode a) = (dev, inum) := by
  obtain ⟨-, ⟨-, hd, hi, rfl⟩ | ⟨-, -, ⟨-, rfl⟩ | ⟨-, rfl⟩⟩⟩ := iget_ok h
  · rw [setInode_self, Inode.id, hd, hi]
  · rw [recycle_self]
    rfl
  · rw [recycle_self]
    rfl

/-! ## The functions of the kernel on the cache -/

section OnCache

variable {cfg : Config} {k : State} {a : Nat}

lemma acquiresleep_cache : Ret (acquiresleep a) k (fun _ k' => k'.cache = k.cache) := by
  show Sat (if k.locked a then _ else _) _ _
  split
  · trivial
  · exact rfl

lemma iunlock_cache : Ret (iunlock a) k (fun _ k' => k'.cache = k.cache) := by
  refine SatS.bind iops_ret ?_
  rintro f k1 rfl
  have hheld : Ret (holdingsleep a) k1 (fun _ k' => k' = k1) := rfl
  refine SatS.bind hheld ?_
  rintro held k2 rfl
  exact bind_inode (SatS.ite (fun _ => stop_ret _) (fun _ => rfl))

lemma ilock_cache : Ret (ilock cfg a) k (fun _ k' =>
    Icache.ilock cfg.sb cfg.esb a k.cache = .ok k'.cache) := by
  refine SatS.bind iops_ret ?_
  rintro f k1 rfl
  refine bind_inode (SatS.ite (fun _ => stop_ret _) (fun _ => ?_))
  refine SatS.bind acquiresleep_cache (fun _ k2 h2 => onCache_ret (fun _ st hr => ?_))
  obtain ⟨st1, h3, h4⟩ := bind_eq_ok.mp hr
  obtain ⟨-, rfl⟩ := ok_pair_inj h4
  rwa [h2] at h3

lemma iput_cache : Ret (iput cfg a) k (fun _ k' =>
    Icache.iput cfg.sb cfg.esb a k.cache = .ok k'.cache) := by
  refine SatS.bind iops_ret ?_
  rintro f k1 rfl
  refine SatS.bind acquiresleep_cache (fun _ k2 h2 => ?_)
  refine SatS.bind (onCache_ret (fun _ st hr => ?_)) (fun _ k3
    (h3 : Icache.iput cfg.sb cfg.esb a k1.cache = .ok k3.cache) => h3)
  obtain ⟨st1, h3, h4⟩ := bind_eq_ok.mp hr
  obtain ⟨-, rfl⟩ := ok_pair_inj h4
  rwa [h2] at h3

lemma iops_some : Ret (iops a) k (fun f k' => (k.cache.inode a).iops = some f ∧ k' = k) := by
  refine bind_inode ?_
  cases hi : (k.cache.inode a).iops with
  | none => trivial
  | some f => exact ⟨rfl, rfl⟩

lemma dispatch_cache {α : Type}
    {g : Iops → Nat → Dinode → Bcache → Except Err (α × Dinode × Bcache)} :
    Ret (dispatch a g) k (fun r k' => ∃ f, (k.cache.inode a).iops = some f ∧
      callOn f (g f) a k.cache = .ok (r, k'.cache)) := by
  refine SatS.bind iops_some ?_
  rintro f k1 ⟨hi, rfl⟩
  exact onCache_ret (fun r st hcall => ⟨f, hi, hcall⟩)

end OnCache

section Ids

variable {cfg : Config} {k : State} {a : Nat}

/-- All entries stand for what they stood for. -/
def SameIds (k k' : State) : Prop :=
  ∀ b, Inode.id (k'.cache.inode b) = Inode.id (k.cache.inode b)

lemma SameIds.trans {k₁ k₂ k₃ : State} (h : SameIds k₁ k₂) (h' : SameIds k₂ k₃) :
    SameIds k₁ k₃ := fun b => (h' b).trans (h b)

lemma SameIds.of_cache {k' : State} (h : k'.cache = k.cache) : SameIds k k' := fun b => by rw [h]

lemma ilock_sameIds : Ret (ilock cfg a) k (fun _ k' => SameIds k k') :=
  ilock_cache.mono (fun _ _ h => ilock_id h)

lemma iunlock_sameIds : Ret (iunlock a) k (fun _ k' => SameIds k k') :=
  iunlock_cache.mono (fun _ _ h => SameIds.of_cache h)

lemma iput_sameIds : Ret (iput cfg a) k (fun _ k' => SameIds k k') :=
  iput_cache.mono (fun _ _ h => iput_id h)

lemma iunlockput_sameIds : Ret (iunlockput cfg a) k (fun _ k' => SameIds k k') :=
  SatS.bind iunlock_sameIds (fun _ _ h1 => iput_sameIds.mono (fun _ _ h2 => h1.trans h2))

lemma dispatch_sameIds {α : Type}
    (g : Iops → Nat → Dinode → Bcache → Except Err (α × Dinode × Bcache)) :
    Ret (dispatch a g) k (fun _ k' => SameIds k k') := by
  refine dispatch_cache.mono ?_
  rintro r k' ⟨f, -, hcall⟩
  exact callOn_id hcall

lemma dirlookup_dev (name : List UInt8) :
    Ret (dirlookup cfg a name) k (fun r k' => ∀ off b, r = some (off, b) →
      (k'.cache.inode b).dev = (k.cache.inode a).dev) := by
  refine SatS.bind (dispatch_sameIds _) (fun r k1 h1 => ?_)
  cases r with
  | none => exact fun _ _ e => (nomatch e)
  | some r =>
    have hget : Ret (iget (k1.cache.inode a).dev r.2) k1
        (fun b k' => (k'.cache.inode b).dev = (k1.cache.inode a).dev) :=
      onCache_ret (fun b st hr => (Prod.mk.inj (iget_id hr)).1)
    refine bind_inode (SatS.bind hget ?_)
    rintro b k2 h2 off c e
    obtain ⟨rfl, rfl⟩ := Prod.mk.inj (Option.some.inj e)
    rw [h2]
    exact (Prod.mk.inj (h1 a)).1

end Ids

/-! ## The walk over components -/

variable (cfg : Config)

/-- From the directory in entry `a` to the inode that one component names in it. -/
def walkStep (elem : List UInt8) (a : Nat) : Sys (Option Nat) := do
  let dev := (← inode a).dev
  ilock cfg a
  if (← inode a).type ≠ T_DIR then do
    iunlockput cfg a
    return none
  else do
    match ← dirlookup cfg a (stored dev elem) with
    | none => do
        iunlockput cfg a
        return none
    | some (_, next) => do
        iunlockput cfg a
        return some next

/-- The inode that a list of components names from entry `a` on. -/
def walk : List (List UInt8) → Nat → Sys (Option Nat)
  | [], a => return some a
  | elem :: elems, a => do
      match ← walkStep cfg elem a with
      | none => return none
      | some next => walk elems next

/-- A turn of the loop of `namex`: it returns, or goes on with the rest of the path. -/
inductive Turn where
  | done (r : Option (Nat × List UInt8))
  | next (path : List UInt8) (a : Nat)

def namexTurn (parent : Bool) (size : Nat) (path : List UInt8) (a : Nat) : Sys Turn := do
  let dev := (← inode a).dev
  match skipelem path with
  | none =>
    if parent then do
      iput cfg a
      return .done none
    else return .done (some (a, []))
  | some (elem, path) =>
    if size < stores dev elem.length then stop .wild
    else do
      let name := stored dev elem
      ilock cfg a
      if (← inode a).type ≠ T_DIR then do
        iunlockput cfg a
        return .done none
      else if parent = true ∧ firstByte path = 0 then do
        iunlock a
        return .done (some (a, name))
      else do
        match ← dirlookup cfg a name with
        | none => do
            iunlockput cfg a
            return .done none
        | some (_, next) => do
            iunlockput cfg a
            return .next path next

lemma namexFrom_turn (parent : Bool) (size fuel : Nat) (path : List UInt8) (a : Nat) :
    namexFrom cfg parent size (fuel + 1) path a = (do
      match ← namexTurn cfg parent size path a with
      | .done r => return r
      | .next path a => namexFrom cfg parent size fuel path a) := by
  rw [namexFrom, namexTurn, bind_assoc]
  refine congrArg _ (funext fun ip => ?_)
  cases skipelem path with
  | none => cases parent <;> simp
  | some r =>
    obtain ⟨elem, path⟩ := r
    dsimp only
    split
    · rfl
    simp only [bind_assoc]
    refine congrArg _ (funext fun _ => congrArg _ (funext fun ip => ?_))
    split
    · simp
    split
    · simp
    simp only [bind_assoc]
    refine congrArg _ (funext fun found => ?_)
    cases found <;> simp

variable {path rest : List UInt8}

variable {size : Nat} {elem : List UInt8} {k : State}

/-- A turn that does not stop at the last element is a step of the walk. -/
lemma namexTurn_walkStep {parent : Bool} (hpath : skipelem path = some (elem, rest))
    (hfit : stores (k.cache.inode a).dev elem.length ≤ size)
    (hlast : ¬(parent = true ∧ firstByte rest = 0)) : namexTurn cfg parent size path a k = (do
      match ← walkStep cfg elem a with
      | none => return .done none
      | some next => return .next rest next : Sys Turn) k := by
  rw [namexTurn, walkStep, bind_assoc, inode_bind, inode_bind, hpath]
  dsimp only
  rw [if_neg (Nat.not_lt.mpr hfit), if_neg hlast]
  simp only [bind_assoc]
  refine congrFun (congrArg _ (funext fun _ => congrArg _ (funext fun ip => ?_))) k
  split
  · simp
  simp only [bind_assoc]
  refine congrArg _ (funext fun found => ?_)
  cases found <;> simp

lemma stores_le (dev len : Nat) : stores dev len ≤ Ext2Dir.EXT2_NAME_LEN := by
  have h255 : Ext2Dir.EXT2_NAME_LEN = 255 := rfl
  have h14 : Xv6Dir.DIRSIZ = 14 := rfl
  unfold stores dirlen
  split <;> split <;> omega

lemma namexFrom_walk (fuel : Nat) : ∀ (path : List UInt8) (a : Nat), path.length < fuel →
    namexFrom cfg false Ext2Dir.EXT2_NAME_LEN fuel path a = (do
      let r ← walk cfg (components path) a
      return r.map (fun b => (b, []))) := by
  induction fuel with
  | zero => exact fun _ _ h => absurd h (Nat.not_lt_zero _)
  | succ fuel ih =>
    intro path a hlen
    have hcomp := skipelem_components path
    rw [namexFrom_turn]
    funext k
    cases hs : skipelem path with
    | none =>
      rw [hs] at hcomp
      have hcomp : components path = [] := hcomp
      rw [hcomp, namexTurn, hs]
      rfl
    | some r =>
      obtain ⟨elem, rest⟩ := r
      rw [hs] at hcomp
      obtain ⟨hcomp, -, hshort, -⟩ := hcomp
      have hturn : namexTurn cfg false Ext2Dir.EXT2_NAME_LEN path a k = _ :=
        namexTurn_walkStep cfg hs (stores_le (k.cache.inode a).dev elem.length)
          (fun h => nomatch h.1)
      rw [bind_congr_state hturn, hcomp, walk]
      simp only [bind_assoc]
      refine congrFun (congrArg _ (funext fun next => ?_)) k
      cases next with
      | none => simp
      | some next =>
        simp only [pure_bind]
        exact ih rest next (by omega)

/-- **`namei` walks over the components** of what is left of the path after the start. -/
lemma namei_walk (path : List UInt8) : namei cfg path = (do
      let (a, rest) ← namexStart path
      walk cfg (components rest) a) := by
  rw [namei, namex, bind_assoc]
  refine congrArg _ (funext fun r => ?_)
  obtain ⟨a, rest⟩ := r
  dsimp only
  rw [namexFrom_walk cfg _ rest a (Nat.lt_succ_self _), bind_assoc]
  refine (congrArg _ (funext fun r => ?_)).trans (bind_pure _)
  cases r <;> simp

lemma walk_append (l l' : List (List UInt8)) : ∀ a, walk cfg (l ++ l') a = (do
    match ← walk cfg l a with
    | none => return none
    | some b => walk cfg l' b) := by
  induction l with
  | nil => intro a; simp [walk]
  | cons elem l ih =>
    intro a
    rw [List.cons_append, walk, walk, bind_assoc]
    refine congrArg _ (funext fun next => ?_)
    cases next with
    | none => simp
    | some next => exact ih next

/-! ## Paths with the same components -/

lemma onMnt_iff (path : List UInt8) : onMnt path = true ↔ ∃ rest, path = MNT ++ rest := by
  rw [onMnt, strncmpEq_iff (by decide)]
  constructor
  · intro h
    have h0 := h 0 (by decide) (by decide)
    have h1 := h 1 (by decide) (by decide)
    have h2 := h 2 (by decide) (by decide)
    have h3 := h 3 (by decide) (by decide)
    match path with
    | c₀ :: c₁ :: c₂ :: c₃ :: rest =>
      obtain rfl : c₀ = 47 := h0
      obtain rfl : c₁ = 109 := h1
      obtain rfl : c₂ = 110 := h2
      obtain rfl : c₃ = 116 := h3
      exact ⟨rest, rfl⟩
    | [_, _, _] => exact nomatch (h3 : (0 : UInt8) = 116)
    | [_, _] => exact nomatch (h2 : (0 : UInt8) = 110)
    | [_] => exact nomatch (h1 : (0 : UInt8) = 109)
    | [] => exact nomatch (h0 : (0 : UInt8) = 47)
  · rintro ⟨rest, rfl⟩ i - hi
    have hlen : i < MNT.length := hi
    rw [cstr, cstr, List.getD_append _ _ _ _ hlen]

/-- The components without the `mnt` at the start of the first. -/
def pastMnt : List (List UInt8) → List (List UInt8)
  | [] => []
  | elem :: elems => if elem.drop 3 = [] then elems else elem.drop 3 :: elems

/-- What is left of a path behind `/mnt` has the components of the path but for these bytes. -/
lemma components_mnt (rest : List UInt8) :
    components rest = pastMnt (components (MNT ++ rest)) := by
  have hsplit := List.takeWhile_append_dropWhile (p := inElem) (l := rest)
  have helem : ∀ c ∈ rest.takeWhile inElem, inElem c = true := fun c hc => List.mem_takeWhile_imp hc
  have hmnt : components (MNT ++ rest)
      = ([109, 110, 116] ++ rest.takeWhile inElem) :: components (rest.dropWhile inElem) := by
    rw [show MNT ++ rest = SLASH :: (([109, 110, 116] ++ rest.takeWhile inElem) ++
      rest.dropWhile inElem) by rw [List.append_assoc, hsplit]; rfl, components_slash]
    refine components_elem (fun c hc => ?_) (by simp) (inElem_dropWhile rest)
    rcases List.mem_append.mp hc with hc | hc
    · have hmnt : ∀ c ∈ ([109, 110, 116] : List UInt8), inElem c = true := by decide +kernel
      exact hmnt c hc
    · exact helem c hc
  rw [hmnt, pastMnt]
  by_cases hnil : rest.takeWhile inElem = []
  · rw [if_pos (by rw [hnil]; rfl)]
    rw [hnil] at hsplit
    exact congrArg components hsplit.symm
  rw [if_neg (by simpa using hnil)]
  have := components_elem helem hnil (inElem_dropWhile rest)
  rwa [hsplit] at this

/-- The walk from the inode `inum` of device `dev`. -/
def walkFrom (dev inum : Nat) (elems : List (List UInt8)) : Sys (Option Nat) := do
  let a ← iget dev inum
  walk cfg elems a

/-- The components name an inode from inode `inum` of device `dev` on. -/
def Reaches (dev inum : Nat) (elems : List (List UInt8)) (k : State) : Prop :=
  ∃ b k', walkFrom cfg dev inum elems k = .ok (some b, k')

/-- The device and the number of the inode that a walk returns, if it returns one. -/
def target : Except Err (Option Nat × State) → Option (Nat × Nat)
  | .ok (some b, k) => some (Inode.id (k.cache.inode b))
  | .ok (none, _) => none
  | .error _ => none

/-- The current directory is the root of the root device, which has one entry. -/
structure Rooted (k : State) : Prop where
  lt   : (k.proc k.cur).cwd < NINODE
  root : (k.cache.inode (k.proc k.cur).cwd).is ROOTDEV ROOTINO = true
  only : ∀ b < NINODE, (k.cache.inode b).is ROOTDEV ROOTINO = true → b = (k.proc k.cur).cwd

/-- A path behind `/mnt` starts at the root of the ext2 device. -/
lemma namei_mnt (h : onMnt path = true) :
    namei cfg path = walkFrom cfg EXT2DEV EXT2INO (pastMnt (components path)) := by
  obtain ⟨rest, rfl⟩ := (onMnt_iff path).mp h
  rw [namei_walk, namexStart, if_pos h, walkFrom, ← components_mnt, bind_assoc]
  rfl

lemma namei_root (h : onMnt path = false) (habs : firstByte path = SLASH) :
    namei cfg path = walkFrom cfg ROOTDEV ROOTINO (components path) := by
  rw [namei_walk, namexStart, if_neg (by rw [h]; exact Bool.false_ne_true), if_pos habs, walkFrom,
    bind_assoc]
  rfl

/-- In the root directory `iget` of the root finds the entry of the current directory. -/
lemma Rooted.iget_eq (h : Rooted k) : iget ROOTDEV ROOTINO k = idup (k.proc k.cur).cwd k := by
  have hfound : firstFrom (fun a => (k.cache.inode a).is ROOTDEV ROOTINO) NINODE 0
      = some (k.proc k.cur).cwd := by
    cases hf : firstFrom (fun a => (k.cache.inode a).is ROOTDEV ROOTINO) NINODE 0 with
    | none =>
      have := firstFrom_none hf _ (Nat.zero_le _) (by simpa using h.lt)
      rw [h.root] at this
      exact nomatch this
    | some b =>
      obtain ⟨-, h2, h3⟩ := firstFrom_some hf
      rw [h.only b (by simpa using h2) h3]
  show (Icache.iget ROOTDEV ROOTINO k.cache >>= _) = _
  rw [Icache.iget, hfound]
  rfl

lemma namei_relative (h : Rooted k) (hrel : firstByte path ≠ SLASH) :
    namei cfg path k = walkFrom cfg ROOTDEV ROOTINO (components path) k := by
  have hmnt : onMnt path ≠ true := by
    intro hm
    obtain ⟨rest, rfl⟩ := (onMnt_iff path).mp hm
    exact hrel rfl
  rw [namei_walk, namexStart, if_neg hmnt, if_neg hrel, walkFrom, bind_congr_state h.iget_eq]
  rfl

lemma walkStep_dev (elem : List UInt8) (a : Nat) (k : State) :
    Ret (walkStep cfg elem a) k (fun r k' => ∀ b, r = some b →
      (k'.cache.inode b).dev = (k.cache.inode a).dev) := by
  refine bind_inode (SatS.bind ilock_sameIds (fun _ k1 h1 => bind_inode ?_))
  have hnone : Ret (do iunlockput cfg a; return none) k1 (fun r k' => ∀ b, r = some b →
      (k'.cache.inode b).dev = (k.cache.inode a).dev) :=
    SatS.bind iunlockput_sameIds (fun _ k2 _ b e => nomatch e)
  refine SatS.ite (fun _ => hnone) (fun _ => ?_)
  refine SatS.bind (dirlookup_dev _) (fun found k2 h2 => ?_)
  cases found with
  | none => exact SatS.bind iunlockput_sameIds (fun _ k3 _ b e => nomatch e)
  | some r =>
    refine SatS.bind iunlockput_sameIds (fun _ k3 h3 => ?_)
    rintro b e
    obtain rfl := Option.some.inj e
    rw [(Prod.mk.inj (h3 _)).1, h2 r.1 r.2 rfl, (Prod.mk.inj (h1 a)).1]

lemma walk_dev (elems : List (List UInt8)) : ∀ (a : Nat) (k : State),
    Ret (walk cfg elems a) k (fun r k' => ∀ b, r = some b →
      (k'.cache.inode b).dev = (k.cache.inode a).dev) := by
  induction elems with
  | nil =>
    rintro a k b e
    obtain rfl := Option.some.inj e
    rfl
  | cons elem elems ih =>
    intro a k
    refine SatS.bind (walkStep_dev cfg elem a k) (fun next k1 h1 => ?_)
    cases next with
    | none => exact fun b e => nomatch e
    | some next =>
      refine (ih next k1).mono (fun r k2 h2 b e => ?_)
      rw [h2 b e, h1 next rfl]

variable {elems : List (List UInt8)}

lemma target_walkFrom {t : Nat × Nat}
    (h : target (walkFrom cfg dev inum elems k) = some t) : t.1 = dev := by
  have hget : Ret (iget dev inum) k (fun a k' => (k'.cache.inode a).dev = dev) :=
    onCache_ret (fun b st hr => (Prod.mk.inj (iget_id hr)).1)
  have hdev : Ret (walkFrom cfg dev inum elems) k (fun r k' => ∀ b, r = some b →
      (k'.cache.inode b).dev = dev) := SatS.bind hget (fun a k1 h1 => (walk_dev cfg elems a k1).mono
      (fun r k2 h2 b e => (h2 b e).trans h1))
  cases hw : walkFrom cfg dev inum elems k with
  | error e => rw [hw] at h; exact nomatch h
  | ok r =>
    obtain ⟨r, k'⟩ := r
    rw [hw] at h
    cases r with
    | none => exact nomatch h
    | some b =>
      obtain rfl := Option.some.inj h
      exact SatS.of_ok hdev hw b rfl

lemma target_eq_none_iff :
    target (walkFrom cfg dev inum elems k) = none ↔ ¬Reaches cfg dev inum elems k := by
  unfold Reaches
  cases walkFrom cfg dev inum elems k with
  | error e => exact ⟨fun _ ⟨b, k', h⟩ => (nomatch h), fun _ => rfl⟩
  | ok r =>
    obtain ⟨r, k'⟩ := r
    cases r with
    | none =>
      refine ⟨fun _ ⟨b, k'', h⟩ => ?_, fun _ => rfl⟩
      exact nomatch (ok_pair_inj h).1
    | some b => exact ⟨fun h => (nomatch h), fun h => absurd ⟨b, k', rfl⟩ h⟩

lemma target_ne_of_dev {inum' : Nat} {elems' : List (List UInt8)} :
    target (walkFrom cfg EXT2DEV inum elems k) = target (walkFrom cfg ROOTDEV inum' elems' k) ↔
      ¬Reaches cfg EXT2DEV inum elems k ∧ ¬Reaches cfg ROOTDEV inum' elems' k := by
  rw [← target_eq_none_iff, ← target_eq_none_iff]
  constructor
  · intro h
    cases ht : target (walkFrom cfg EXT2DEV inum elems k) with
    | none => exact ⟨rfl, by rw [← h, ht]⟩
    | some t =>
      have h1 := target_walkFrom cfg ht
      have h2 := target_walkFrom cfg (h ▸ ht)
      exact absurd (h1.symm.trans h2) (by decide)
  · rintro ⟨h1, h2⟩
    rw [h1, h2]

/-- **Main result.**  Let `p` be an absolute path and `q` a path with the same components
    that is absolute, or relative with the root as the current directory.  They name the
    same inode, or both none, exactly if both start with the bytes `/mnt` or neither does,
    or if the components name nothing on either device. -/
theorem same_components_same_inode_iff (p q : List UInt8) (k : State) (hp : firstByte p = SLASH)
    (hq : firstByte q = SLASH ∨ Rooted k) (hcomp : components p = components q) :
    target (namei cfg p k) = target (namei cfg q k) ↔ onMnt p = onMnt q ∨
        (¬Reaches cfg EXT2DEV EXT2INO (pastMnt (components p)) k ∧
          ¬Reaches cfg ROOTDEV ROOTINO (components p) k) := by
  have hroot : onMnt q = false → namei cfg q k = walkFrom cfg ROOTDEV ROOTINO (components p) k := by
    intro h
    by_cases habs : firstByte q = SLASH
    · rw [namei_root cfg h habs, hcomp]
    · rw [namei_relative cfg (hq.resolve_left habs) habs, hcomp]
  cases hmp : onMnt p <;> cases hmq : onMnt q
  · rw [hroot hmq, namei_root cfg hmp hp]
    exact ⟨fun _ => .inl rfl, fun _ => rfl⟩
  · rw [namei_root cfg hmp hp, namei_mnt cfg hmq, ← hcomp]
    refine (eq_comm.trans (target_ne_of_dev cfg)).trans ?_
    exact ⟨fun h => .inr h, fun h => h.resolve_left nofun⟩
  · rw [hroot hmq, namei_mnt cfg hmp, target_ne_of_dev]
    exact ⟨fun h => .inr h, fun h => h.resolve_left nofun⟩
  · rw [namei_mnt cfg hmp, namei_mnt cfg hmq, hcomp]
    exact ⟨fun _ => .inl rfl, fun _ => rfl⟩

/-- `/mnt` is the root of the ext2 device, and `//mnt` the entry of that name in the root
    directory, which is the root directory again. -/
theorem mnt_spelled_twice : components [47, 109, 110, 116] = components [47, 47, 109, 110, 116] ∧
    target (namei rootConfig [47, 109, 110, 116] rootState) = some (EXT2DEV, EXT2INO) ∧
    target (namei rootConfig [47, 47, 109, 110, 116] rootState) = some (ROOTDEV, ROOTINO) := by
  decide +kernel

theorem same_components_same_inode_iff_slashes :
    target (namei rootConfig [47, 46] rootState) = target (namei rootConfig [46, 47] rootState) ↔
      onMnt [47, 46] = onMnt [46, 47] ∨
        (¬Reaches rootConfig EXT2DEV EXT2INO (pastMnt (components [47, 46])) rootState ∧
          ¬Reaches rootConfig ROOTDEV ROOTINO (components [47, 46]) rootState) :=
  same_components_same_inode_iff rootConfig [47, 46] [46, 47] rootState (by decide)
    (.inr ⟨by decide, by decide, by decide⟩) (by decide)

/-! ## The buffers of nameiparent's callers -/

/-- The loop of `nameiparent(path)`, called in state `k`, comes to entry `a` with the rest
    `rest` of the path. -/
inductive Visits (path : List UInt8) (k : State) : List UInt8 → Nat → State → Prop
  | start {rest : List UInt8} {a : Nat} {k' : State} :
      namexStart path k = .ok ((a, rest), k') → Visits path k rest a k'
  | turn {rest rest' : List UInt8} {a a' : Nat} {k' k'' : State} :
      Visits path k rest a k' →
      namexTurn cfg true Xv6Dir.DIRSIZ rest a k' = .ok (.next rest' a', k'') →
      Visits path k rest' a' k''

/-- Every call of `skipelem` in `nameiparent(path)` stores at most `DIRSIZ` bytes. -/
def NameFits (path : List UInt8) (k : State) : Prop :=
  ∀ rest a k', Visits cfg path k rest a k' → ∀ elem rest', skipelem rest = some (elem, rest') →
    stores (k'.cache.inode a).dev elem.length ≤ Xv6Dir.DIRSIZ

def startDev (path : List UInt8) (k : State) : Nat :=
  if onMnt path = true then EXT2DEV
  else if firstByte path = SLASH then ROOTDEV
  else (k.cache.inode (k.proc k.cur).cwd).dev

/-- The path that `namex` takes apart. -/
def startPath (path : List UInt8) : List UInt8 := if onMnt path = true then path.drop 4 else path

/-- The first components of a path name an inode. -/
def Names (path : List UInt8) (elems : List (List UInt8)) (k : State) : Prop :=
  ∃ b k', (do
    let (a, _) ← namexStart path
    walk cfg elems a : Sys (Option Nat)) k = .ok (some b, k')

lemma stores_le_DIRSIZ_iff (dev len : Nat) :
    stores dev len ≤ Xv6Dir.DIRSIZ ↔ dev = ROOTDEV ∨ len < Xv6Dir.DIRSIZ := by
  have h255 : Ext2Dir.EXT2_NAME_LEN = 255 := rfl
  have h14 : Xv6Dir.DIRSIZ = 14 := rfl
  unfold stores dirlen
  split
  · next hdev => exact ⟨fun _ => .inl hdev, fun _ => by split <;> omega⟩
  · next hdev =>
    rw [h255, h14]
    refine ⟨fun h => .inr ?_, fun h => ?_⟩
    · split at h <;> omega
    · have := h.resolve_left hdev
      split <;> omega

variable {k' : State}

lemma namexStart_ok (h : namexStart path k = .ok ((a, rest), k')) :
    rest = startPath path ∧ (k'.cache.inode a).dev = startDev path k := by
  rw [namexStart] at h
  rw [startPath, startDev]
  by_cases hm : onMnt path = true
  · rw [if_pos hm] at h ⊢
    obtain ⟨⟨b, k1⟩, h1, h2⟩ := bind_eq_ok.mp h
    obtain ⟨h3, rfl⟩ := ok_pair_inj h2
    obtain ⟨rfl, rfl⟩ := Prod.mk.inj h3
    obtain ⟨⟨c, st⟩, h4, h5⟩ := bind_eq_ok.mp h1
    obtain ⟨rfl, rfl⟩ := ok_pair_inj h5
    exact ⟨rfl, by rw [if_pos hm]; exact (Prod.mk.inj (iget_id h4)).1⟩
  rw [if_neg hm] at h ⊢
  split at h
  · next habs =>
    obtain ⟨⟨b, k1⟩, h1, h2⟩ := bind_eq_ok.mp h
    obtain ⟨h3, rfl⟩ := ok_pair_inj h2
    obtain ⟨rfl, rfl⟩ := Prod.mk.inj h3
    obtain ⟨⟨c, st⟩, h4, h5⟩ := bind_eq_ok.mp h1
    obtain ⟨rfl, rfl⟩ := ok_pair_inj h5
    exact ⟨rfl, by rw [if_neg hm, if_pos habs]; exact (Prod.mk.inj (iget_id h4)).1⟩
  · next habs =>
    obtain ⟨h3, rfl⟩ := ok_pair_inj h
    obtain ⟨rfl, rfl⟩ := Prod.mk.inj h3
    refine ⟨rfl, ?_⟩
    rw [if_neg hm, if_neg habs]
    show (Function.update k.cache.inode _ _ _).dev = _
    rw [Function.update_self]

/-- A turn that goes on takes the next component off the path, which is not the last, and
    is a step of the walk. -/
lemma namexTurn_next {a' : Nat} {rest' : List UInt8}
    (h : namexTurn cfg true size rest a k = .ok (.next rest' a', k')) :
    ∃ elem, skipelem rest = some (elem, rest') ∧ firstByte rest' ≠ 0 ∧
      walkStep cfg elem a k = .ok (some a', k') := by
  cases hs : skipelem rest with
  | none =>
    rw [namexTurn, inode_bind, hs] at h
    obtain ⟨⟨_, k1⟩, -, h2⟩ := bind_eq_ok.mp h
    exact nomatch (ok_pair_inj h2).1
  | some r =>
    obtain ⟨elem, rest''⟩ := r
    by_cases hfit : size < stores (k.cache.inode a).dev elem.length
    · rw [namexTurn, inode_bind, hs] at h
      dsimp only at h
      rw [if_pos hfit] at h
      exact nomatch h
    by_cases hlast : firstByte rest'' = 0
    · rw [namexTurn, inode_bind, hs] at h
      dsimp only at h
      rw [if_neg hfit] at h
      obtain ⟨⟨_, k1⟩, -, h2⟩ := bind_eq_ok.mp h
      dsimp only at h2
      rw [inode_bind] at h2
      split at h2
      · obtain ⟨⟨_, k2⟩, -, h3⟩ := bind_eq_ok.mp h2
        exact nomatch (ok_pair_inj h3).1
      rw [if_pos ⟨rfl, hlast⟩] at h2
      obtain ⟨⟨_, k2⟩, -, h3⟩ := bind_eq_ok.mp h2
      exact nomatch (ok_pair_inj h3).1
    · rw [namexTurn_walkStep cfg hs (Nat.not_lt.mp hfit) (fun hc => hlast hc.2)] at h
      obtain ⟨⟨next, k1⟩, h1, h2⟩ := bind_eq_ok.mp h
      cases next with
      | none => exact nomatch (ok_pair_inj h2).1
      | some next =>
        obtain ⟨h3, rfl⟩ := ok_pair_inj h2
        obtain ⟨rfl, rfl⟩ := Turn.next.inj h3
        exact ⟨elem, rfl, hlast, h1⟩

lemma Visits.walked (h : Visits cfg path k rest a k') : (k'.cache.inode a).dev = startDev path k ∧
    ∃ l, components (startPath path) = l ++ components rest ∧
      ∃ a₀ k₀, namexStart path k = .ok ((a₀, startPath path), k₀) ∧
        walk cfg l a₀ k₀ = .ok (some a, k') := by
  induction h with
  | start h =>
    obtain ⟨rfl, hdev⟩ := namexStart_ok h
    exact ⟨hdev, [], rfl, _, _, h, rfl⟩
  | @turn rest rest' a a' k' k'' hv hturn ih =>
    obtain ⟨hdev, l, hcomp, a₀, k₀, hstart, hwalk⟩ := ih
    obtain ⟨elem, hs, -, hstep⟩ := namexTurn_next cfg hturn
    have helem := skipelem_components rest
    rw [hs] at helem
    refine ⟨?_, l ++ [elem], ?_, a₀, k₀, hstart, ?_⟩
    · rw [SatS.of_ok (walkStep_dev cfg elem a k') hstep a' rfl, hdev]
    · rw [hcomp, helem.1, List.append_assoc]
      rfl
    · rw [walk_append]
      show (walk cfg l a₀ k₀ >>= _) = _
      rw [hwalk, ok_bind]
      show (walkStep cfg elem a k' >>= _) = _
      rw [hstep]
      rfl

lemma Visits.follow (l : List (List UInt8)) :
    ∀ {rest elem : List UInt8} {l' : List (List UInt8)} {a b : Nat} {k' k'' : State},
      Visits cfg path k rest a k' → components rest = l ++ elem :: l' →
      (∀ e ∈ l, stores (startDev path k) e.length ≤ Xv6Dir.DIRSIZ) →
      walk cfg l a k' = .ok (some b, k'') →
      ∃ rest', Visits cfg path k rest' b k'' ∧ components rest' = elem :: l' := by
  induction l with
  | nil =>
    intro rest elem l' a b k' k'' hv hcomp _ hwalk
    obtain ⟨h1, rfl⟩ := ok_pair_inj hwalk
    obtain rfl := Option.some.inj h1
    exact ⟨rest, hv, hcomp⟩
  | cons e l ih =>
    intro rest elem l' a b k' k'' hv hcomp hfit hwalk
    obtain ⟨⟨next, k1⟩, hstep, hwalks⟩ := bind_eq_ok.mp hwalk
    cases next with
    | none => exact nomatch (ok_pair_inj hwalks).1
    | some next =>
      have helem := skipelem_components rest
      cases hs : skipelem rest with
      | none =>
        rw [hs] at helem
        have helem : components rest = [] := helem
        rw [helem] at hcomp
        exact nomatch hcomp
      | some r =>
        obtain ⟨e', rest1⟩ := r
        rw [hs] at helem
        obtain ⟨hsplit, -, -, hslash⟩ := helem
        obtain ⟨rfl, hrest⟩ := List.cons.inj (hsplit.symm.trans hcomp)
        have hrest : components rest1 = l ++ elem :: l' := hrest
        have hlast : firstByte rest1 ≠ 0 := by
          intro h0
          have hnil := components_of_end h0
          rw [hrest] at hnil
          exact absurd hnil (by simp)
        have hturn : namexTurn cfg true Xv6Dir.DIRSIZ rest a k' = .ok (.next rest1 next, k1) := by
          rw [namexTurn_walkStep cfg hs
            (by rw [(hv.walked cfg).1]; exact hfit e' List.mem_cons_self) (fun h => hlast h.2)]
          show (walkStep cfg e' a k' >>= _) = _
          rw [hstep]
          rfl
        exact ih (hv.turn hturn) hrest (fun x hx => hfit x (List.mem_cons_of_mem e' hx)) hwalks

variable {l l' : List (List UInt8)}

/-- A walk over more components reaches an inode at each of the earlier ones. -/
lemma Names.initial (h : Names cfg path (l ++ l') k) : Names cfg path l k := by
  obtain ⟨b, k', h⟩ := h
  obtain ⟨⟨⟨a, rest⟩, k0⟩, hstart, hwalk⟩ := bind_eq_ok.mp h
  have hwalk : walk cfg (l ++ l') a k0 = .ok (some b, k') := hwalk
  rw [walk_append] at hwalk
  obtain ⟨⟨c, k1⟩, h1, h2⟩ := bind_eq_ok.mp hwalk
  cases c with
  | none => exact nomatch (ok_pair_inj h2).1
  | some c =>
    refine ⟨c, k1, ?_⟩
    show (namexStart path k >>= _) = _
    rwa [hstart]

/-- A component that does not fit the buffer and that the walk comes to: the first one of
    these overflows the buffer. -/
lemma not_nameFits (hdev : startDev path k ≠ ROOTDEV)
    (hcomp : components (startPath path) = l ++ elem :: l')
    (hlen : Xv6Dir.DIRSIZ ≤ elem.length) (hnames : Names cfg path l k) : ¬NameFits cfg path k := by
  induction hn : l.length using Nat.strong_induction_on generalizing l l' elem with
  | _ n ih =>
  by_cases hall : ∀ e ∈ l, e.length < Xv6Dir.DIRSIZ
  · intro hfits
    obtain ⟨b, k', h⟩ := hnames
    obtain ⟨⟨⟨a, rest⟩, k0⟩, hstart, hwalk⟩ := bind_eq_ok.mp h
    obtain ⟨rfl, -⟩ := namexStart_ok hstart
    obtain ⟨rest', hv, hrest⟩ := Visits.follow cfg l (.start hstart) hcomp
      (fun e he => (stores_le_DIRSIZ_iff _ _).mpr (.inr (hall e he))) hwalk
    have helem := skipelem_components rest'
    cases hs : skipelem rest' with
    | none =>
      rw [hs] at helem
      have helem : components rest' = [] := helem
      rw [helem] at hrest
      exact nomatch hrest
    | some r =>
      rw [hs] at helem
      obtain ⟨e, rest''⟩ := r
      obtain ⟨rfl, -⟩ := List.cons.inj (helem.1.symm.trans hrest)
      have hstores := hfits _ _ _ hv _ _ hs
      rw [(hv.walked cfg).1, stores_le_DIRSIZ_iff] at hstores
      rcases hstores with h | h
      · exact hdev h
      · omega
  · -- an earlier component is too long already
    push Not at hall
    obtain ⟨e, he, hbig⟩ := hall
    obtain ⟨l₁, l₂, rfl⟩ := List.append_of_mem he
    rw [List.append_assoc, List.cons_append] at hcomp
    refine ih l₁.length ?_ hcomp hbig (hnames.initial cfg) rfl
    rw [← hn, List.length_append, List.length_cons]
    omega

/-- **Main result.**  In a call of `nameiparent` all elements fit the buffer of `DIRSIZ`
    bytes exactly if the walk is on the root device, or no component of `DIRSIZ` or more
    bytes stands behind components that name an inode. -/
theorem name_fits_iff (path : List UInt8) (k : State) : NameFits cfg path k ↔
      startDev path k = ROOTDEV ∨ ∀ l elem l', components (startPath path) = l ++ elem :: l' →
          Xv6Dir.DIRSIZ ≤ elem.length → ¬Names cfg path l k := by
  constructor
  · intro hfits
    by_cases hdev : startDev path k = ROOTDEV
    · exact .inl hdev
    · exact .inr (fun l elem l' hcomp hlen hnames => not_nameFits cfg hdev hcomp hlen hnames hfits)
  · intro hcond rest a k' hv elem rest' hs
    obtain ⟨hdev, l, hcomp, a₀, k₀, hstart, hwalk⟩ := hv.walked cfg
    rw [hdev, stores_le_DIRSIZ_iff]
    refine hcond.imp_right (fun hno => ?_)
    by_contra hlen
    have helem := skipelem_components rest
    rw [hs] at helem
    rw [helem.1] at hcomp
    refine hno l elem _ hcomp (Nat.not_lt.mp hlen) ⟨a, k', ?_⟩
    show (namexStart path k >>= _) = _
    rwa [hstart]

/-- The 14 bytes of a name below `/mnt`, and a NUL. -/
theorem fourteen_bytes_overflow :
    ¬NameFits rootConfig ([47, 109, 110, 116, 47] ++ List.replicate 14 97) rootState := by
  intro h
  have hstart : (namexStart ([47, 109, 110, 116, 47] ++ List.replicate 14 97) rootState).map
      (fun r => (r.1, (r.2.cache.inode r.1.1).dev)) =
        .ok ((1, [47] ++ List.replicate 14 97), EXT2DEV) := by decide
  cases hs : namexStart ([47, 109, 110, 116, 47] ++ List.replicate 14 97) rootState with
  | error e => rw [hs] at hstart; exact nomatch hstart
  | ok r =>
    obtain ⟨⟨a, rest⟩, k'⟩ := r
    rw [hs] at hstart
    obtain ⟨h1, h2⟩ := ok_pair_inj hstart
    obtain ⟨rfl, rfl⟩ := Prod.mk.inj h1
    have := h _ _ _ (.start hs) (List.replicate 14 97) [] (by decide)
    rw [show (k'.cache.inode 1).dev = EXT2DEV from h2] at this
    exact absurd this (by decide)

end Kernel
