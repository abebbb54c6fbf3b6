import Xv6Ext2.Ext2DirProofs
import Xv6Ext2.Xv6DirProofs

/-! # Path names (fs.c)

    `skipelem` takes the next element off a path and copies it to a buffer; how many
    bytes it copies depends on the device that the walk is on.

    - `skipelem_components` : the elements that it takes one after another are the
      non-empty parts of the path between slashes.
    - `elements_split` : calls until it returns 0, with what each leaves in the buffer. -/

namespace Path

open BufCache Param
open ByteBlock (Block blit blit_in)
open Xv6Dir (DIRSIZ)
open Ext2Dir (EXT2_NAME_LEN)

def SLASH : UInt8 := 47

def firstByte (path : List UInt8) : UInt8 := path.headD 0

/-- `while(*path == '/') path++`. -/
def skipSlashes (path : List UInt8) : List UInt8 := path.dropWhile (fun c => c == SLASH)

/-- `*path != '/' && *path != 0`. -/
def inElem (c : UInt8) : Bool := c != SLASH && c != 0

/-- The most bytes that `skipelem` copies on a device. -/
def dirlen (dev : Nat) : Nat := if dev = ROOTDEV then DIRSIZ else EXT2_NAME_LEN

/-- The number of bytes that `skipelem` stores for an element of `len` bytes: a longer
    element is cut, a shorter one gets a NUL. -/
def stores (dev len : Nat) : Nat := if dirlen dev ≤ len then dirlen dev else len + 1

/-- Copy the next path element; returns the element and the rest of the path, without
    leading slashes. -/
def skipelem (path : List UInt8) : Option (List UInt8 × List UInt8) :=
  let path := skipSlashes path
  if firstByte path = 0 then none
  else some (path.takeWhile inElem, skipSlashes (path.dropWhile inElem))

/-- The name that is in the buffer afterwards. -/
def stored (dev : Nat) (elem : List UInt8) : List UInt8 := elem.take (dirlen dev)

/-- The non-empty parts of a path between slashes, up to its NUL. -/
def components (path : List UInt8) : List (List UInt8) :=
  ((path.takeWhile (fun c => c != 0)).splitOn SLASH).filter (fun e => e != [])

/-! ## The elements of a path are its components -/

lemma components_slash (path : List UInt8) : components (SLASH :: path) = components path := by
  rw [components, List.takeWhile_cons_of_pos (by decide), List.splitOn,
    List.splitOnP_cons_eq_if_modifyHead, if_pos (by decide), List.filter_cons_of_neg (by decide)]
  rfl

lemma components_skipSlashes (path : List UInt8) :
    components (skipSlashes path) = components path := by
  induction path with
  | nil => rfl
  | cons c path ih =>
    by_cases hc : c = SLASH
    · rwa [hc, components_slash, skipSlashes, List.dropWhile_cons_of_pos (by decide)]
    · rw [skipSlashes, List.dropWhile_cons_of_neg (by simpa using hc)]

lemma components_of_end {path : List UInt8} (h : firstByte path = 0) : components path = [] := by
  cases path with
  | nil => rfl
  | cons c path =>
    obtain rfl : c = 0 := h
    rw [components, List.takeWhile_cons_of_neg (by decide)]
    rfl

/-- Bytes without a slash in front are in front of the first part. -/
lemma splitOn_append {e t : List UInt8} (he : ∀ c ∈ e, inElem c = true) :
    (e ++ t).splitOn SLASH = (t.splitOn SLASH).modifyHead (e ++ ·) := by
  induction e with
  | nil => exact (List.modifyHead_id ▸ rfl)
  | cons c e ih =>
    have hc : (c == SLASH) = false := by
      have := he c List.mem_cons_self
      rw [inElem, Bool.and_eq_true] at this
      simpa using this.1
    have ih := ih (fun d hd => he d (List.mem_cons_of_mem c hd))
    rw [List.splitOn] at ih ⊢
    rw [List.cons_append, List.splitOnP_cons_eq_if_modifyHead, hc, if_neg Bool.false_ne_true, ih,
      List.modifyHead_modifyHead]
    rfl

/-- An element, followed by a slash or the end, is a component. -/
lemma components_elem {e rest : List UInt8} (he : ∀ c ∈ e, inElem c = true) (hne : e ≠ [])
    (hrest : inElem (firstByte rest) = false) : components (e ++ rest) = e :: components rest := by
  have hcut : (e ++ rest).takeWhile (fun c => c != 0) = e ++ rest.takeWhile (fun c => c != 0) := by
    refine List.takeWhile_append_of_pos (fun c hc => ?_)
    have := he c hc
    rw [inElem, Bool.and_eq_true] at this
    exact this.2
  rw [components, hcut, splitOn_append he]
  by_cases hend : firstByte rest = 0
  · have hnil : rest.takeWhile (fun c => c != 0) = [] := by
      cases rest with
      | nil => rfl
      | cons c rest =>
        obtain rfl : c = 0 := hend
        rfl
    rw [components_of_end hend, hnil, List.splitOn_nil, List.modifyHead_cons, List.append_nil,
      List.filter_cons_of_pos (by simpa using hne)]
    rfl
  cases rest with
  | nil => exact absurd rfl hend
  | cons c rest =>
    have hend : c ≠ 0 := hend
    obtain rfl : c = SLASH := by
      have hrest : (c != SLASH && c != 0) = false := hrest
      rw [Bool.and_eq_false_iff] at hrest
      rcases hrest with h | h
      · simpa using h
      · exact absurd (by simpa using h) hend
    rw [components_slash, components, List.takeWhile_cons_of_pos (by decide), List.splitOn,
      List.splitOnP_cons_eq_if_modifyHead, if_pos (by decide), List.modifyHead_cons,
      List.append_nil, List.filter_cons_of_pos (by simpa using hne)]
    rfl

lemma inElem_dropWhile (path : List UInt8) :
    inElem (firstByte (path.dropWhile inElem)) = false := by
  induction path with
  | nil => decide
  | cons c path ih =>
    by_cases hc : inElem c = true
    · rwa [List.dropWhile_cons_of_pos hc]
    · rw [List.dropWhile_cons_of_neg hc]
      exact Bool.not_eq_true _ ▸ hc

lemma firstByte_skipSlashes (path : List UInt8) : firstByte (skipSlashes path) ≠ SLASH := by
  induction path with
  | nil => decide
  | cons c path ih =>
    by_cases hc : c = SLASH
    · rwa [skipSlashes, List.dropWhile_cons_of_pos (by simpa using hc)]
    · rwa [skipSlashes, List.dropWhile_cons_of_neg (by simpa using hc)]

/-- `skipelem` returns 0 at the end of the path; otherwise it returns the first component,
    and the rest has the other ones. -/
lemma skipelem_components (path : List UInt8) : match skipelem path with
    | none => components path = []
    | some (e, rest) => components path = e :: components rest ∧ e ≠ [] ∧
        rest.length < path.length ∧ firstByte rest ≠ SLASH := by
  rw [skipelem]
  by_cases hend : firstByte (skipSlashes path) = 0
  · rw [if_pos hend]
    show components path = []
    rw [← components_skipSlashes, components_of_end hend]
  rw [if_neg hend]
  have hsplit := List.takeWhile_append_dropWhile (p := inElem) (l := skipSlashes path)
  have hne : (skipSlashes path).takeWhile inElem ≠ [] := by
    intro h0
    -- otherwise the path starts with a byte of an element that was not taken
    cases hp : skipSlashes path with
    | nil => rw [hp] at hend; exact hend rfl
    | cons c l =>
      have hc : inElem c = true := by
        have h1 := firstByte_skipSlashes path
        rw [hp] at h1 hend
        have h1 : c ≠ SLASH := h1
        have hend : c ≠ 0 := hend
        simp [inElem, h1, hend]
      rw [hp, List.takeWhile_cons_of_pos hc] at h0
      exact nomatch h0
  refine ⟨?_, hne, ?_, firstByte_skipSlashes _⟩
  · calc components path
        = components (skipSlashes path) := (components_skipSlashes path).symm
      _ = components ((skipSlashes path).takeWhile inElem ++
            (skipSlashes path).dropWhile inElem) := by rw [hsplit]
      _ = _ := components_elem (fun c hc => List.mem_takeWhile_imp hc) hne
            (inElem_dropWhile _)
      _ = _ := by rw [components_skipSlashes]
  · have h1 : (skipSlashes path).length ≤ path.length := List.length_dropWhile_le _ _
    have h2 : (skipSlashes ((skipSlashes path).dropWhile inElem)).length
        ≤ ((skipSlashes path).dropWhile inElem).length := List.length_dropWhile_le _ _
    have h3 := congrArg List.length hsplit
    rw [List.length_append] at h3
    have h4 := List.length_pos_iff.mpr hne
    omega

/-! ## All the elements, and the buffer -/

/-- The buffer of `skipelem` after the element was copied to it. -/
def copyName (dev : Nat) (elem : List UInt8) (name : Block) : Block :=
  if dirlen dev ≤ elem.length then blit name 0 (dirlen dev) (fun k => elem.getD k 0)
  else Function.update (blit name 0 elem.length (fun k => elem.getD k 0)) elem.length 0

/-- Call `skipelem` until it returns 0: the buffer and the rest of the path after each call
    that returns an element.  `none` is a loop that has not ended after `fuel` calls. -/
def elements (dev : Nat) : Nat → List UInt8 → Block → Option (List (Block × List UInt8))
  | 0, _, _ => none
  | fuel + 1, path, name =>
    match skipelem path with
    | none => some []
    | some (elem, rest) =>
      (elements dev fuel rest (copyName dev elem name)).map ((copyName dev elem name, rest) :: ·)

/-- The buffer holds the element, cut to the limit of the device; there is a NUL within the
    limit, at the element's end, exactly if the element is shorter. -/
structure Named (dev : Nat) (elem : List UInt8) (name : Block) : Prop where
  bytes : ∀ k, k < dirlen dev → ∀ h : k < elem.length, name k = elem[k]
  nul   : ∀ k, k < dirlen dev → k ≤ elem.length → (name k = 0 ↔ k = elem.length)

lemma named_copyName {elem : List UInt8} (h0 : ∀ c ∈ elem, c ≠ 0) (dev : Nat) (name : Block) :
    Named dev elem (copyName dev elem name) := by
  have hbytes : ∀ k, k < dirlen dev → ∀ h : k < elem.length,
      copyName dev elem name k = elem[k] := by
    intro k hk h
    unfold copyName
    by_cases hlong : dirlen dev ≤ elem.length
    · rw [if_pos hlong, blit_in (by omega), Nat.sub_zero, List.getD_eq_getElem _ _ h]
    · rw [if_neg hlong, Function.update_of_ne (by omega), blit_in (by omega),
        Nat.sub_zero, List.getD_eq_getElem _ _ h]
  refine ⟨hbytes, fun k hk hle => ⟨fun hnul => ?_, fun heq => ?_⟩⟩
  · -- the bytes of an element are not NUL
    by_contra hne
    have hlt : k < elem.length := by omega
    rw [hbytes k hk hlt] at hnul
    exact h0 _ (List.getElem_mem hlt) hnul
  · rw [heq, copyName, if_neg (by omega), Function.update_self]

lemma skipelem_no_nul {path elem rest : List UInt8} (h : skipelem path = some (elem, rest)) :
    ∀ c ∈ elem, c ≠ 0 := by
  rw [skipelem] at h
  split_ifs at h
  obtain ⟨rfl, -⟩ := Prod.mk.inj (Option.some.inj h)
  intro c hc
  have hin := List.mem_takeWhile_imp hc
  rw [inElem, Bool.and_eq_true] at hin
  simpa using hin.2

/-- Without a leading slash, the path is at its end exactly if it has no component. -/
lemma components_nil_iff {path : List UInt8} (h : firstByte path ≠ SLASH) :
    components path = [] ↔ firstByte path = 0 := by
  refine ⟨fun hnil => ?_, components_of_end⟩
  by_contra hne
  have hsame : skipSlashes path = path := by
    cases path with
    | nil => rfl
    | cons c path => exact List.dropWhile_cons_of_neg (by simpa [firstByte] using h)
  have hcomp := skipelem_components path
  rw [skipelem, hsame, if_neg hne] at hcomp
  rw [hnil] at hcomp
  exact absurd hcomp.1.symm (List.cons_ne_nil _ _)

/-- **The elements of a path.**  On every device, `skipelem` returns 0 after as many calls as
    the path has components.  The calls before leave these in the buffer, in order; each rest
    starts with no slash, and only the last one is empty. -/
theorem elements_split (dev : Nat) (path : List UInt8) (name : Block) :
    ∃ l, (∀ fuel, path.length < fuel → elements dev fuel path name = some l) ∧
      List.Forall₂ (fun elem r => Named dev elem r.1) (components path) l ∧
      ∀ before r after, l = before ++ r :: after →
        firstByte r.2 ≠ SLASH ∧ (firstByte r.2 = 0 ↔ after = []) := by
  -- the rest is shorter than the path
  induction hn : path.length using Nat.strong_induction_on generalizing path name with
  | _ n ih =>
    have hcomp := skipelem_components path
    cases hs : skipelem path with
    | none =>
      rw [hs] at hcomp
      have hnil : components path = [] := hcomp
      refine ⟨[], fun fuel hfuel => ?_, hnil ▸ List.Forall₂.nil, fun before r after hl => ?_⟩
      · obtain ⟨fuel, rfl⟩ : ∃ m, fuel = m + 1 := ⟨fuel - 1, by omega⟩
        rw [elements, hs]
      · exact absurd hl.symm (List.append_ne_nil_of_right_ne_nil _ (List.cons_ne_nil _ _))
    | some p =>
      obtain ⟨elem, rest⟩ := p
      rw [hs] at hcomp
      obtain ⟨hsplit, -, hlen, hslash⟩ := hcomp
      obtain ⟨l, hrun, hnames, hrests⟩ :=
        ih rest.length (by omega) rest (copyName dev elem name) rfl
      refine ⟨(copyName dev elem name, rest) :: l, fun fuel hfuel => ?_, ?_, ?_⟩
      · obtain ⟨fuel, rfl⟩ : ∃ m, fuel = m + 1 := ⟨fuel - 1, by omega⟩
        rw [elements, hs]
        show (elements dev fuel rest (copyName dev elem name)).map _ = _
        rw [hrun fuel (by omega)]
        rfl
      · rw [hsplit]
        exact .cons (named_copyName (skipelem_no_nul hs) dev name) hnames
      · intro before r after hl
        cases before with
        | nil =>
          obtain ⟨rfl, rfl⟩ := List.cons.inj hl
          refine ⟨hslash, (components_nil_iff hslash).symm.trans ?_⟩
          rw [← List.length_eq_zero_iff, hnames.length_eq, List.length_eq_zero_iff]
        | cons b before => exact hrests before r after (List.cons.inj hl).2

end Path
