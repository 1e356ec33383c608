import MigtdIgvmVerifier.Rust.Core

/-!
# IGVM directives and the guest memory they describe

An IGVM file describes the initial guest-physical memory of a confidential VM as a stream of
directives. The verifier reads only `PageData`: a 4 KiB page at a GPA with its bytes, where empty
data stands for a page of zeros. Every other kind of directive is `other` here, since the
extraction skips them all, and of a `PageData` only the GPA and the data are kept; its
compatibility mask, flags and data type are read by no code of the verifier.

`guestByte` is the memory the stream describes, as the IGVM format defines it rather than as the
verifier computes it: the byte at a GPA is the byte at its offset in the data of the last
directive for its page, and zero where no directive, or an empty one, covers it. The
reconstruction of the configuration volume is checked against it.
-/

namespace MigtdIgvmVerifier.Igvm

/-- `PAGE_SIZE_4K`. -/
def pageSize : Nat := 4096

/-- An `IgvmDirectiveHeader`, as far as the verifier looks into it. -/
inductive IgvmDirectiveHeader where
  /-- `PageData { gpa, data, .. }`. -/
  | pageData (gpa : UInt64) (data : List UInt8)
  /-- Any other directive. -/
  | other
  deriving DecidableEq, Repr

/-- An `IgvmFile`, as far as `igvm.directives()` shows it. -/
structure IgvmFile where
  directives : List IgvmDirectiveHeader

/-- A page directive as IGVM files carry it: a page-aligned GPA, and either no data (a page of
zeros) or a full page of it. -/
def IgvmDirectiveHeader.WellFormed : IgvmDirectiveHeader → Prop
  | .pageData gpa data => gpa.toNat % pageSize = 0 ∧ (data = [] ∨ data.length = pageSize)
  | .other => True

instance : DecidablePred IgvmDirectiveHeader.WellFormed
  | .pageData _ _ => inferInstanceAs (Decidable (_ ∧ _))
  | .other => inferInstanceAs (Decidable True)

/-- The data a directive gives the page at `page`, if it is a `PageData` for it. -/
def IgvmDirectiveHeader.dataFor (page : Nat) : IgvmDirectiveHeader → Option (List UInt8)
  | .pageData gpa data => if gpa.toNat = page then some data else none
  | .other => none

/-- The data the stream leaves in the page at `page`: a later directive overrides an earlier
one. -/
def pageContents (directives : List IgvmDirectiveHeader) (page : Nat) : Option (List UInt8) :=
  directives.foldr (fun directive later => later.or (directive.dataFor page)) none

/-- The byte at `gpa` of the guest memory the directives describe. -/
def guestByte (directives : List IgvmDirectiveHeader) (gpa : Nat) : UInt8 :=
  match pageContents directives (gpa / pageSize * pageSize) with
  | some data => data.getD (gpa % pageSize) 0
  | none => 0

/-- The bytes `[start, start + length)` of that memory. -/
def memoryWindow (directives : List IgvmDirectiveHeader) (start length : Nat) : List UInt8 :=
  (List.range length).map fun offset => guestByte directives (start + offset)

/-- The bytes of one page of that memory: its data, zero past the end of it. -/
def pageBytes (contents : Option (List UInt8)) : List UInt8 :=
  (List.range pageSize).map fun offset => (contents.getD []).getD offset 0

@[simp] theorem pageContents_nil (page : Nat) : pageContents [] page = none := rfl

@[simp]
theorem pageContents_cons (directive : IgvmDirectiveHeader) (rest : List IgvmDirectiveHeader)
    (page : Nat) :
    pageContents (directive :: rest) page = (pageContents rest page).or (directive.dataFor page) :=
  rfl

@[simp] theorem length_memoryWindow (directives : List IgvmDirectiveHeader) (start length : Nat) :
    (memoryWindow directives start length).length = length := by
  simp [memoryWindow]

theorem memoryWindow_add (directives : List IgvmDirectiveHeader) (start front back : Nat) :
    memoryWindow directives start (front + back) =
      memoryWindow directives start front ++ memoryWindow directives (start + front) back := by
  simp [memoryWindow, List.range_add, Nat.add_assoc]

/-- A page-aligned window of one page holds that page's bytes. -/
theorem memoryWindow_page (directives : List IgvmDirectiveHeader) {page : Nat}
    (hpage : page % pageSize = 0) :
    memoryWindow directives page pageSize = pageBytes (pageContents directives page) := by
  refine List.map_congr_left fun offset hoffset => ?_
  rw [List.mem_range] at hoffset
  have hdiv : (page + offset) / pageSize * pageSize = page := by
    unfold pageSize at hpage hoffset ⊢
    omega
  have hmod : (page + offset) % pageSize = offset := by
    unfold pageSize at hpage hoffset ⊢
    omega
  simp only [guestByte, hdiv, hmod]
  cases pageContents directives page <;> rfl

theorem pageBytes_of_length {data : List UInt8} (h : data.length = pageSize) :
    pageBytes (some data) = data :=
  List.ext_getElem (by simp [pageBytes, h]) fun offset _ hoffset => by
    simp [pageBytes, List.getD_eq_getElem?_getD, List.getElem?_eq_getElem hoffset]

theorem pageBytes_zero (contents : Option (List UInt8)) (h : contents.getD [] = []) :
    pageBytes contents = List.replicate pageSize 0 :=
  List.eq_replicate_iff.mpr ⟨by simp [pageBytes], by simp [pageBytes, h]⟩

/-- Memory that no directive covers reads as zeros. -/
theorem memoryWindow_of_no_pages {directives : List IgvmDirectiveHeader} {start length : Nat}
    (hstart : start % pageSize = 0)
    (hnone : ∀ page, start ≤ page → page < start + length → pageContents directives page = none) :
    memoryWindow directives start length = List.replicate length 0 := by
  refine List.eq_replicate_iff.mpr ⟨length_memoryWindow _ _ _, fun byte hbyte => ?_⟩
  obtain ⟨offset, hoffset, rfl⟩ := List.mem_map.mp hbyte
  rw [List.mem_range] at hoffset
  have hpage := hnone ((start + offset) / pageSize * pageSize)
    (by unfold pageSize at hstart ⊢; omega) (by unfold pageSize; omega)
  simp [guestByte, hpage]

end MigtdIgvmVerifier.Igvm
