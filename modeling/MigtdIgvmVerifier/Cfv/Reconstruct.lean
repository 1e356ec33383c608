import MigtdIgvmVerifier.Igvm.Directive
import Mathlib.Data.List.Sort

/-!
# Rebuilding the configuration volume from the page data

The first half of `extract_cfv_from_igvm`: collect the `(gpa, data)` of every `PageData`
directive, sort them by GPA, require a page with data at `CFV_GPA`, then append the data of every
page whose GPA falls in `[CFV_GPA, CFV_GPA + cfv_size)`, in GPA order, and pad the result with
zeros up to `cfv_size`.

`reconstructCfv_of_hasCfvStart` gives the buffer this returns, `rebuiltRegion`: the selected
pages' data laid end to end, then the zeros. Without a page at `CFV_GPA` the rebuild reports which
search failed, and it panics exactly when the region would pass `isize::MAX` bytes
(`reconstructCfv_isPanic_iff`). The data is concatenated, not placed at the offset of its GPA, so
the buffer agrees with the guest memory only where the pages before a byte fill the window
without gap, overlap or short page. `reconstructCfv_eq_memoryWindow` shows that it does when the
pages in the window are full and `Contiguous`, and `rebuiltRegion_eq_memoryWindow` that the
padding then stands for the pages of zeros a file leaves out at the end of the window; a page of
zeros given without data inside the window breaks this, and
`reconstructCfv_misplaces_page_after_zero_page` shows the page after it moved into its place.

The rebuild reads nothing of the stream but whether it has page data, whether a page with data
sits at `CFV_GPA`, and the pages of the window, sorted (`reconstructCfv_congr`). Since sorting
commutes with selecting the window (`sortByGpa_filter`), pages outside the window never matter,
and the stream order of the window's pages does not either when their GPAs are distinct
(`sortByGpa_eq_of_perm`).

A build without overflow checks wraps the window's end where one with them panics; the wrapped
window selects no page and the padding then panics, so that the two builds agree up to the
message of a panic (`reconstructCfv_sameUpToPanic`).
-/

namespace MigtdIgvmVerifier.Cfv.Reconstruct

open Rust Igvm

/-- `CFV_GPA`: where the IGVM image maps the configuration volume. -/
def cfvGpa : UInt64 := 0x2000000

/-- `all_pages`: the GPA and data of every `PageData` directive, in stream order. -/
def collectPages (directives : List IgvmDirectiveHeader) : List (UInt64 × List UInt8) :=
  directives.filterMap fun
    | .pageData gpa data => some (gpa, data)
    | .other => none

/-- `all_pages.sort_by_key(|(gpa, _)| *gpa)`, a stable sort. -/
def sortByGpa (pages : List (UInt64 × List UInt8)) : List (UInt64 × List UInt8) :=
  pages.insertionSort fun page page' => page.1 ≤ page'.1

/-- The search for the volume's first page: a page at `CFV_GPA` that has data. -/
def findCfvStart (pages : List (UInt64 × List UInt8)) : Outcome UInt64 :=
  match pages.find? fun page => page.1 == cfvGpa && !page.2.isEmpty with
  | some page => .ok page.1
  | none => .error "CFV not found at expected GPA 0x2000000"

/-- The condition of the collecting loop: `*gpa >= start_gpa && *gpa < end_gpa`. -/
def inWindow (startGpa endGpa : Nat) (page : UInt64 × List UInt8) : Bool :=
  startGpa ≤ page.1.toNat && page.1.toNat < endGpa

/-- The collecting loop: `cfv_data.extend_from_slice(data)` for every page in the window. -/
def extendWithPages (startGpa endGpa : Nat) :
    List (UInt64 × List UInt8) → ByteVec → Outcome ByteVec
  | [], cfvData => .ok cfvData
  | page :: pages, cfvData =>
    if inWindow startGpa endGpa page then do
      extendWithPages startGpa endGpa pages (← cfvData.extendFromSlice page.2)
    else extendWithPages startGpa endGpa pages cfvData

/-- `if cfv_data.len() < cfv_size as usize { ... cfv_data.extend(repeat(0).take(padding)) }`. -/
def padToSize (cfvData : ByteVec) (cfvSize : Nat) : Outcome ByteVec :=
  if cfvData.length < cfvSize then
    cfvData.extendFromSlice (List.replicate (cfvSize - cfvData.length) 0)
  else .ok cfvData

variable (overflowChecks : Bool)

/-- `extract_cfv_from_igvm` up to the header resolution: the configuration region rebuilt from
the page data. -/
def reconstructCfv (directives : List IgvmDirectiveHeader) (cfvSize : UInt64) :
    Outcome ByteVec := do
  let allPages := collectPages directives
  if allPages.isEmpty then .error "No page data found in IGVM file"
  else
    let allPages := sortByGpa allPages
    let startGpa ← findCfvStart allPages
    let endGpa ← addU64 overflowChecks startGpa.toNat cfvSize.toNat
    let cfvData ← extendWithPages startGpa.toNat endGpa allPages ByteVec.new
    padToSize cfvData cfvSize.toNat

/-! ## The rebuilt region -/

/-- The bytes the rebuilt region holds: the data of the pages in the window, in the order given,
end to end, then zeros up to `cfvSize`. -/
def cfvBytes (pages : List (UInt64 × List UInt8)) (startGpa endGpa cfvSize : Nat) :
    List UInt8 :=
  let data := (pages.filter (inWindow startGpa endGpa)).flatMap Prod.snd
  data ++ List.replicate (cfvSize - data.length) 0

/-- The directives hold a page with data at `CFV_GPA`, where the search for the volume's first
page looks. -/
def HasCfvStart (directives : List IgvmDirectiveHeader) : Prop :=
  ∃ page ∈ collectPages directives, page.1 = cfvGpa ∧ page.2 ≠ []

instance : DecidablePred HasCfvStart :=
  fun _ => inferInstanceAs (Decidable (∃ page ∈ _, _))

/-- The region the rebuild returns when it returns: `cfvBytes` of the sorted pages over the
window from `CFV_GPA`. -/
def rebuiltRegion (directives : List IgvmDirectiveHeader) (cfvSize : UInt64) : List UInt8 :=
  cfvBytes (sortByGpa (collectPages directives)) cfvGpa.toNat (cfvGpa.toNat + cfvSize.toNat)
    cfvSize.toNat

@[simp] theorem collectPages_nil : collectPages [] = [] := rfl

@[simp]
theorem collectPages_cons_pageData (gpa : UInt64) (data : List UInt8)
    (directives : List IgvmDirectiveHeader) :
    collectPages (.pageData gpa data :: directives) = (gpa, data) :: collectPages directives := rfl

@[simp]
theorem collectPages_cons_other (directives : List IgvmDirectiveHeader) :
    collectPages (.other :: directives) = collectPages directives := rfl

@[simp]
theorem collectPages_append (front back : List IgvmDirectiveHeader) :
    collectPages (front ++ back) = collectPages front ++ collectPages back :=
  List.filterMap_append _ _ _

@[simp]
theorem inWindow_mk (startGpa endGpa : Nat) (gpa : UInt64) (data : List UInt8) :
    inWindow startGpa endGpa (gpa, data) = (startGpa ≤ gpa.toNat && gpa.toNat < endGpa) := rfl

theorem extendWithPages_eq_ok (startGpa endGpa : Nat) (pages : List (UInt64 × List UInt8))
    (cfvData : ByteVec)
    (hfits : cfvData.bytes.length +
      ((pages.filter (inWindow startGpa endGpa)).flatMap Prod.snd).length ≤ isizeMax) :
    ∃ out, extendWithPages startGpa endGpa pages cfvData = .ok out ∧
      out.bytes = cfvData.bytes ++ (pages.filter (inWindow startGpa endGpa)).flatMap Prod.snd := by
  induction pages generalizing cfvData with
  | nil => exact ⟨cfvData, rfl, by simp⟩
  | cons page pages ih =>
    by_cases hin : inWindow startGpa endGpa page
    · simp only [List.filter_cons_of_pos hin, List.flatMap_cons, List.length_append] at hfits
      obtain ⟨extended, hextend, hbytes⟩ := cfvData.extendFromSlice_of_le page.2 (by omega)
      obtain ⟨out, hout, hbytesOut⟩ := ih extended (by rw [hbytes, List.length_append]; omega)
      refine ⟨out, by simp only [extendWithPages, if_pos hin, hextend, Outcome.ok_bind, hout], ?_⟩
      simp [hbytesOut, hbytes, List.filter_cons_of_pos hin]
    · simp only [List.filter_cons_of_neg hin] at hfits ⊢
      obtain ⟨out, hout, hbytesOut⟩ := ih cfvData hfits
      exact ⟨out, by simp only [extendWithPages, if_neg hin, hout], hbytesOut⟩

theorem padToSize_eq_ok (cfvData : ByteVec) (cfvSize : Nat) (hsize : cfvSize ≤ isizeMax) :
    ∃ out, padToSize cfvData cfvSize = .ok out ∧
      out.bytes = cfvData.bytes ++ List.replicate (cfvSize - cfvData.bytes.length) 0 := by
  unfold padToSize
  simp only [ByteVec.length_eq]
  split_ifs with hshort
  · exact cfvData.extendFromSlice_of_le _ (by simp only [List.length_replicate]; omega)
  · exact ⟨cfvData, rfl, by simp [Nat.sub_eq_zero_of_le (Nat.not_lt.mp hshort)]⟩

/-- The search for the first page finds `CFV_GPA` when a page with data is there, and reports
that it is missing otherwise. -/
theorem findCfvStart_cases (pages : List (UInt64 × List UInt8)) :
    ((∃ page ∈ pages, page.1 = cfvGpa ∧ page.2 ≠ []) ∧ findCfvStart pages = .ok cfvGpa) ∨
      (¬ (∃ page ∈ pages, page.1 = cfvGpa ∧ page.2 ≠ []) ∧
        findCfvStart pages = .error "CFV not found at expected GPA 0x2000000") := by
  unfold findCfvStart
  split
  next page hfind =>
    have hpage := List.find?_some hfind
    simp only [Bool.and_eq_true, beq_iff_eq, Bool.not_eq_true'] at hpage
    exact .inl ⟨⟨page, List.mem_of_find?_eq_some hfind, hpage.1, fun hnil => by
      simp [hnil] at hpage⟩, by rw [hpage.1]⟩
  next hfind =>
    refine .inr ⟨fun ⟨page, hmem, hgpa, hdata⟩ => ?_, rfl⟩
    have := List.find?_eq_none.mp hfind page hmem
    simp [hgpa, hdata] at this

theorem mem_sortByGpa {pages : List (UInt64 × List UInt8)} {page : UInt64 × List UInt8} :
    page ∈ sortByGpa pages ↔ page ∈ pages :=
  (List.perm_insertionSort _ pages).mem_iff

theorem sortByGpa_of_sorted {pages : List (UInt64 × List UInt8)}
    (h : pages.Pairwise fun page page' => page.1 ≤ page'.1) : sortByGpa pages = pages :=
  List.Sorted.insertionSort_eq h

theorem length_cfvBytes (pages : List (UInt64 × List UInt8)) (startGpa endGpa cfvSize : Nat) :
    (cfvBytes pages startGpa endGpa cfvSize).length =
      max ((pages.filter (inWindow startGpa endGpa)).flatMap Prod.snd).length cfvSize := by
  simp only [cfvBytes, List.length_append, List.length_replicate]
  omega

theorem add_lt_of_length_rebuiltRegion_le {directives : List IgvmDirectiveHeader}
    {cfvSize : UInt64} (hfits : (rebuiltRegion directives cfvSize).length ≤ isizeMax) :
    cfvGpa.toNat + cfvSize.toNat < 2 ^ 64 := by
  have hregion := length_cfvBytes (sortByGpa (collectPages directives)) cfvGpa.toNat
    (cfvGpa.toNat + cfvSize.toNat) cfvSize.toNat
  have : cfvGpa.toNat = 2 ^ 25 := rfl
  rw [rebuiltRegion] at hfits
  unfold isizeMax at hfits
  omega

/-- With a page with data at `CFV_GPA`, the rebuild is the window's end, the collecting loop and
the padding. -/
theorem reconstructCfv_eq_of_hasCfvStart {directives : List IgvmDirectiveHeader}
    {cfvSize : UInt64} (hstart : HasCfvStart directives) :
    reconstructCfv overflowChecks directives cfvSize = (do
      let endGpa ← addU64 overflowChecks cfvGpa.toNat cfvSize.toNat
      let cfvData ← extendWithPages cfvGpa.toNat endGpa (sortByGpa (collectPages directives))
        ByteVec.new
      padToSize cfvData cfvSize.toNat) := by
  obtain ⟨page, hmem, hpage⟩ := hstart
  have hpages : (collectPages directives).isEmpty = false :=
    List.isEmpty_eq_false.mpr (List.ne_nil_of_mem hmem)
  have hfind := ((findCfvStart_cases _).resolve_right fun hnone =>
    hnone.1 ⟨page, mem_sortByGpa.mpr hmem, hpage⟩).2
  simp only [reconstructCfv, hpages, Bool.false_eq_true, if_false, hfind, Outcome.ok_bind]

/-- Without one, the rebuild reports the search that failed. -/
theorem reconstructCfv_of_not_hasCfvStart {directives : List IgvmDirectiveHeader}
    {cfvSize : UInt64} (hstart : ¬ HasCfvStart directives) :
    reconstructCfv overflowChecks directives cfvSize =
      .error (if (collectPages directives).isEmpty then "No page data found in IGVM file"
        else "CFV not found at expected GPA 0x2000000") := by
  unfold reconstructCfv
  by_cases hempty : (collectPages directives).isEmpty
  · simp only [hempty, if_true]
  · rcases findCfvStart_cases (sortByGpa (collectPages directives)) with
      ⟨⟨page, hmem, hpage⟩, -⟩ | ⟨-, hfind⟩
    · exact absurd ⟨page, mem_sortByGpa.mp hmem, hpage⟩ hstart
    · simp only [hempty, Bool.false_eq_true, if_false, hfind, Outcome.error_bind]

/-- What the rebuild returns once a page with data sits at `CFV_GPA` and the region fits an
allocation. -/
theorem reconstructCfv_of_hasCfvStart {directives : List IgvmDirectiveHeader} {cfvSize : UInt64}
    (hstart : HasCfvStart directives)
    (hfits : (rebuiltRegion directives cfvSize).length ≤ isizeMax) :
    ∃ out, reconstructCfv overflowChecks directives cfvSize = .ok out ∧
      out.bytes = rebuiltRegion directives cfvSize := by
  obtain ⟨hdataFits, hsizeFits⟩ := Nat.max_le.mp ((length_cfvBytes _ _ _ _).symm.trans_le hfits)
  obtain ⟨cfvData, hextend, hbytes⟩ := extendWithPages_eq_ok cfvGpa.toNat
    (cfvGpa.toNat + cfvSize.toNat) (sortByGpa (collectPages directives)) ByteVec.new
    (by simp only [ByteVec.new_bytes, List.length_nil]; omega)
  obtain ⟨out, hpad, hbytesOut⟩ := padToSize_eq_ok cfvData cfvSize.toNat hsizeFits
  refine ⟨out, ?_, by rw [hbytesOut, hbytes]; simp [rebuiltRegion, cfvBytes]⟩
  rw [reconstructCfv_eq_of_hasCfvStart overflowChecks hstart,
    addU64_of_lt (add_lt_of_length_rebuiltRegion_le hfits), Outcome.ok_bind, hextend,
    Outcome.ok_bind, hpad]

/-! ## Errors and panics -/

theorem extendWithPages_isPanic_of_lt {startGpa endGpa : Nat}
    {pages : List (UInt64 × List UInt8)} {cfvData : ByteVec}
    (h : isizeMax < cfvData.bytes.length +
      ((pages.filter (inWindow startGpa endGpa)).flatMap Prod.snd).length) :
    (extendWithPages startGpa endGpa pages cfvData).isPanic = true := by
  induction pages generalizing cfvData with
  | nil =>
    have := cfvData.length_le
    simp at h
    omega
  | cons page pages ih =>
    by_cases hin : inWindow startGpa endGpa page
    · simp only [List.filter_cons_of_pos hin, List.flatMap_cons, List.length_append] at h
      simp only [extendWithPages, if_pos hin]
      by_cases hfits : cfvData.bytes.length + page.2.length ≤ isizeMax
      · obtain ⟨extended, hextend, hbytes⟩ := cfvData.extendFromSlice_of_le page.2 hfits
        rw [hextend, Outcome.ok_bind]
        exact ih (by rw [hbytes, List.length_append]; omega)
      · rw [ByteVec.extendFromSlice_of_lt (by omega), Outcome.panic_bind, Outcome.isPanic_panic]
    · simp only [List.filter_cons_of_neg hin] at h
      simpa only [extendWithPages, if_neg hin] using ih h

theorem padToSize_isPanic_iff {cfvData : ByteVec} {cfvSize : Nat} :
    (padToSize cfvData cfvSize).isPanic = true ↔ isizeMax < cfvSize := by
  have := cfvData.length_le
  unfold padToSize
  simp only [ByteVec.length_eq]
  split_ifs with hshort
  · by_cases hfits : cfvSize ≤ isizeMax
    · obtain ⟨out, hout, -⟩ := cfvData.extendFromSlice_of_le
        (List.replicate (cfvSize - cfvData.bytes.length) 0)
        (by simp only [List.length_replicate]; omega)
      simp only [hout, Outcome.isPanic_ok, Bool.false_eq_true, false_iff, not_lt]
      exact hfits
    · rw [ByteVec.extendFromSlice_of_lt (by simp only [List.length_replicate]; omega)]
      simp only [Outcome.isPanic_panic, true_iff]
      omega
  · simp only [Outcome.isPanic_ok, Bool.false_eq_true, false_iff, not_lt]
    omega

/-- **The rebuild panics exactly when it finds the volume's first page and the region it would
build passes `isize::MAX` bytes**, in both build profiles: an overflowing window end panics at
the addition, or wraps, selects no page, and panics in the padding. -/
theorem reconstructCfv_isPanic_iff {directives : List IgvmDirectiveHeader} {cfvSize : UInt64} :
    (reconstructCfv overflowChecks directives cfvSize).isPanic = true ↔
      HasCfvStart directives ∧ isizeMax < (rebuiltRegion directives cfvSize).length := by
  by_cases hstart : HasCfvStart directives
  · have hsize : cfvSize.toNat < 2 ^ 64 := cfvSize.toNat_lt_size
    have hregion : (rebuiltRegion directives cfvSize).length = max (((sortByGpa
        (collectPages directives)).filter (inWindow cfvGpa.toNat
          (cfvGpa.toNat + cfvSize.toNat))).flatMap Prod.snd).length cfvSize.toNat :=
      length_cfvBytes _ _ _ _
    rw [reconstructCfv_eq_of_hasCfvStart overflowChecks hstart, hregion]
    simp only [hstart, true_and]
    by_cases hend : cfvGpa.toNat + cfvSize.toNat < 2 ^ 64
    · rw [addU64_of_lt hend, Outcome.ok_bind, Outcome.isPanic_bind]
      by_cases hdata : (((sortByGpa (collectPages directives)).filter
          (inWindow cfvGpa.toNat (cfvGpa.toNat + cfvSize.toNat))).flatMap Prod.snd).length ≤
            isizeMax
      · obtain ⟨cfvData, hextend, hbytes⟩ := extendWithPages_eq_ok _ _ _ ByteVec.new
          (by simpa using hdata)
        simp only [hextend, Outcome.isPanic_ok, Bool.false_eq_true, false_or, Outcome.ok.injEq,
          exists_eq_left', padToSize_isPanic_iff]
        exact ⟨fun hbig => by omega, fun hbig => by omega⟩
      · rw [extendWithPages_isPanic_of_lt (by simpa using hdata)]
        exact iff_of_true (.inl rfl) (by omega)
    · have hbig : isizeMax < cfvSize.toNat := by
        have : cfvGpa.toNat = 2 ^ 25 := rfl
        unfold isizeMax
        omega
      refine iff_of_true ?_ (by omega)
      unfold addU64
      rw [if_neg hend]
      cases overflowChecks
      · have hnone : (sortByGpa (collectPages directives)).filter (inWindow cfvGpa.toNat
            ((cfvGpa.toNat + cfvSize.toNat) % 2 ^ 64)) = [] :=
          List.filter_eq_nil_iff.mpr fun page _ => by
            simp only [inWindow, Bool.and_eq_true, decide_eq_true_eq, not_and, not_lt]
            omega
        obtain ⟨cfvData, hextend, -⟩ := extendWithPages_eq_ok _ _ _ ByteVec.new
          (by rw [hnone]; simp)
        simp only [Bool.false_eq_true, if_false, Outcome.ok_bind, hextend]
        exact padToSize_isPanic_iff.mpr hbig
      · rfl
  · rw [reconstructCfv_of_not_hasCfvStart overflowChecks hstart]
    simp only [Outcome.isPanic_error, Bool.false_eq_true, hstart, false_and]

/-- The rebuild reports an error exactly when no page with data sits at `CFV_GPA`, with the
message of the search that failed. -/
theorem reconstructCfv_eq_error_iff {directives : List IgvmDirectiveHeader} {cfvSize : UInt64}
    {message : String} :
    reconstructCfv overflowChecks directives cfvSize = .error message ↔
      ¬ HasCfvStart directives ∧
        message = if (collectPages directives).isEmpty then "No page data found in IGVM file"
          else "CFV not found at expected GPA 0x2000000" := by
  by_cases hstart : HasCfvStart directives
  · simp only [hstart, not_true_eq_false, false_and, iff_false]
    intro h
    by_cases hfits : (rebuiltRegion directives cfvSize).length ≤ isizeMax
    · obtain ⟨out, hout, -⟩ := reconstructCfv_of_hasCfvStart overflowChecks hstart hfits
      rw [hout] at h
      cases h
    · have hpanic :=
        (reconstructCfv_isPanic_iff overflowChecks).mpr ⟨hstart, Nat.lt_of_not_le hfits⟩
      rw [h] at hpanic
      cases hpanic
  · rw [reconstructCfv_of_not_hasCfvStart overflowChecks hstart, Outcome.error.injEq]
    simp only [hstart, not_false_eq_true, true_and, eq_comm]

/-- What the rebuild returns, when it returns, is `rebuiltRegion`. -/
theorem bytes_of_reconstructCfv_eq_ok {directives : List IgvmDirectiveHeader} {cfvSize : UInt64}
    {out : ByteVec} (h : reconstructCfv overflowChecks directives cfvSize = .ok out) :
    HasCfvStart directives ∧ out.bytes = rebuiltRegion directives cfvSize := by
  have hstart : HasCfvStart directives := by
    by_contra hnone
    rw [reconstructCfv_of_not_hasCfvStart overflowChecks hnone] at h
    cases h
  have hfits : (rebuiltRegion directives cfvSize).length ≤ isizeMax := by
    by_contra hbig
    have hpanic := (reconstructCfv_isPanic_iff overflowChecks).mpr ⟨hstart, Nat.lt_of_not_le hbig⟩
    rw [h] at hpanic
    cases hpanic
  obtain ⟨out', hout', hbytes⟩ := reconstructCfv_of_hasCfvStart overflowChecks hstart hfits
  rw [h] at hout'
  cases hout'
  exact ⟨hstart, hbytes⟩

/-! ## What the rebuild reads -/

theorem perm_sortByGpa (pages : List (UInt64 × List UInt8)) : (sortByGpa pages).Perm pages :=
  List.perm_insertionSort _ pages

theorem sorted_sortByGpa (pages : List (UInt64 × List UInt8)) :
    (sortByGpa pages).Sorted fun page page' => page.1 ≤ page'.1 :=
  haveI : IsTotal (UInt64 × List UInt8) fun page page' => page.1 ≤ page'.1 :=
    ⟨fun page page' => Nat.le_total page.1.toNat page'.1.toNat⟩
  haveI : IsTrans (UInt64 × List UInt8) fun page page' => page.1 ≤ page'.1 :=
    ⟨fun _ _ _ => Nat.le_trans⟩
  List.sorted_insertionSort _ pages

section Window

variable (keep : UInt64 × List UInt8 → Bool)

/-- Inserting a page the filter drops leaves the filtered pages as they were. -/
theorem filter_orderedInsert_of_not_keep {page : UInt64 × List UInt8} (hdrop : keep page = false)
    (pages : List (UInt64 × List UInt8)) :
    (pages.orderedInsert (fun page page' => page.1 ≤ page'.1) page).filter keep =
      pages.filter keep := by
  induction pages with
  | nil => simp [hdrop]
  | cons first pages ih =>
    simp only [List.orderedInsert]
    split
    · simp [List.filter_cons, hdrop]
    · simp only [List.filter_cons, ih]

/-- Inserting a page the filter keeps into sorted pages inserts it into the filtered pages. -/
theorem filter_orderedInsert_of_keep {page : UInt64 × List UInt8} (hkeep : keep page = true)
    {pages : List (UInt64 × List UInt8)}
    (hsorted : pages.Sorted fun page page' => page.1 ≤ page'.1) :
    (pages.orderedInsert (fun page page' => page.1 ≤ page'.1) page).filter keep =
      (pages.filter keep).orderedInsert (fun page page' => page.1 ≤ page'.1) page := by
  induction pages with
  | nil => simp [hkeep]
  | cons first pages ih =>
    obtain ⟨hfirst, hrest⟩ := List.sorted_cons.mp hsorted
    by_cases hle : page.1 ≤ first.1
    · have hbefore : ∀ later ∈ pages.filter keep, page.1 ≤ later.1 := fun later hlater =>
        Nat.le_trans hle (hfirst later (List.mem_filter.mp hlater).1)
      simp only [List.orderedInsert, if_pos hle, List.filter_cons_of_pos hkeep]
      by_cases hkeepFirst : keep first
      · simp only [List.filter_cons_of_pos hkeepFirst, List.orderedInsert, if_pos hle]
      · rw [List.filter_cons_of_neg hkeepFirst]
        cases hfiltered : pages.filter keep with
        | nil => rfl
        | cons later rest =>
          rw [hfiltered] at hbefore
          simp only [List.orderedInsert, if_pos (hbefore later (List.mem_cons_self _ _))]
    · simp only [List.orderedInsert, if_neg hle, List.filter_cons, ih hrest]
      split <;> simp [hle]

/-- **Sorting commutes with selecting pages**: the selected pages sorted alone come in the order
they have among all the sorted pages, since the sort is stable. -/
theorem sortByGpa_filter (pages : List (UInt64 × List UInt8)) :
    sortByGpa (pages.filter keep) = (sortByGpa pages).filter keep := by
  induction pages with
  | nil => rfl
  | cons page pages ih =>
    have hsorted := sorted_sortByGpa pages
    simp only [sortByGpa, List.insertionSort] at ih hsorted ⊢
    cases hkeep : keep page
    · rw [List.filter_cons_of_neg (by simp [hkeep]), ih,
        filter_orderedInsert_of_not_keep keep hkeep]
    · rw [List.filter_cons_of_pos hkeep, List.insertionSort, ih,
        filter_orderedInsert_of_keep keep hkeep hsorted]

end Window

/-- **Sorting forgets the order of pages at distinct GPAs.** -/
theorem sortByGpa_eq_of_perm {pages pages' : List (UInt64 × List UInt8)} (hperm : pages.Perm pages')
    (hnodup : (pages.map Prod.fst).Nodup) : sortByGpa pages = sortByGpa pages' := by
  haveI : IsAntisymm (UInt64 × List UInt8) fun page page' => page.1.toNat < page'.1.toNat :=
    ⟨fun _ _ h h' => absurd (h.trans h') (Nat.lt_irrefl _)⟩
  have hstrict : ∀ sorted : List (UInt64 × List UInt8), sorted.Perm pages →
      sorted.Sorted (fun page page' => page.1 ≤ page'.1) →
      sorted.Sorted fun page page' => page.1.toNat < page'.1.toNat := fun sorted hsorted hle =>
    (hle.and (List.pairwise_map.mp ((hsorted.map Prod.fst).nodup_iff.mpr hnodup))).imp
      fun h => Nat.lt_of_le_of_ne h.1 fun heq => h.2 (UInt64.toNat.inj heq)
  have hsort := perm_sortByGpa pages
  have hsort' := perm_sortByGpa pages'
  exact List.eq_of_perm_of_sorted (hsort.trans (hperm.trans hsort'.symm))
    (hstrict _ hsort (sorted_sortByGpa pages)) (hstrict _ (hsort'.trans hperm.symm)
      (sorted_sortByGpa pages'))

/-- The collecting loop skips the pages outside the window. -/
theorem extendWithPages_filter (startGpa endGpa : Nat) (pages : List (UInt64 × List UInt8))
    (cfvData : ByteVec) :
    extendWithPages startGpa endGpa (pages.filter (inWindow startGpa endGpa)) cfvData =
      extendWithPages startGpa endGpa pages cfvData := by
  induction pages generalizing cfvData with
  | nil => rfl
  | cons page pages ih =>
    by_cases hin : inWindow startGpa endGpa page
    · simp only [List.filter_cons_of_pos hin, extendWithPages, if_pos hin, ih]
    · simp only [List.filter_cons_of_neg hin, extendWithPages, if_neg hin, ih]

theorem hasCfvStart_append {front back : List IgvmDirectiveHeader} :
    HasCfvStart (front ++ back) ↔ HasCfvStart front ∨ HasCfvStart back := by
  simp only [HasCfvStart, collectPages_append, List.mem_append, or_and_right, exists_or]

/-- The pages of the directives that fall in the window of `cfvSize` bytes from `CFV_GPA`, in
stream order. -/
def windowPages (directives : List IgvmDirectiveHeader) (cfvSize : UInt64) :
    List (UInt64 × List UInt8) :=
  (collectPages directives).filter (inWindow cfvGpa.toNat (cfvGpa.toNat + cfvSize.toNat))

/-- A window that ends before it starts holds no page. -/
theorem filter_inWindow_of_le {startGpa endGpa : Nat} (hle : endGpa ≤ startGpa)
    (pages : List (UInt64 × List UInt8)) : pages.filter (inWindow startGpa endGpa) = [] :=
  List.filter_eq_nil_iff.mpr fun page _ => by
    simp only [inWindow, Bool.and_eq_true, decide_eq_true_eq, not_and, not_lt]
    omega

/-- **The rebuild reads nothing but whether the stream has page data, whether it has a page with
data at `CFV_GPA`, and the pages of the window in GPA order**: two streams that agree on these
rebuild the same region, or fail the same way. -/
theorem reconstructCfv_congr {directives directives' : List IgvmDirectiveHeader}
    {cfvSize : UInt64}
    (hempty : (collectPages directives).isEmpty = (collectPages directives').isEmpty)
    (hstart : HasCfvStart directives ↔ HasCfvStart directives')
    (hwindow : sortByGpa (windowPages directives cfvSize) =
      sortByGpa (windowPages directives' cfvSize)) :
    reconstructCfv overflowChecks directives cfvSize =
      reconstructCfv overflowChecks directives' cfvSize := by
  by_cases hs : HasCfvStart directives
  · rw [reconstructCfv_eq_of_hasCfvStart overflowChecks hs,
      reconstructCfv_eq_of_hasCfvStart overflowChecks (hstart.mp hs)]
    have hpages : ∀ (endGpa : Nat) (directives : List IgvmDirectiveHeader),
        extendWithPages cfvGpa.toNat endGpa (sortByGpa (collectPages directives)) ByteVec.new =
          extendWithPages cfvGpa.toNat endGpa
            (sortByGpa ((collectPages directives).filter (inWindow cfvGpa.toNat endGpa)))
            ByteVec.new := fun endGpa directives => by
      rw [sortByGpa_filter, extendWithPages_filter]
    unfold addU64
    split_ifs with hend hchecks
    · simp only [Outcome.ok_bind, hpages]
      exact congrArg (fun pages => extendWithPages _ _ pages ByteVec.new >>= _) hwindow
    · rfl
    · have hwrap : (cfvGpa.toNat + cfvSize.toNat) % 2 ^ 64 ≤ cfvGpa.toNat := by
        have : cfvGpa.toNat = 2 ^ 25 := rfl
        have : cfvSize.toNat < 2 ^ 64 := cfvSize.toNat_lt_size
        omega
      simp only [Outcome.ok_bind, hpages, filter_inWindow_of_le hwrap]
  · rw [reconstructCfv_of_not_hasCfvStart overflowChecks hs,
      reconstructCfv_of_not_hasCfvStart overflowChecks (mt hstart.mpr hs), hempty]

/-! ## Pages laid end to end -/

/-- Full pages laid end to end from `start`, each at the address where the one before it ends. -/
def Contiguous : List (UInt64 × List UInt8) → Nat → Prop
  | [], _ => True
  | page :: pages, start =>
    page.1.toNat = start ∧ page.2.length = pageSize ∧ Contiguous pages (start + pageSize)

instance decidableContiguous :
    (pages : List (UInt64 × List UInt8)) → (start : Nat) → Decidable (Contiguous pages start)
  | [], _ => isTrue trivial
  | _ :: pages, start =>
    have := decidableContiguous pages (start + pageSize)
    inferInstanceAs (Decidable (_ ∧ _ ∧ _))

theorem Contiguous.le_of_mem {pages : List (UInt64 × List UInt8)} {start : Nat}
    (h : Contiguous pages start) : ∀ page ∈ pages, start ≤ page.1.toNat := by
  induction pages generalizing start with
  | nil => simp
  | cons page pages ih =>
    obtain ⟨hgpa, -, hrest⟩ := h
    refine List.forall_mem_cons.mpr ⟨hgpa.ge, fun page' hpage' => ?_⟩
    have := ih hrest page' hpage'
    omega

theorem Contiguous.pairwise {pages : List (UInt64 × List UInt8)} {start : Nat}
    (h : Contiguous pages start) :
    pages.Pairwise fun page page' => page.1.toNat < page'.1.toNat := by
  induction pages generalizing start with
  | nil => exact List.Pairwise.nil
  | cons page pages ih =>
    obtain ⟨hgpa, -, hrest⟩ := h
    refine List.Pairwise.cons (fun page' hpage' => ?_) (ih hrest)
    have := hrest.le_of_mem page' hpage'
    unfold pageSize at this
    omega

theorem Contiguous.length_flatMap {pages : List (UInt64 × List UInt8)} {start : Nat}
    (h : Contiguous pages start) : (pages.flatMap Prod.snd).length = pages.length * pageSize := by
  induction pages generalizing start with
  | nil => rfl
  | cons page pages ih =>
    obtain ⟨-, hdata, hrest⟩ := h
    rw [List.flatMap_cons, List.length_append, hdata, ih hrest, List.length_cons, Nat.succ_mul,
      Nat.add_comm]

theorem Contiguous.lt_of_mem {pages : List (UInt64 × List UInt8)} {start : Nat}
    (h : Contiguous pages start) :
    ∀ page ∈ pages, page.1.toNat < start + pages.length * pageSize := by
  induction pages generalizing start with
  | nil => simp
  | cons page pages ih =>
    obtain ⟨hgpa, -, hrest⟩ := h
    refine List.forall_mem_cons.mpr ⟨?_, fun page' hpage' => ?_⟩
    · rw [hgpa, List.length_cons, Nat.succ_mul]
      unfold pageSize
      omega
    · have := ih hrest page' hpage'
      rw [List.length_cons, Nat.succ_mul]
      omega

/-- Memory whose pages hold the data of contiguous pages shows that data, end to end. -/
theorem memoryWindow_of_contiguous {directives : List IgvmDirectiveHeader}
    {pages : List (UInt64 × List UInt8)} {start : Nat} (h : Contiguous pages start)
    (hstart : start % pageSize = 0)
    (hcontents : ∀ page ∈ pages, pageContents directives page.1.toNat = some page.2) :
    memoryWindow directives start (pages.length * pageSize) = pages.flatMap Prod.snd := by
  induction pages generalizing start with
  | nil => rfl
  | cons page pages ih =>
    obtain ⟨hgpa, hdata, hrest⟩ := h
    obtain ⟨hpage, hpages⟩ := List.forall_mem_cons.mp hcontents
    rw [hgpa] at hpage
    rw [List.length_cons, Nat.succ_mul, Nat.add_comm, memoryWindow_add,
      memoryWindow_page _ hstart, hpage, pageBytes_of_length hdata,
      ih hrest (by unfold pageSize at hstart ⊢; omega) hpages, List.flatMap_cons]

/-- The memory model's page is the data of the last collected page at its GPA. -/
theorem pageContents_eq_getLast? (directives : List IgvmDirectiveHeader) (page : Nat) :
    pageContents directives page =
      (((collectPages directives).filter fun p => p.1.toNat == page).getLast?).map Prod.snd := by
  induction directives with
  | nil => rfl
  | cons directive directives ih =>
    cases directive with
    | pageData gpa data =>
      by_cases hgpa : gpa.toNat = page
      · simp only [pageContents_cons, IgvmDirectiveHeader.dataFor, if_pos hgpa, ih,
          collectPages_cons_pageData, List.filter_cons, hgpa, beq_self_eq_true, if_true,
          List.getLast?_cons]
        cases ((collectPages directives).filter fun p => p.1.toNat == page).getLast? <;> rfl
      · simp [IgvmDirectiveHeader.dataFor, hgpa, ih, List.filter_cons]
    | other => simp only [pageContents_cons, IgvmDirectiveHeader.dataFor, ih,
        collectPages_cons_other, Option.or_none]

theorem filter_gpa_eq_singleton {pages : List (UInt64 × List UInt8)}
    {page : UInt64 × List UInt8}
    (hsorted : pages.Pairwise fun page page' => page.1.toNat < page'.1.toNat)
    (hmem : page ∈ pages) :
    pages.filter (fun p => p.1.toNat == page.1.toNat) = [page] := by
  induction pages with
  | nil => cases hmem
  | cons first pages ih =>
    obtain ⟨hfirst, hrest⟩ := List.pairwise_cons.mp hsorted
    rcases List.mem_cons.mp hmem with rfl | hmem
    · rw [List.filter_cons_of_pos (by simp), List.filter_eq_nil_iff.mpr fun p hp => by
        have := hfirst p hp
        simp only [beq_iff_eq]
        omega]
    · rw [List.filter_cons_of_neg (by have := hfirst page hmem; simp only [beq_iff_eq]; omega),
        ih hrest hmem]

/-- A page of a window whose GPAs rise strictly is the only page the stream gives at its GPA. -/
theorem pageContents_of_mem_window {directives : List IgvmDirectiveHeader}
    {startGpa endGpa : Nat} {page : UInt64 × List UInt8}
    (hsorted : ((collectPages directives).filter (inWindow startGpa endGpa)).Pairwise
      fun page page' => page.1.toNat < page'.1.toNat)
    (hmem : page ∈ (collectPages directives).filter (inWindow startGpa endGpa)) :
    pageContents directives page.1.toNat = some page.2 := by
  have hwindow := (List.mem_filter.mp hmem).2
  have hsame : (collectPages directives).filter (fun p => p.1.toNat == page.1.toNat) =
      ((collectPages directives).filter (inWindow startGpa endGpa)).filter
        (fun p => p.1.toNat == page.1.toNat) := by
    rw [List.filter_filter]
    refine List.filter_congr fun p _ => ?_
    by_cases hp : p.1.toNat = page.1.toNat
    · have hin : inWindow startGpa endGpa p = inWindow startGpa endGpa page := by
        simp only [inWindow, hp]
      simp [hp, hin, hwindow]
    · simp [hp]
  rw [pageContents_eq_getLast?, hsame, filter_gpa_eq_singleton hsorted hmem]
  rfl

/-- Sorting leaves in place the pages a filter keeps, when their GPAs already rise strictly. -/
theorem filter_sortByGpa {pages : List (UInt64 × List UInt8)} (keep : UInt64 × List UInt8 → Bool)
    (hsorted : (pages.filter keep).Pairwise fun page page' => page.1.toNat < page'.1.toNat) :
    (sortByGpa pages).filter keep = pages.filter keep := by
  haveI : IsTotal (UInt64 × List UInt8) fun page page' => page.1 ≤ page'.1 :=
    ⟨fun page page' => Nat.le_total page.1.toNat page'.1.toNat⟩
  haveI : IsTrans (UInt64 × List UInt8) fun page page' => page.1 ≤ page'.1 :=
    ⟨fun _ _ _ => Nat.le_trans⟩
  haveI : IsAntisymm (UInt64 × List UInt8) fun page page' => page.1.toNat < page'.1.toNat :=
    ⟨fun _ _ h h' => absurd (h.trans h') (Nat.lt_irrefl _)⟩
  have hperm : ((sortByGpa pages).filter keep).Perm (pages.filter keep) :=
    (List.perm_insertionSort _ pages).filter keep
  have hle : ((sortByGpa pages).filter keep).Pairwise fun page page' => page.1 ≤ page'.1 :=
    (List.sorted_insertionSort _ pages).filter keep
  have hne : ((sortByGpa pages).filter keep).Pairwise
      fun page page' => page.1.toNat ≠ page'.1.toNat :=
    (hperm.pairwise_iff Ne.symm).mpr (hsorted.imp Nat.ne_of_lt)
  exact List.eq_of_perm_of_sorted hperm
    ((hle.and hne).imp fun h => Nat.lt_of_le_of_ne h.1 h.2) hsorted

/-- **Where the pages in the window are full and laid end to end from `CFV_GPA`, the rebuilt
region is the guest memory there.** -/
theorem reconstructCfv_eq_memoryWindow {directives : List IgvmDirectiveHeader} {cfvSize : UInt64}
    (hlayout : Contiguous ((collectPages directives).filter
      (inWindow cfvGpa.toNat (cfvGpa.toNat + cfvSize.toNat))) cfvGpa.toNat)
    (hsize : cfvSize.toNat = ((collectPages directives).filter
      (inWindow cfvGpa.toNat (cfvGpa.toNat + cfvSize.toNat))).length * pageSize)
    (hpos : 0 < cfvSize.toNat) (hfits : cfvSize.toNat ≤ isizeMax) :
    ∃ out, reconstructCfv overflowChecks directives cfvSize = .ok out ∧
      out.bytes = memoryWindow directives cfvGpa.toNat cfvSize.toNat := by
  have hsorted := hlayout.pairwise
  have hbytes : rebuiltRegion directives cfvSize =
      memoryWindow directives cfvGpa.toNat cfvSize.toNat := by
    simp only [rebuiltRegion, cfvBytes, filter_sortByGpa _ hsorted]
    rw [hlayout.length_flatMap, ← hsize, Nat.sub_self, List.replicate_zero, List.append_nil]
    nth_rewrite 2 [hsize]
    exact (memoryWindow_of_contiguous hlayout (by decide)
      fun page hpage => pageContents_of_mem_window hsorted hpage).symm
  generalize hwindow : (collectPages directives).filter
    (inWindow cfvGpa.toNat (cfvGpa.toNat + cfvSize.toNat)) = window at hlayout hsize
  cases window with
  | nil => simp at hsize; omega
  | cons first pages =>
    obtain ⟨hgpa, hdata, -⟩ := hlayout
    have hfirst : first ∈ (collectPages directives).filter
        (inWindow cfvGpa.toNat (cfvGpa.toNat + cfvSize.toNat)) :=
      hwindow ▸ List.mem_cons_self _ _
    obtain ⟨out, hout, hbytesOut⟩ := reconstructCfv_of_hasCfvStart overflowChecks
      ⟨first, (List.mem_filter.mp hfirst).1, UInt64.toNat.inj hgpa,
        List.ne_nil_of_length_pos (by rw [hdata]; decide)⟩
      (by rw [hbytes, length_memoryWindow]; exact hfits)
    exact ⟨out, hout, hbytesOut.trans hbytes⟩

/-- **Where the window's pages are full and laid end to end from `CFV_GPA`, and no page is given
for the rest of the window, the rebuilt region is the guest memory there**: the padding stands for
the pages of zeros left out at the end. -/
theorem rebuiltRegion_eq_memoryWindow {directives : List IgvmDirectiveHeader} {cfvSize : UInt64}
    (hlayout : Contiguous (windowPages directives cfvSize) cfvGpa.toNat)
    (hsize : (windowPages directives cfvSize).length * pageSize ≤ cfvSize.toNat) :
    rebuiltRegion directives cfvSize = memoryWindow directives cfvGpa.toNat cfvSize.toNat := by
  have hsorted := hlayout.pairwise
  have hnone : ∀ page, cfvGpa.toNat + (windowPages directives cfvSize).length * pageSize ≤ page →
      page < cfvGpa.toNat + cfvSize.toNat → pageContents directives page = none := by
    intro page hlo hhi
    rw [pageContents_eq_getLast?, List.filter_eq_nil_iff.mpr fun other hother hgpa => ?_]
    · rfl
    have hin : other ∈ windowPages directives cfvSize := List.mem_filter.mpr ⟨hother, by
      simp only [beq_iff_eq] at hgpa
      simp only [inWindow, hgpa, Bool.and_eq_true, decide_eq_true_eq]
      omega⟩
    have := hlayout.lt_of_mem other hin
    simp only [beq_iff_eq] at hgpa
    omega
  have hsplit : memoryWindow directives cfvGpa.toNat cfvSize.toNat =
      memoryWindow directives cfvGpa.toNat ((windowPages directives cfvSize).length * pageSize) ++
        memoryWindow directives (cfvGpa.toNat + (windowPages directives cfvSize).length * pageSize)
          (cfvSize.toNat - (windowPages directives cfvSize).length * pageSize) := by
    rw [← memoryWindow_add, Nat.add_sub_cancel' hsize]
  rw [hsplit, memoryWindow_of_contiguous hlayout (by decide)
      fun page hpage => pageContents_of_mem_window hsorted hpage,
    memoryWindow_of_no_pages (by have : cfvGpa.toNat = 2 ^ 25 := rfl; unfold pageSize; omega)
      fun page hlo hhi => hnone page hlo (by omega)]
  have hlength := hlayout.length_flatMap
  simp only [rebuiltRegion, cfvBytes, windowPages] at hlength ⊢
  rw [filter_sortByGpa _ hsorted, hlength]

/-! ## A zero page inside the window -/

/-- Three pages from `CFV_GPA`, the middle one a page of zeros given, as IGVM allows, by a
`PageData` without data. -/
def zeroPageInside (first last : List UInt8) : List IgvmDirectiveHeader :=
  [.pageData cfvGpa first, .pageData (cfvGpa + 0x1000) [], .pageData (cfvGpa + 0x2000) last]

theorem zeroPageInside_wellFormed {first last : List UInt8} (hfirst : first.length = pageSize)
    (hlast : last.length = pageSize) :
    ∀ directive ∈ zeroPageInside first last, directive.WellFormed := by
  simp only [zeroPageInside, List.mem_cons, List.mem_singleton, forall_eq_or_imp, forall_eq,
    List.not_mem_nil]
  exact ⟨⟨by decide, .inr hfirst⟩, ⟨by decide, .inl rfl⟩, ⟨by decide, .inr hlast⟩,
    fun _ h => h.elim⟩

theorem pageContents_zeroPageInside (first last : List UInt8) (page : Nat) :
    pageContents (zeroPageInside first last) page =
      if (cfvGpa + 0x2000).toNat = page then some last
      else if (cfvGpa + 0x1000).toNat = page then some []
      else if cfvGpa.toNat = page then some first else none := by
  simp only [zeroPageInside, pageContents_cons, pageContents_nil, IgvmDirectiveHeader.dataFor]
  split_ifs <;> rfl

/-- The guest memory holds the zero page between the two others. -/
theorem memoryWindow_zeroPageInside {first last : List UInt8} (hfirst : first.length = pageSize)
    (hlast : last.length = pageSize) :
    memoryWindow (zeroPageInside first last) cfvGpa.toNat 0x3000 =
      first ++ List.replicate pageSize 0 ++ last := by
  rw [show (0x3000 : Nat) = pageSize + pageSize + pageSize from rfl, memoryWindow_add,
    memoryWindow_add, memoryWindow_page _ (by decide), memoryWindow_page _ (by decide),
    memoryWindow_page _ (by decide)]
  have hfirstPage : pageContents (zeroPageInside first last) cfvGpa.toNat = some first := by
    rw [pageContents_zeroPageInside, if_neg (by decide), if_neg (by decide), if_pos rfl]
  have hzeroPage : pageContents (zeroPageInside first last) (cfvGpa.toNat + pageSize) =
      some [] := by
    rw [pageContents_zeroPageInside, if_neg (by decide), if_pos (by decide)]
  have hlastPage : pageContents (zeroPageInside first last)
      (cfvGpa.toNat + (pageSize + pageSize)) = some last := by
    rw [pageContents_zeroPageInside, if_pos (by decide)]
  rw [hfirstPage, hzeroPage, hlastPage, pageBytes_of_length hfirst, pageBytes_of_length hlast,
    pageBytes_zero (some []) rfl]

/-- The rebuilt region drops the zero page and pads at the end instead. -/
theorem reconstructCfv_zeroPageInside {first last : List UInt8} (hfirst : first.length = pageSize)
    (hlast : last.length = pageSize) :
    ∃ out, reconstructCfv overflowChecks (zeroPageInside first last) 0x3000 = .ok out ∧
      out.bytes = first ++ last ++ List.replicate pageSize 0 := by
  have hcollect : collectPages (zeroPageInside first last) =
      [(cfvGpa, first), (cfvGpa + 0x1000, []), (cfvGpa + 0x2000, last)] := rfl
  have hsort : sortByGpa [(cfvGpa, first), (cfvGpa + 0x1000, []), (cfvGpa + 0x2000, last)] =
      [(cfvGpa, first), (cfvGpa + 0x1000, []), (cfvGpa + 0x2000, last)] := by
    refine sortByGpa_of_sorted ?_
    simp only [List.pairwise_cons, List.mem_cons, List.mem_singleton, forall_eq_or_imp,
      forall_eq, List.not_mem_nil, false_imp_iff, implies_true, and_true, List.Pairwise.nil]
    decide
  have hall : ∀ page ∈ [(cfvGpa, first), (cfvGpa + 0x1000, []), (cfvGpa + 0x2000, last)],
      inWindow cfvGpa.toNat (cfvGpa.toNat + (0x3000 : UInt64).toNat) page = true := by
    simp only [List.forall_mem_cons, inWindow_mk, List.not_mem_nil, false_imp_iff,
      implies_true, and_true]
    decide
  have hbytes : rebuiltRegion (zeroPageInside first last) 0x3000 =
      first ++ last ++ List.replicate pageSize 0 := by
    simp only [rebuiltRegion, hcollect, hsort, cfvBytes, List.filter_eq_self.mpr hall,
      List.flatMap_cons, List.flatMap_nil, List.append_nil, List.nil_append, List.length_append,
      hfirst, hlast, List.append_assoc, List.length_nil, Nat.add_zero, Nat.zero_add]
    rw [show (0x3000 : UInt64).toNat - (pageSize + pageSize) = pageSize from rfl]
  have hne : first ≠ [] := List.ne_nil_of_length_pos (by rw [hfirst]; decide)
  obtain ⟨out, hout, hbytesOut⟩ := reconstructCfv_of_hasCfvStart overflowChecks
    ⟨(cfvGpa, first), hcollect ▸ List.mem_cons_self _ _, rfl, hne⟩
    (by rw [hbytes]; simp only [List.length_append, List.length_replicate, hfirst, hlast]; decide)
  exact ⟨out, hout, hbytesOut.trans hbytes⟩

/-- A page of ones, a page of zeros given without data, a page of twos. -/
def onesZeroTwos : List IgvmDirectiveHeader :=
  zeroPageInside (List.replicate pageSize 1) (List.replicate pageSize 2)

/-- A zero page inside the window, given without data: the rebuilt region holds the following
page where the zero page belongs, so from there on it disagrees with the guest memory. -/
theorem reconstructCfv_misplaces_page_after_zero_page :
    (∀ directive ∈ onesZeroTwos, directive.WellFormed) ∧
    ∃ out, reconstructCfv overflowChecks onesZeroTwos 0x3000 = .ok out ∧
      out.bytes[0x1000]? = some 2 ∧ (memoryWindow onesZeroTwos cfvGpa.toNat 0x3000)[0x1000]? = some 0 := by
  have hpage : ∀ byte : UInt8, (List.replicate pageSize byte).length = pageSize :=
    fun _ => List.length_replicate _ _
  obtain ⟨out, hout, hbytes⟩ := reconstructCfv_zeroPageInside overflowChecks (hpage 1) (hpage 2)
  refine ⟨zeroPageInside_wellFormed (hpage 1) (hpage 2), out, hout, ?_, ?_⟩
  · rw [hbytes, List.append_assoc, List.getElem?_append_right (by rw [hpage]; decide), hpage,
      List.getElem?_append_left (by rw [hpage]; decide)]
    exact List.getElem?_replicate_of_lt (by decide)
  · rw [onesZeroTwos, memoryWindow_zeroPageInside (hpage 1) (hpage 2), List.append_assoc,
      List.getElem?_append_right (by rw [hpage]; decide), hpage,
      List.getElem?_append_left (by rw [hpage]; decide)]
    exact List.getElem?_replicate_of_lt (by decide)

/-! ## With and without overflow checks -/

section OverflowChecks

variable (overflowChecks' : Bool)

/-- The rebuild of a build with overflow checks and of one without agree up to the message of a
panic: where one wraps the window's end, both panic. -/
theorem reconstructCfv_sameUpToPanic (directives : List IgvmDirectiveHeader)
    (cfvSize : UInt64) :
    Outcome.SameUpToPanic (reconstructCfv overflowChecks directives cfvSize)
      (reconstructCfv overflowChecks' directives cfvSize) := by
  by_cases hstart : HasCfvStart directives
  · by_cases hfits : (rebuiltRegion directives cfvSize).length ≤ isizeMax
    · obtain ⟨out, hout, hbytes⟩ := reconstructCfv_of_hasCfvStart overflowChecks hstart hfits
      obtain ⟨out', hout', hbytes'⟩ := reconstructCfv_of_hasCfvStart overflowChecks' hstart hfits
      exact .inl (by rw [hout, hout', ByteVec.ext (hbytes.trans hbytes'.symm)])
    · have hbig := Nat.lt_of_not_le hfits
      exact .inr ⟨(reconstructCfv_isPanic_iff overflowChecks).mpr ⟨hstart, hbig⟩,
        (reconstructCfv_isPanic_iff overflowChecks').mpr ⟨hstart, hbig⟩⟩
  · exact .inl (by rw [reconstructCfv_of_not_hasCfvStart overflowChecks hstart,
      reconstructCfv_of_not_hasCfvStart overflowChecks' hstart])

end OverflowChecks

end MigtdIgvmVerifier.Cfv.Reconstruct
