import MigtdIgvmVerifier.Cfv.Reconstruct
import MigtdIgvmVerifier.Cfv.FvHeader

/-!
# Extracting the configuration volume from an IGVM file

`extract_cfv_from_igvm` end to end: parse the file, rebuild the configuration region from its page
data, then cut the region to the firmware volume its header declares. The parser,
`IgvmFile::new_from_binary`, belongs to the `igvm` crate and not to this repository, so it is the
parameter `newFromBinary`, and every result below holds for whatever directives it returns. The
runtime address `cfv_runtime_addr` is only printed, and is left out.

Each of the three ways it can end is characterized: it reports an error exactly when the file
does not parse or no page with data sits at `CFV_GPA` (`extractCfvFromIgvm_eq_error_iff`), it
panics exactly as `extractCfvFromIgvm_isPanic_iff` says, and what it returns is a run of
consecutive bytes of the rebuilt region (`extractCfvFromIgvm_eq_ok_isInfix`). Where the pages in
the window are full and laid end to end, a firmware volume laid out in guest memory comes out
whole (`extractCfvFromIgvm_recovers_volume_of_contiguous`), also when the file leaves out the
pages of zeros at the end of the window (`extractCfvFromIgvm_recovers_volume_of_leading_pages`). The extraction reads the file only
through its page data in the window: the order of the directives does not matter when no two
pages there share a GPA (`extractCfvFromIgvm_perm`), and pages outside it, wherever they stand,
change nothing (`extractCfvFromIgvm_insert_outside`). Two inputs show where
the code parts from that: a page of zeros given without data inside the volume, which moves the
following page into its place, and a header whose declared length overflows `fv_start + fv_length`,
on which the extraction panics in both build profiles. The two profiles agree everywhere else
(`extractCfvFromIgvm_sameUpToPanic`).
-/

namespace MigtdIgvmVerifier.Cfv.Extract

open Rust Igvm Reconstruct FvHeader

variable (overflowChecks : Bool)

/-- `extract_cfv_from_igvm(igvm_contents, cfv_size, _)`. A parse error is reported through its
message, which Rust prints with `{:?}`. -/
def extractCfvFromIgvm (newFromBinary : List UInt8 → Except String IgvmFile)
    (igvmContents : List UInt8) (cfvSize : UInt64) : Outcome ByteVec := do
  let igvm ← match newFromBinary igvmContents with
    | .ok igvm => .ok igvm
    | .error e => .error s!"Failed to parse IGVM file: {e}"
  let cfvData ← reconstructCfv overflowChecks igvm.directives cfvSize
  resolveFvHeader overflowChecks cfvData

theorem extractCfvFromIgvm_of_parse {newFromBinary : List UInt8 → Except String IgvmFile}
    {igvmContents : List UInt8} {igvm : IgvmFile} (cfvSize : UInt64)
    (hparse : newFromBinary igvmContents = .ok igvm) :
    extractCfvFromIgvm overflowChecks newFromBinary igvmContents cfvSize =
      reconstructCfv overflowChecks igvm.directives cfvSize >>= resolveFvHeader overflowChecks := by
  simp only [extractCfvFromIgvm, hparse, Outcome.ok_bind]

/-! ## Panics -/

/-- **The extraction panics exactly when the file parses, a page with data sits at `CFV_GPA`,
and either the region to rebuild passes `isize::MAX` bytes or the header found in it declares a
length that overflows `fv_start + fv_length`**, with or without overflow checks. -/
theorem extractCfvFromIgvm_isPanic_iff {newFromBinary : List UInt8 → Except String IgvmFile}
    {igvmContents : List UInt8} {cfvSize : UInt64} :
    (extractCfvFromIgvm overflowChecks newFromBinary igvmContents cfvSize).isPanic = true ↔
      ∃ igvm, newFromBinary igvmContents = .ok igvm ∧ HasCfvStart igvm.directives ∧
        (isizeMax < (rebuiltRegion igvm.directives cfvSize).length ∨
          DeclaresOverflowingLength (rebuiltRegion igvm.directives cfvSize)) := by
  cases hparse : newFromBinary igvmContents with
  | error e =>
    simp only [extractCfvFromIgvm, hparse, Outcome.error_bind, Outcome.isPanic_error,
      Bool.false_eq_true, false_iff, not_exists, not_and]
    intro igvm hok
    cases hok
  | ok igvm =>
    rw [extractCfvFromIgvm_of_parse overflowChecks cfvSize hparse, Outcome.isPanic_bind]
    constructor
    · rintro (hpanic | ⟨out, hout, hresolve⟩)
      · obtain ⟨hstart, hbig⟩ := (reconstructCfv_isPanic_iff overflowChecks).mp hpanic
        exact ⟨igvm, rfl, hstart, .inl hbig⟩
      · obtain ⟨hstart, hbytes⟩ := bytes_of_reconstructCfv_eq_ok overflowChecks hout
        rw [resolveFvHeader_isPanic_iff, hbytes] at hresolve
        exact ⟨igvm, rfl, hstart, .inr hresolve⟩
    · rintro ⟨igvm', hok, hstart, hcases⟩
      cases hok
      by_cases hbig : isizeMax < (rebuiltRegion igvm.directives cfvSize).length
      · exact .inl ((reconstructCfv_isPanic_iff overflowChecks).mpr ⟨hstart, hbig⟩)
      · obtain ⟨out, hout, hbytes⟩ :=
          reconstructCfv_of_hasCfvStart overflowChecks hstart (Nat.le_of_not_lt hbig)
        refine .inr ⟨out, hout, (resolveFvHeader_isPanic_iff overflowChecks).mpr ?_⟩
        rw [hbytes]
        exact hcases.resolve_left hbig

/-! ## Errors and returned bytes -/

/-- One page at `CFV_GPA` holding the smallest volume between a byte of padding and one of
trailer. -/
def paddedMinimalVolume : List IgvmDirectiveHeader :=
  [.pageData cfvGpa ([7] ++ minimalVolume ++ [9])]

/-- **Two IGVM files whose directives are the same up to order give the same extraction**, when
no two pages of the window share a GPA: the same volume, the same error or the same panic. -/
theorem extractCfvFromIgvm_perm {newFromBinary : List UInt8 → Except String IgvmFile}
    {igvmContents igvmContents' : List UInt8} {igvm igvm' : IgvmFile} {cfvSize : UInt64}
    (hparse : newFromBinary igvmContents = .ok igvm)
    (hparse' : newFromBinary igvmContents' = .ok igvm')
    (hperm : igvm.directives.Perm igvm'.directives)
    (hnodup : ((windowPages igvm.directives cfvSize).map Prod.fst).Nodup) :
    extractCfvFromIgvm overflowChecks newFromBinary igvmContents' cfvSize =
      extractCfvFromIgvm overflowChecks newFromBinary igvmContents cfvSize := by
  have hpages : (collectPages igvm'.directives).Perm (collectPages igvm.directives) :=
    hperm.symm.filterMap _
  have hrebuild : reconstructCfv overflowChecks igvm'.directives cfvSize =
      reconstructCfv overflowChecks igvm.directives cfvSize :=
    reconstructCfv_congr overflowChecks hpages.isEmpty_eq
      (by simp only [HasCfvStart, hpages.mem_iff])
      (sortByGpa_eq_of_perm (hpages.filter _) (((hpages.filter _).map Prod.fst).nodup_iff.mpr
        hnodup))
  rw [extractCfvFromIgvm_of_parse overflowChecks cfvSize hparse,
    extractCfvFromIgvm_of_parse overflowChecks cfvSize hparse', hrebuild]

/-- The volume's page and the page after it. -/
def twoPages : List IgvmDirectiveHeader := [.pageData cfvGpa [1], .pageData (cfvGpa + 0x1000) [2]]

/-- A parser that reads the empty file as `twoPages` and every other file as its reverse. -/
def twoPagesParser (contents : List UInt8) : Except String IgvmFile :=
  .ok ⟨if contents = [] then twoPages else twoPages.reverse⟩

theorem extractCfvFromIgvm_perm_twoPages :
    twoPages.Perm twoPages.reverse ∧ ((windowPages twoPages 0x2000).map Prod.fst).Nodup ∧
      extractCfvFromIgvm false twoPagesParser [0] 0x2000 =
        extractCfvFromIgvm false twoPagesParser [] 0x2000 :=
  ⟨(List.reverse_perm _).symm, by decide,
    extractCfvFromIgvm_perm false rfl rfl (List.reverse_perm _).symm (by decide)⟩

/-- **Directives for pages outside the window, none of them at `CFV_GPA`, change nothing the
extraction does, wherever the file puts them**, once the file has page data of its own. -/
theorem extractCfvFromIgvm_insert_outside {newFromBinary : List UInt8 → Except String IgvmFile}
    {igvmContents igvmContents' : List UInt8} {igvm igvm' : IgvmFile} {cfvSize : UInt64}
    {front extra back : List IgvmDirectiveHeader}
    (hparse : newFromBinary igvmContents = .ok igvm)
    (hparse' : newFromBinary igvmContents' = .ok igvm')
    (hdirectives : igvm.directives = front ++ back)
    (hdirectives' : igvm'.directives = front ++ extra ++ back)
    (hpages : collectPages igvm.directives ≠ [])
    (houtside : ∀ page ∈ collectPages extra, page.1 ≠ cfvGpa ∧
      inWindow cfvGpa.toNat (cfvGpa.toNat + cfvSize.toNat) page = false) :
    extractCfvFromIgvm overflowChecks newFromBinary igvmContents' cfvSize =
      extractCfvFromIgvm overflowChecks newFromBinary igvmContents cfvSize := by
  have hextra : (collectPages extra).filter
      (inWindow cfvGpa.toNat (cfvGpa.toNat + cfvSize.toNat)) = [] :=
    List.filter_eq_nil_iff.mpr fun page hpage => by simp [(houtside page hpage).2]
  have hrebuild : reconstructCfv overflowChecks igvm'.directives cfvSize =
      reconstructCfv overflowChecks igvm.directives cfvSize := by
    have hpages' : collectPages igvm'.directives ≠ [] := by
      rw [hdirectives] at hpages
      simp only [hdirectives', collectPages_append, ne_eq, List.append_eq_nil] at hpages ⊢
      exact fun hnil => hpages ⟨hnil.1.1, hnil.2⟩
    refine reconstructCfv_congr overflowChecks ?_ ?_ ?_
    · rw [List.isEmpty_eq_false.mpr hpages, List.isEmpty_eq_false.mpr hpages']
    · have hnone : ¬ HasCfvStart extra := fun ⟨page, hmem, hstart⟩ =>
        (houtside page hmem).1 hstart.1
      simp only [hdirectives, hdirectives', hasCfvStart_append, hnone, or_false]
    · simp only [windowPages, hdirectives, hdirectives', collectPages_append, List.filter_append,
        hextra, List.append_nil]
  rw [extractCfvFromIgvm_of_parse overflowChecks cfvSize hparse,
    extractCfvFromIgvm_of_parse overflowChecks cfvSize hparse', hrebuild]

/-- A parser that reads the empty file as one page at `CFV_GPA`, and every other file as that
page with a page at `0x1000` and another directive after it. -/
def lowPageParser (contents : List UInt8) : Except String IgvmFile :=
  .ok ⟨if contents = [] then [.pageData cfvGpa [1]]
    else [.pageData cfvGpa [1], .pageData 0x1000 [5], .other]⟩

theorem extractCfvFromIgvm_insert_outside_lowPage :
    collectPages [.pageData cfvGpa [1]] ≠ [] ∧
      (∀ page ∈ collectPages [.pageData 0x1000 [5], .other], page.1 ≠ cfvGpa ∧
        inWindow cfvGpa.toNat (cfvGpa.toNat + (0x1000 : UInt64).toNat) page = false) ∧
      extractCfvFromIgvm false lowPageParser [0] 0x1000 =
        extractCfvFromIgvm false lowPageParser [] 0x1000 :=
  ⟨by decide, by decide, @extractCfvFromIgvm_insert_outside false lowPageParser [] [0]
    ⟨[.pageData cfvGpa [1]]⟩ ⟨[.pageData cfvGpa [1], .pageData 0x1000 [5], .other]⟩ 0x1000
    [.pageData cfvGpa [1]] [.pageData 0x1000 [5], .other] [] rfl rfl rfl rfl (by decide)
    (by decide)⟩

/-! ## One page at `CFV_GPA` -/

theorem filter_inWindow_onePage (data : List UInt8) :
    (collectPages [.pageData cfvGpa data]).filter
      (inWindow cfvGpa.toNat (cfvGpa.toNat + (0x1000 : UInt64).toNat)) = [(cfvGpa, data)] :=
  List.filter_cons_of_pos (by rw [inWindow_mk]; decide)

/-- One full page at `CFV_GPA` is the whole region of `0x1000` bytes rebuilt from it. -/
theorem rebuiltRegion_onePage {data : List UInt8} (h : data.length = pageSize) :
    rebuiltRegion [.pageData cfvGpa data] 0x1000 = data := by
  rw [rebuiltRegion, show sortByGpa (collectPages [.pageData cfvGpa data]) =
    collectPages [.pageData cfvGpa data] from rfl]
  simp only [cfvBytes, filter_inWindow_onePage, List.flatMap_cons, List.flatMap_nil,
    List.append_nil, h]
  rw [show (0x1000 : UInt64).toNat - pageSize = 0 from rfl, List.replicate_zero, List.append_nil]

/-- One full page at `CFV_GPA` is the guest memory of the `0x1000` bytes from there. -/
theorem memoryWindow_onePage {data : List UInt8} (h : data.length = pageSize) :
    memoryWindow [.pageData cfvGpa data] cfvGpa.toNat (0x1000 : UInt64).toNat = data := by
  rw [show (0x1000 : UInt64).toNat = pageSize from rfl, memoryWindow_page _ (by decide),
    pageContents_cons, pageContents_nil, IgvmDirectiveHeader.dataFor, if_pos rfl]
  exact pageBytes_of_length h

/-! ## Full pages laid end to end -/

/-- **A firmware volume laid out in guest memory over full pages laid end to end from `CFV_GPA`
is what the extraction returns**, behind any padding and before any trailer, when no signature
starts before its own. -/
theorem extractCfvFromIgvm_recovers_volume_of_contiguous
    {newFromBinary : List UInt8 → Except String IgvmFile} {igvmContents : List UInt8}
    {igvm : IgvmFile} {cfvSize : UInt64} {padding volume trailer : List UInt8}
    (hparse : newFromBinary igvmContents = .ok igvm)
    (hlayout : Contiguous ((collectPages igvm.directives).filter
      (inWindow cfvGpa.toNat (cfvGpa.toNat + cfvSize.toNat))) cfvGpa.toNat)
    (hsize : cfvSize.toNat = ((collectPages igvm.directives).filter
      (inWindow cfvGpa.toNat (cfvGpa.toNat + cfvSize.toNat))).length * pageSize)
    (hfits : cfvSize.toNat ≤ isizeMax)
    (hwindow : memoryWindow igvm.directives cfvGpa.toNat cfvSize.toNat =
      padding ++ volume ++ trailer)
    (hvolume : IsFirmwareVolume volume)
    (hclear : ∀ offset < padding.length + 0x28,
      ¬ SignatureAt (memoryWindow igvm.directives cfvGpa.toNat cfvSize.toNat) offset) :
    ∃ out, extractCfvFromIgvm overflowChecks newFromBinary igvmContents cfvSize = .ok out ∧
      out.bytes = volume := by
  have hlength := length_memoryWindow igvm.directives cfvGpa.toNat cfvSize.toNat
  rw [hwindow, List.length_append, List.length_append] at hlength
  obtain ⟨rebuilt, hrebuilt, hbytes⟩ := reconstructCfv_eq_memoryWindow overflowChecks hlayout
    hsize (by have := hvolume.1; omega) hfits
  rw [← hbytes] at hwindow hclear
  obtain ⟨out, hout, hvolumeOut⟩ := resolveFvHeader_of_volume_at overflowChecks
    (by rw [hwindow, List.append_assoc, List.drop_left, List.take_left' rfl])
    (by rw [hwindow, List.length_append, List.length_append]; omega) hvolume hclear
  refine ⟨out, ?_, hvolumeOut⟩
  rw [extractCfvFromIgvm_of_parse overflowChecks cfvSize hparse, hrebuilt, Outcome.ok_bind, hout]

/-- The header of a volume of one page: at `0x20` the length `0x1000`, at `0x28` the
signature. -/
def pageVolumeHeader : List UInt8 :=
  List.replicate 0x20 0 ++ [0x00, 0x10, 0, 0, 0, 0, 0, 0] ++ fvhSignature

/-- A volume of one page: its header, then zeros. -/
def pageVolume : List UInt8 := pageVolumeHeader ++ List.replicate (pageSize - 0x2C) 0

theorem length_pageVolume : pageVolume.length = pageSize := by
  rw [pageVolume, List.length_append, List.length_replicate]
  rfl

/-- The first page of a window of two that holds that volume behind sixteen bytes of padding. -/
def straddlingFirst : List UInt8 := List.replicate 16 7 ++ pageVolume.take (pageSize - 16)

/-- The second page of that window: the rest of the volume, then a trailer. -/
def straddlingSecond : List UInt8 :=
  pageVolume.drop (pageSize - 16) ++ List.replicate (pageSize - 16) 9

/-- Those two pages from `CFV_GPA`: the volume runs from the first into the second. -/
def straddlingPages : List IgvmDirectiveHeader :=
  [.pageData cfvGpa straddlingFirst, .pageData (cfvGpa + 0x1000) straddlingSecond]

theorem length_straddlingFirst : straddlingFirst.length = pageSize := by
  rw [straddlingFirst, List.length_append, List.length_replicate, List.length_take,
    length_pageVolume]
  unfold pageSize
  omega

theorem length_straddlingSecond : straddlingSecond.length = pageSize := by
  rw [straddlingSecond, List.length_append, List.length_drop, List.length_replicate,
    length_pageVolume]
  unfold pageSize
  omega

theorem windowPages_straddlingPages :
    windowPages straddlingPages 0x2000 =
      [(cfvGpa, straddlingFirst), (cfvGpa + 0x1000, straddlingSecond)] := by
  rw [windowPages, straddlingPages, collectPages_cons_pageData, collectPages_cons_pageData,
    List.filter_cons_of_pos (by rw [inWindow_mk]; decide),
    List.filter_cons_of_pos (by rw [inWindow_mk]; decide)]
  rfl

theorem memoryWindow_straddlingPages :
    memoryWindow straddlingPages cfvGpa.toNat (0x2000 : UInt64).toNat =
      List.replicate 16 7 ++ pageVolume ++ List.replicate (pageSize - 16) 9 := by
  rw [show (0x2000 : UInt64).toNat = pageSize + pageSize from rfl, memoryWindow_add,
    memoryWindow_page _ (by decide), memoryWindow_page _ (by decide)]
  have hsecondPage : (cfvGpa + 0x1000).toNat = cfvGpa.toNat + pageSize := rfl
  have hne : cfvGpa.toNat + pageSize ≠ cfvGpa.toNat := by unfold pageSize; omega
  simp only [straddlingPages, pageContents_cons, pageContents_nil, IgvmDirectiveHeader.dataFor,
    hsecondPage, hne, hne.symm, ↓reduceIte, Option.none_or, Option.or_none, Option.or_some]
  rw [pageBytes_of_length length_straddlingFirst, pageBytes_of_length length_straddlingSecond,
    straddlingFirst, straddlingSecond, List.append_assoc,
    List.append_assoc, ← List.append_assoc (pageVolume.take _), List.take_append_drop]

theorem extractCfvFromIgvm_recovers_straddlingVolume :
    Contiguous ((collectPages straddlingPages).filter
        (inWindow cfvGpa.toNat (cfvGpa.toNat + (0x2000 : UInt64).toNat))) cfvGpa.toNat ∧
      (0x2000 : UInt64).toNat = ((collectPages straddlingPages).filter
        (inWindow cfvGpa.toNat (cfvGpa.toNat + (0x2000 : UInt64).toNat))).length * pageSize ∧
      memoryWindow straddlingPages cfvGpa.toNat (0x2000 : UInt64).toNat =
        List.replicate 16 7 ++ pageVolume ++ List.replicate (pageSize - 16) 9 ∧
      IsFirmwareVolume pageVolume ∧
      (∀ offset < (List.replicate 16 (7 : UInt8)).length + 0x28,
        ¬ SignatureAt (memoryWindow straddlingPages cfvGpa.toNat (0x2000 : UInt64).toNat) offset) ∧
      ∃ out, extractCfvFromIgvm false (fun _ => .ok ⟨straddlingPages⟩) [] 0x2000 = .ok out ∧
        out.bytes = pageVolume := by
  have hlayout : Contiguous (windowPages straddlingPages 0x2000) cfvGpa.toNat := by
    rw [windowPages_straddlingPages]
    exact ⟨rfl, length_straddlingFirst, rfl, length_straddlingSecond, trivial⟩
  have hsize : (0x2000 : UInt64).toNat = (windowPages straddlingPages 0x2000).length * pageSize := by
    rw [windowPages_straddlingPages]
    rfl
  have hvolume : IsFirmwareVolume pageVolume :=
    isFirmwareVolume_append rfl (by decide) (by rw [List.length_replicate]; rfl)
  have hclear : ∀ offset < (List.replicate 16 (7 : UInt8)).length + 0x28,
      ¬ SignatureAt (memoryWindow straddlingPages cfvGpa.toNat (0x2000 : UInt64).toNat) offset := by
    intro offset hoffset
    rw [List.length_replicate] at hoffset
    rw [memoryWindow_straddlingPages, pageVolume, ← List.append_assoc, List.append_assoc,
      signatureAt_append_of_add_le (by
        rw [List.length_append, List.length_replicate, show pageVolumeHeader.length = 0x2C from rfl]
        omega)]
    revert offset
    decide
  exact ⟨hlayout, hsize, memoryWindow_straddlingPages, hvolume, hclear,
    extractCfvFromIgvm_recovers_volume_of_contiguous false rfl hlayout hsize (by decide)
      memoryWindow_straddlingPages hvolume hclear⟩

/-! ## Pages of zeros left out at the end -/

/-- **A firmware volume laid out in guest memory from `CFV_GPA` is what the extraction returns
even when the file leaves out the pages of zeros at the end of the window**, behind any padding
and before any trailer, as long as the pages it does give are full and laid end to end from
`CFV_GPA`, and no signature starts before the volume's own. -/
theorem extractCfvFromIgvm_recovers_volume_of_leading_pages
    {newFromBinary : List UInt8 → Except String IgvmFile} {igvmContents : List UInt8}
    {igvm : IgvmFile} {cfvSize : UInt64} {padding volume trailer : List UInt8}
    (hparse : newFromBinary igvmContents = .ok igvm)
    (hlayout : Contiguous (windowPages igvm.directives cfvSize) cfvGpa.toNat)
    (hpages : windowPages igvm.directives cfvSize ≠ [])
    (hsize : (windowPages igvm.directives cfvSize).length * pageSize ≤ cfvSize.toNat)
    (hfits : cfvSize.toNat ≤ isizeMax)
    (hwindow : memoryWindow igvm.directives cfvGpa.toNat cfvSize.toNat =
      padding ++ volume ++ trailer)
    (hvolume : IsFirmwareVolume volume)
    (hclear : ∀ offset < padding.length + 0x28,
      ¬ SignatureAt (memoryWindow igvm.directives cfvGpa.toNat cfvSize.toNat) offset) :
    ∃ out, extractCfvFromIgvm overflowChecks newFromBinary igvmContents cfvSize = .ok out ∧
      out.bytes = volume := by
  have hbytes := rebuiltRegion_eq_memoryWindow hlayout hsize
  obtain ⟨first, pages, hwindowPages⟩ := List.exists_cons_of_ne_nil hpages
  have hfirst : first ∈ windowPages igvm.directives cfvSize :=
    hwindowPages ▸ List.mem_cons_self _ _
  obtain ⟨hgpa, hdata, -⟩ : Contiguous (first :: pages) cfvGpa.toNat := hwindowPages ▸ hlayout
  obtain ⟨rebuilt, hrebuilt, hrebuiltBytes⟩ := reconstructCfv_of_hasCfvStart overflowChecks
    ⟨first, (List.mem_filter.mp hfirst).1, UInt64.toNat.inj hgpa,
      List.ne_nil_of_length_pos (by rw [hdata]; decide)⟩
    (by rw [hbytes, length_memoryWindow]; exact hfits)
  rw [← hbytes, ← hrebuiltBytes] at hwindow hclear
  obtain ⟨out, hresolve, hvolumeOut⟩ := resolveFvHeader_of_volume_at overflowChecks
    (by rw [hwindow, List.append_assoc, List.drop_left, List.take_left' rfl])
    (by rw [hwindow, List.length_append, List.length_append]; omega) hvolume hclear
  refine ⟨out, ?_, hvolumeOut⟩
  rw [extractCfvFromIgvm_of_parse overflowChecks cfvSize hparse, hrebuilt, Outcome.ok_bind,
    hresolve]

/-- One page holding the smallest firmware volume, then zeros. -/
def minimalVolumePage : List UInt8 := minimalVolume ++ List.replicate (pageSize - 0x2C) 0

theorem length_minimalVolumePage : minimalVolumePage.length = pageSize := by
  rw [minimalVolumePage, List.length_append, List.length_replicate]
  rfl

theorem windowPages_leadingPage (data : List UInt8) :
    windowPages [.pageData cfvGpa data] 0x2000 = [(cfvGpa, data)] :=
  List.filter_cons_of_pos (by rw [inWindow_mk]; decide)

/-- One full page at `CFV_GPA`, and nothing after it: the guest memory of the `0x2000` bytes
from there is that page, then a page of zeros. -/
theorem memoryWindow_leadingPage {data : List UInt8} (h : data.length = pageSize) :
    memoryWindow [.pageData cfvGpa data] cfvGpa.toNat (0x2000 : UInt64).toNat =
      data ++ List.replicate pageSize 0 := by
  have hfront : memoryWindow [.pageData cfvGpa data] cfvGpa.toNat pageSize = data :=
    memoryWindow_onePage h
  rw [show (0x2000 : UInt64).toNat = pageSize + pageSize from rfl, memoryWindow_add, hfront,
    memoryWindow_of_no_pages (by decide) fun page hlo _ => ?_]
  have : cfvGpa.toNat = 2 ^ 25 := rfl
  simp only [pageContents_cons, pageContents_nil, IgvmDirectiveHeader.dataFor, Option.none_or]
  exact if_neg (by unfold pageSize at hlo; omega)

theorem extractCfvFromIgvm_recovers_volume_of_leading_pages_minimalVolume :
    Contiguous (windowPages [.pageData cfvGpa minimalVolumePage] 0x2000) cfvGpa.toNat ∧
      windowPages [.pageData cfvGpa minimalVolumePage] 0x2000 ≠ [] ∧
      (windowPages [.pageData cfvGpa minimalVolumePage] 0x2000).length * pageSize ≤
        (0x2000 : UInt64).toNat ∧
      memoryWindow [.pageData cfvGpa minimalVolumePage] cfvGpa.toNat (0x2000 : UInt64).toNat =
        [] ++ minimalVolume ++ (List.replicate (pageSize - 0x2C) 0 ++ List.replicate pageSize 0) ∧
      (∀ offset < ([] : List UInt8).length + 0x28, ¬ SignatureAt
        (memoryWindow [.pageData cfvGpa minimalVolumePage] cfvGpa.toNat (0x2000 : UInt64).toNat)
        offset) ∧
      ∃ out, extractCfvFromIgvm false (fun _ => .ok ⟨[.pageData cfvGpa minimalVolumePage]⟩) []
        0x2000 = .ok out ∧ out.bytes = minimalVolume := by
  have hlayout : Contiguous (windowPages [.pageData cfvGpa minimalVolumePage] 0x2000)
      cfvGpa.toNat := by
    rw [windowPages_leadingPage]
    exact ⟨rfl, length_minimalVolumePage, trivial⟩
  have hmemory : memoryWindow [.pageData cfvGpa minimalVolumePage] cfvGpa.toNat
      (0x2000 : UInt64).toNat =
        [] ++ minimalVolume ++ (List.replicate (pageSize - 0x2C) 0 ++ List.replicate pageSize 0) := by
    rw [memoryWindow_leadingPage length_minimalVolumePage, minimalVolumePage, List.nil_append,
      List.append_assoc]
  have hclear : ∀ offset < ([] : List UInt8).length + 0x28, ¬ SignatureAt
      (memoryWindow [.pageData cfvGpa minimalVolumePage] cfvGpa.toNat (0x2000 : UInt64).toNat)
      offset := by
    intro offset hoffset
    rw [List.length_nil, Nat.zero_add] at hoffset
    rw [hmemory, List.nil_append, signatureAt_append_of_add_le
      (by rw [show minimalVolume.length = 0x2C from rfl]; omega)]
    revert offset
    decide
  have hpages : windowPages [.pageData cfvGpa minimalVolumePage] 0x2000 ≠ [] := by
    rw [windowPages_leadingPage]
    exact List.cons_ne_nil _ _
  have hsize : (windowPages [.pageData cfvGpa minimalVolumePage] 0x2000).length * pageSize ≤
      (0x2000 : UInt64).toNat := by
    rw [windowPages_leadingPage]
    decide
  exact ⟨hlayout, hpages, hsize, hmemory, hclear,
    extractCfvFromIgvm_recovers_volume_of_leading_pages false rfl hlayout hpages hsize
      (by decide) hmemory (by decide) hclear⟩

/-! ## A page of zeros inside the volume -/

/-- The header of a volume of three pages: at `0x20` the length `0x3000`, at `0x28` the
signature. -/
def threePageHeader : List UInt8 :=
  List.replicate 0x20 0 ++ [0x00, 0x30, 0, 0, 0, 0, 0, 0] ++ fvhSignature

/-- The first page of that volume: its header, then zeros. -/
def threePageFirst : List UInt8 := threePageHeader ++ List.replicate (pageSize - 0x2C) 0

theorem length_threePageFirst : threePageFirst.length = pageSize := by
  rw [threePageFirst, List.length_append, List.length_replicate]
  rfl

/-- Behind that header, any `0x3000 - 0x2C` bytes make a volume with no early signature. -/
theorem isFirmwareVolume_threePageHeader {rest : List UInt8} (hrest : rest.length = 0x3000 - 0x2C) :
    IsFirmwareVolume (threePageHeader ++ rest) ∧
      ∀ offset < 0x28, ¬ SignatureAt (threePageHeader ++ rest) offset := by
  refine ⟨isFirmwareVolume_append rfl (by decide) (by rw [hrest]; rfl), fun offset hoffset => ?_⟩
  rw [signatureAt_append_of_add_le (by rw [show threePageHeader.length = 0x2C from rfl]; omega)]
  revert offset
  decide

/-- A volume of three pages whose middle page is a page of zeros given without data. -/
def threePageVolume : List IgvmDirectiveHeader :=
  zeroPageInside threePageFirst (List.replicate pageSize 2)

/-- A volume laid out in guest memory over three pages, the middle one a page of zeros given
without data: the extraction returns the rebuilt region, in which the last page has taken the
middle one's place, and not the volume. -/
theorem extractCfvFromIgvm_moves_page_after_zero_page
    (newFromBinary : List UInt8 → Except String IgvmFile) (igvmContents : List UInt8)
    (hparse : newFromBinary igvmContents = .ok ⟨threePageVolume⟩) :
    (∀ directive ∈ threePageVolume, directive.WellFormed) ∧
      IsFirmwareVolume (memoryWindow threePageVolume cfvGpa.toNat 0x3000) ∧
      (∀ offset < 0x28, ¬ SignatureAt (memoryWindow threePageVolume cfvGpa.toNat 0x3000) offset) ∧
      ∃ out, extractCfvFromIgvm overflowChecks newFromBinary igvmContents 0x3000 = .ok out ∧
        out.bytes ≠ memoryWindow threePageVolume cfvGpa.toNat 0x3000 := by
  have hlast : (List.replicate pageSize (2 : UInt8)).length = pageSize := List.length_replicate _ _
  have hrest : ∀ byte byte' : UInt8, (List.replicate (pageSize - 0x2C) 0 ++
      List.replicate pageSize byte ++ List.replicate pageSize byte').length = 0x3000 - 0x2C := by
    intro byte byte'
    simp only [List.length_append, List.length_replicate]
    rfl
  have hmemory : memoryWindow threePageVolume cfvGpa.toNat 0x3000 = threePageHeader ++
      (List.replicate (pageSize - 0x2C) 0 ++ List.replicate pageSize 0 ++
        List.replicate pageSize 2) := by
    rw [threePageVolume, memoryWindow_zeroPageInside length_threePageFirst hlast, threePageFirst]
    simp only [List.append_assoc]
  obtain ⟨rebuilt, hrebuilt, hbytes⟩ :=
    reconstructCfv_zeroPageInside overflowChecks length_threePageFirst hlast
  have hrebuiltBytes : rebuilt.bytes = threePageHeader ++ (List.replicate (pageSize - 0x2C) 0 ++
      List.replicate pageSize 2 ++ List.replicate pageSize 0) := by
    rw [hbytes, threePageFirst]
    simp only [List.append_assoc]
  have hresolve : resolveFvHeader overflowChecks rebuilt = .ok rebuilt := by
    have hvolume := isFirmwareVolume_threePageHeader (hrest 2 0)
    rw [← hrebuiltBytes] at hvolume
    exact resolveFvHeader_of_isFirmwareVolume overflowChecks hvolume.1 hvolume.2
  have hvolume := isFirmwareVolume_threePageHeader (hrest 0 2)
  rw [← hmemory] at hvolume
  refine ⟨zeroPageInside_wellFormed length_threePageFirst hlast, hvolume.1, hvolume.2, rebuilt,
    ?_, ?_⟩
  · rw [extractCfvFromIgvm_of_parse overflowChecks _ hparse, threePageVolume, hrebuilt,
      Outcome.ok_bind, hresolve]
  · rw [hrebuiltBytes, hmemory]
    intro heq
    have htail := List.append_cancel_left heq
    have hpages := congrArg List.head?
      (List.append_cancel_left (by simpa only [List.append_assoc] using htail))
    simp only [List.head?_append, List.head?_replicate, if_neg (show pageSize ≠ 0 by decide),
      Option.or_some] at hpages
    exact absurd (Option.some.inj hpages) (by decide)

theorem extractCfvFromIgvm_moves_page_after_zero_page_of_parsed :
    (∀ directive ∈ threePageVolume, directive.WellFormed) ∧
      IsFirmwareVolume (memoryWindow threePageVolume cfvGpa.toNat 0x3000) ∧
      (∀ offset < 0x28, ¬ SignatureAt (memoryWindow threePageVolume cfvGpa.toNat 0x3000) offset) ∧
      ∃ out, extractCfvFromIgvm false (fun _ => .ok ⟨threePageVolume⟩) [] 0x3000 = .ok out ∧
        out.bytes ≠ memoryWindow threePageVolume cfvGpa.toNat 0x3000 :=
  extractCfvFromIgvm_moves_page_after_zero_page false _ [] rfl

/-! ## A declared length that overflows -/

/-- A header one byte into the buffer that declares the length `u64::MAX`. -/
def overflowingHeader : List UInt8 :=
  [0] ++ List.replicate 0x20 0 ++ List.replicate 8 0xFF ++ fvhSignature

/-- A page at `CFV_GPA` that starts with that header. -/
def overflowingPage : List UInt8 := overflowingHeader ++ List.replicate (pageSize - 0x2D) 0

theorem length_overflowingPage : overflowingPage.length = pageSize := by
  rw [overflowingPage, List.length_append, List.length_replicate]
  rfl

theorem firstSignature_overflowingPage : FirstSignature overflowingPage (1 + 0x28) := by
  have hheader : ∀ offset ≤ 0x29, SignatureAt overflowingPage offset ↔
      SignatureAt overflowingHeader offset := fun offset hoffset =>
    signatureAt_append_of_add_le (by rw [show overflowingHeader.length = 0x2D from rfl]; omega)
  refine ⟨(hheader _ le_rfl).mpr (by decide), fun earlier hearlier => ?_⟩
  rw [hheader _ hearlier.le]
  revert earlier
  decide

/-- A page whose header declares the length `u64::MAX` one byte in: the extraction panics, at
`fv_start + fv_length` when the build checks overflow, and otherwise at the slice
`cfv_data[1..0]` that the wrapped sum makes. -/
theorem extractCfvFromIgvm_panics_on_length_overflow
    (newFromBinary : List UInt8 → Except String IgvmFile) (igvmContents : List UInt8)
    (hparse : newFromBinary igvmContents = .ok ⟨[.pageData cfvGpa overflowingPage]⟩) :
    (∀ directive ∈ [IgvmDirectiveHeader.pageData cfvGpa overflowingPage], directive.WellFormed) ∧
      extractCfvFromIgvm overflowChecks newFromBinary igvmContents 0x1000 =
        .panic (if overflowChecks then "attempt to add with overflow"
          else "slice index starts at 1 but ends at 0") := by
  have hbytes := rebuiltRegion_onePage length_overflowingPage
  obtain ⟨rebuilt, hrebuilt, hrebuiltBytes⟩ := reconstructCfv_of_hasCfvStart overflowChecks
    ⟨(cfvGpa, overflowingPage), List.mem_singleton_self _, rfl,
      List.ne_nil_of_length_pos (by rw [length_overflowingPage]; decide)⟩
    (by rw [hbytes, length_overflowingPage]; decide)
  rw [hbytes] at hrebuiltBytes
  have hfirst : FirstSignature rebuilt.bytes (1 + 0x28) :=
    hrebuiltBytes ▸ firstSignature_overflowingPage
  have hlengthField : fromLeBytes ((rebuilt.bytes.drop (1 + 0x20)).take 8) = 2 ^ 64 - 1 := by
    rw [hrebuiltBytes, overflowingPage, List.drop_append_of_le_length (by decide),
      List.take_append_of_le_length (by decide)]
    decide
  refine ⟨fun directive hdirective => ?_, ?_⟩
  · rw [List.mem_singleton.mp hdirective]
    exact ⟨by decide, .inr length_overflowingPage⟩
  rw [extractCfvFromIgvm_of_parse overflowChecks _ hparse, hrebuilt, Outcome.ok_bind,
    resolveFvHeader_of_firstSignature overflowChecks hfirst, hlengthField,
    resliceToVolume_of_two_pow_le overflowChecks
      (by rw [hrebuiltBytes, length_overflowingPage]; decide) (by decide) (by decide)]
  cases overflowChecks <;> rfl

theorem extractCfvFromIgvm_panics_on_length_overflow_of_parsed :
    (∀ directive ∈ [IgvmDirectiveHeader.pageData cfvGpa overflowingPage], directive.WellFormed) ∧
      extractCfvFromIgvm false (fun _ => .ok ⟨[.pageData cfvGpa overflowingPage]⟩) [] 0x1000 =
        .panic "slice index starts at 1 but ends at 0" :=
  extractCfvFromIgvm_panics_on_length_overflow false _ [] rfl

/-! ## With and without overflow checks -/

section OverflowChecks

variable (overflowChecks' : Bool)

theorem extractCfvFromIgvm_sameUpToPanic (newFromBinary : List UInt8 → Except String IgvmFile)
    (igvmContents : List UInt8) (cfvSize : UInt64) :
    Outcome.SameUpToPanic (extractCfvFromIgvm overflowChecks newFromBinary igvmContents cfvSize)
      (extractCfvFromIgvm overflowChecks' newFromBinary igvmContents cfvSize) := by
  cases hparse : newFromBinary igvmContents with
  | ok igvm =>
    rw [extractCfvFromIgvm_of_parse overflowChecks cfvSize hparse,
      extractCfvFromIgvm_of_parse overflowChecks' cfvSize hparse]
    exact (reconstructCfv_sameUpToPanic overflowChecks overflowChecks' igvm.directives
      cfvSize).bind (resolveFvHeader_sameUpToPanic overflowChecks overflowChecks')
  | error e => exact .inl (by simp only [extractCfvFromIgvm, hparse, Outcome.error_bind])

end OverflowChecks

end MigtdIgvmVerifier.Cfv.Extract
