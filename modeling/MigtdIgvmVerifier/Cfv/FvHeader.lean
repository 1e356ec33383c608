import MigtdIgvmVerifier.Rust.Core

/-!
# Resolving the firmware-volume header

The region rebuilt from the IGVM pages may begin with padding, so `extract_cfv_from_igvm` looks
for the first `_FVH` signature, backs up `0x28` bytes to the start of the header (the UEFI PI
specification puts the signature at offset `0x28` of it), reads the 8-byte volume length at
offset `0x20`, and cuts the buffer to the volume, or to the end of the buffer when the length
runs past it.

`resolveFvHeader` is that step and `resliceToVolume` its last statement. What it returns is fixed
by the first signature (`resolveFvHeader_cases`): the input itself when no signature heads a
header, and otherwise the re-slice, which keeps the declared length of bytes from the header on
whenever it returns. From these, a volume behind any padding and before any trailer comes out
whole, and the step is idempotent wherever it does not panic. It never reports an error, returns
a run of consecutive bytes of its input, and panics exactly when the header declares a length
that overflows `fv_start + fv_length` (`resolveFvHeader_isPanic_iff`), in a build with overflow
checks or without (`resolveFvHeader_sameUpToPanic`).
-/

namespace MigtdIgvmVerifier.Cfv.FvHeader

open Rust

/-- `b"_FVH"`. -/
def fvhSignature : List UInt8 := [0x5F, 0x46, 0x56, 0x48]

/-- The four bytes at `offset` are the signature. -/
def SignatureAt (bytes : List UInt8) (offset : Nat) : Prop :=
  (bytes.drop offset).take 4 = fvhSignature

instance (bytes : List UInt8) : DecidablePred (SignatureAt bytes) :=
  fun _ => inferInstanceAs (Decidable (_ = _))

/-- `offset` is where the first signature starts. -/
def FirstSignature (bytes : List UInt8) (offset : Nat) : Prop :=
  SignatureAt bytes offset ∧ ∀ earlier < offset, ¬ SignatureAt bytes earlier

instance (bytes : List UInt8) : DecidablePred (FirstSignature bytes) :=
  fun _ => inferInstanceAs (Decidable (_ ∧ _))

variable (overflowChecks : Bool)

/-- The last statement of the resolution: `cfv_data[fv_start..fv_start + fv_length]` when that
fits in the buffer, `cfv_data[fv_start..]` otherwise. -/
def resliceToVolume (cfvData : ByteVec) (fvStart fvLength : Nat) : Outcome ByteVec := do
  if (← addU64 overflowChecks fvStart fvLength) ≤ cfvData.length then
    cfvData.slice fvStart (← addU64 overflowChecks fvStart fvLength)
  else cfvData.sliceFrom fvStart

/-- The header resolution of `extract_cfv_from_igvm`, from the signature search to the
re-slice. -/
def resolveFvHeader (cfvData : ByteVec) : Outcome ByteVec := do
  match (windows 4 cfvData.bytes).findIdx? (· == fvhSignature) with
  | none => pure cfvData
  | some offset =>
    if offset ≥ 0x28 then
      let fvStart := offset - 0x28
      if (← addU64 overflowChecks fvStart 0x28) < cfvData.length then
        let fvLengthOffset := ← addU64 overflowChecks fvStart 0x20
        let fvLengthBytes ←
          cfvData.slice fvLengthOffset (← addU64 overflowChecks fvLengthOffset 8)
        resliceToVolume overflowChecks cfvData fvStart (fromLeBytes fvLengthBytes.bytes)
      else pure cfvData
    else pure cfvData

/-! ## The signature search -/

theorem SignatureAt.add_four_le {bytes : List UInt8} {offset : Nat}
    (h : SignatureAt bytes offset) : offset + 4 ≤ bytes.length := by
  have hlength := congrArg List.length h
  simp only [List.length_take, List.length_drop, fvhSignature, List.length_cons,
    List.length_nil] at hlength
  omega

theorem findIdx?_windows_eq_some {bytes : List UInt8} {offset : Nat} :
    (windows 4 bytes).findIdx? (· == fvhSignature) = some offset ↔
      FirstSignature bytes offset := by
  simp only [windows, List.findIdx?_map, List.findIdx?_eq_some_iff_getElem, List.length_range,
    List.getElem_range, Function.comp_def, beq_iff_eq, FirstSignature, SignatureAt]
  constructor
  · rintro ⟨-, hsig, hbefore⟩
    exact ⟨hsig, hbefore⟩
  · rintro ⟨hsig, hbefore⟩
    exact ⟨by have := SignatureAt.add_four_le hsig; omega, hsig, hbefore⟩

theorem findIdx?_windows_eq_none {bytes : List UInt8} :
    (windows 4 bytes).findIdx? (· == fvhSignature) = none ↔
      ∀ offset, ¬ SignatureAt bytes offset := by
  simp only [windows, List.findIdx?_map, List.findIdx?_eq_none_iff, List.mem_range,
    Function.comp_apply, beq_eq_false_iff_ne, SignatureAt]
  constructor
  · intro h offset hsig
    exact h offset (by have := SignatureAt.add_four_le hsig; omega) hsig
  · exact fun h offset _ => h offset

theorem FirstSignature.unique {bytes : List UInt8} {offset offset' : Nat}
    (h : FirstSignature bytes offset) (h' : FirstSignature bytes offset') : offset = offset' :=
  Option.some.inj ((findIdx?_windows_eq_some.mpr h).symm.trans (findIdx?_windows_eq_some.mpr h'))

theorem signatureAt_append_of_add_le {front back : List UInt8} {offset : Nat}
    (h : offset + 4 ≤ front.length) :
    SignatureAt (front ++ back) offset ↔ SignatureAt front offset := by
  unfold SignatureAt
  rw [List.drop_append_of_le_length (by omega),
    List.take_append_of_le_length (by rw [List.length_drop]; omega)]

/-- A signature in a cut of the buffer is one of the buffer, shifted by the cut's start. -/
theorem signatureAt_drop_take {bytes : List UInt8} {start count offset : Nat} :
    SignatureAt ((bytes.drop start).take count) offset ↔
      offset + 4 ≤ count ∧ SignatureAt bytes (start + offset) := by
  unfold SignatureAt
  rw [List.drop_take, List.drop_drop, List.take_take]
  by_cases h : offset + 4 ≤ count
  · rw [Nat.min_eq_left (by omega)]
    simp [h]
  · simp only [h, false_and, iff_false]
    intro heq
    have hlength := congrArg List.length heq
    simp only [List.length_take, List.length_drop, fvhSignature, List.length_cons,
      List.length_nil] at hlength
    omega

/-- Cutting the buffer at the header found by the first signature keeps that signature first,
when the cut is long enough to hold it, and leaves no signature otherwise. -/
theorem findIdx?_windows_drop_take {bytes : List UInt8} {start : Nat} (count : Nat)
    (hfirst : FirstSignature bytes (start + 0x28)) :
    (windows 4 ((bytes.drop start).take count)).findIdx? (· == fvhSignature) =
      if 0x2C ≤ count then some 0x28 else none := by
  split
  next hcount =>
    refine findIdx?_windows_eq_some.mpr ⟨signatureAt_drop_take.mpr ⟨hcount, hfirst.1⟩, ?_⟩
    intro earlier hlt hsig
    exact hfirst.2 _ (by omega) (signatureAt_drop_take.mp hsig).2
  next hcount =>
    refine findIdx?_windows_eq_none.mpr fun offset hsig => ?_
    obtain ⟨hfits, hsig⟩ := signatureAt_drop_take.mp hsig
    exact hfirst.2 _ (by omega) hsig

theorem take_drop_take_of_le {bytes : List UInt8} {start offset width : Nat} (count : Nat)
    (h : offset + width ≤ count) :
    (((bytes.drop start).take count).drop offset).take width =
      (bytes.drop (start + offset)).take width := by
  rw [List.drop_take, List.drop_drop, List.take_take, Nat.min_eq_left (by omega)]

/-! ## The re-slice -/

theorem fromLeBytes_take_eight_lt (bytes : List UInt8) : fromLeBytes (bytes.take 8) < 2 ^ 64 :=
  calc fromLeBytes (bytes.take 8) < 256 ^ (bytes.take 8).length := fromLeBytes_lt _
    _ ≤ 256 ^ 8 := Nat.pow_le_pow_right (by decide) (List.length_take_le _ _)
    _ = 2 ^ 64 := rfl

/-- A re-slice whose end does not overflow returns the `fvLength` bytes from `fvStart`, or as
many as the buffer has. -/
theorem resliceToVolume_of_add_lt (cfvData : ByteVec) (fvStart fvLength : Nat)
    (hstart : fvStart ≤ cfvData.bytes.length) (hsum : fvStart + fvLength < 2 ^ 64) :
    ∃ out, resliceToVolume overflowChecks cfvData fvStart fvLength = .ok out ∧
      out.bytes = (cfvData.bytes.drop fvStart).take fvLength := by
  simp only [resliceToVolume, addU64_of_lt hsum, Outcome.ok_bind, ByteVec.length_eq]
  split_ifs with hfits
  · obtain ⟨out, hslice, hbytes⟩ := cfvData.slice_of_le (Nat.le_add_right fvStart fvLength) hfits
    exact ⟨out, hslice, by rw [hbytes, List.drop_take, Nat.add_sub_cancel_left]⟩
  · obtain ⟨out, hslice, hbytes⟩ := cfvData.sliceFrom_of_le hstart
    exact ⟨out, hslice, by rw [hbytes, List.take_of_length_le (by simp; omega)]⟩

/-- Every re-slice that returns keeps the `fvLength` bytes from `fvStart`, or as many as the
buffer has: cutting at the end of the buffer is the same cut when the length runs past it. -/
theorem resliceToVolume_eq_ok {cfvData out : ByteVec} {fvStart fvLength : Nat}
    (hlength : fvLength < 2 ^ 64)
    (h : resliceToVolume overflowChecks cfvData fvStart fvLength = .ok out) :
    out.bytes = (cfvData.bytes.drop fvStart).take fvLength := by
  have hbuffer := cfvData.length_lt_two_pow
  have hwhole : cfvData.bytes.length - fvStart ≤ fvLength →
      (cfvData.bytes.drop fvStart).take fvLength = cfvData.bytes.drop fvStart :=
    fun hle => List.take_of_length_le (by simpa using hle)
  unfold resliceToVolume addU64 at h
  split_ifs at h with hsum hchecks
  · simp only [Outcome.ok_bind, ByteVec.length_eq] at h
    split_ifs at h with hfits
    · obtain ⟨-, -, hbytes⟩ := ByteVec.slice_eq_ok h
      rw [hbytes, List.drop_take, Nat.add_sub_cancel_left]
    · obtain ⟨-, hbytes⟩ := ByteVec.sliceFrom_eq_ok h
      rw [hbytes, hwhole (by omega)]
  · cases h
  · simp only [Outcome.ok_bind, ByteVec.length_eq] at h
    split_ifs at h with hwrapped
    · have hbelow : (fvStart + fvLength) % 2 ^ 64 < fvStart := by omega
      rw [ByteVec.slice_of_lt hbelow] at h
      cases h
    · obtain ⟨-, hbytes⟩ := ByteVec.sliceFrom_eq_ok h
      rw [hbytes, hwhole (by omega)]

/-- A re-slice whose end overflows panics: at the addition in a build with overflow checks, and
otherwise at the slice, whose wrapped end falls before its start. -/
theorem resliceToVolume_of_two_pow_le {cfvData : ByteVec} {fvStart fvLength : Nat}
    (hstart : fvStart ≤ cfvData.bytes.length) (hlength : fvLength < 2 ^ 64)
    (hsum : 2 ^ 64 ≤ fvStart + fvLength) :
    resliceToVolume overflowChecks cfvData fvStart fvLength =
      .panic (if overflowChecks then "attempt to add with overflow"
        else s!"slice index starts at {fvStart} but ends at {(fvStart + fvLength) % 2 ^ 64}") := by
  have hbuffer := cfvData.length_lt_two_pow
  unfold resliceToVolume addU64
  cases overflowChecks
  · simp only [if_neg (Nat.not_lt.mpr hsum), Bool.false_eq_true, if_false, Outcome.ok_bind,
      ByteVec.length_eq,
      if_pos (show (fvStart + fvLength) % 2 ^ 64 ≤ cfvData.bytes.length by omega)]
    exact ByteVec.slice_of_lt (by omega)
  · simp only [if_neg (Nat.not_lt.mpr hsum), if_true, Outcome.panic_bind]

/-! ## The resolution step -/

/-- Once the first signature sits at `fvStart + 0x28`, the resolution is the re-slice from
`fvStart` by the length field of that header. -/
theorem resolveFvHeader_of_firstSignature {cfvData : ByteVec} {fvStart : Nat}
    (hfirst : FirstSignature cfvData.bytes (fvStart + 0x28)) :
    resolveFvHeader overflowChecks cfvData =
      resliceToVolume overflowChecks cfvData fvStart
        (fromLeBytes ((cfvData.bytes.drop (fvStart + 0x20)).take 8)) := by
  have hend := hfirst.1.add_four_le
  have hbuffer := cfvData.length_lt_two_pow
  obtain ⟨lengthField, hslice, hbytes⟩ := cfvData.slice_of_le
    (show fvStart + 0x20 ≤ fvStart + 0x20 + 8 by omega) (by omega)
  rw [List.drop_take, Nat.add_sub_cancel_left] at hbytes
  simp only [resolveFvHeader, findIdx?_windows_eq_some.mpr hfirst, ge_iff_le,
    Nat.le_add_left, if_true, Nat.add_sub_cancel,
    addU64_of_lt (show fvStart + 0x28 < 2 ^ 64 by omega),
    addU64_of_lt (show fvStart + 0x20 < 2 ^ 64 by omega),
    addU64_of_lt (show fvStart + 0x20 + 8 < 2 ^ 64 by omega), Outcome.ok_bind, ByteVec.length_eq,
    if_pos (show fvStart + 0x28 < cfvData.bytes.length by omega), hslice, hbytes]

/-- The resolution returns its input unless the first signature heads a header, and then it is
the re-slice by that header's length field. -/
theorem resolveFvHeader_cases (cfvData : ByteVec) :
    (resolveFvHeader overflowChecks cfvData = .ok cfvData ∧
        ∀ fvStart, ¬ FirstSignature cfvData.bytes (fvStart + 0x28)) ∨
      ∃ fvStart, FirstSignature cfvData.bytes (fvStart + 0x28) ∧
        resolveFvHeader overflowChecks cfvData = resliceToVolume overflowChecks cfvData fvStart
          (fromLeBytes ((cfvData.bytes.drop (fvStart + 0x20)).take 8)) := by
  have hnone : ∀ offset, (windows 4 cfvData.bytes).findIdx? (· == fvhSignature) = some offset →
      offset < 0x28 → ∀ fvStart, ¬ FirstSignature cfvData.bytes (fvStart + 0x28) :=
    fun offset hsearch hoffset fvStart hfirst => by
      rw [findIdx?_windows_eq_some.mpr hfirst] at hsearch
      cases hsearch
      omega
  cases hsearch : (windows 4 cfvData.bytes).findIdx? (· == fvhSignature) with
  | none =>
    refine .inl ⟨by simp only [resolveFvHeader, hsearch, Outcome.pure_eq], fun fvStart hfirst => ?_⟩
    rw [findIdx?_windows_eq_some.mpr hfirst] at hsearch
    cases hsearch
  | some offset =>
    by_cases hoffset : 0x28 ≤ offset
    · obtain ⟨fvStart, rfl⟩ : ∃ fvStart, offset = fvStart + 0x28 := ⟨offset - 0x28, by omega⟩
      have hfirst := findIdx?_windows_eq_some.mp hsearch
      exact .inr ⟨fvStart, hfirst, resolveFvHeader_of_firstSignature overflowChecks hfirst⟩
    · exact .inl ⟨by simp only [resolveFvHeader, hsearch, ge_iff_le, if_neg hoffset,
        Outcome.pure_eq], hnone offset hsearch (by omega)⟩

/-- A firmware volume: room for a header, the signature at `0x28`, and at `0x20` its own length
as a little-endian `u64`. -/
def IsFirmwareVolume (volume : List UInt8) : Prop :=
  0x2C ≤ volume.length ∧ SignatureAt volume 0x28 ∧
    fromLeBytes ((volume.drop 0x20).take 8) = volume.length

instance : DecidablePred IsFirmwareVolume :=
  fun _ => inferInstanceAs (Decidable (_ ∧ _ ∧ _))

/-- Whether a buffer is a firmware volume depends on its first `0x2C` bytes and its length. -/
theorem isFirmwareVolume_append {header rest : List UInt8} (hlength : header.length = 0x2C)
    (hsig : SignatureAt header 0x28)
    (hfield : fromLeBytes ((header.drop 0x20).take 8) = 0x2C + rest.length) :
    IsFirmwareVolume (header ++ rest) := by
  refine ⟨by simp [hlength], (signatureAt_append_of_add_le (by omega)).mpr hsig, ?_⟩
  rw [List.drop_append_of_le_length (by omega),
    List.take_append_of_le_length (by rw [List.length_drop]; omega), hfield, List.length_append,
    hlength]

/-- A firmware volume that starts at `start` in the buffer and fits in it, with no signature
before its own, is what the resolution returns. -/
theorem resolveFvHeader_of_volume_at {cfvData : ByteVec} {volume : List UInt8} {start : Nat}
    (hcut : (cfvData.bytes.drop start).take volume.length = volume)
    (hfits : start + volume.length ≤ cfvData.bytes.length) (hvolume : IsFirmwareVolume volume)
    (hclear : ∀ offset < start + 0x28, ¬ SignatureAt cfvData.bytes offset) :
    ∃ out, resolveFvHeader overflowChecks cfvData = .ok out ∧ out.bytes = volume := by
  obtain ⟨hroom, hsig, hfield⟩ := hvolume
  have hlengthField : (cfvData.bytes.drop (start + 0x20)).take 8 = (volume.drop 0x20).take 8 := by
    rw [← take_drop_take_of_le volume.length (by omega), hcut]
  rw [← hcut] at hsig
  rw [resolveFvHeader_of_firstSignature overflowChecks
      ⟨(signatureAt_drop_take.mp hsig).2, hclear⟩, hlengthField, hfield]
  obtain ⟨out, hout, hbytesOut⟩ := resliceToVolume_of_add_lt overflowChecks cfvData start
    volume.length (by omega) (lt_of_le_of_lt hfits cfvData.length_lt_two_pow)
  exact ⟨out, hout, hbytesOut.trans hcut⟩

/-- A buffer that is one firmware volume, with no signature before its own, resolves to
itself. -/
theorem resolveFvHeader_of_isFirmwareVolume {cfvData : ByteVec}
    (hvolume : IsFirmwareVolume cfvData.bytes)
    (hclear : ∀ offset < 0x28, ¬ SignatureAt cfvData.bytes offset) :
    resolveFvHeader overflowChecks cfvData = .ok cfvData := by
  obtain ⟨out, hout, hbytes⟩ := resolveFvHeader_of_volume_at overflowChecks
    (show (cfvData.bytes.drop 0).take cfvData.bytes.length = cfvData.bytes by simp)
    (Nat.zero_add _).le hvolume hclear
  rw [hout, ByteVec.ext hbytes]

/-- The resolution recovers a firmware volume from behind any padding and in front of any
trailer, when no signature starts before the volume's own. -/
theorem resolveFvHeader_recovers_volume (padding volume trailer : List UInt8) (cfvData : ByteVec)
    (hbytes : cfvData.bytes = padding ++ volume ++ trailer) (hvolume : IsFirmwareVolume volume)
    (hclear : ∀ offset < padding.length + 0x28, ¬ SignatureAt cfvData.bytes offset) :
    ∃ out, resolveFvHeader overflowChecks cfvData = .ok out ∧ out.bytes = volume := by
  refine resolveFvHeader_of_volume_at overflowChecks ?_ ?_ hvolume hclear
  · rw [hbytes, List.append_assoc, List.drop_left, List.take_left' rfl]
  · rw [hbytes]
    simp only [List.length_append]
    omega

/-- The smallest firmware volume: a bare header that declares its own `0x2C` bytes. -/
def minimalVolume : List UInt8 :=
  List.replicate 0x20 0 ++ [0x2C, 0, 0, 0, 0, 0, 0, 0] ++ fvhSignature

theorem resolveFvHeader_recovers_minimalVolume :
    IsFirmwareVolume minimalVolume ∧
      (∀ offset < [7].length + 0x28, ¬ SignatureAt ([7] ++ minimalVolume ++ [9]) offset) ∧
      ∃ out, resolveFvHeader false ⟨[7] ++ minimalVolume ++ [9], by decide⟩ = .ok out ∧
        out.bytes = minimalVolume :=
  ⟨by decide, by decide, resolveFvHeader_recovers_volume false [7] minimalVolume [9] _ rfl
    (by decide) (by decide)⟩

/-- The resolution is idempotent on every buffer where it returns. -/
theorem resolveFvHeader_idempotent {cfvData out : ByteVec}
    (h : resolveFvHeader overflowChecks cfvData = .ok out) :
    resolveFvHeader overflowChecks out = .ok out := by
  rcases resolveFvHeader_cases overflowChecks cfvData with ⟨hsame, -⟩ | ⟨fvStart, hfirst, hresolve⟩
  · rw [hsame] at h
    cases h
    exact hsame
  · rw [hresolve] at h
    have hfvLength := fromLeBytes_take_eight_lt (cfvData.bytes.drop (fvStart + 0x20))
    generalize hfield : fromLeBytes ((cfvData.bytes.drop (fvStart + 0x20)).take 8) = fvLength
      at h hfvLength
    have hbytes := resliceToVolume_eq_ok overflowChecks hfvLength h
    have hsearchOut := findIdx?_windows_drop_take fvLength hfirst
    rw [← hbytes] at hsearchOut
    split at hsearchOut
    next hroom =>
      have hfirstOut : FirstSignature out.bytes (0 + 0x28) :=
        findIdx?_windows_eq_some.mp hsearchOut
      have hfieldOut : fromLeBytes ((out.bytes.drop (0 + 0x20)).take 8) = fvLength := by
        rw [hbytes, take_drop_take_of_le _ (by omega), hfield]
      rw [resolveFvHeader_of_firstSignature overflowChecks hfirstOut, hfieldOut]
      obtain ⟨out', hout', hbytes'⟩ :=
        resliceToVolume_of_add_lt overflowChecks out 0 fvLength (Nat.zero_le _) (by omega)
      rw [hout', ByteVec.ext (hbytes'.trans _)]
      rw [List.drop_zero, hbytes, List.take_take, Nat.min_self]
    next =>
      simp only [resolveFvHeader, hsearchOut, Outcome.pure_eq]

theorem resolveFvHeader_idempotent_on_minimalVolume :
    resolveFvHeader false ⟨[7] ++ minimalVolume ++ [9], by decide⟩ =
        .ok ⟨minimalVolume, by decide⟩ ∧
      resolveFvHeader false ⟨minimalVolume, by decide⟩ = .ok ⟨minimalVolume, by decide⟩ :=
  have hresolve : resolveFvHeader false ⟨[7] ++ minimalVolume ++ [9], by decide⟩ =
      .ok ⟨minimalVolume, by decide⟩ := by decide
  ⟨hresolve, resolveFvHeader_idempotent false hresolve⟩

/-! ## Panics -/

/-- The header that the first signature heads declares a length that overflows
`fv_start + fv_length`. -/
def DeclaresOverflowingLength (bytes : List UInt8) : Prop :=
  ∃ fvStart < bytes.length, FirstSignature bytes (fvStart + 0x28) ∧
    2 ^ 64 ≤ fvStart + fromLeBytes ((bytes.drop (fvStart + 0x20)).take 8)

instance : DecidablePred DeclaresOverflowingLength :=
  fun _ => inferInstanceAs (Decidable (∃ _, _))

/-- The resolution panics exactly when the header that its first signature heads declares a
length that overflows `fv_start + fv_length`. -/
theorem resolveFvHeader_isPanic_iff {cfvData : ByteVec} :
    (resolveFvHeader overflowChecks cfvData).isPanic = true ↔
      DeclaresOverflowingLength cfvData.bytes := by
  rcases resolveFvHeader_cases overflowChecks cfvData with ⟨hsame, hnone⟩ |
    ⟨fvStart, hfirst, hresolve⟩
  · simp only [hsame, Outcome.isPanic_ok, Bool.false_eq_true, false_iff]
    exact fun ⟨fvStart, _, hfirst, _⟩ => hnone fvStart hfirst
  · have hstart := hfirst.1.add_four_le
    have hfvLength := fromLeBytes_take_eight_lt (cfvData.bytes.drop (fvStart + 0x20))
    rw [hresolve]
    by_cases hsum : fvStart + fromLeBytes ((cfvData.bytes.drop (fvStart + 0x20)).take 8) < 2 ^ 64
    · obtain ⟨out, hout, -⟩ := resliceToVolume_of_add_lt overflowChecks cfvData fvStart _
        (by omega) hsum
      simp only [hout, Outcome.isPanic_ok, Bool.false_eq_true, false_iff]
      rintro ⟨fvStart', -, hfirst', hoverflow⟩
      have := hfirst.unique hfirst'
      rw [show fvStart' = fvStart by omega] at hoverflow
      omega
    · rw [resliceToVolume_of_two_pow_le overflowChecks (by omega) hfvLength (by omega)]
      exact ⟨fun _ => ⟨fvStart, by omega, hfirst, by omega⟩, fun _ => rfl⟩

/-! ## What the resolution returns -/

/-- The resolution never reports an error: it returns, or panics on an overflowing length. -/
theorem resolveFvHeader_ne_error (cfvData : ByteVec) (message : String) :
    resolveFvHeader overflowChecks cfvData ≠ .error message := by
  rcases resolveFvHeader_cases overflowChecks cfvData with ⟨hsame, -⟩ |
    ⟨fvStart, hfirst, hresolve⟩
  · rw [hsame]
    exact nofun
  · have hstart := hfirst.1.add_four_le
    have hfvLength := fromLeBytes_take_eight_lt (cfvData.bytes.drop (fvStart + 0x20))
    rw [hresolve]
    by_cases hsum : fvStart + fromLeBytes ((cfvData.bytes.drop (fvStart + 0x20)).take 8) < 2 ^ 64
    · obtain ⟨out, hout, -⟩ := resliceToVolume_of_add_lt overflowChecks cfvData fvStart _
        (by omega) hsum
      rw [hout]
      exact nofun
    · rw [resliceToVolume_of_two_pow_le overflowChecks (by omega) hfvLength (by omega)]
      exact nofun

/-- What the resolution returns is a run of consecutive bytes of its input. -/
theorem isInfix_of_resolveFvHeader_eq_ok {cfvData out : ByteVec}
    (h : resolveFvHeader overflowChecks cfvData = .ok out) : out.bytes <:+: cfvData.bytes := by
  rcases resolveFvHeader_cases overflowChecks cfvData with ⟨hsame, -⟩ |
    ⟨fvStart, -, hresolve⟩
  · rw [hsame] at h
    cases h
    exact List.infix_refl _
  · rw [hresolve] at h
    rw [resliceToVolume_eq_ok overflowChecks (fromLeBytes_take_eight_lt _) h]
    exact (List.take_prefix _ _).isInfix.trans (List.drop_suffix _ _).isInfix

/-! ## With and without overflow checks -/

section OverflowChecks

variable (overflowChecks' : Bool)

theorem resliceToVolume_sameUpToPanic {cfvData : ByteVec} {fvStart fvLength : Nat}
    (hstart : fvStart ≤ cfvData.bytes.length) (hlength : fvLength < 2 ^ 64) :
    Outcome.SameUpToPanic (resliceToVolume overflowChecks cfvData fvStart fvLength)
      (resliceToVolume overflowChecks' cfvData fvStart fvLength) := by
  by_cases hsum : fvStart + fvLength < 2 ^ 64
  · exact .inl (by simp only [resliceToVolume, addU64_of_lt hsum])
  · rw [resliceToVolume_of_two_pow_le overflowChecks hstart hlength (by omega),
      resliceToVolume_of_two_pow_le overflowChecks' hstart hlength (by omega)]
    exact .inr ⟨rfl, rfl⟩

/-- The header resolution of a build with overflow checks and of one without agree up to the
message of a panic. -/
theorem resolveFvHeader_sameUpToPanic (cfvData : ByteVec) :
    Outcome.SameUpToPanic (resolveFvHeader overflowChecks cfvData)
      (resolveFvHeader overflowChecks' cfvData) := by
  rcases resolveFvHeader_cases overflowChecks cfvData with ⟨hsame, hnone⟩ |
    ⟨fvStart, hfirst, hresolve⟩
  · rcases resolveFvHeader_cases overflowChecks' cfvData with ⟨hsame', -⟩ |
      ⟨fvStart, hfirst, -⟩
    · exact .inl (hsame.trans hsame'.symm)
    · exact absurd hfirst (hnone fvStart)
  · have hend := hfirst.1.add_four_le
    rw [hresolve, resolveFvHeader_of_firstSignature overflowChecks' hfirst]
    exact resliceToVolume_sameUpToPanic overflowChecks overflowChecks' (by omega)
      (fromLeBytes_take_eight_lt _)

end OverflowChecks

end MigtdIgvmVerifier.Cfv.FvHeader
