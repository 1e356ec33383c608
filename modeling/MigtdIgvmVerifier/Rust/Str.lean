import MigtdIgvmVerifier.Rust.Core

/-!
# `&str` and its byte offsets

A Rust `&str` is the UTF-8 encoding of a sequence of characters, and every index into it is a
byte offset. It is kept here as its characters, with the byte offset of a position computed from
`Char.utf8Size`. An offset is a char boundary exactly when it is the UTF-8 length of a prefix;
`boundaryIndex` recovers that prefix, and slicing at any other offset panics, as slicing past the
end does. `str::find` answers with such an offset: `charFind` is the same search counted in
characters (`strFind_eq_map_charFind`).
-/

namespace MigtdIgvmVerifier.Rust

open Outcome

/-- `str::len`: the number of bytes in the UTF-8 encoding of these characters. -/
def utf8Len : List Char → Nat
  | [] => 0
  | c :: rest => c.utf8Size + utf8Len rest

/-- A `&str`, carrying Rust's bound on the length of an allocation. -/
structure RustStr where
  chars : List Char
  utf8Len_le : utf8Len chars ≤ isizeMax

/-- The number of characters before byte offset `offset`, when the offset is a char boundary of
`chars`; `none` when it falls inside a character or past the end. -/
def boundaryIndex : List Char → Nat → Option Nat
  | _, 0 => some 0
  | [], _ + 1 => none
  | c :: rest, offset + 1 =>
    if c.utf8Size ≤ offset + 1 then (boundaryIndex rest (offset + 1 - c.utf8Size)).map (· + 1)
    else none

/-- The standard library's panic for a bad `str` range, up to where it quotes the string. -/
def sliceErrorMessage (chars : List Char) (start stop : Nat) : String :=
  let length := utf8Len chars
  if length < start then s!"byte index {start} is out of bounds"
  else if length < stop then s!"byte index {stop} is out of bounds"
  else if stop < start then s!"begin <= end ({start} <= {stop}) when slicing"
  else if (boundaryIndex chars start).isNone then s!"byte index {start} is not a char boundary"
  else s!"byte index {stop} is not a char boundary"

/-- `s[start..]`. -/
def strSliceFrom (chars : List Char) (start : Nat) : Outcome (List Char) :=
  match boundaryIndex chars start with
  | some index => .ok (chars.drop index)
  | none => .panic (sliceErrorMessage chars start (utf8Len chars))

/-- `s[start..stop]`. -/
def strSlice (chars : List Char) (start stop : Nat) : Outcome (List Char) :=
  match boundaryIndex chars start, boundaryIndex chars stop with
  | some first, some last =>
    if start ≤ stop then .ok ((chars.take last).drop first)
    else .panic (sliceErrorMessage chars start stop)
  | _, _ => .panic (sliceErrorMessage chars start stop)

/-- `s.find(pattern)`: the byte offset of the first occurrence of `pattern`. -/
def strFind (pattern : List Char) : List Char → Option Nat
  | [] => if pattern.isPrefixOf [] then some 0 else none
  | c :: rest =>
    if pattern.isPrefixOf (c :: rest) then some 0
    else (strFind pattern rest).map (· + c.utf8Size)

/-- The character index of the first occurrence of `pattern`: `strFind` counted in characters
rather than bytes. -/
def charFind (pattern : List Char) : List Char → Option Nat
  | [] => if pattern.isPrefixOf [] then some 0 else none
  | c :: rest =>
    if pattern.isPrefixOf (c :: rest) then some 0 else (charFind pattern rest).map (· + 1)

/-! ## Byte offsets -/

@[simp] theorem utf8Len_nil : utf8Len [] = 0 := rfl

@[simp]
theorem utf8Len_cons (c : Char) (rest : List Char) :
    utf8Len (c :: rest) = c.utf8Size + utf8Len rest := rfl

@[simp]
theorem utf8Len_append (front back : List Char) :
    utf8Len (front ++ back) = utf8Len front + utf8Len back := by
  induction front with
  | nil => simp
  | cons c rest ih => simp [ih, Nat.add_assoc]

theorem utf8Len_take_add_drop (chars : List Char) (index : Nat) :
    utf8Len (chars.take index) + utf8Len (chars.drop index) = utf8Len chars := by
  rw [← utf8Len_append, List.take_append_drop]

theorem utf8Len_take_le (chars : List Char) (index : Nat) :
    utf8Len (chars.take index) ≤ utf8Len chars := by
  have := utf8Len_take_add_drop chars index
  omega

/-- Taking more characters takes strictly more bytes. -/
theorem utf8Len_take_lt_take {chars : List Char} {index index' : Nat} (hlt : index < index')
    (hle : index' ≤ chars.length) :
    utf8Len (chars.take index) < utf8Len (chars.take index') := by
  induction chars generalizing index index' with
  | nil => simp at hle; omega
  | cons c rest ih =>
    obtain ⟨index', rfl⟩ : ∃ k, index' = k + 1 := ⟨index' - 1, by omega⟩
    cases index with
    | zero =>
      have := c.utf8Size_pos
      simp only [List.take_zero, utf8Len_nil, List.take_succ_cons, utf8Len_cons]
      omega
    | succ index =>
      simp only [List.take_succ_cons, utf8Len_cons, List.length_cons] at hle ⊢
      have := ih (Nat.lt_of_succ_lt_succ hlt) (by omega)
      omega

theorem boundaryIndex_utf8Len_take (chars : List Char) {index : Nat} (h : index ≤ chars.length) :
    boundaryIndex chars (utf8Len (chars.take index)) = some index := by
  induction chars generalizing index with
  | nil => simp at h; subst h; rfl
  | cons c rest ih =>
    cases index with
    | zero => rfl
    | succ index =>
      have hpos := c.utf8Size_pos
      obtain ⟨offset, hoffset⟩ : ∃ offset, utf8Len (rest.take index) + c.utf8Size = offset + 1 :=
        ⟨_, (Nat.succ_pred_eq_of_pos (by omega)).symm⟩
      simp only [List.take_succ_cons, utf8Len_cons, List.length_cons] at h ⊢
      rw [Nat.add_comm, hoffset, boundaryIndex, if_pos (by omega),
        show offset + 1 - c.utf8Size = utf8Len (rest.take index) by omega,
        ih (by omega), Option.map_some']

theorem strSliceFrom_utf8Len_take (chars : List Char) {index : Nat} (h : index ≤ chars.length) :
    strSliceFrom chars (utf8Len (chars.take index)) = .ok (chars.drop index) := by
  simp [strSliceFrom, boundaryIndex_utf8Len_take chars h]

theorem strSlice_utf8Len_take (chars : List Char) {first last : Nat} (hle : first ≤ last)
    (h : last ≤ chars.length) :
    strSlice chars (utf8Len (chars.take first)) (utf8Len (chars.take last)) =
      .ok ((chars.take last).drop first) := by
  have hmono : utf8Len (chars.take first) ≤ utf8Len (chars.take last) := by
    rcases Nat.eq_or_lt_of_le hle with rfl | hlt
    · exact le_rfl
    · exact (utf8Len_take_lt_take hlt h).le
  simp [strSlice, boundaryIndex_utf8Len_take chars (hle.trans h),
    boundaryIndex_utf8Len_take chars h, hmono]

theorem utf8Len_take_add (chars : List Char) (index count : Nat) :
    utf8Len (chars.take (index + count)) =
      utf8Len (chars.take index) + utf8Len ((chars.drop index).take count) := by
  rw [List.take_add, utf8Len_append]

/-- A pattern found at character `index` splits the text there. -/
theorem drop_eq_append_of_prefix {pattern chars : List Char} {index : Nat}
    (h : pattern <+: chars.drop index) :
    chars.drop index = pattern ++ chars.drop (index + pattern.length) := by
  obtain ⟨rest, hrest⟩ := h
  rw [← List.drop_drop, ← hrest, List.drop_left]

theorem utf8Len_take_of_prefix {pattern chars : List Char} {index : Nat}
    (h : pattern <+: chars.drop index) :
    utf8Len (chars.take (index + pattern.length)) =
      utf8Len (chars.take index) + utf8Len pattern := by
  rw [utf8Len_take_add, drop_eq_append_of_prefix h, List.take_left' rfl]

theorem add_length_le_of_prefix {pattern chars : List Char} {index : Nat}
    (h : pattern <+: chars.drop index) (hpos : 0 < pattern.length) :
    index + pattern.length ≤ chars.length := by
  have := h.length_le
  rw [List.length_drop] at this
  omega

/-- `find` counts in bytes the characters that `charFind` counts. -/
theorem strFind_eq_map_charFind (pattern chars : List Char) :
    strFind pattern chars =
      (charFind pattern chars).map fun index => utf8Len (chars.take index) := by
  induction chars with
  | nil =>
    simp only [strFind, charFind]
    split <;> rfl
  | cons c rest ih =>
    simp only [strFind, charFind]
    split
    · rfl
    · rw [ih, Option.map_map, Option.map_map]
      congr 1
      funext index
      simp [Nat.add_comm]

/-- `charFind` answers with a position at which the pattern occurs. -/
theorem charFind_eq_some {pattern chars : List Char} {index : Nat}
    (h : charFind pattern chars = some index) :
    index ≤ chars.length ∧ pattern <+: chars.drop index := by
  induction chars generalizing index with
  | nil =>
    simp only [charFind] at h
    split at h
    next hprefix =>
      cases h
      exact ⟨le_rfl, List.isPrefixOf_iff_prefix.mp hprefix⟩
    next => cases h
  | cons c rest ih =>
    simp only [charFind] at h
    split at h
    next hprefix =>
      cases h
      exact ⟨Nat.zero_le _, List.isPrefixOf_iff_prefix.mp hprefix⟩
    next =>
      obtain ⟨index, hindex, rfl⟩ := Option.map_eq_some'.mp h
      obtain ⟨hle, hprefix⟩ := ih hindex
      exact ⟨by simp [hle], by simpa using hprefix⟩

/-- `charFind` answers with a position exactly when the pattern occurs there and at no
earlier position. -/
theorem charFind_eq_some_iff {pattern chars : List Char} {index : Nat} :
    charFind pattern chars = some index ↔
      pattern <+: chars.drop index ∧ ∀ i < index, ¬ pattern <+: chars.drop i := by
  induction chars generalizing index with
  | nil =>
    cases pattern with
    | nil =>
      cases index with
      | zero => simp [charFind]
      | succ index => simpa [charFind] using ⟨0, Nat.succ_pos _⟩
    | cons p ps => simp [charFind]
  | cons c rest ih =>
    by_cases hfirst : pattern <+: c :: rest
    · cases index with
      | zero => simp [charFind, List.isPrefixOf_iff_prefix.mpr hfirst, hfirst]
      | succ index => simpa [charFind, List.isPrefixOf_iff_prefix.mpr hfirst] using
          fun _ => ⟨0, Nat.succ_pos _, hfirst⟩
    · cases index with
      | zero => simp [charFind, hfirst, mt List.isPrefixOf_iff_prefix.mp hfirst]
      | succ index =>
        simp [charFind, mt List.isPrefixOf_iff_prefix.mp hfirst, ih, Nat.forall_lt_succ_left,
          hfirst]

/-- `charFind` finds nothing exactly when the pattern does not occur. -/
theorem charFind_eq_none_iff {pattern chars : List Char} :
    charFind pattern chars = none ↔ ¬ pattern <:+: chars := by
  induction chars with
  | nil => cases pattern <;> simp [charFind]
  | cons c rest ih =>
    by_cases hfirst : pattern <+: c :: rest <;>
      simp [charFind, List.isPrefixOf_iff_prefix, List.infix_cons_iff, hfirst, ih]

theorem charFind_singleton_eq_none_iff {c : Char} {chars : List Char} :
    charFind [c] chars = none ↔ c ∉ chars := by
  rw [charFind_eq_none_iff]
  refine ⟨fun hnot hmem => ?_, fun hnot hoccurs => hnot (hoccurs.subset (List.mem_singleton_self c))⟩
  obtain ⟨front, back, rfl⟩ := List.append_of_mem hmem
  exact hnot ⟨front, back, by simp⟩

/-- A character found first at `index` splits the text there, with none of it before. -/
theorem charFind_singleton_eq_some {c : Char} {chars : List Char} {index : Nat}
    (h : charFind [c] chars = some index) :
    c ∉ chars.take index ∧ chars = chars.take index ++ c :: chars.drop (index + 1) := by
  refine ⟨?_, ?_⟩
  · induction chars generalizing index with
    | nil => simp [charFind] at h
    | cons x rest ih =>
      by_cases hx : c = x
      · simp [charFind, hx] at h
        simp [← h]
      · simp [charFind, hx] at h
        obtain ⟨index, hindex, rfl⟩ := h
        simp [hx, ih hindex]
  · have hsplit := drop_eq_append_of_prefix (charFind_eq_some h).2
    rw [List.length_singleton, List.singleton_append] at hsplit
    rw [← hsplit, List.take_append_drop]

/-- A character not in `front` is first found right after it. -/
theorem charFind_singleton_append {c : Char} {front : List Char} (back : List Char)
    (h : c ∉ front) : charFind [c] (front ++ c :: back) = some front.length := by
  induction front with
  | nil => simp [charFind]
  | cons x front ih =>
    rw [List.mem_cons, not_or] at h
    simp [charFind, ih h.2, h.1]

end MigtdIgvmVerifier.Rust
