import MigtdIgvmVerifier.Rust.Core

/-!
# The CFV configuration that `main` reads

Before it opens the IGVM file, the verifier reads the size of the configuration volume from
`image_layout.json` and its runtime address from the `CFV` section of `metadata.json`. Both are
hexadecimal strings, parsed by `u64::from_str_radix(text.trim_start_matches("0x"), 16)`. The JSON
decoding is `serde`'s and is not modelled: the records below are what it returns.

`fromStrRadix16` accepts an optional `+` and a non-empty run of hex digits whose value fits in 64
bits, and nothing else (`fromStrRadix16_eq_ok_iff`). `loadCfvConfig_eq_ok_iff` says which files
load: the size and the address of the first `CFV` section are each `0x` written any number of
times, an optional `+` and hex digits (`HexU64Text`), and they load as the values they state.
Nothing bounds the size further, so the extraction receives whatever `cfv_size` a layout file
states, and no section after the first `CFV` one is read.
-/

namespace MigtdIgvmVerifier.Config.Layout

open Rust

/-- `core::num::IntErrorKind`, as far as an unsigned parse fails. -/
inductive IntErrorKind where
  /-- `Empty`: there is nothing to parse. -/
  | empty
  /-- `InvalidDigit`: a character is not a digit of the radix, or a sign stands alone. -/
  | invalidDigit
  /-- `PosOverflow`: the value does not fit in 64 bits. -/
  | posOverflow
  deriving DecidableEq, Repr

/-- `c.to_digit(16)`. -/
def hexDigit? (c : Char) : Option Nat :=
  if '0' ≤ c ∧ c ≤ '9' then some (c.toNat - '0'.toNat)
  else if 'a' ≤ c ∧ c ≤ 'f' then some (c.toNat - 'a'.toNat + 10)
  else if 'A' ≤ c ∧ c ≤ 'F' then some (c.toNat - 'A'.toNat + 10)
  else none

/-- The digit loop of `from_str_radix`: read the digits in turn, and fail at the first character
that is not one or at the first digit that takes the value past `u64::MAX`. -/
def accumulateHex (result : Nat) : List Char → Except IntErrorKind Nat
  | [] => .ok result
  | c :: rest =>
    match hexDigit? c with
    | none => .error .invalidDigit
    | some digit =>
      if result * 16 + digit < 2 ^ 64 then accumulateHex (result * 16 + digit) rest
      else .error .posOverflow

/-- `u64::from_str_radix(src, 16)`: an unsigned type takes a leading `+` but no `-`. -/
def fromStrRadix16 (src : List Char) : Except IntErrorKind Nat :=
  match src with
  | [] => .error .empty
  | ['+'] | ['-'] => .error .invalidDigit
  | '+' :: digits => accumulateHex 0 digits
  | digits => accumulateHex 0 digits

/-- `text.trim_start_matches("0x")`: every leading `0x` is dropped, not only the first. -/
def trimStartMatches0x : List Char → List Char
  | '0' :: 'x' :: rest => trimStartMatches0x rest
  | chars => chars

/-- `u64::from_str_radix(text.trim_start_matches("0x"), 16)`, with the context `main` gives it as
the error. -/
def parseHexU64 (text context : String) : Outcome UInt64 :=
  match fromStrRadix16 (trimStartMatches0x text.toList) with
  | .ok value => .ok (UInt64.ofNat value)
  | .error _ => .error context

/-- `ImageLayout`: its `Config` field states the CFV size. -/
structure ImageLayout where
  config : String

/-- A `Section` of `metadata.json`. Its `MemoryDataSize` is read by no code of the verifier and is
left out. -/
structure Section where
  memoryAddress : String
  sectionType : String

/-- `Metadata`. -/
structure Metadata where
  sections : List Section

/-- The CFV part of the first step of `main`: the size from `image_layout.json`, then the runtime
address of the first `CFV` section of `metadata.json`. -/
def loadCfvConfig (imageLayout : ImageLayout) (metadata : Metadata) :
    Outcome (UInt64 × UInt64) := do
  let cfvSize ← parseHexU64 imageLayout.config "Failed to parse Config size from image_layout.json"
  let cfvSection ← match metadata.sections.find? (·.sectionType == "CFV") with
    | some cfvSection => .ok cfvSection
    | none => .error "CFV section not found in metadata.json"
  let cfvMemoryAddr ←
    parseHexU64 cfvSection.memoryAddress "Failed to parse CFV MemoryAddress from metadata.json"
  pure (cfvSize, cfvMemoryAddr)

/-! ## What the parse accepts -/

/-- Every character is a hex digit. -/
def IsHexDigits (chars : List Char) : Prop := ∀ c ∈ chars, (hexDigit? c).isSome

instance : DecidablePred IsHexDigits :=
  fun _ => inferInstanceAs (Decidable (∀ c ∈ _, _))

/-- The value of hex digits read after `result`, most significant first. -/
def hexValue (result : Nat) : List Char → Nat
  | [] => result
  | c :: rest => hexValue (result * 16 + (hexDigit? c).getD 0) rest

theorem le_hexValue (result : Nat) (chars : List Char) : result ≤ hexValue result chars := by
  induction chars generalizing result with
  | nil => exact le_rfl
  | cons c rest ih => exact le_trans (by omega) (ih _)

theorem accumulateHex_eq_ok_iff {result value : Nat} {chars : List Char}
    (hresult : result < 2 ^ 64) :
    accumulateHex result chars = .ok value ↔
      IsHexDigits chars ∧ hexValue result chars = value ∧ value < 2 ^ 64 := by
  induction chars generalizing result with
  | nil =>
    simp only [accumulateHex, Except.ok.injEq, IsHexDigits, List.not_mem_nil, false_imp_iff,
      implies_true, hexValue, true_and]
    exact ⟨fun h => ⟨h, h ▸ hresult⟩, fun h => h.1⟩
  | cons c rest ih =>
    simp only [IsHexDigits, List.forall_mem_cons, hexValue]
    cases hdigit : hexDigit? c with
    | none => simp [accumulateHex, hdigit]
    | some digit =>
      simp only [accumulateHex, hdigit, Option.isSome_some, true_and, Option.getD_some]
      split_ifs with hlt
      · exact ih hlt
      · simp only [reduceCtorEq, false_iff, not_and, not_lt]
        intro _ hvalue
        rw [← hvalue]
        exact le_trans (by omega) (le_hexValue _ _)

/-- `from_str_radix` accepts an optional `+` and a non-empty run of hex digits whose value fits
in 64 bits, and nothing else. -/
theorem fromStrRadix16_eq_ok_iff {src : List Char} {value : Nat} :
    fromStrRadix16 src = .ok value ↔
      ∃ digits, digits ≠ [] ∧ (src = digits ∨ src = '+' :: digits) ∧ IsHexDigits digits ∧
        hexValue 0 digits = value ∧ value < 2 ^ 64 := by
  have hsign : ∀ sign ∈ ['+', '-'], ∀ rest, ¬ IsHexDigits (sign :: rest) :=
    fun sign hsign rest h => absurd (h sign (List.mem_cons_self _ _)) (by
      simp only [List.mem_cons, List.mem_singleton, List.not_mem_nil, or_false] at hsign
      rcases hsign with rfl | rfl <;> decide)
  have hdigits : ∀ chars, accumulateHex 0 chars = .ok value ↔
      IsHexDigits chars ∧ hexValue 0 chars = value ∧ value < 2 ^ 64 :=
    fun _ => accumulateHex_eq_ok_iff (by decide)
  unfold fromStrRadix16
  split
  next =>
    simp only [reduceCtorEq, false_iff, not_exists, not_and]
    rintro digits hne (h | h)
    · exact (hne h.symm).elim
    · cases h
  next =>
    simp only [reduceCtorEq, false_iff, not_exists, not_and]
    rintro digits hne (rfl | h) hhex
    · exact (hsign '+' (by simp) [] hhex).elim
    · exact (hne (List.cons.inj h).2.symm).elim
  next =>
    simp only [reduceCtorEq, false_iff, not_exists, not_and]
    rintro digits hne (rfl | h) hhex
    · exact (hsign '-' (by simp) [] hhex).elim
    · cases h
  next digits hne =>
    rw [hdigits]
    constructor
    · exact fun h => ⟨digits, hne, .inr rfl, h⟩
    · rintro ⟨digits', -, (rfl | h), h⟩
      · exact absurd h.1 (hsign '+' (by simp) digits)
      · rwa [(List.cons.inj h).2]
  next _ hempty _ _ hplus =>
    rw [hdigits]
    constructor
    · exact fun h => ⟨src, hempty, .inl rfl, h⟩
    · rintro ⟨digits, -, (rfl | h), h⟩
      · exact h
      · exact absurd h (hplus digits)

example : fromStrRadix16 "+ff".toList = .ok 255 := rfl

example : fromStrRadix16 "0X10".toList = .error .invalidDigit := rfl

theorem trimStartMatches0x_of_isHexDigits {chars : List Char} (h : IsHexDigits chars) :
    trimStartMatches0x chars = chars := by
  unfold trimStartMatches0x
  split
  next rest => exact absurd (h 'x' (by simp)) (by decide)
  next => rfl

/-! ## The texts that load -/

/-- `0x`, written `count` times. -/
def hexPrefixes (count : Nat) : List Char := (List.replicate count ['0', 'x']).flatten

theorem hexPrefixes_succ (count : Nat) :
    hexPrefixes (count + 1) = '0' :: 'x' :: hexPrefixes count := rfl

/-- `text` states `value` as `main` reads it: `0x` any number of times, an optional `+`, and a
non-empty run of hex digits, most significant first. -/
def HexU64Text (text : String) (value : UInt64) : Prop :=
  ∃ count digits, digits ≠ [] ∧
    (text.toList = hexPrefixes count ++ digits ∨
      text.toList = hexPrefixes count ++ '+' :: digits) ∧
    IsHexDigits digits ∧ hexValue 0 digits = value.toNat

theorem trimStartMatches0x_hexPrefixes_append (count : Nat) (rest : List Char) :
    trimStartMatches0x (hexPrefixes count ++ rest) = trimStartMatches0x rest := by
  induction count with
  | zero => rfl
  | succ count ih =>
    rw [hexPrefixes_succ, List.cons_append, List.cons_append, trimStartMatches0x, ih]

example : trimStartMatches0x "0x0x1F".toList = "1F".toList := rfl

theorem exists_hexPrefixes_append_trimStartMatches0x (chars : List Char) :
    ∃ count, chars = hexPrefixes count ++ trimStartMatches0x chars := by
  induction chars using trimStartMatches0x.induct with
  | case1 rest ih =>
    obtain ⟨count, h⟩ := ih
    exact ⟨count + 1, by
      rw [trimStartMatches0x, hexPrefixes_succ, List.cons_append, List.cons_append, ← h]⟩
  | case2 chars hchars =>
    refine ⟨0, ?_⟩
    unfold trimStartMatches0x
    split
    next rest => exact (hchars rest rfl).elim
    next => rfl

theorem hexU64Text_iff {text : String} {value : UInt64} :
    HexU64Text text value ↔
      ∃ digits, digits ≠ [] ∧
        (trimStartMatches0x text.toList = digits ∨
          trimStartMatches0x text.toList = '+' :: digits) ∧
        IsHexDigits digits ∧ hexValue 0 digits = value.toNat := by
  constructor
  · rintro ⟨count, digits, hne, htext, hhex, hvalue⟩
    refine ⟨digits, hne, ?_, hhex, hvalue⟩
    rcases htext with h | h <;> rw [h, trimStartMatches0x_hexPrefixes_append]
    · exact .inl (trimStartMatches0x_of_isHexDigits hhex)
    · exact .inr rfl
  · rintro ⟨digits, hne, htrim, hhex, hvalue⟩
    obtain ⟨count, htext⟩ := exists_hexPrefixes_append_trimStartMatches0x text.toList
    refine ⟨count, digits, hne, ?_, hhex, hvalue⟩
    rw [htext]
    rcases htrim with h | h <;> rw [h]
    · exact .inl rfl
    · exact .inr rfl

theorem lt_of_fromStrRadix16_eq_ok {src : List Char} {value : Nat}
    (h : fromStrRadix16 src = .ok value) : value < 2 ^ 64 := by
  obtain ⟨-, -, -, -, -, hlt⟩ := fromStrRadix16_eq_ok_iff.mp h
  exact hlt

theorem parseHexU64_eq_ok {text context : String} {value : UInt64} :
    parseHexU64 text context = .ok value ↔
      fromStrRadix16 (trimStartMatches0x text.toList) = .ok value.toNat := by
  unfold parseHexU64
  split
  next n hparse =>
    rw [hparse, Outcome.ok.injEq, Except.ok.injEq]
    constructor
    · rintro rfl
      exact (UInt64.toNat_ofNat_of_lt (lt_of_fromStrRadix16_eq_ok hparse)).symm
    · rintro rfl
      exact UInt64.toNat.inj (UInt64.toNat_ofNat_of_lt value.toNat_lt_size)
  next hparse =>
    rw [hparse]
    simp only [reduceCtorEq]

/-- **The parse accepts exactly the texts that state a `u64` in hex**, however many `0x` stand
before them, and reads the value they state. -/
theorem parseHexU64_eq_ok_iff {text context : String} {value : UInt64} :
    parseHexU64 text context = .ok value ↔ HexU64Text text value := by
  rw [parseHexU64_eq_ok, fromStrRadix16_eq_ok_iff, hexU64Text_iff]
  simp only [show value.toNat < 2 ^ 64 from value.toNat_lt_size, and_true]

/-- `cfvSection` is the first section of type `CFV`: it is one, and no section before it is. -/
def FirstCfvSection (sections : List Section) (cfvSection : Section) : Prop :=
  cfvSection.sectionType = "CFV" ∧
    ∃ before after, sections = before ++ cfvSection :: after ∧ ∀ s ∈ before, s.sectionType ≠ "CFV"

theorem find?_eq_some_iff_firstCfvSection {sections : List Section} {cfvSection : Section} :
    sections.find? (·.sectionType == "CFV") = some cfvSection ↔
      FirstCfvSection sections cfvSection := by
  simp only [List.find?_eq_some, beq_iff_eq, Bool.not_eq_true', beq_eq_false_iff_ne,
    FirstCfvSection]

end MigtdIgvmVerifier.Config.Layout
