import MigtdIgvmVerifier.Rust.Str
import Mathlib.Data.List.Nodup

/-!
# The FMSPC scan of the policy text

`main` lists the FMSPCs of the verified policy by scanning the policy's JSON text, since the
policy library keeps the field private. From `search_start` it finds the next `"fmspc":"`, reads
up to the next quote, keeps the value when it is twelve ASCII hex digits not seen before, and
resumes after that quote. A missing pattern ends the loop and a missing quote breaks it.

The loop body is `scanStep`, run by `scanLoop` for at most `fuel` passes. `scanStep_eq` says
once what a pass does from a char boundary: it takes the next value that `nextFmspc`, the same
search counted in characters, finds between the pattern and a quote, records it and moves past
that quote, or it ends the loop. Every invariant of the loop follows from it, and since each pass
moves forward one character or more, one pass per character is fuel enough: `scanFmspcs` returns,
never panics, lists each FMSPC once, and lists exactly the valid values among `fmspcValues`, the
scan on characters with no byte offsets, fuel or panics.

`HoldsFmspcs` says from the other side how a text lays out the values it holds: gaps in which
the pattern does not start, each followed by the pattern, a value and its closing quote, and a
tail. `fmspcValues_eq_iff_holdsFmspcs` shows that the scan reads back exactly the values a text
is built from, so that what `scanFmspcs` returns is fixed by the layout alone
(`scanFmspcs_eq_ok_iff`).
-/

namespace MigtdIgvmVerifier.Policy.FmspcScan

open Rust

/-- `"fmspc":"`, the pattern the scan looks for. -/
def fmspcPattern : List Char := "\"fmspc\":\"".toList

/-- `char::is_ascii_hexdigit`. -/
def isAsciiHexdigit (c : Char) : Bool :=
  ('0' ≤ c && c ≤ '9') || ('A' ≤ c && c ≤ 'F') || ('a' ≤ c && c ≤ 'f')

/-- The variables the loop updates: `search_start` and `fmspcs`. -/
structure ScanState where
  searchStart : Nat
  fmspcs : List (List Char)

/-- The filter of the loop body: a value of twelve bytes, all hex digits, is pushed unless
`fmspcs` already holds it. -/
def recordFmspc (fmspcs : List (List Char)) (fmspc : List Char) : List (List Char) :=
  if utf8Len fmspc = 12 ∧ fmspc.all isAsciiHexdigit then
    if fmspcs.contains fmspc then fmspcs else fmspcs ++ [fmspc]
  else fmspcs

variable (overflowChecks : Bool)

/-- One pass of the `while let` loop; `none` when the loop ends. -/
def scanStep (jsonStr : List Char) (state : ScanState) : Outcome (Option ScanState) := do
  let rest ← strSliceFrom jsonStr state.searchStart
  match strFind fmspcPattern rest with
  | none => pure none
  | some idx =>
    let absoluteIdx ← addU64 overflowChecks state.searchStart idx
    let start ← addU64 overflowChecks absoluteIdx 9
    match strFind ['"'] (← strSliceFrom jsonStr start) with
    | none => pure none
    | some endIdx =>
      let fmspc ← strSlice jsonStr start (← addU64 overflowChecks start endIdx)
      let searchStart ← addU64 overflowChecks (← addU64 overflowChecks start endIdx) 1
      pure (some ⟨searchStart, recordFmspc state.fmspcs fmspc⟩)

/-- The loop, for at most `fuel` passes; `none` when the fuel runs out first. -/
def scanLoop (jsonStr : List Char) : Nat → ScanState → Option (Outcome (List (List Char)))
  | 0, _ => none
  | fuel + 1, state =>
    match scanStep overflowChecks jsonStr state with
    | .ok none => some (.ok state.fmspcs)
    | .ok (some next) => scanLoop jsonStr fuel next
    | .error message => some (.error message)
    | .panic message => some (.panic message)

/-- The scan in `main`, over the text of the policy, with one pass per character as fuel. -/
def scanFmspcs (jsonStr : RustStr) : Option (Outcome (List (List Char))) :=
  scanLoop overflowChecks jsonStr.chars (jsonStr.chars.length + 1) ⟨0, []⟩

/-- The states the loop passes through. -/
inductive Reachable (jsonStr : List Char) : ScanState → Prop
  | init : Reachable jsonStr ⟨0, []⟩
  | step {state next : ScanState} : Reachable jsonStr state →
      scanStep overflowChecks jsonStr state = .ok (some next) → Reachable jsonStr next

/-- What the scan promises of a listed value: twelve hex digits that the text holds between
the pattern and a closing quote. -/
def IsFmspcOf (jsonStr fmspc : List Char) : Prop :=
  fmspc.length = 12 ∧ fmspc.all isAsciiHexdigit = true ∧ fmspcPattern ++ fmspc ++ ['"'] <:+: jsonStr

/-! ## One pass -/

theorem utf8Size_of_le {c : Char} (h : c ≤ 'f') : c.utf8Size = 1 := by
  have hcode : c.val.toNat ≤ 102 := h
  unfold Char.utf8Size
  exact if_pos (show c.val.toNat ≤ 127 by omega)

theorem utf8Size_of_isAsciiHexdigit {c : Char} (h : isAsciiHexdigit c = true) :
    c.utf8Size = 1 := by
  apply utf8Size_of_le
  simp only [isAsciiHexdigit, Bool.or_eq_true, Bool.and_eq_true, decide_eq_true_eq] at h
  rcases h with (⟨-, h⟩ | ⟨-, h⟩) | ⟨-, h⟩
  · exact Char.le_trans h (by decide)
  · exact Char.le_trans h (by decide)
  · exact h

theorem utf8Len_of_all_isAsciiHexdigit {chars : List Char}
    (h : chars.all isAsciiHexdigit = true) : utf8Len chars = chars.length := by
  induction chars with
  | nil => rfl
  | cons c rest ih =>
    simp only [List.all_cons, Bool.and_eq_true] at h
    simp [utf8Size_of_isAsciiHexdigit h.1, ih h.2, Nat.add_comm]

@[simp] theorem fmspcPattern_length : fmspcPattern.length = 9 := by decide

@[simp] theorem utf8Len_fmspcPattern : utf8Len fmspcPattern = 9 := by decide

/-- The text around the value a pass reads: the pattern, the value, and its closing quote. -/
theorem pattern_value_quote_mem_text {jsonStr : List Char} {found width : Nat}
    (hpattern : fmspcPattern <+: jsonStr.drop found)
    (hquote : ['"'] <+: jsonStr.drop (found + 9 + width)) :
    fmspcPattern ++ (jsonStr.drop (found + 9)).take width ++ ['"'] <:+: jsonStr := by
  have hopen := drop_eq_append_of_prefix hpattern
  have hclose := drop_eq_append_of_prefix hquote
  rw [fmspcPattern_length] at hopen
  refine ⟨jsonStr.take found, jsonStr.drop (found + 9 + width + 1), ?_⟩
  calc jsonStr.take found ++ (fmspcPattern ++ (jsonStr.drop (found + 9)).take width ++ ['"']) ++
        jsonStr.drop (found + 9 + width + 1)
      = jsonStr.take found ++ (fmspcPattern ++ ((jsonStr.drop (found + 9)).take width ++
          jsonStr.drop (found + 9 + width))) := by simp [hclose]
    _ = jsonStr.take found ++ jsonStr.drop found := by
      rw [(List.drop_drop width (found + 9) jsonStr).symm, List.take_append_drop, ← hopen]
    _ = jsonStr := List.take_append_drop _ _

/-- The next value the scan reads from `text`: what stands between the first pattern and the
quote after it, with the number of characters up to and including that quote. -/
def nextFmspc (text : List Char) : Option (List Char × Nat) := do
  let skip ← charFind fmspcPattern text
  let width ← charFind ['"'] (text.drop (skip + 9))
  pure ((text.drop (skip + 9)).take width, skip + 9 + width + 1)

/-- A value read consumes the pattern, the value and its quote, all of them in the text. -/
theorem nextFmspc_eq_some {text fmspc : List Char} {consumed : Nat}
    (h : nextFmspc text = some (fmspc, consumed)) :
    9 < consumed ∧ consumed ≤ text.length ∧ fmspcPattern ++ fmspc ++ ['"'] <:+: text := by
  simp only [nextFmspc, Option.bind_eq_bind, Option.bind_eq_some, Option.pure_def,
    Option.some.injEq, Prod.mk.injEq] at h
  obtain ⟨skip, hskip, width, hwidth, rfl, rfl⟩ := h
  have hpattern := (charFind_eq_some hskip).2
  have hquote := (charFind_eq_some hwidth).2
  rw [List.drop_drop] at hquote
  have hfound := add_length_le_of_prefix hpattern (by simp)
  have hclosed := add_length_le_of_prefix hquote (by simp)
  simp only [fmspcPattern_length, List.length_singleton] at hfound hclosed
  exact ⟨by omega, by omega, pattern_value_quote_mem_text hpattern hquote⟩

/-- One pass from a char boundary reads the next value: it ends the loop when none is left, and
otherwise records it and moves past its closing quote. -/
theorem scanStep_eq {jsonStr : List Char} {state : ScanState} {index : Nat}
    (hbound : utf8Len jsonStr ≤ isizeMax) (hindex : index ≤ jsonStr.length)
    (hstart : state.searchStart = utf8Len (jsonStr.take index)) :
    scanStep overflowChecks jsonStr state = .ok ((nextFmspc (jsonStr.drop index)).map fun next =>
      ⟨utf8Len (jsonStr.take (index + next.2)), recordFmspc state.fmspcs next.1⟩) := by
  have hadd : ∀ a b, a + b ≤ utf8Len jsonStr + 1 → addU64 overflowChecks a b = .ok (a + b) :=
    fun a b h => addU64_of_le_isizeMax (by omega)
  have hprefixLe := utf8Len_take_le jsonStr
  simp only [scanStep, hstart, strSliceFrom_utf8Len_take jsonStr hindex, Outcome.ok_bind,
    strFind_eq_map_charFind, nextFmspc, Option.bind_eq_bind]
  cases hfind : charFind fmspcPattern (jsonStr.drop index) with
  | none => rfl
  | some skip =>
    have hpattern := (charFind_eq_some hfind).2
    rw [List.drop_drop] at hpattern
    have hfound := add_length_le_of_prefix hpattern (by simp)
    have hopen := utf8Len_take_of_prefix hpattern
    have habsolute := utf8Len_take_add jsonStr index skip
    simp only [fmspcPattern_length, utf8Len_fmspcPattern] at hfound hopen
    have := hprefixLe (index + skip + 9)
    have hrest : (jsonStr.drop index).drop (skip + 9) = jsonStr.drop (index + skip + 9) := by
      rw [List.drop_drop, Nat.add_assoc]
    simp only [Option.map_some', Option.some_bind, hrest]
    rw [hadd _ _ (by omega), ← habsolute, Outcome.ok_bind, hadd _ _ (by omega), ← hopen,
      Outcome.ok_bind, strSliceFrom_utf8Len_take jsonStr hfound, Outcome.ok_bind]
    cases hfindQuote : charFind ['"'] (jsonStr.drop (index + skip + 9)) with
    | none => rfl
    | some width =>
      have hquote := (charFind_eq_some hfindQuote).2
      rw [List.drop_drop] at hquote
      have hclosed := add_length_le_of_prefix hquote (by simp)
      have hafter := utf8Len_take_of_prefix hquote
      have hstop := utf8Len_take_add jsonStr (index + skip + 9) width
      have hquoteLen : utf8Len ['"'] = 1 := by decide
      simp only [List.length_singleton, hquoteLen] at hclosed hafter
      have := hprefixLe (index + skip + 9 + width + 1)
      simp only [Option.map_some']
      rw [hadd _ _ (by omega), ← hstop, Outcome.ok_bind,
        strSlice_utf8Len_take jsonStr (Nat.le_add_right _ width) (by omega), Outcome.ok_bind,
        Outcome.ok_bind, hadd _ _ (by omega), ← hafter, Outcome.ok_bind, List.drop_take,
        Nat.add_sub_cancel_left]
      simp only [Option.some_bind, Option.pure_def, Option.map_some', Outcome.pure_eq,
        Nat.add_assoc]

/-- Every pass from a char boundary either ends the loop or moves to a later boundary, having
passed to the record filter a value found between the pattern and a quote. -/
theorem scanStep_cases {jsonStr : List Char} {state : ScanState} {index : Nat}
    (hbound : utf8Len jsonStr ≤ isizeMax) (hindex : index ≤ jsonStr.length)
    (hstart : state.searchStart = utf8Len (jsonStr.take index)) :
    scanStep overflowChecks jsonStr state = .ok none ∨
      ∃ index' fmspc, index < index' ∧ index' ≤ jsonStr.length ∧
        fmspcPattern ++ fmspc ++ ['"'] <:+: jsonStr ∧
        scanStep overflowChecks jsonStr state =
          .ok (some ⟨utf8Len (jsonStr.take index'), recordFmspc state.fmspcs fmspc⟩) := by
  rw [scanStep_eq overflowChecks hbound hindex hstart]
  cases hnext : nextFmspc (jsonStr.drop index) with
  | none => exact .inl rfl
  | some next =>
    obtain ⟨hpos, hle, hcontext⟩ := nextFmspc_eq_some hnext
    rw [List.length_drop] at hle
    exact .inr ⟨index + next.2, next.1, by omega, by omega,
      hcontext.trans (List.drop_suffix _ _).isInfix, rfl⟩

/-! ## The loop -/

theorem mem_recordFmspc {fmspcs : List (List Char)} {fmspc value : List Char} :
    value ∈ recordFmspc fmspcs fmspc ↔
      value ∈ fmspcs ∨ value = fmspc ∧ utf8Len fmspc = 12 ∧ fmspc.all isAsciiHexdigit = true := by
  unfold recordFmspc
  split
  next hvalid =>
    split
    next hseen =>
      refine ⟨.inl, fun h => h.elim id fun ⟨hvalue, _⟩ => ?_⟩
      rw [hvalue]
      simpa using hseen
    next => simp [hvalid]
  next hinvalid => exact ⟨.inl, fun h => h.elim id fun ⟨_, hvalid⟩ => absurd hvalid hinvalid⟩

theorem recordFmspc_nodup {fmspcs : List (List Char)} (fmspc : List Char) (h : fmspcs.Nodup) :
    (recordFmspc fmspcs fmspc).Nodup := by
  unfold recordFmspc
  split
  · split
    · exact h
    next hnew =>
      rw [← List.concat_eq_append]
      exact List.Nodup.concat (by simpa using hnew) h
  · exact h

/-- What holds of every state the loop reaches: `search_start` is a char boundary, and
`fmspcs` lists valid values, each once. -/
structure ScanInvariant (jsonStr : List Char) (state : ScanState) : Prop where
  boundary : ∃ index ≤ jsonStr.length, state.searchStart = utf8Len (jsonStr.take index)
  nodup : state.fmspcs.Nodup
  valid : ∀ fmspc ∈ state.fmspcs, IsFmspcOf jsonStr fmspc

theorem scanInvariant_init (jsonStr : List Char) : ScanInvariant jsonStr ⟨0, []⟩ :=
  ⟨⟨0, Nat.zero_le _, rfl⟩, List.nodup_nil, by simp⟩

theorem ScanInvariant.record {jsonStr fmspc : List Char} {state : ScanState} {index : Nat}
    (hinv : ScanInvariant jsonStr state) (hindex : index ≤ jsonStr.length)
    (hcontext : fmspcPattern ++ fmspc ++ ['"'] <:+: jsonStr) :
    ScanInvariant jsonStr ⟨utf8Len (jsonStr.take index), recordFmspc state.fmspcs fmspc⟩ where
  boundary := ⟨index, hindex, rfl⟩
  nodup := recordFmspc_nodup fmspc hinv.nodup
  valid value hvalue := by
    rcases mem_recordFmspc.mp hvalue with hold | ⟨rfl, hlength, hhex⟩
    · exact hinv.valid value hold
    · exact ⟨(utf8Len_of_all_isAsciiHexdigit hhex).symm.trans hlength, hhex, hcontext⟩

theorem scanInvariant_of_reachable {jsonStr : List Char} {state : ScanState}
    (hbound : utf8Len jsonStr ≤ isizeMax) (h : Reachable overflowChecks jsonStr state) :
    ScanInvariant jsonStr state := by
  induction h with
  | init => exact scanInvariant_init jsonStr
  | step _ hstep ih =>
    obtain ⟨index, hindex, hstart⟩ := ih.boundary
    rcases scanStep_cases overflowChecks hbound hindex hstart with hnone | ⟨index', fmspc, -, hle,
      hcontext, hsome⟩
    · rw [hnone] at hstep
      cases hstep
    · rw [hsome] at hstep
      cases hstep
      exact ih.record hle hcontext

/-! ## What the scan lists -/

/-- The scan on characters, with no byte offsets, fuel or panics: every value the loop reads, in
order, before the record filter. -/
def fmspcValues (text : List Char) : List (List Char) :=
  match hnext : nextFmspc text with
  | none => []
  | some (fmspc, consumed) =>
    have := nextFmspc_eq_some hnext
    fmspc :: fmspcValues (text.drop consumed)
termination_by text.length
decreasing_by
  simp only [List.length_drop]
  omega

theorem fmspcValues_of_none {text : List Char} (h : nextFmspc text = none) :
    fmspcValues text = [] := by
  rw [fmspcValues]
  split <;> simp_all

theorem fmspcValues_of_some {text fmspc : List Char} {consumed : Nat}
    (h : nextFmspc text = some (fmspc, consumed)) :
    fmspcValues text = fmspc :: fmspcValues (text.drop consumed) := by
  rw [fmspcValues]
  split <;> simp_all

/-- Each value read stands in the text between the pattern and a quote. -/
theorem fmspcValues_context {text fmspc : List Char} (h : fmspc ∈ fmspcValues text) :
    fmspcPattern ++ fmspc ++ ['"'] <:+: text := by
  induction text using fmspcValues.induct with
  | case1 text hnext =>
    rw [fmspcValues_of_none hnext] at h
    cases h
  | case2 text value consumed hnext hread ih =>
    rw [fmspcValues_of_some hnext] at h
    rcases List.mem_cons.mp h with rfl | hrest
    · exact hread.2.2
    · exact (ih hrest).trans (List.drop_suffix _ _).isInfix

theorem mem_foldl_recordFmspc {values fmspcs : List (List Char)} {value : List Char} :
    value ∈ values.foldl recordFmspc fmspcs ↔
      value ∈ fmspcs ∨ value ∈ values ∧ utf8Len value = 12 ∧ value.all isAsciiHexdigit = true := by
  induction values generalizing fmspcs with
  | nil => simp
  | cons fmspc rest ih =>
    rw [List.foldl_cons, ih, mem_recordFmspc, List.mem_cons]
    constructor
    · rintro ((hold | ⟨rfl, hvalid⟩) | ⟨hrest, hvalid⟩)
      · exact .inl hold
      · exact .inr ⟨.inl rfl, hvalid⟩
      · exact .inr ⟨.inr hrest, hvalid⟩
    · rintro (hold | ⟨rfl | hrest, hvalid⟩)
      · exact .inl (.inl hold)
      · exact .inl (.inr ⟨rfl, hvalid⟩)
      · exact .inr ⟨hrest, hvalid⟩

theorem foldl_recordFmspc_nodup {values fmspcs : List (List Char)} (h : fmspcs.Nodup) :
    (values.foldl recordFmspc fmspcs).Nodup := by
  induction values generalizing fmspcs with
  | nil => exact h
  | cons fmspc rest ih => exact ih (recordFmspc_nodup fmspc h)

/-- The run lemma: from a char boundary, one pass per remaining character is fuel enough, and the
loop returns what the record filter keeps of the values left to read. -/
theorem scanLoop_eq_fmspcValues {jsonStr : List Char} (hbound : utf8Len jsonStr ≤ isizeMax) :
    ∀ (fuel : Nat) (state : ScanState) (index : Nat), index ≤ jsonStr.length →
      state.searchStart = utf8Len (jsonStr.take index) → jsonStr.length - index < fuel →
      scanLoop overflowChecks jsonStr fuel state =
        some (.ok ((fmspcValues (jsonStr.drop index)).foldl recordFmspc state.fmspcs))
  | 0, _, _, _, _, hfuel => absurd hfuel (Nat.not_lt_zero _)
  | fuel + 1, state, index, hindex, hstart, hfuel => by
    rw [scanLoop, scanStep_eq overflowChecks hbound hindex hstart]
    cases hnext : nextFmspc (jsonStr.drop index) with
    | none => simp [fmspcValues_of_none hnext]
    | some next =>
      obtain ⟨fmspc, consumed⟩ := next
      obtain ⟨hpos, hle, -⟩ := nextFmspc_eq_some hnext
      rw [List.length_drop] at hle
      simp only [Option.map_some', fmspcValues_of_some hnext, List.foldl_cons, List.drop_drop]
      exact scanLoop_eq_fmspcValues hbound fuel _ (index + consumed) (by omega) rfl (by omega)

theorem scanLoop_of_invariant {jsonStr : List Char} (hbound : utf8Len jsonStr ≤ isizeMax)
    {fuel : Nat} {state : ScanState} {index : Nat} (hinv : ScanInvariant jsonStr state)
    (hindex : index ≤ jsonStr.length) (hstart : state.searchStart = utf8Len (jsonStr.take index))
    (hfuel : jsonStr.length - index < fuel) :
    ∃ fmspcs, scanLoop overflowChecks jsonStr fuel state = some (.ok fmspcs) ∧
      fmspcs.Nodup ∧ ∀ fmspc ∈ fmspcs, IsFmspcOf jsonStr fmspc := by
  refine ⟨_, scanLoop_eq_fmspcValues overflowChecks hbound fuel state index hindex hstart hfuel,
    foldl_recordFmspc_nodup hinv.nodup, fun fmspc hmem => ?_⟩
  rcases mem_foldl_recordFmspc.mp hmem with hold | ⟨hread, hlength, hhex⟩
  · exact hinv.valid fmspc hold
  · exact ⟨(utf8Len_of_all_isAsciiHexdigit hhex).symm.trans hlength, hhex,
      (fmspcValues_context hread).trans (List.drop_suffix _ _).isInfix⟩

/-- The FMSPC scan of `main` returns for every text, never panics, and lists twelve-digit hex
values that the text holds after the pattern, each once; every state it passes through keeps
`search_start` on a char boundary within the text, and each pass moves it forward. -/
theorem scanFmspcs_total_and_sound (jsonStr : RustStr) :
    (∃ fmspcs, scanFmspcs overflowChecks jsonStr = some (.ok fmspcs) ∧ fmspcs.Nodup ∧
      ∀ fmspc ∈ fmspcs, IsFmspcOf jsonStr.chars fmspc) ∧
    ∀ state, Reachable overflowChecks jsonStr.chars state →
      state.searchStart ≤ utf8Len jsonStr.chars ∧
      (boundaryIndex jsonStr.chars state.searchStart).isSome ∧
      (scanStep overflowChecks jsonStr.chars state = .ok none ∨
        ∃ next, scanStep overflowChecks jsonStr.chars state = .ok (some next) ∧
          state.searchStart < next.searchStart ∧ next.searchStart ≤ utf8Len jsonStr.chars) := by
  refine ⟨scanLoop_of_invariant overflowChecks jsonStr.utf8Len_le (scanInvariant_init _)
    (Nat.zero_le _) rfl (by omega), fun state hreach => ?_⟩
  obtain ⟨index, hindex, hstart⟩ :=
    (scanInvariant_of_reachable overflowChecks jsonStr.utf8Len_le hreach).boundary
  refine ⟨hstart ▸ utf8Len_take_le _ _, by
    simp [hstart, boundaryIndex_utf8Len_take _ hindex], ?_⟩
  rcases scanStep_cases overflowChecks jsonStr.utf8Len_le hindex hstart with hnone | ⟨index', _,
    hlt, hle, -, hsome⟩
  · exact .inl hnone
  · exact .inr ⟨_, hsome, hstart ▸ utf8Len_take_lt_take hlt hle, utf8Len_take_le _ _⟩

/-- The scan runs to its end on every text and returns what the record filter keeps of the
values it reads. -/
theorem scanFmspcs_eq_foldl (jsonStr : RustStr) :
    scanFmspcs overflowChecks jsonStr =
      some (.ok ((fmspcValues jsonStr.chars).foldl recordFmspc [])) :=
  scanLoop_eq_fmspcValues overflowChecks jsonStr.utf8Len_le _ _ 0 (Nat.zero_le _) rfl (by omega)

/-- The scan never runs out of fuel. -/
theorem isSome_scanFmspcs (jsonStr : RustStr) : (scanFmspcs overflowChecks jsonStr).isSome := by
  rw [scanFmspcs_eq_foldl]
  rfl

/-- **The scan lists exactly the values it reads that are twelve ASCII hex digits, in the order
first read**: its byte offsets, fuel and checked additions change nothing of what the character
scan `fmspcValues` finds. -/
theorem scanFmspcs_eq_fmspcValues (jsonStr : RustStr) :
    scanFmspcs overflowChecks jsonStr =
        some (.ok ((fmspcValues jsonStr.chars).foldl recordFmspc [])) ∧
      ∀ fmspc, fmspc ∈ (fmspcValues jsonStr.chars).foldl recordFmspc [] ↔
        fmspc ∈ fmspcValues jsonStr.chars ∧ fmspc.length = 12 ∧
          fmspc.all isAsciiHexdigit = true := by
  refine ⟨scanFmspcs_eq_foldl overflowChecks jsonStr, fun fmspc => ?_⟩
  rw [mem_foldl_recordFmspc, or_iff_right (List.not_mem_nil _)]
  constructor <;> rintro ⟨hread, hlength, hhex⟩ <;> refine ⟨hread, ?_, hhex⟩
  · rwa [← utf8Len_of_all_isAsciiHexdigit hhex]
  · rwa [utf8Len_of_all_isAsciiHexdigit hhex]

/-! ## The texts the scan reads completely -/

/-- A text that holds `values`, one after the other: each follows a gap in which the pattern
does not start, not even running on into the pattern after it, and stands between the pattern
and a quote that closes it. The text ends with no further pattern, or with a pattern whose value
is never closed. -/
inductive HoldsFmspcs : List (List Char) → List Char → Prop
  | tail {rest : List Char} : ¬ fmspcPattern <:+: rest → HoldsFmspcs [] rest
  | unclosed {gap rest : List Char} : ¬ fmspcPattern <:+: gap ++ fmspcPattern.dropLast →
      '"' ∉ rest → HoldsFmspcs [] (gap ++ fmspcPattern ++ rest)
  | value {gap fmspc rest : List Char} {values : List (List Char)} :
      ¬ fmspcPattern <:+: gap ++ fmspcPattern.dropLast → '"' ∉ fmspc →
      HoldsFmspcs values rest →
      HoldsFmspcs (fmspc :: values) (gap ++ fmspcPattern ++ fmspc ++ '"' :: rest)

@[simp] theorem length_dropLast_fmspcPattern : fmspcPattern.dropLast.length = 8 := by decide

/-- The pattern ends in the quote that opens the value. -/
theorem append_fmspcPattern_append (gap more : List Char) :
    gap ++ fmspcPattern ++ more = (gap ++ fmspcPattern.dropLast) ++ '"' :: more := by
  have hquote : fmspcPattern = fmspcPattern.dropLast ++ ['"'] := by decide
  conv_lhs => rw [hquote]
  simp

/-- The pattern starts no earlier than the end of a gap in which it does not start. -/
theorem not_prefix_drop_of_gap {gap more : List Char}
    (hgap : ¬ fmspcPattern <:+: gap ++ fmspcPattern.dropLast) {i : Nat} (hi : i < gap.length) :
    ¬ fmspcPattern <+: (gap ++ fmspcPattern ++ more).drop i := by
  intro hprefix
  rw [append_fmspcPattern_append, List.drop_append_of_le_length (by simp; omega)] at hprefix
  refine hgap ((List.prefix_of_prefix_length_le hprefix (List.prefix_append _ _) ?_).isInfix.trans
    (List.drop_suffix _ _).isInfix)
  simp
  omega

theorem charFind_fmspcPattern_of_gap {gap : List Char} (more : List Char)
    (hgap : ¬ fmspcPattern <:+: gap ++ fmspcPattern.dropLast) :
    charFind fmspcPattern (gap ++ fmspcPattern ++ more) = some gap.length :=
  charFind_eq_some_iff.mpr ⟨by simp, fun _ hi => not_prefix_drop_of_gap hgap hi⟩

theorem drop_gap_fmspcPattern (gap more : List Char) :
    (gap ++ fmspcPattern ++ more).drop (gap.length + 9) = more := by
  rw [← fmspcPattern_length, List.append_assoc, List.drop_append, List.drop_left]

/-- A value closed by a quote after a gap is the next value read, and the read consumes the text
up to and including that quote. -/
theorem nextFmspc_of_gap {gap fmspc rest : List Char}
    (hgap : ¬ fmspcPattern <:+: gap ++ fmspcPattern.dropLast) (hquote : '"' ∉ fmspc) :
    nextFmspc (gap ++ fmspcPattern ++ fmspc ++ '"' :: rest) =
      some (fmspc, gap.length + 9 + fmspc.length + 1) := by
  have hskip := charFind_fmspcPattern_of_gap (fmspc ++ '"' :: rest) hgap
  have hdrop := drop_gap_fmspcPattern gap (fmspc ++ '"' :: rest)
  simp only [List.append_assoc] at hskip hdrop ⊢
  simp [nextFmspc, hskip, hdrop, charFind_singleton_append rest hquote]

theorem drop_consumed_of_gap (gap fmspc rest : List Char) :
    (gap ++ fmspcPattern ++ fmspc ++ '"' :: rest).drop (gap.length + 9 + fmspc.length + 1) =
      rest := by
  rw [Nat.add_assoc _ fmspc.length, ← List.drop_drop, List.append_assoc,
    drop_gap_fmspcPattern, List.drop_append, List.drop_one, List.tail_cons]

/-- A pattern after a gap with no quote after it is read as no value. -/
theorem nextFmspc_of_unclosed {gap rest : List Char}
    (hgap : ¬ fmspcPattern <:+: gap ++ fmspcPattern.dropLast) (hquote : '"' ∉ rest) :
    nextFmspc (gap ++ fmspcPattern ++ rest) = none := by
  have hskip := charFind_fmspcPattern_of_gap rest hgap
  have hdrop := drop_gap_fmspcPattern gap rest
  have hnone : charFind ['"'] rest = none := charFind_singleton_eq_none_iff.mpr hquote
  simp only [List.append_assoc] at hskip hdrop ⊢
  simp [nextFmspc, hskip, hdrop, hnone]

/-- The gap condition of `HoldsFmspcs` says that the pattern starts nowhere in the gap, whatever
follows the pattern after it. -/
theorem gap_iff_not_prefix_drop {gap : List Char} (more : List Char) :
    ¬ fmspcPattern <:+: gap ++ fmspcPattern.dropLast ↔
      ∀ i < gap.length, ¬ fmspcPattern <+: (gap ++ fmspcPattern ++ more).drop i := by
  refine ⟨fun hgap _ hi => not_prefix_drop_of_gap hgap hi, ?_⟩
  rintro hall ⟨front, back, hsplit⟩
  have hlen := congrArg List.length hsplit
  simp only [List.length_append, fmspcPattern_length, length_dropLast_fmspcPattern] at hlen
  refine hall front.length (by omega) ?_
  rw [append_fmspcPattern_append, ← hsplit]
  simp

/-- **Every value the text holds is read**, in order: the character scan reads back the values
a text is built from. -/
theorem fmspcValues_of_holdsFmspcs {values : List (List Char)} {text : List Char}
    (h : HoldsFmspcs values text) : fmspcValues text = values := by
  induction h with
  | tail hrest => exact fmspcValues_of_none (by simp [nextFmspc, charFind_eq_none_iff.mpr hrest])
  | unclosed hgap hquote => exact fmspcValues_of_none (nextFmspc_of_unclosed hgap hquote)
  | value hgap hquote _ ih =>
    rw [fmspcValues_of_some (nextFmspc_of_gap hgap hquote), drop_consumed_of_gap, ih]

/-- The text before the first pattern is a gap, and the pattern follows it. -/
theorem gap_of_charFind {text : List Char} {skip : Nat}
    (h : charFind fmspcPattern text = some skip) :
    ¬ fmspcPattern <:+: text.take skip ++ fmspcPattern.dropLast ∧
      text = text.take skip ++ fmspcPattern ++ text.drop (skip + 9) := by
  obtain ⟨hat, hbefore⟩ := charFind_eq_some_iff.mp h
  have hle := (charFind_eq_some h).1
  have htext : text = text.take skip ++ fmspcPattern ++ text.drop (skip + 9) := by
    rw [List.append_assoc, ← fmspcPattern_length, ← drop_eq_append_of_prefix hat,
      List.take_append_drop]
  refine ⟨(gap_iff_not_prefix_drop (text.drop (skip + 9))).mpr fun i hi => ?_, htext⟩
  rw [← htext]
  exact hbefore i (by simpa [hle] using hi)

/-- Every text holds the values the scan reads from it. -/
theorem holdsFmspcs_fmspcValues (text : List Char) : HoldsFmspcs (fmspcValues text) text := by
  induction text using fmspcValues.induct with
  | case1 text hnext =>
    rw [fmspcValues_of_none hnext]
    cases hfind : charFind fmspcPattern text with
    | none => exact .tail (charFind_eq_none_iff.mp hfind)
    | some skip =>
      obtain ⟨hgap, htext⟩ := gap_of_charFind hfind
      have hquote : charFind ['"'] (text.drop (skip + 9)) = none := by
        cases hclose : charFind ['"'] (text.drop (skip + 9)) with
        | none => rfl
        | some width => simp [nextFmspc, hfind, hclose] at hnext
      rw [htext]
      exact .unclosed hgap (charFind_singleton_eq_none_iff.mp hquote)
  | case2 text fmspc consumed hnext _ ih =>
    rw [fmspcValues_of_some hnext]
    simp only [nextFmspc, Option.bind_eq_bind, Option.bind_eq_some, Option.pure_def,
      Option.some.injEq, Prod.mk.injEq] at hnext
    obtain ⟨skip, hskip, width, hwidth, rfl, rfl⟩ := hnext
    obtain ⟨hgap, htext⟩ := gap_of_charFind hskip
    obtain ⟨hquote, hrest⟩ := charFind_singleton_eq_some hwidth
    have hdrop : text.drop (skip + 9 + width + 1) = (text.drop (skip + 9)).drop (width + 1) := by
      rw [List.drop_drop, Nat.add_assoc _ width]
    rw [hdrop] at ih ⊢
    have hholds := HoldsFmspcs.value hgap hquote ih
    rwa [List.append_assoc _ ((text.drop (skip + 9)).take width), ← hrest, ← htext] at hholds

/-- **The scan reads exactly the values a text is built from**: a text holds `values` in the
sense of `HoldsFmspcs` exactly when the character scan reads `values` from it. -/
theorem fmspcValues_eq_iff_holdsFmspcs {text : List Char} {values : List (List Char)} :
    fmspcValues text = values ↔ HoldsFmspcs values text :=
  ⟨fun h => h ▸ holdsFmspcs_fmspcValues text, fmspcValues_of_holdsFmspcs⟩

/-- **The scan of `main` returns exactly what the text's layout fixes**: it lists `fmspcs` just
when the text holds, in the sense of `HoldsFmspcs`, values of which `fmspcs` keeps the twelve-digit
hex ones, each once, in the order first read. -/
theorem scanFmspcs_eq_ok_iff (jsonStr : RustStr) (fmspcs : List (List Char)) :
    scanFmspcs overflowChecks jsonStr = some (.ok fmspcs) ↔
      ∃ values, HoldsFmspcs values jsonStr.chars ∧ fmspcs = values.foldl recordFmspc [] := by
  rw [scanFmspcs_eq_foldl, Option.some.injEq, Outcome.ok.injEq]
  constructor
  · rintro rfl
    exact ⟨_, fmspcValues_eq_iff_holdsFmspcs.mp rfl, rfl⟩
  · rintro ⟨values, hholds, rfl⟩
    rw [fmspcValues_eq_iff_holdsFmspcs.mpr hholds]

end MigtdIgvmVerifier.Policy.FmspcScan
