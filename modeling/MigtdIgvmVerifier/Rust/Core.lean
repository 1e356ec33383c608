import Mathlib.Data.List.Basic
import Mathlib.Algebra.Group.Nat.Basic

/-!
# The Rust semantics the verifier relies on

`migtd-igvm-verifier` is built for a 64-bit host, so `usize` and `u64` are both 64 bits wide.
A call returns a value, returns an `anyhow` error through `?`, or panics; `Outcome` keeps the
three apart, since a panic is what the extraction code must never reach. An overflowing
addition panics in a build with overflow checks (the debug profile) and wraps in one without
them (the release profile); every result below holds for both, through `overflowChecks`.
`SameUpToPanic` relates what the two profiles return: the same outcome, or two panics.

`ByteVec` is a `Vec<u8>`. Its length never passes `isize::MAX`, the largest allocation Rust
allows, and growing it past that bound panics with `capacity overflow`. An allocator failure
below the bound aborts the process and is left out. Slicing panics as the standard library does
when an index is out of range.
-/

namespace MigtdIgvmVerifier.Rust

/-- How a call of the verifier ends. -/
inductive Outcome (α : Type) where
  /-- The call returns this value. -/
  | ok (value : α)
  /-- The call returns an `anyhow::Error` with this message. -/
  | error (message : String)
  /-- The call panics with this message. -/
  | panic (message : String)
  deriving DecidableEq, Repr

namespace Outcome

variable {α β : Type}

/-- `?` and `let`: an error or a panic stops the rest of the computation. -/
def bind : Outcome α → (α → Outcome β) → Outcome β
  | ok value, next => next value
  | error message, _ => error message
  | panic message, _ => panic message

instance : Monad Outcome where
  pure := ok
  bind := bind

/-- Whether the call panicked. -/
def isPanic : Outcome α → Bool
  | panic _ => true
  | _ => false

/-- `.map_err(report)` into an `anyhow` error: an error is reported under the message `report`
makes of it. -/
def mapError (report : String → String) : Outcome α → Outcome α
  | error e => error (report e)
  | result => result

/-- `.context(message)` of `anyhow`: an error is reported under `message`. -/
def context (message : String) : Outcome α → Outcome α := mapError fun _ => message

@[simp] theorem pure_eq (a : α) : (pure a : Outcome α) = ok a := rfl

@[simp] theorem ok_bind (a : α) (next : α → Outcome β) : (ok a >>= next) = next a := rfl

@[simp] theorem error_bind (message : String) (next : α → Outcome β) :
    (error message >>= next) = error message := rfl

@[simp] theorem panic_bind (message : String) (next : α → Outcome β) :
    (panic message >>= next) = panic message := rfl

@[simp] theorem isPanic_ok (a : α) : (ok a).isPanic = false := rfl

@[simp] theorem isPanic_error (message : String) : (error message : Outcome α).isPanic = false :=
  rfl

@[simp] theorem isPanic_panic (message : String) : (panic message : Outcome α).isPanic = true :=
  rfl

theorem bind_eq_ok {x : Outcome α} {next : α → Outcome β} {b : β} :
    x >>= next = ok b ↔ ∃ a, x = ok a ∧ next a = ok b := by
  cases x <;> simp

theorem isPanic_bind {x : Outcome α} {next : α → Outcome β} :
    (x >>= next).isPanic = true ↔ x.isPanic = true ∨ ∃ a, x = ok a ∧ (next a).isPanic = true := by
  cases x <;> simp

/-- The same outcome, or two panics whatever their messages: how far a build with overflow
checks and one without may differ. -/
def SameUpToPanic (x y : Outcome α) : Prop := x = y ∨ x.isPanic = true ∧ y.isPanic = true

theorem isPanic_eq_true {x : Outcome α} : x.isPanic = true ↔ ∃ message, x = panic message := by
  cases x <;> simp

theorem SameUpToPanic.refl (x : Outcome α) : SameUpToPanic x x := .inl rfl

theorem SameUpToPanic.bind {x y : Outcome α} {next next' : α → Outcome β}
    (h : SameUpToPanic x y) (hnext : ∀ a, SameUpToPanic (next a) (next' a)) :
    SameUpToPanic (x >>= next) (y >>= next') := by
  rcases h with rfl | ⟨hx, hy⟩
  · cases x with
    | ok a => exact hnext a
    | error message => exact .inl rfl
    | panic message => exact .inr ⟨rfl, rfl⟩
  · obtain ⟨message, rfl⟩ := isPanic_eq_true.mp hx
    obtain ⟨message', rfl⟩ := isPanic_eq_true.mp hy
    exact .inr ⟨rfl, rfl⟩

end Outcome

open Outcome

/-! ## Integers -/

/-- `isize::MAX` on a 64-bit host: no allocation, so no `Vec` or `str`, is longer. -/
def isizeMax : Nat := 2 ^ 63 - 1

/-- `a + b` on `u64` or `usize` operands. An overflowing sum panics when the build checks
overflow and wraps when it does not. -/
def addU64 (overflowChecks : Bool) (a b : Nat) : Outcome Nat :=
  if a + b < 2 ^ 64 then .ok (a + b)
  else if overflowChecks then .panic "attempt to add with overflow"
  else .ok ((a + b) % 2 ^ 64)

@[simp]
theorem addU64_of_lt {overflowChecks : Bool} {a b : Nat} (h : a + b < 2 ^ 64) :
    addU64 overflowChecks a b = .ok (a + b) :=
  if_pos h

theorem addU64_of_le_isizeMax {overflowChecks : Bool} {a b : Nat} (h : a + b ≤ isizeMax + 1) :
    addU64 overflowChecks a b = .ok (a + b) :=
  addU64_of_lt (by unfold isizeMax at h; omega)

/-- `u64::from_le_bytes`: the number whose little-endian bytes these are. -/
def fromLeBytes : List UInt8 → Nat
  | [] => 0
  | byte :: rest => byte.toNat + 256 * fromLeBytes rest

@[simp] theorem fromLeBytes_nil : fromLeBytes [] = 0 := rfl

@[simp]
theorem fromLeBytes_cons (byte : UInt8) (rest : List UInt8) :
    fromLeBytes (byte :: rest) = byte.toNat + 256 * fromLeBytes rest := rfl

theorem fromLeBytes_lt (bytes : List UInt8) : fromLeBytes bytes < 256 ^ bytes.length := by
  induction bytes with
  | nil => simp
  | cons byte rest ih =>
    have hbyte : byte.toNat < 256 := byte.toNat_lt_size
    rw [fromLeBytes_cons, List.length_cons, Nat.pow_succ]
    omega

/-- `value.to_le_bytes()` for an integer of `count` bytes. -/
def toLeBytes (value count : Nat) : List UInt8 :=
  (List.range count).map fun index => UInt8.ofNat (value / 256 ^ index)

@[simp]
theorem length_toLeBytes (value count : Nat) : (toLeBytes value count).length = count := by
  simp [toLeBytes]

/-! ## `Vec<u8>` and byte slices -/

/-- A `Vec<u8>`, carrying Rust's bound on its length. -/
structure ByteVec where
  bytes : List UInt8
  length_le : bytes.length ≤ isizeMax
  deriving DecidableEq

namespace ByteVec

/-- `v.len()`. -/
def length (v : ByteVec) : Nat := v.bytes.length

/-- `Vec::new()`. -/
def new : ByteVec := ⟨[], Nat.zero_le _⟩

theorem ext {v w : ByteVec} (h : v.bytes = w.bytes) : v = w := by
  cases v
  cases w
  cases h
  rfl

/-- `v.extend_from_slice(data)`, and `v.extend` over an iterator of known length: the bytes
are appended, or the call panics when the length would pass `isize::MAX`. -/
def extendFromSlice (v : ByteVec) (data : List UInt8) : Outcome ByteVec :=
  if h : v.bytes.length + data.length ≤ isizeMax then
    .ok ⟨v.bytes ++ data, by rw [List.length_append]; exact h⟩
  else .panic "capacity overflow"

/-- `v[start..stop]`, taken as a new buffer by `.to_vec()`. -/
def slice (v : ByteVec) (start stop : Nat) : Outcome ByteVec :=
  let length := v.length
  if stop < start then .panic s!"slice index starts at {start} but ends at {stop}"
  else if length < stop then
    .panic s!"range end index {stop} out of range for slice of length {length}"
  else .ok ⟨(v.bytes.take stop).drop start, by
    have := v.length_le
    simp only [List.length_drop, List.length_take]
    omega⟩

/-- `v[start..]`, taken as a new buffer by `.to_vec()`. -/
def sliceFrom (v : ByteVec) (start : Nat) : Outcome ByteVec :=
  let length := v.length
  if length < start then
    .panic s!"range start index {start} out of range for slice of length {length}"
  else .ok ⟨v.bytes.drop start, by
    have := v.length_le
    simp only [List.length_drop]
    omega⟩

@[simp] theorem length_eq (v : ByteVec) : v.length = v.bytes.length := rfl

@[simp] theorem new_bytes : new.bytes = [] := rfl

theorem length_lt_two_pow (v : ByteVec) : v.bytes.length < 2 ^ 64 :=
  lt_of_le_of_lt v.length_le (by unfold isizeMax; omega)

theorem extendFromSlice_of_le (v : ByteVec) (data : List UInt8)
    (h : v.bytes.length + data.length ≤ isizeMax) :
    ∃ w, v.extendFromSlice data = .ok w ∧ w.bytes = v.bytes ++ data :=
  ⟨_, dif_pos h, rfl⟩

theorem extendFromSlice_of_lt {v : ByteVec} {data : List UInt8}
    (h : isizeMax < v.bytes.length + data.length) :
    v.extendFromSlice data = .panic "capacity overflow" :=
  dif_neg (Nat.not_le.mpr h)

theorem slice_of_le {v : ByteVec} {start stop : Nat} (hstart : start ≤ stop)
    (hstop : stop ≤ v.bytes.length) :
    ∃ w, v.slice start stop = .ok w ∧ w.bytes = (v.bytes.take stop).drop start := by
  simp only [slice, length_eq, if_neg (Nat.not_lt.mpr hstart), if_neg (Nat.not_lt.mpr hstop)]
  exact ⟨_, rfl, rfl⟩

theorem slice_of_lt {v : ByteVec} {start stop : Nat} (h : stop < start) :
    v.slice start stop = .panic s!"slice index starts at {start} but ends at {stop}" :=
  if_pos h

theorem slice_eq_ok {v w : ByteVec} {start stop : Nat} (h : v.slice start stop = .ok w) :
    start ≤ stop ∧ stop ≤ v.bytes.length ∧ w.bytes = (v.bytes.take stop).drop start := by
  unfold slice at h
  dsimp only at h
  split_ifs at h with hstart hstop
  cases h
  exact ⟨Nat.not_lt.mp hstart, Nat.not_lt.mp hstop, rfl⟩

theorem sliceFrom_eq_ok {v w : ByteVec} {start : Nat} (h : v.sliceFrom start = .ok w) :
    start ≤ v.bytes.length ∧ w.bytes = v.bytes.drop start := by
  unfold sliceFrom at h
  dsimp only at h
  split_ifs at h with hstart
  cases h
  exact ⟨Nat.not_lt.mp hstart, rfl⟩

theorem sliceFrom_of_le {v : ByteVec} {start : Nat} (h : start ≤ v.bytes.length) :
    ∃ w, v.sliceFrom start = .ok w ∧ w.bytes = v.bytes.drop start := by
  simp only [sliceFrom, length_eq, if_neg (Nat.not_lt.mpr h)]
  exact ⟨_, rfl, rfl⟩

end ByteVec

/-! ## Iterators over slices -/

/-- `xs.windows(size)`: the runs of `size` consecutive elements, from each start in turn. Every
call in the verifier passes a positive `size`. -/
def windows {α : Type} (size : Nat) (xs : List α) : List (List α) :=
  (List.range (xs.length + 1 - size)).map fun start => (xs.drop start).take size

end MigtdIgvmVerifier.Rust
