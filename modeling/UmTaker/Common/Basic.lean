import Mathlib.Data.List.Induction
import Mathlib.Data.Rat.Defs
import Mathlib.Logic.Function.Basic

/-!
# Machine words, sides and string maps

Prices, sizes and ratios are exact rationals. Counters, clocks and stamps are unbounded integers;
where the code adds or subtracts `uint64_t` values, the result is taken modulo `2 ^ 64` by `u64`.

## Main definitions

* `u64`, `int32`, `int64`: a `uint64_t` result, and conversions to `int` and to `long`
* `OrderSide`, `PositionSide`: the sides of orders and positions
* `StringMap`: a map keyed by strings, with the two ways the code stores into one
-/

namespace UmTaker

/-- The value of a `uint64_t` expression. -/
def u64 (x : ℤ) : ℕ := (x % 18446744073709551616).toNat

theorem u64_le {x : ℤ} (h : 0 ≤ x) : (u64 x : ℤ) ≤ x := by
  unfold u64
  omega

/-- The value of a conversion to `int`. -/
def int32 (x : ℤ) : ℤ := Int.bmod x 4294967296

theorem int32_lt (x : ℤ) : int32 x < 2147483648 := Int.bmod_lt (by decide)

theorem int32_of_lt {x : ℤ} (h₀ : 0 ≤ x) (h : x < 2147483648) : int32 x = x :=
  Int.bmod_eq_of_le (by omega) (by omega)

/-- The value of a conversion to `long`. -/
def int64 (x : ℤ) : ℤ := Int.bmod x 18446744073709551616

theorem int64_of_lt {x : ℤ} (h₀ : 0 ≤ x) (h : x < 9223372036854775808) : int64 x = x :=
  Int.bmod_eq_of_le (by omega) (by omega)

/-- The side of an order; `unset` is what a slot holds before its first update. -/
inductive OrderSide
  | unset
  | buy
  | sell
  deriving DecidableEq, Repr

/-- The side of a position; `unset` is the empty string of a record never updated. -/
inductive PositionSide
  | unset
  | both
  | long
  | short
  deriving DecidableEq, Repr

/-- A map keyed by strings. -/
abbrev StringMap (V : Type) := String → Option V

namespace StringMap

variable {V : Type}

/-- The empty map. -/
def empty : StringMap V := fun _ => none

/-- `map[key] = value`: an existing value is overwritten. -/
def set (m : StringMap V) (key : String) (value : V) : StringMap V :=
  Function.update m key (some value)

/-- `map.insert({key, value})`: an existing value is kept. -/
def insert (m : StringMap V) (key : String) (value : V) : StringMap V :=
  if (m key).isSome then m else m.set key value

@[simp] theorem empty_apply (key : String) : (empty : StringMap V) key = none := rfl

@[simp] theorem set_self (m : StringMap V) (key : String) (value : V) :
    m.set key value key = some value := by simp [set]

theorem set_of_ne (m : StringMap V) {key key' : String} (value : V) (h : key' ≠ key) :
    m.set key value key' = m key' := by simp [set, h]

theorem set_apply (m : StringMap V) (key key' : String) (value : V) :
    m.set key value key' = if key' = key then some value else m key' := by
  by_cases h : key' = key
  · subst h
    simp
  · simp [set_of_ne m value h, h]

theorem insert_apply (m : StringMap V) (key key' : String) (value : V) :
    m.insert key value key' =
      if key' = key then some ((m key).getD value) else m key' := by
  unfold insert
  cases hm : m key with
  | none => simp [set_apply]
  | some v =>
    by_cases h : key' = key
    · subst h
      simp [hm]
    · simp [h]

/-- A map into which one value was inserted under several keys has it under these, and no other. -/
theorem foldl_insert_apply {α : Type*} (f : α → String) (value : V) (xs : List α) (key : String) :
    xs.foldl (fun m x => insert m (f x) value) empty key =
      if key ∈ xs.map f then some value else none := by
  induction xs using List.reverseRecOn generalizing key with
  | nil => rfl
  | append_singleton xs x ih =>
    rw [List.foldl_append, List.foldl_cons, List.foldl_nil, insert_apply, ih, ih]
    by_cases hkey : key = f x
    · subst hkey
      by_cases hold : f x ∈ xs.map f <;> simp [hold]
    · simp [hkey]

theorem eq_of_foldl_insert {α : Type*} {f : α → String} {value v : V} {xs : List α} {key : String}
    (h : xs.foldl (fun m x => insert m (f x) value) empty key = some v) : v = value := by
  rw [foldl_insert_apply] at h
  split_ifs at h
  exact (Option.some.inj h).symm

end StringMap

end UmTaker
