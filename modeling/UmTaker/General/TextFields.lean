import UmTaker.General.CString
import Mathlib.Data.List.Pairwise
import Mathlib.Order.Nat

/-!
# Strings in the fields of a memory

A memory holds strings at fixed places, each in a field of a fixed size. A string is copied with its
zero byte; one that is too long for its field is written outside of it, and one that has no zero
byte in its field is read outside of it, which both have no defined effect. A string that fits is
read back, and leaves the other fields alone.

## Main definitions

* `Field`, `Field.Apart`: a place with its size, and fields that do not overlap
* `stringIn`, `copyInto`: the string in a field, and a string copied into it
* `copyStrings`, `copyFields`: strings copied into their fields one after the other, and the strings
  of the fields of another memory

## Main results

* `stringIn_copyInto_self`, `read_copyInto_of_apart`: what a copy does to the fields
* `isSome_copyStrings_iff`: strings can be copied exactly when all of them fit
* `stringIn_copyStrings`: they are read back
* `copyFields_eq`: strings that can be read fit the same fields of another memory
-/

namespace CString

/-- A place and its size. -/
structure Field where
  offset : ℕ
  size : ℕ

/-- Fields that do not overlap. -/
def Field.Apart (f g : Field) : Prop := f.offset + f.size ≤ g.offset ∨ g.offset + g.size ≤ f.offset

theorem Field.Apart.symm {f g : Field} (h : f.Apart g) : g.Apart f := Or.symm h

/-- The field ends within the memory. -/
def Field.Within (f : Field) (memory : List UInt8) : Prop := f.offset + f.size ≤ memory.length

/-- The bytes of a field. -/
def Field.read (f : Field) (memory : List UInt8) : List UInt8 := (memory.drop f.offset).take f.size

/-- The string in a field, if a zero byte of the field ends it. -/
def stringIn (f : Field) (memory : List UInt8) : Option (List UInt8) :=
  if 0 ∈ f.read memory then some (cString (f.read memory)) else none

/-- Copy a string with its zero byte into a field, if both fit. -/
def copyInto (f : Field) (bytes memory : List UInt8) : Option (List UInt8) :=
  if bytes.length < f.size then
    some (memory.take f.offset ++
      (terminated bytes ++ memory.drop (f.offset + (bytes.length + 1))))
  else none

@[simp] theorem length_terminated (bytes : List UInt8) :
    (terminated bytes).length = bytes.length + 1 := by
  simp [terminated]

/-! ## One copy -/

section CopyInto

variable {f g : Field} {bytes memory memory' : List UInt8}

theorem lt_size_of_copyInto (h : copyInto f bytes memory = some memory') :
    bytes.length < f.size := by
  unfold copyInto at h
  split_ifs at h with hfits
  exact hfits

theorem eq_of_copyInto (h : copyInto f bytes memory = some memory') :
    memory' = memory.take f.offset ++
      (terminated bytes ++ memory.drop (f.offset + (bytes.length + 1))) := by
  unfold copyInto at h
  split_ifs at h
  exact (Option.some.inj h).symm

theorem length_copyInto (hf : f.Within memory) (h : copyInto f bytes memory = some memory') :
    memory'.length = memory.length := by
  have hlt := lt_size_of_copyInto h
  have hwithin : f.offset + f.size ≤ memory.length := hf
  rw [eq_of_copyInto h]
  simp only [List.length_append, List.length_take, length_terminated, List.length_drop]
  omega

/-- What lies before the field is kept. -/
theorem take_copyInto {n : ℕ} (hn : n ≤ f.offset) (hf : f.Within memory)
    (h : copyInto f bytes memory = some memory') : memory'.take n = memory.take n := by
  have hwithin : f.offset + f.size ≤ memory.length := hf
  rw [eq_of_copyInto h, List.take_append_of_le_length, List.take_take, Nat.min_eq_left hn]
  rw [List.length_take]
  omega

/-- What lies behind the field is kept. -/
theorem drop_copyInto {n : ℕ} (hn : f.offset + f.size ≤ n) (hf : f.Within memory)
    (h : copyInto f bytes memory = some memory') : memory'.drop n = memory.drop n := by
  have hlt := lt_size_of_copyInto h
  have hwithin : f.offset + f.size ≤ memory.length := hf
  have hlength : (memory.take f.offset ++ terminated bytes).length =
      f.offset + (bytes.length + 1) := by
    simp only [List.length_append, List.length_take, length_terminated]
    omega
  rw [eq_of_copyInto h, ← List.append_assoc, List.drop_append, hlength,
    List.drop_eq_nil_of_le (by omega), List.nil_append, List.drop_drop]
  congr 1
  omega

/-- The fields that do not overlap with it are kept. -/
theorem read_copyInto_of_apart (hfg : f.Apart g) (hf : f.Within memory)
    (h : copyInto f bytes memory = some memory') : g.read memory' = g.read memory := by
  unfold Field.read
  rcases hfg with hbefore | hafter
  · rw [drop_copyInto hbefore hf h]
  · rw [List.take_drop, List.take_drop, take_copyInto hafter hf h]

theorem stringIn_copyInto_of_apart (hfg : f.Apart g) (hf : f.Within memory)
    (h : copyInto f bytes memory = some memory') : stringIn g memory' = stringIn g memory := by
  unfold stringIn
  rw [read_copyInto_of_apart hfg hf h]

/-- **A string that was copied is read back.** -/
theorem stringIn_copyInto_self (hbytes : 0 ∉ bytes) (hf : f.Within memory)
    (h : copyInto f bytes memory = some memory') : stringIn f memory' = some bytes := by
  have hlt := lt_size_of_copyInto h
  have hwithin : f.offset + f.size ≤ memory.length := hf
  have hoffset : (memory.take f.offset).length = f.offset := by
    rw [List.length_take]
    omega
  have hread : f.read memory' = bytes ++
      0 :: (memory.drop (f.offset + (bytes.length + 1))).take (f.size - (bytes.length + 1)) := by
    unfold Field.read
    rw [eq_of_copyInto h, List.drop_left' hoffset, List.take_append, length_terminated,
      List.take_of_length_le (by rw [length_terminated]; omega), terminated, List.append_assoc]
    rfl
  have hzero : 0 ∈ f.read memory' := by
    rw [hread]
    exact List.mem_append_right _ List.mem_cons_self
  rw [stringIn, if_pos hzero, hread, (cString_append_zero_iff bytes _).mpr hbytes]

end CopyInto

/-! ## Several copies -/

/-- Copy strings into their fields, one after the other. -/
def copyStrings (strings : List (Field × List UInt8)) (memory : List UInt8) :
    Option (List UInt8) :=
  strings.foldlM (fun memory s => copyInto s.1 s.2 memory) memory

/-- Copy the strings of the fields of a memory into those of another. -/
def copyFields (fields : List Field) (source memory : List UInt8) : Option (List UInt8) :=
  fields.foldlM (fun memory f => do
    let bytes ← stringIn f source
    copyInto f bytes memory) memory

section CopyStrings

variable {s : Field × List UInt8} {strings : List (Field × List UInt8)}
  {memory memory' : List UInt8}

theorem copyStrings_cons : copyStrings (s :: strings) memory =
    (copyInto s.1 s.2 memory).bind fun memory => copyStrings strings memory := rfl

/-- **Strings can be copied** exactly when all of them fit. -/
theorem isSome_copyStrings_iff : (copyStrings strings memory).isSome = true ↔
    ∀ s ∈ strings, s.2.length < s.1.size := by
  induction strings generalizing memory with
  | nil => simp [copyStrings]
  | cons s strings ih =>
    rw [copyStrings_cons, List.forall_mem_cons]
    unfold copyInto
    split_ifs with hfits
    · rw [Option.bind_some, ih, and_iff_right hfits]
    · simp [hfits]

/-- After the first copy the fields still end within the memory. -/
theorem within_of_copyInto (hwithin : ∀ s' ∈ s :: strings, s'.1.Within memory)
    (h : copyInto s.1 s.2 memory = some memory') : ∀ s' ∈ strings, s'.1.Within memory' := by
  intro s' hs'
  unfold Field.Within
  rw [length_copyInto (hwithin s List.mem_cons_self) h]
  exact hwithin s' (List.mem_cons_of_mem _ hs')

/-- What lies behind all fields is kept. -/
theorem drop_copyStrings {n : ℕ} (hwithin : ∀ s ∈ strings, s.1.Within memory)
    (hn : ∀ s ∈ strings, s.1.offset + s.1.size ≤ n)
    (h : copyStrings strings memory = some memory') : memory'.drop n = memory.drop n := by
  induction strings generalizing memory with
  | nil =>
    obtain rfl := Option.some.inj h
    rfl
  | cons s strings ih =>
    obtain ⟨memory₁, hfirst, hrest⟩ := Option.bind_eq_some_iff.mp h
    rw [ih (within_of_copyInto hwithin hfirst) (fun s' hs' => hn s' (List.mem_cons_of_mem _ hs'))
      hrest]
    exact drop_copyInto (hn s List.mem_cons_self) (hwithin s List.mem_cons_self) hfirst

/-- A field that overlaps with none of theirs is kept. -/
theorem stringIn_copyStrings_of_apart {g : Field} (hwithin : ∀ s ∈ strings, s.1.Within memory)
    (hg : ∀ s ∈ strings, s.1.Apart g) (h : copyStrings strings memory = some memory') :
    stringIn g memory' = stringIn g memory := by
  induction strings generalizing memory with
  | nil =>
    obtain rfl := Option.some.inj h
    rfl
  | cons s strings ih =>
    obtain ⟨memory₁, hfirst, hrest⟩ := Option.bind_eq_some_iff.mp h
    rw [ih (within_of_copyInto hwithin hfirst) (fun s' hs' => hg s' (List.mem_cons_of_mem _ hs'))
      hrest]
    exact stringIn_copyInto_of_apart (hg s List.mem_cons_self) (hwithin s List.mem_cons_self) hfirst

/-- **Strings that were copied are read back**, whatever the memory held. -/
theorem stringIn_copyStrings (hwithin : ∀ s ∈ strings, s.1.Within memory)
    (hapart : strings.Pairwise fun s s' => s.1.Apart s'.1)
    (h : copyStrings strings memory = some memory') :
    ∀ s ∈ strings, 0 ∉ s.2 → stringIn s.1 memory' = some s.2 := by
  induction strings generalizing memory with
  | nil => simp
  | cons s strings ih =>
    obtain ⟨hfirst, hrest⟩ := List.pairwise_cons.mp hapart
    obtain ⟨memory₁, hcopy, hcopies⟩ := Option.bind_eq_some_iff.mp h
    have hwithin' := within_of_copyInto hwithin hcopy
    intro s' hs' hbytes
    rcases List.mem_cons.mp hs' with rfl | hs'
    · -- the copies after it leave its field alone
      rw [stringIn_copyStrings_of_apart hwithin' (fun t ht => (hfirst t ht).symm) hcopies]
      exact stringIn_copyInto_self hbytes (hwithin s' List.mem_cons_self) hcopy
    · exact ih hwithin' hrest hcopies s' hs' hbytes

/-- **Strings that can be read** are copied, since they fit the same fields of another memory. -/
theorem copyFields_eq {ι : Type*} {is : List ι} {field : ι → Field} {text : ι → List UInt8}
    {source : List UInt8} (h : ∀ i ∈ is, stringIn (field i) source = some (text i)) :
    copyFields (is.map field) source memory =
      copyStrings (is.map fun i => (field i, text i)) memory := by
  induction is generalizing memory with
  | nil => rfl
  | cons i is ih =>
    have hfirst : copyFields ((i :: is).map field) source memory =
        (copyInto (field i) (text i) memory).bind fun memory =>
          copyFields (is.map field) source memory := by
      simp only [copyFields, List.map_cons, List.foldlM_cons, h i List.mem_cons_self]
      rfl
    rw [hfirst, List.map_cons, copyStrings_cons]
    exact Option.bind_congr fun _ _ => ih fun j hj => h j (List.mem_cons_of_mem _ hj)

end CopyStrings

end CString
