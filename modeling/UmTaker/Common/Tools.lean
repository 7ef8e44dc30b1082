import UmTaker.General.LastOccurrence
import UmTaker.General.Truncation
import Mathlib.Algebra.Order.Archimedean.Basic
import Mathlib.Algebra.Order.Floor.Defs
import Mathlib.Data.Rat.Floor

/-!
# Tools

The arithmetic and naming helpers that the processes share.

## Main definitions

* `strEndsWith`, `cutEnd`: the suffix test of instrument ids, and the cut of a suffix
* `decimalProcess`: a value cut to a number of decimals
* `decimalProcessSigned`: the same with the widths of the code's integers
* `calculatePrecisionByMinStep`: the number of decimals of a step
* `genClientOrderId`: the client id of an order

## Main results

* `strEndsWith_iff`, `cutEnd_append`: the test and the cut undo appending
* `decimalProcess_eq`: cutting decimals truncates to the grid of the precision
* `decimalProcess_laws`: cutting decimals with the integers of the code, up to eighteen decimals
* `exists_calculatePrecision`: the decimals of a positive step are found
* `precisionSearch_isLeast_iff`: the search for the decimals of a step ends for the positive steps
  only
-/

namespace UmTaker

open LastOccurrence Truncation

/-- `str_ends_with`, by the last occurrence of the suffix. -/
def strEndsWith (str suffix : String) : Bool :=
  if str.length < suffix.length then false
  else decide (rfind suffix.toList str.toList = some (str.length - suffix.length))

/-- `str.substr(0, str.size() - suffix.size())`: the string without as many characters as the suffix
has. A size below zero is a large one, and the whole string is taken. -/
def cutEnd (str suffix : String) : String :=
  if suffix.length ≤ str.length then
    String.ofList (str.toList.take (str.length - suffix.length))
  else str

/-- **The test by the last occurrence** is that of being a suffix. -/
theorem strEndsWith_iff {str suffix : String} :
    strEndsWith str suffix = true ↔ suffix.toList <:+ str.toList := by
  have hstr : str.toList.length = str.length := String.length_toList
  have hsuffix : suffix.toList.length = suffix.length := String.length_toList
  unfold strEndsWith
  split_ifs with hlt
  · refine iff_of_false (by simp) fun h => ?_
    have hle := h.length_le
    omega
  · rw [decide_eq_true_iff, ← hstr, ← hsuffix]
    exact rfind_eq_end_iff (by omega)

theorem strEndsWith_append (base suffix : String) : strEndsWith (base ++ suffix) suffix = true := by
  rw [strEndsWith_iff, String.toList_append]
  exact List.suffix_append _ _

/-- Of two strings, neither a suffix of the other, one does not end what the other ends. -/
theorem strEndsWith_append_of_not {suffix other : String}
    (h : ¬ suffix.toList <:+ other.toList) (h' : ¬ other.toList <:+ suffix.toList)
    (base : String) : strEndsWith (base ++ other) suffix = false := by
  rw [← Bool.not_eq_true, strEndsWith_iff, String.toList_append]
  exact not_suffix_append h h'

/-- Cutting the end undoes appending it. -/
theorem cutEnd_append (base suffix : String) : cutEnd (base ++ suffix) suffix = base := by
  have hlength : (base ++ suffix).length = base.length + suffix.length :=
    String.length_append base suffix
  unfold cutEnd
  rw [if_pos (by omega), hlength, Nat.add_sub_cancel, String.toList_append,
    List.take_left' String.length_toList, String.ofList_toList]

/-- `decimal_process`: the value cut to `precision` decimals by conversions to integers. -/
def decimalProcess (value : ℚ) (precision : ℕ) : ℚ :=
  if precision = 0 then
    trunc value
  else
    let pow : ℤ := 10 ^ precision
    (trunc (value * pow) : ℚ) / (pow : ℚ)

/-- **Cutting decimals truncates** toward zero, to the multiples of `10⁻ᵖ`. -/
theorem decimalProcess_eq (value : ℚ) (precision : ℕ) :
    decimalProcess value precision = truncTo (10 ^ precision) value := by
  unfold decimalProcess truncTo
  split_ifs with h
  · simp [h]
  · simp

/-! ### The widths of its integers -/

/-- A conversion to a signed integer with `bits` bits besides the sign. It cuts toward zero, and has
no defined value when the result does not fit. -/
def toSigned (bits : ℕ) (value : ℚ) : Option ℤ :=
  if -(2 : ℤ) ^ bits ≤ trunc value ∧ trunc value < 2 ^ bits then some (trunc value) else none

/-- `decimal_process` with the widths of its integers: `int` without decimals, else `int64_t`, for
the power of ten too. -/
def decimalProcessSigned (value : ℚ) (precision : ℕ) : Option ℚ :=
  if precision = 0 then
    (toSigned 31 value).map fun cut => (cut : ℚ)
  else do
    let pow ← toSigned 63 (10 ^ precision)
    let cut ← toSigned 63 (value * pow)
    pure ((cut : ℚ) / (pow : ℚ))

/-- The value, in units of the precision, is within the range of the integers it is converted to. -/
def InSignedRange (value : ℚ) (precision : ℕ) : Prop :=
  |value| * 10 ^ precision < 2 ^ 63 ∧ (precision = 0 → |value| < 2 ^ 31)

/-- A value within the range is converted. -/
theorem toSigned_of_abs_lt {bits : ℕ} {value : ℚ} (h : |value| < 2 ^ bits) :
    toSigned bits value = some (trunc value) := by
  have hcut : |(trunc value : ℚ)| < 2 ^ bits := (abs_trunc_le value).trans_lt h
  have hcut : |trunc value| < 2 ^ bits := by exact_mod_cast hcut
  obtain ⟨hlow, hhigh⟩ := abs_lt.mp hcut
  exact if_pos ⟨hlow.le, hhigh⟩

/-- Powers of ten are converted up to the eighteenth, and no further. -/
theorem toSigned_pow (precision : ℕ) :
    toSigned 63 (10 ^ precision) = if precision ≤ 18 then some (10 ^ precision) else none := by
  have htrunc : trunc ((10 : ℚ) ^ precision) = 10 ^ precision := by
    exact_mod_cast trunc_intCast (K := ℚ) (10 ^ precision)
  have hpos : (0 : ℤ) < 10 ^ precision := by positivity
  unfold toSigned
  rw [htrunc]
  by_cases hle : precision ≤ 18
  · have hpow : (10 : ℤ) ^ precision ≤ 10 ^ 18 := pow_le_pow_right₀ (by norm_num) hle
    rw [if_pos hle, if_pos]
    omega
  · have hpow : (10 : ℤ) ^ 19 ≤ 10 ^ precision := pow_le_pow_right₀ (by norm_num) (by omega)
    rw [if_neg hle, if_neg]
    omega

/-- **Within the range the integers do not matter**: the value is cut as in exact arithmetic. -/
theorem decimalProcessSigned_eq {value : ℚ} {precision : ℕ} (hle : precision ≤ 18)
    (h : InSignedRange value precision) :
    decimalProcessSigned value precision = some (decimalProcess value precision) := by
  unfold decimalProcessSigned decimalProcess
  by_cases hzero : precision = 0
  · rw [if_pos hzero, if_pos hzero, toSigned_of_abs_lt (h.2 hzero)]
    rfl
  · have hscaled : |value * ((10 ^ precision : ℤ) : ℚ)| < 2 ^ 63 := by
      have hpos : (0 : ℚ) < 10 ^ precision := by positivity
      rw [Int.cast_pow, Int.cast_ofNat, abs_mul, abs_of_pos hpos]
      exact h.1
    rw [if_neg hzero, if_neg hzero, toSigned_pow, if_pos hle]
    simp only [Option.bind_eq_bind, Option.bind_some, toSigned_of_abs_lt hscaled]
    rfl

/-- The conversion to a signed integer is defined of the value. -/
def Converts (bits : ℕ) (value : ℚ) : Prop := -(2 : ℚ) ^ bits - 1 < value ∧ value < 2 ^ bits

instance (bits : ℕ) (value : ℚ) : Decidable (Converts bits value) :=
  inferInstanceAs (Decidable (_ ∧ _))

/-- The value can be cut to the precision: the power of ten fits its integer, and so does the value
in units of the precision. -/
def CutFits (precision : ℕ) (value : ℚ) : Prop :=
  precision ≤ 18 ∧ Converts (if precision = 0 then 31 else 63) (value * 10 ^ precision)

instance (precision : ℕ) (value : ℚ) : Decidable (CutFits precision value) :=
  inferInstanceAs (Decidable (_ ∧ _))

/-- Values less than one beyond the range are converted too. -/
theorem converts_iff {bits : ℕ} {value : ℚ} :
    Converts bits value ↔ -(2 : ℤ) ^ bits ≤ trunc value ∧ trunc value < 2 ^ bits := by
  have hpos : (0 : ℤ) < 2 ^ bits := by positivity
  have hlow : 2 ^ bits + 1 ≤ trunc (-value) ↔ (2 : ℚ) ^ bits + 1 ≤ -value := by
    rw [le_trunc_iff (by omega : (0 : ℤ) < 2 ^ bits + 1)]
    push_cast
    rfl
  have hhigh : 2 ^ bits ≤ trunc value ↔ (2 : ℚ) ^ bits ≤ value := by
    rw [le_trunc_iff hpos]
    push_cast
    rfl
  rw [trunc_neg] at hlow
  refine and_congr ?_ (not_le.symm.trans ((not_congr hhigh.symm).trans not_le))
  constructor
  · intro h
    by_contra hlt
    linarith [hlow.mp (by omega)]
  · intro h
    by_contra hle
    have hge := hlow.mpr (by linarith)
    omega

theorem toSigned_eq (bits : ℕ) (value : ℚ) :
    toSigned bits value = if Converts bits value then some (trunc value) else none := by
  simp only [toSigned, converts_iff]

/-- **The integers decide only whether a value is cut**, and not what it is cut to. -/
theorem decimalProcessSigned_eq_some_iff {value cut : ℚ} {precision : ℕ} :
    decimalProcessSigned value precision = some cut ↔
      CutFits precision value ∧ cut = decimalProcess value precision := by
  unfold decimalProcessSigned decimalProcess CutFits
  by_cases hzero : precision = 0
  · by_cases hfits : Converts 31 value
    · simp [hzero, toSigned_eq, hfits, eq_comm]
    · simp [hzero, toSigned_eq, hfits]
  · rw [if_neg hzero, if_neg hzero, if_neg hzero, toSigned_pow]
    by_cases hle : precision ≤ 18
    · by_cases hfits : Converts 63 (value * 10 ^ precision)
      · simp [toSigned_eq, hle, hfits, eq_comm]
      · simp [toSigned_eq, hle, hfits]
    · simp [hle]

/-- What lies between the cut of a value and zero can be cut when the value can. -/
theorem CutFits.of_nonpos {precision : ℕ} {value value' : ℚ} (h : CutFits precision value)
    (hle : decimalProcess value precision ≤ value') (hnonpos : value' ≤ 0) :
    CutFits precision value' := by
  obtain ⟨hprecision, hconverts⟩ := h
  have hpos : (0 : ℚ) < 10 ^ precision := by positivity
  have hlow := (converts_iff.mp hconverts).1
  refine ⟨hprecision, ?_, ?_⟩
  · rw [decimalProcess_eq, truncTo, div_le_iff₀ hpos] at hle
    have hlow : -(2 : ℚ) ^ (if precision = 0 then 31 else 63) ≤ trunc (value * 10 ^ precision) := by
      exact_mod_cast hlow
    linarith
  · calc value' * 10 ^ precision ≤ 0 := mul_nonpos_of_nonpos_of_nonneg hnonpos hpos.le
      _ < _ := by positivity

/-- Smaller values are within the range too. -/
theorem InSignedRange.of_abs_le {value value' : ℚ} {precision : ℕ}
    (h : InSignedRange value precision) (hle : |value'| ≤ |value|) :
    InSignedRange value' precision := by
  refine ⟨lt_of_le_of_lt ?_ h.1, fun hzero => hle.trans_lt (h.2 hzero)⟩
  exact mul_le_mul_of_nonneg_right hle (by positivity)

/-- Cutting to decimals after cutting to more decimals is cutting once. -/
theorem decimalProcess_decimalProcess {precision finer : ℕ} (hle : precision ≤ finer) (value : ℚ) :
    decimalProcess (decimalProcess value finer) precision = decimalProcess value precision := by
  have hpow : (10 : ℚ) ^ finer = 10 ^ precision * ((10 ^ (finer - precision) : ℕ) : ℚ) := by
    rw [Nat.cast_pow, Nat.cast_ofNat, ← pow_add, Nat.add_sub_cancel' hle]
  rw [decimalProcess_eq, decimalProcess_eq, decimalProcess_eq, hpow]
  exact truncTo_truncTo (by positivity) (by positivity) value

/-- **Cutting to decimals** yields a multiple of `10⁻ᵖ` on the near side of the value and less than
`10⁻ᵖ` from it; it is odd, keeps the order, and absorbs itself and cutting to more decimals. The
power of ten has to fit its integer. -/
theorem decimalProcess_laws (precision : ℕ) (hprecision : precision ≤ 18) (v w : ℚ)
    (hv : InSignedRange v precision) (hw : InSignedRange w precision) :
    ∃ v' w', decimalProcessSigned v precision = some v' ∧
      decimalProcessSigned w precision = some w' ∧
      (∃ k : ℤ, v' = k / 10 ^ precision) ∧ |v'| ≤ |v| ∧ |v - v'| < 1 / 10 ^ precision ∧
      decimalProcessSigned (-v) precision = some (-v') ∧ (v ≤ w → v' ≤ w') ∧
      decimalProcessSigned v' precision = some v' ∧
      ∀ finer, precision ≤ finer → finer ≤ 18 → InSignedRange v finer →
        ∃ fine, decimalProcessSigned v finer = some fine ∧
          decimalProcessSigned fine precision = some v' := by
  have hpos : ∀ p : ℕ, (0 : ℚ) < 10 ^ p := fun p => by positivity
  have habs : ∀ p, |decimalProcess v p| ≤ |v| := by
    intro p
    rw [decimalProcess_eq]
    exact abs_truncTo_le (hpos p) v
  refine ⟨_, _, decimalProcessSigned_eq hprecision hv, decimalProcessSigned_eq hprecision hw, ?_,
    habs precision, ?_, ?_, ?_, ?_, ?_⟩
  · rw [decimalProcess_eq]
    exact truncTo_onGrid _ v
  · rw [decimalProcess_eq]
    exact abs_sub_truncTo_lt (hpos precision) v
  · have hneg : decimalProcess (-v) precision = -decimalProcess v precision := by
      rw [decimalProcess_eq, decimalProcess_eq, truncTo_neg]
    rw [← hneg]
    exact decimalProcessSigned_eq hprecision (hv.of_abs_le (abs_neg v).le)
  · intro hle
    rw [decimalProcess_eq, decimalProcess_eq]
    exact truncTo_mono (hpos precision) hle
  · rw [decimalProcessSigned_eq hprecision (hv.of_abs_le (habs precision)),
      decimalProcess_decimalProcess le_rfl]
  · intro finer hle hfiner hrange
    refine ⟨_, decimalProcessSigned_eq hfiner hrange, ?_⟩
    rw [decimalProcessSigned_eq hprecision (hv.of_abs_le (habs finer)),
      decimalProcess_decimalProcess hle]

/-- Half a unit and a quarter of one, cut to one decimal. -/
theorem decimalProcess_laws_half :
    ∃ v' w', decimalProcessSigned (1 / 4) 1 = some v' ∧ decimalProcessSigned (1 / 2) 1 = some w' ∧
      v' ≤ w' := by
  have hrange : ∀ value : ℚ, |value| ≤ 1 → InSignedRange value 1 := by
    intro value h
    refine ⟨?_, fun hzero => absurd hzero one_ne_zero⟩
    calc |value| * 10 ^ 1 ≤ 1 * 10 ^ 1 := mul_le_mul_of_nonneg_right h (by norm_num)
      _ < 2 ^ 63 := by norm_num
  obtain ⟨v', w', hv, hw, -, -, -, -, hmono, -⟩ :=
    decimalProcess_laws 1 (by norm_num) (1 / 4) (1 / 2) (hrange _ (by norm_num [abs_le]))
      (hrange _ (by norm_num [abs_le]))
  exact ⟨v', w', hv, hw, hmono (by norm_num)⟩

/-- The nineteenth power of ten does not fit: one half, which is in the range of the integers, has
no defined cut to nineteen decimals. -/
theorem decimalProcess_undefined :
    InSignedRange (1 / 2) 19 ∧ decimalProcessSigned (1 / 2) 19 = none := by
  constructor
  · refine ⟨?_, fun hzero => absurd hzero (by norm_num)⟩
    norm_num [abs_of_pos]
  · decide +kernel

/-- The price grid of a precision: the multiples of `10⁻ᵖ`. -/
abbrev OnPriceGrid (precision : ℕ) (value : ℚ) : Prop := OnGrid ((10 : ℚ) ^ precision) value

/-- The loop of `calculate_precision_by_min_step`, as long as it has fuel. -/
def precisionLoop : ℕ → ℕ → ℚ → Option ℕ
  | 0, _, _ => none
  | fuel + 1, precision, minStep =>
    let precision := precision + 1
    let minStep := minStep * 10
    if minStep < 1 then precisionLoop fuel precision minStep else some precision

/-- `calculate_precision_by_min_step`. The loop does not end for a step that is not positive; for
another one its denominator is fuel enough. -/
def calculatePrecisionByMinStep (minStep : ℚ) : Option ℕ :=
  if 1 ≤ minStep then some 0 else precisionLoop minStep.den 0 minStep

/-- The loop stops at the first power of ten that raises the step to one. -/
theorem precisionLoop_spec {fuel precision : ℕ} {minStep : ℚ} (hlt : minStep < 1)
    (hfuel : 1 ≤ minStep * 10 ^ fuel) :
    ∃ n, precisionLoop fuel precision minStep = some (precision + n) ∧ 1 ≤ minStep * 10 ^ n ∧
      ∀ k < n, minStep * 10 ^ k < 1 := by
  induction fuel generalizing precision minStep with
  | zero =>
    rw [pow_zero, mul_one] at hfuel
    exact absurd hfuel hlt.not_ge
  | succ fuel ih =>
    unfold precisionLoop
    by_cases hnext : minStep * 10 < 1
    · -- the loop goes on with ten times the step, for which one power less is enough
      have hfuel' : 1 ≤ minStep * 10 * 10 ^ fuel := by
        rw [mul_assoc, ← pow_succ']
        exact hfuel
      obtain ⟨n, hloop, hge, hbelow⟩ := ih hnext hfuel'
      refine ⟨n + 1, ?_, ?_, fun k hk => ?_⟩
      · rw [if_pos hnext, hloop, Nat.add_assoc, Nat.add_comm 1 n]
      · rw [pow_succ', ← mul_assoc]
        exact hge
      · cases k with
        | zero => simpa using hlt
        | succ k =>
          rw [pow_succ', ← mul_assoc]
          exact hbelow k (by omega)
    · refine ⟨1, if_neg hnext, ?_, fun k hk => ?_⟩
      · rw [pow_one]
        exact not_lt.mp hnext
      · obtain rfl : k = 0 := by omega
        simpa using hlt

/-- **The decimals of a positive step are found**: the least number of them that make it one. -/
theorem exists_calculatePrecision {minStep : ℚ} (hpos : 0 < minStep) :
    ∃ n, calculatePrecisionByMinStep minStep = some n ∧ 1 ≤ minStep * 10 ^ n ∧
      ∀ k < n, minStep * 10 ^ k < 1 := by
  unfold calculatePrecisionByMinStep
  by_cases hone : 1 ≤ minStep
  · refine ⟨0, if_pos hone, by simpa using hone, fun k hk => ?_⟩
    omega
  · -- the step is at least one over its denominator, and `10 ^ d` is above `d`
    have hfuel : 1 ≤ minStep * 10 ^ minStep.den := by
      have hden : (minStep.den : ℚ) ≤ 10 ^ minStep.den := by
        exact_mod_cast (Nat.lt_pow_self (by norm_num : 1 < 10)).le
      have hnum : (1 : ℚ) ≤ minStep.num := by
        exact_mod_cast Rat.num_pos.mpr hpos
      calc (1 : ℚ) ≤ minStep.num := hnum
        _ = minStep * minStep.den := (Rat.mul_den_eq_num minStep).symm
        _ ≤ minStep * 10 ^ minStep.den := mul_le_mul_of_nonneg_left hden hpos.le
    obtain ⟨n, hloop, hge, hbelow⟩ := precisionLoop_spec (not_le.mp hone) hfuel
    rw [if_neg hone, hloop, Nat.zero_add]
    exact ⟨n, rfl, hge, hbelow⟩

/-- How `calculate_precision_by_min_step` ends: at once, or after some number of rounds. -/
def PrecisionSearch (minStep : ℚ) (precision : ℕ) : Prop :=
  if 1 ≤ minStep then precision = 0 else ∃ rounds, precisionLoop rounds 0 minStep = some precision

/-- A step that is not positive stays below one, however often it is multiplied. -/
theorem precisionLoop_of_nonpos {minStep : ℚ} (h : minStep ≤ 0) (rounds precision : ℕ) :
    precisionLoop rounds precision minStep = none := by
  induction rounds generalizing precision minStep with
  | zero => rfl
  | succ rounds ih =>
    have hnext : minStep * 10 ≤ 0 := mul_nonpos_of_nonpos_of_nonneg h (by norm_num)
    unfold precisionLoop
    rw [if_pos (hnext.trans_lt one_pos)]
    exact ih hnext (precision + 1)

/-- A loop that has ended is not changed by more fuel. -/
theorem precisionLoop_mono {rounds rounds' precision result : ℕ} {minStep : ℚ}
    (hle : rounds ≤ rounds') (h : precisionLoop rounds precision minStep = some result) :
    precisionLoop rounds' precision minStep = some result := by
  induction rounds generalizing rounds' precision minStep with
  | zero => cases h
  | succ rounds ih =>
    obtain ⟨rest, rfl⟩ : ∃ rest, rounds' = rest + 1 := ⟨rounds' - 1, by omega⟩
    unfold precisionLoop at h ⊢
    by_cases hnext : minStep * 10 < 1
    · rw [if_pos hnext] at h ⊢
      exact ih (by omega) h
    · rw [if_neg hnext] at h ⊢
      exact h

/-- **The fuel is enough**: the search ends with a precision exactly when the model returns it. -/
theorem precisionSearch_iff {minStep : ℚ} {precision : ℕ} :
    PrecisionSearch minStep precision ↔ calculatePrecisionByMinStep minStep = some precision := by
  by_cases hone : 1 ≤ minStep
  · rw [PrecisionSearch, calculatePrecisionByMinStep, if_pos hone, if_pos hone, Option.some_inj,
      eq_comm]
  · rw [PrecisionSearch, calculatePrecisionByMinStep, if_neg hone, if_neg hone]
    constructor
    · rintro ⟨rounds, h⟩
      rcases lt_or_ge 0 minStep with hpos | hnonpos
      · obtain ⟨n, hn, -⟩ := exists_calculatePrecision hpos
        rw [calculatePrecisionByMinStep, if_neg hone] at hn
        have hboth := precisionLoop_mono (le_max_left rounds minStep.den) h
        rw [precisionLoop_mono (le_max_right rounds minStep.den) hn] at hboth
        rw [hn, hboth]
      · rw [precisionLoop_of_nonpos hnonpos] at h
        cases h
    · exact fun h => ⟨minStep.den, h⟩

/-- For a step that is not positive the search does not end. -/
theorem precisionSearch_of_nonpos {minStep : ℚ} (hnonpos : minStep ≤ 0) (precision : ℕ) :
    ¬ PrecisionSearch minStep precision := by
  intro h
  rw [PrecisionSearch, if_neg (hnonpos.trans_lt one_pos).not_ge] at h
  obtain ⟨rounds, h⟩ := h
  rw [precisionLoop_of_nonpos hnonpos] at h
  cases h

/-- **The search ends with the least precision** exactly for the positive steps; for the others it
does not end. -/
theorem precisionSearch_isLeast_iff (minStep : ℚ) :
    ((∃ precision, PrecisionSearch minStep precision ∧
        IsLeast {n : ℕ | 1 ≤ minStep * 10 ^ n} precision) ↔ 0 < minStep) ∧
      (minStep ≤ 0 → ∀ precision, ¬ PrecisionSearch minStep precision) := by
  refine ⟨⟨?_, fun hpos => ?_⟩, precisionSearch_of_nonpos⟩
  · rintro ⟨precision, hends, -⟩
    by_contra hnonpos
    exact precisionSearch_of_nonpos (not_lt.mp hnonpos) precision hends
  · obtain ⟨n, hn, hge, hbelow⟩ := exists_calculatePrecision hpos
    refine ⟨n, precisionSearch_iff.mpr hn, hge, fun k hk => ?_⟩
    by_contra hlt
    exact absurd hk (not_le.mpr (hbelow k (not_le.mp hlt)))

/-- With a step of zero the search does not end. -/
theorem precisionSearch_zero : ¬ ∃ precision, PrecisionSearch 0 precision := by
  rintro ⟨precision, h⟩
  exact precisionSearch_of_nonpos le_rfl precision h

/-- `gen_client_order_id`: the side, whether the order closes a position, the clock in
milliseconds, whether the price was adjusted, and the delay of the ticker. -/
def genClientOrderId (isBuySide adjustedPrice : Bool) (tickerDelayMillis : ℤ)
    (isClosePosition : Bool) (now : ℕ) : String :=
  let adjusted := if adjustedPrice then "y" else "n"
  let close := if isClosePosition then "y" else "n"
  let side := if isBuySide then "b" else "s"
  side ++ "_" ++ close ++ "_" ++ toString now ++ "_" ++ adjusted ++ "_" ++
    toString tickerDelayMillis

end UmTaker
