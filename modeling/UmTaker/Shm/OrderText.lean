import UmTaker.Common.Tools
import UmTaker.General.TextFields
import UmTaker.Shm.Records
import Mathlib.Data.Nat.Digits.Defs

/-!
# The texts of an order record

An order record begins with six character arrays. The strategy copies its texts into a record of its
own, the writer copies them on into the slot, and the reader from there into a new instance; every
copy goes up to the zero byte, whatever the size of its array. The texts of the side, the types and
the time in force are constants of the library of the exchange.

## Main definitions

* `OrderText`, `OrderText.field`: the character arrays and where they lie
* `ExchangeNames`: the constants, and what is relied on of them
* `bytesOf`, `textsOf`: the bytes of a text, and the texts of a record
* `copyTexts`, `copyRecord`, `handOver`: the copies in their order

## Main results

* `clientOrderId_fits`: every id that the strategy generates fits its array
* `order_texts_handed_over`: the copies are defined exactly for an instrument that fits, and then
  every text arrives
-/

namespace UmTaker.Shm

open CString

/-! ## Bytes -/

/-- The bytes of a text. -/
def bytesOf (s : String) : List UInt8 := s.toList.flatMap String.utf8EncodeChar

theorem bytesOf_inj {s t : String} : bytesOf s = bytesOf t ↔ s = t := by
  constructor
  · intro h
    have hencode : s.toList.utf8Encode = t.toList.utf8Encode := congrArg List.toByteArray h
    rw [String.utf8Encode_toList, String.utf8Encode_toList] at hencode
    exact String.toByteArray_inj.mp hencode
  · rintro rfl
    rfl

/-- A character of a single byte that is not zero. -/
def PlainChar (c : Char) : Prop := 0 < c.val ∧ c.val ≤ 127

instance (c : Char) : Decidable (PlainChar c) := inferInstanceAs (Decidable (_ ∧ _))

theorem utf8EncodeChar_plain {c : Char} (h : PlainChar c) :
    String.utf8EncodeChar c = [c.val.toUInt8] ∧ c.val.toUInt8 ≠ 0 := by
  refine ⟨String.utf8EncodeChar_eq_singleton (Char.utf8Size_eq_one_iff.mpr h.2), fun hzero => ?_⟩
  have hnat : c.val.toNat % 256 = 0 := by
    rw [← UInt32.toNat_toUInt8, hzero]
    rfl
  have hpos : 0 < c.val.toNat := UInt32.lt_iff_toNat_lt.mp h.1
  have hle : c.val.toNat ≤ 127 := UInt32.le_iff_toNat_le.mp h.2
  omega

/-- Plain texts have a byte for each character, none of them zero. -/
theorem bytesOf_plain {s : String} (h : ∀ c ∈ s.toList, PlainChar c) :
    (bytesOf s).length = s.length ∧ 0 ∉ bytesOf s := by
  unfold bytesOf
  rw [← String.length_toList]
  generalize s.toList = cs at h ⊢
  induction cs with
  | nil => simp
  | cons c cs ih =>
    obtain ⟨hlength, hzero⟩ := ih fun c hc => h c (List.mem_cons_of_mem _ hc)
    obtain ⟨hchar, hne⟩ := utf8EncodeChar_plain (h c List.mem_cons_self)
    rw [List.flatMap_cons, hchar]
    refine ⟨by simp [hlength], ?_⟩
    intro hmem
    rcases List.mem_cons.mp hmem with h0 | h0
    · exact hne h0.symm
    · exact hzero h0

theorem plain_singleton {s : String} {d : Char} (h : s.toList = [d]) (hd : PlainChar d) :
    ∀ c ∈ s.toList, PlainChar c := by
  intro c hc
  rw [h, List.mem_singleton] at hc
  rwa [hc]

theorem plain_of_isDigit {c : Char} (h : c.isDigit) : PlainChar c := by
  simp only [Char.isDigit, Bool.and_eq_true, decide_eq_true_eq, UInt32.le_iff_toNat_le] at h
  obtain ⟨hlow, hhigh⟩ := h
  constructor
  · rw [UInt32.lt_iff_toNat_lt]
    exact lt_of_lt_of_le (by decide) hlow
  · rw [UInt32.le_iff_toNat_le]
    exact le_trans hhigh (by decide)

theorem plain_natRepr (n : ℕ) : ∀ c ∈ (Nat.repr n).toList, PlainChar c := by
  intro c hc
  rw [Nat.toList_repr] at hc
  exact plain_of_isDigit (Nat.isDigit_of_mem_toDigits (by decide) (by decide) hc)

theorem plain_intRepr (n : ℤ) : ∀ c ∈ (Int.repr n).toList, PlainChar c := by
  cases n with
  | ofNat n => exact plain_natRepr n
  | negSucc n =>
    show ∀ c ∈ ("-" ++ Nat.repr (n + 1)).toList, PlainChar c
    intro c hc
    rw [String.toList_append] at hc
    rcases List.mem_append.mp hc with hc | hc
    · exact plain_singleton rfl (by decide) c hc
    · exact plain_natRepr (n + 1) c hc

/-- The text of a 32-bit number has at most eleven characters. -/
theorem length_intRepr_le {n : ℤ} (hlow : -2147483648 ≤ n) (hhigh : n < 2147483648) :
    (Int.repr n).length ≤ 11 := by
  cases n with
  | ofNat n =>
    show (Nat.repr n).length ≤ 11
    have hn : n < 10 ^ 11 := by
      have : (n : ℤ) < 2147483648 := hhigh
      omega
    exact Nat.repr_length n 11 (by decide) hn
  | negSucc n =>
    show ("-" ++ Nat.repr (n + 1)).length ≤ 11
    have hn : n + 1 < 10 ^ 10 := by
      have : (Int.negSucc n) = -((n : ℤ) + 1) := rfl
      omega
    have hrepr := Nat.repr_length (n + 1) 10 (by decide) hn
    rw [String.length_append]
    show 1 + _ ≤ 11
    omega

/-! ## The arrays -/

/-- The character arrays of a record, in their order. -/
inductive OrderText
  | instId
  | type
  | side
  | posSide
  | timeInForce
  | clientOrderId
  deriving DecidableEq

namespace OrderText

def all : List OrderText := [instId, type, side, posSide, timeInForce, clientOrderId]

/-- Where an array lies, and its size. -/
def field : OrderText → Field
  | instId => ⟨0, 24⟩
  | type => ⟨24, 8⟩
  | side => ⟨32, 8⟩
  | posSide => ⟨40, 8⟩
  | timeInForce => ⟨48, 8⟩
  | clientOrderId => ⟨56, 40⟩

/-- The size of all arrays together; the numbers of the record follow. -/
def totalSize : ℕ := 96

theorem field_end_le (f : OrderText) : f.field.offset + f.field.size ≤ totalSize := by
  cases f <;> decide

theorem mem_all (f : OrderText) : f ∈ all := by
  cases f <;> decide

/-- The arrays do not overlap. -/
theorem pairwise_apart : all.Pairwise fun f g => f.field.Apart g.field := by
  simp [all, field, Field.Apart]

end OrderText

/-- The texts of the arrays. -/
abbrev OrderTexts := OrderText → List UInt8

/-- The strategy's `strcpy` of its texts into the arrays of a record. -/
def copyTexts (texts : OrderTexts) (memory : List UInt8) : Option (List UInt8) :=
  copyStrings (OrderText.all.map fun f => (f.field, texts f)) memory

/-- The `memcpy` of the arrays of a record into those of another, each up to its zero byte. -/
def copyRecord (source memory : List UInt8) : Option (List UInt8) :=
  CString.copyFields (OrderText.all.map OrderText.field) source memory

/-- From the strategy's record through the slot to the reader's instance: what the latter two hold
then, if every copy stays within its array. -/
def handOver (texts : OrderTexts) (record slot inst : List UInt8) :
    Option (List UInt8 × List UInt8) := do
  let record ← copyTexts texts record
  let slot ← copyRecord record slot
  let inst ← copyRecord slot inst
  pure (slot, inst)

/-- The texts of the constants of an order, as the library of the exchange has them. -/
structure ExchangeNames where
  orderType : OrderType → String
  orderSide : OrderSide → String
  positionSide : PositionSide → String
  timeInForce : TimeInForce → String

/-- A text for an array of eight bytes. -/
def ShortName (s : String) : Prop := 0 ∉ bytesOf s ∧ (bytesOf s).length < 8

instance (s : String) : Decidable (ShortName s) := inferInstanceAs (Decidable (_ ∧ _))

/-- What is relied on of the constants: they are short, and differ from each other. -/
structure ExchangeNames.Documented (names : ExchangeNames) : Prop where
  orderType : ∀ t, ShortName (names.orderType t)
  orderSide : ∀ t, ShortName (names.orderSide t)
  positionSide : ∀ t, ShortName (names.positionSide t)
  timeInForce : ∀ t, ShortName (names.timeInForce t)
  orderType_inj : names.orderType.Injective
  orderSide_inj : names.orderSide.Injective
  positionSide_inj : names.positionSide.Injective
  timeInForce_inj : names.timeInForce.Injective

/-- The texts of a record. -/
def textsOf (names : ExchangeNames) (r : OrderShm) : OrderTexts
  | .instId => bytesOf r.instId
  | .type => bytesOf (names.orderType r.type)
  | .side => bytesOf (names.orderSide r.side)
  | .posSide => bytesOf (names.positionSide r.posSide)
  | .timeInForce => bytesOf (names.timeInForce r.timeInForce)
  | .clientOrderId => bytesOf r.clientOrderId

/-- **The texts tell the fields**: records have the same texts exactly when they agree on these. -/
theorem textsOf_inj {names : ExchangeNames} (hnames : names.Documented) {r r' : OrderShm} :
    textsOf names r = textsOf names r' ↔
      r.instId = r'.instId ∧ r.type = r'.type ∧ r.side = r'.side ∧ r.posSide = r'.posSide ∧
        r.timeInForce = r'.timeInForce ∧ r.clientOrderId = r'.clientOrderId := by
  constructor
  · intro h
    exact ⟨bytesOf_inj.mp (congrFun h .instId),
      hnames.orderType_inj (bytesOf_inj.mp (congrFun h .type)),
      hnames.orderSide_inj (bytesOf_inj.mp (congrFun h .side)),
      hnames.positionSide_inj (bytesOf_inj.mp (congrFun h .posSide)),
      hnames.timeInForce_inj (bytesOf_inj.mp (congrFun h .timeInForce)),
      bytesOf_inj.mp (congrFun h .clientOrderId)⟩
  · rintro ⟨hinst, htype, hside, hposSide, htime, hclient⟩
    funext f
    cases f <;> simp only [textsOf, *]

/-! ## What fits -/

/-- **Every client order id of the strategy fits**: the clock is a 64-bit number and the delay a
32-bit one. -/
theorem clientOrderId_fits (isBuySide adjustedPrice isClosePosition : Bool) {now : ℕ}
    {tickerDelayMillis : ℤ} (hnow : now < 2 ^ 64) (hlow : -2147483648 ≤ tickerDelayMillis)
    (hhigh : tickerDelayMillis < 2147483648) :
    (bytesOf (genClientOrderId isBuySide adjustedPrice tickerDelayMillis isClosePosition
        now)).length < 40 ∧
      0 ∉ bytesOf (genClientOrderId isBuySide adjustedPrice tickerDelayMillis isClosePosition
        now) := by
  have hplain : ∀ c ∈ (genClientOrderId isBuySide adjustedPrice tickerDelayMillis isClosePosition
      now).toList, PlainChar c := by
    have hside : ∀ c ∈ (if isBuySide then "b" else "s").toList, PlainChar c := by
      cases isBuySide <;> exact plain_singleton rfl (by decide)
    have hclose : ∀ c ∈ (if isClosePosition then "y" else "n").toList, PlainChar c := by
      cases isClosePosition <;> exact plain_singleton rfl (by decide)
    have hadjusted : ∀ c ∈ (if adjustedPrice then "y" else "n").toList, PlainChar c := by
      cases adjustedPrice <;> exact plain_singleton rfl (by decide)
    have hseparator : ∀ c ∈ "_".toList, PlainChar c := plain_singleton rfl (by decide)
    have hnumber : ∀ c ∈ (toString now).toList, PlainChar c := plain_natRepr now
    have hdelay : ∀ c ∈ (toString tickerDelayMillis).toList, PlainChar c :=
      plain_intRepr tickerDelayMillis
    intro c hc
    simp only [genClientOrderId, String.toList_append, List.mem_append] at hc
    rcases hc with (((((((hc | hc) | hc) | hc) | hc) | hc) | hc) | hc) | hc
    · exact hside c hc
    · exact hseparator c hc
    · exact hclose c hc
    · exact hseparator c hc
    · exact hnumber c hc
    · exact hseparator c hc
    · exact hadjusted c hc
    · exact hseparator c hc
    · exact hdelay c hc
  obtain ⟨hlength, hzero⟩ := bytesOf_plain hplain
  refine ⟨?_, hzero⟩
  rw [hlength]
  have hnumber : (toString now).length ≤ 20 :=
    Nat.repr_length now 20 (by decide) (lt_trans hnow (by decide))
  have hdelay : (toString tickerDelayMillis).length ≤ 11 := length_intRepr_le hlow hhigh
  have hside : (if isBuySide then "b" else "s").length = 1 := by cases isBuySide <;> rfl
  have hclose : (if isClosePosition then "y" else "n").length = 1 := by
    cases isClosePosition <;> rfl
  have hadjusted : (if adjustedPrice then "y" else "n").length = 1 := by
    cases adjustedPrice <;> rfl
  have hseparator : "_".length = 1 := rfl
  simp only [genClientOrderId, String.length_append]
  omega

/-- The texts of a record fit their arrays if the instrument does, and its client order id is one of
the strategy's. -/
theorem fits_textsOf {names : ExchangeNames} (hnames : names.Documented) {r : OrderShm}
    (hinst : 0 ∉ bytesOf r.instId) (hclient : 0 ∉ bytesOf r.clientOrderId)
    (hclientLength : (bytesOf r.clientOrderId).length < 40) :
    (∀ f, 0 ∉ textsOf names r f) ∧
      ((∀ f, (textsOf names r f).length < f.field.size) ↔ (bytesOf r.instId).length < 24) := by
  have hothers : ∀ f, f ≠ .instId →
      0 ∉ textsOf names r f ∧ (textsOf names r f).length < f.field.size := by
    intro f hf
    cases f with
    | instId => exact absurd rfl hf
    | type => exact hnames.orderType _
    | side => exact hnames.orderSide _
    | posSide => exact hnames.positionSide _
    | timeInForce => exact hnames.timeInForce _
    | clientOrderId => exact ⟨hclient, hclientLength⟩
  refine ⟨fun f => ?_, fun h => h .instId, fun h f => ?_⟩
  · by_cases hf : f = .instId
    · rw [hf]
      exact hinst
    · exact (hothers f hf).1
  · by_cases hf : f = .instId
    · rw [hf]
      exact h
    · exact (hothers f hf).2

/-! ## One copy -/

section Copy

variable {texts : OrderTexts} {memory memory' source : List UInt8}

theorem isSome_copyTexts_iff :
    (copyTexts texts memory).isSome = true ↔ ∀ f, (texts f).length < f.field.size := by
  rw [copyTexts, isSome_copyStrings_iff, List.forall_mem_map]
  exact ⟨fun h f => h f f.mem_all, fun h f _ => h f⟩

/-- **One copy**: every text arrives, and what lies behind the arrays is kept. -/
theorem copyTexts_spec (hzero : ∀ f, 0 ∉ texts f) (hmemory : OrderText.totalSize ≤ memory.length)
    (h : copyTexts texts memory = some memory') :
    (∀ f : OrderText, stringIn f.field memory' = some (texts f)) ∧
      memory'.drop OrderText.totalSize = memory.drop OrderText.totalSize := by
  have hwithin : ∀ s ∈ OrderText.all.map fun f => (f.field, texts f), s.1.Within memory := by
    rw [List.forall_mem_map]
    exact fun f _ => le_trans f.field_end_le hmemory
  constructor
  · have hapart : (OrderText.all.map fun f => (f.field, texts f)).Pairwise
        fun s s' => s.1.Apart s'.1 := List.pairwise_map.mpr OrderText.pairwise_apart
    have hread := stringIn_copyStrings hwithin hapart h
    rw [List.forall_mem_map] at hread
    exact fun f => hread f f.mem_all (hzero f)
  · refine drop_copyStrings hwithin ?_ h
    rw [List.forall_mem_map]
    exact fun f _ => f.field_end_le

/-- A record whose texts can be read is copied as these texts are. -/
theorem copyRecord_eq (h : ∀ f : OrderText, stringIn f.field source = some (texts f)) :
    copyRecord source memory = copyTexts texts memory :=
  CString.copyFields_eq fun f _ => h f

end Copy

/-! ## From the strategy to the trader -/

/-- **The texts of an order on their way from the strategy to the trader.** The strategy's record,
the slot and the reader's instance may have held anything. The copies stay within their arrays
exactly when the instrument is shorter than its own. Then the copy into the slot leaves what lies
behind its arrays alone, every text arrives, and the texts that arrive are those of the record's own
fields, and of no others. -/
theorem order_texts_handed_over {names : ExchangeNames} (hnames : names.Documented) {r : OrderShm}
    {record slot inst : List UInt8} {isBuySide adjustedPrice isClosePosition : Bool} {now : ℕ}
    {tickerDelayMillis : ℤ} (hinst : 0 ∉ bytesOf r.instId)
    (hid : r.clientOrderId =
      genClientOrderId isBuySide adjustedPrice tickerDelayMillis isClosePosition now)
    (hnow : now < 2 ^ 64) (hlow : -2147483648 ≤ tickerDelayMillis)
    (hhigh : tickerDelayMillis < 2147483648) (hrecord : OrderText.totalSize ≤ record.length)
    (hslot : OrderText.totalSize ≤ slot.length) (hinstance : OrderText.totalSize ≤ inst.length) :
    ((handOver (textsOf names r) record slot inst).isSome = true ↔
        (bytesOf r.instId).length < 24) ∧
      ∀ slot' inst', handOver (textsOf names r) record slot inst = some (slot', inst') →
        slot'.drop OrderText.totalSize = slot.drop OrderText.totalSize ∧
        ∀ r' : OrderShm, (∀ f, stringIn f.field inst' = some (textsOf names r' f)) ↔
          r'.instId = r.instId ∧ r'.type = r.type ∧ r'.side = r.side ∧ r'.posSide = r.posSide ∧
            r'.timeInForce = r.timeInForce ∧ r'.clientOrderId = r.clientOrderId := by
  obtain ⟨hlength, hclient⟩ :=
    clientOrderId_fits isBuySide adjustedPrice isClosePosition hnow hlow hhigh
  rw [← hid] at hlength hclient
  obtain ⟨hzero, hfits⟩ := fits_textsOf hnames hinst hclient hlength
  constructor
  · constructor
    · intro h
      obtain ⟨r', hr'⟩ := Option.isSome_iff_exists.mp h
      obtain ⟨record', hrecord', -⟩ := Option.bind_eq_some_iff.mp hr'
      exact hfits.mp (isSome_copyTexts_iff.mp (Option.isSome_iff_exists.mpr ⟨record', hrecord'⟩))
    · intro h
      have hcopy : ∀ memory, ∃ memory', copyTexts (textsOf names r) memory = some memory' :=
        fun memory => Option.isSome_iff_exists.mp (isSome_copyTexts_iff.mpr (hfits.mpr h))
      obtain ⟨record', hrecord'⟩ := hcopy record
      obtain ⟨slot', hslot'⟩ := hcopy slot
      obtain ⟨inst', hinst'⟩ := hcopy inst
      simp [handOver, hrecord', copyRecord_eq (copyTexts_spec hzero hrecord hrecord').1, hslot',
        copyRecord_eq (copyTexts_spec hzero hslot hslot').1, hinst']
  · intro slot' inst' h
    obtain ⟨record', hrecord', h⟩ := Option.bind_eq_some_iff.mp h
    obtain ⟨slot₁, hslot', h⟩ := Option.bind_eq_some_iff.mp h
    obtain ⟨inst₁, hinst', h⟩ := Option.bind_eq_some_iff.mp h
    obtain ⟨rfl, rfl⟩ := Prod.mk.inj (Option.some.inj h)
    rw [copyRecord_eq (copyTexts_spec hzero hrecord hrecord').1] at hslot'
    obtain ⟨hslotTexts, hbehind⟩ := copyTexts_spec hzero hslot hslot'
    rw [copyRecord_eq hslotTexts] at hinst'
    obtain ⟨hinstTexts, -⟩ := copyTexts_spec hzero hinstance hinst'
    refine ⟨hbehind, fun r' => ?_⟩
    rw [← textsOf_inj hnames]
    constructor
    · intro htexts
      funext f
      exact Option.some.inj ((htexts f).symm.trans (hinstTexts f))
    · intro heq f
      rw [hinstTexts f, heq]

/-- The names of the exchange. -/
def sampleNames : ExchangeNames where
  orderType
    | .unset => ""
    | .limit => "LIMIT"
  orderSide
    | .unset => ""
    | .buy => "BUY"
    | .sell => "SELL"
  positionSide
    | .unset => ""
    | .both => "BOTH"
    | .long => "LONG"
    | .short => "SHORT"
  timeInForce
    | .unset => ""
    | .ioc => "IOC"

/-- An order of the strategy. -/
def sampleOrder (instId : String) : OrderShm where
  instId := instId
  type := .limit
  side := .buy
  posSide := .both
  timeInForce := .ioc
  clientOrderId := genClientOrderId true false 3 false 1700000000000

/-- An instrument of 23 bytes arrives over memories that held something else, and one of 24 bytes is
written over the end of its array. -/
theorem order_texts_handed_over_longest :
    let memory := List.replicate 144 (7 : UInt8)
    (handOver (textsOf sampleNames (sampleOrder "1000PEPEUSDCPERPETUALCO")) memory memory
        memory).isSome = true ∧
      (handOver (textsOf sampleNames (sampleOrder "1000PEPEUSDCPERPETUALCON")) memory memory
        memory).isSome = false := by
  intro memory
  have hnames : sampleNames.Documented := by
    refine ⟨?_, ?_, ?_, ?_, ?_, ?_, ?_, ?_⟩
    iterate 4 exact fun t => by cases t <;> decide
    iterate 4 exact fun t t' => by cases t <;> cases t' <;> simp [sampleNames]
  have hmemory : OrderText.totalSize ≤ memory.length := by
    rw [List.length_replicate]
    decide
  have h := fun instId (hinst : 0 ∉ bytesOf instId) =>
    (order_texts_handed_over (r := sampleOrder instId) hnames hinst rfl (by decide) (by decide)
      (by decide) hmemory hmemory hmemory).1
  refine ⟨(h _ (by decide)).mpr (by decide), ?_⟩
  rw [Bool.eq_false_iff]
  exact mt (h _ (by decide)).mp (by decide)

end UmTaker.Shm
