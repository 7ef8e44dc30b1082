import UmTaker.Concurrency.Transcript
import Mathlib.Order.WellFounded
import Mathlib.Data.Nat.Find

/-!
# The account settings

Before trading starts, the main node asks the exchange to set the account up: the fee burn, the
leverage and margin type of every follower instrument, the margin mode and the position mode. A
setting the exchange refuses ends the process, unless its code says that nothing is to be changed.

## Main definitions

* `RestRequest`, `CommonRestResponse`: the requests and their answers
* `changeMarginType`, `prepareAccountSettings`: the loop over the instruments, and the whole set-up
* `MarginTypesSettled`: every instrument's margin type was requested and is settled
* `NoneSkipped`: an answer that nothing is to be changed does not come before other instruments

## Main results

* `marginTypes_settled_iff`: a margin type loop that succeeds, and a set-up that lets trading
  start, have settled every instrument exactly when none is skipped
-/

namespace UmTaker.Actuary

open Concurrency

/-- A request to the exchange. -/
inductive RestRequest
  | toggleBnbFeeBurn (feeBurn : Bool)
  | changeInitialLeverage (symbol : String) (leverage : ℤ)
  | changeMarginType (symbol marginType : String)
  | changeMultiAssetsMargin (multiAssetsMargin : Bool)
  | changePositionSideDual (dualSidePosition : Bool)
  deriving DecidableEq

/-- The code of an answer, and whether it reports success. -/
structure CommonRestResponse where
  code : ℤ
  data : Bool
  deriving DecidableEq

/-- Programs of requests. -/
abbrev RestProg : Type → Type := Prog RestRequest fun _ => CommonRestResponse

/-- The settings of the set-up, and `RestCodeOK`, the code of a success. -/
structure AccountSettings where
  dtGroupMainNode : Bool
  processAccountSettings : Bool
  initialLeverage : ℤ
  marginType : String
  multiAssetsMargin : Bool
  positionSideDual : Bool
  restCodeOK : ℤ

variable (config : AccountSettings)

/-- A setting whose answer is a success, or says by the code `unchanged` that nothing is to be
changed. -/
def changeSetting (request : RestRequest) (unchanged : ℤ) : RestProg Bool := do
  let response ← Prog.call request
  if response.code ≠ config.restCodeOK ∨ response.data = false then
    pure (decide (response.code = unchanged))
  else
    pure true

/-- `toggle_bnb_burn`. -/
def toggleBnbBurn : RestProg Bool := do
  let response ← Prog.call (.toggleBnbFeeBurn true)
  if response.code ≠ config.restCodeOK then
    pure (decide (response.code = -4145))
  else
    pure response.data

/-- `change_init_leverage`: the first refusal ends the loop. -/
def changeInitLeverage : List String → RestProg Bool
  | [] => pure true
  | followerInst :: followerInsts => do
    let response ← Prog.call (.changeInitialLeverage followerInst config.initialLeverage)
    if response.code ≠ config.restCodeOK then
      pure false
    else
      changeInitLeverage followerInsts

/-- `change_margin_type`: the first answer that is not a success ends the loop. -/
def changeMarginType : List String → RestProg Bool
  | [] => pure true
  | followerInst :: followerInsts => do
    let response ← Prog.call (.changeMarginType followerInst config.marginType)
    if response.code ≠ config.restCodeOK ∨ response.data = false then
      -- no need to change this one: the others are not looked at either
      if response.code = -4046 then pure true else pure false
    else
      changeMarginType followerInsts

/-- `change_multi_assets_margin`. -/
def changeMultiAssetsMargin : RestProg Bool :=
  changeSetting config (.changeMultiAssetsMargin config.multiAssetsMargin) (-4171)

/-- `change_position_side_dual`. -/
def changePositionSideDual : RestProg Bool :=
  changeSetting config (.changePositionSideDual config.positionSideDual) (-4059)

/-- How the set-up ends: trading starts, or the process exits. -/
inductive SetUp
  | done
  | exited
  deriving DecidableEq

/-- `if (!step) exit(-1)`, and what comes after it. -/
def exitUnless (step : RestProg Bool) (rest : RestProg SetUp) : RestProg SetUp := do
  let succeeded ← step
  if succeeded then rest else pure .exited

/-- `prepare_account_settings`. -/
def prepareAccountSettings (followerInsts : List String) : RestProg SetUp :=
  if config.dtGroupMainNode = false ∨ config.processAccountSettings = false then
    pure .done
  else
    exitUnless (toggleBnbBurn config) <|
    exitUnless (changeInitLeverage config followerInsts) <|
    exitUnless (changeMarginType config followerInsts) <|
    exitUnless (changeMultiAssetsMargin config) <|
    exitUnless (changePositionSideDual config) <|
    pure .done

/-! ## The margin type loop -/

/-- The margin type was changed. -/
def Changed (response : CommonRestResponse) : Prop :=
  response.code = config.restCodeOK ∧ response.data = true

/-- The margin type was changed, or is the right one already. -/
def Settled (response : CommonRestResponse) : Prop :=
  Changed config response ∨ response.code = -4046

instance (response : CommonRestResponse) : Decidable (Changed config response) :=
  inferInstanceAs (Decidable (_ ∧ _))

/-- Every instrument's margin type was requested, and answered as settled. -/
def MarginTypesSettled (followerInsts : List String)
    (log : List (Prog.Exchange RestRequest fun _ => CommonRestResponse)) : Prop :=
  ∀ inst ∈ followerInsts, ∃ response,
    ⟨.changeMarginType inst config.marginType, response⟩ ∈ log ∧ Settled config response

/-- If the first answer that is not a success says that nothing is to be changed, no other
instrument comes after it. -/
def NoneSkipped (followerInsts : List String) (responses : ℕ → CommonRestResponse) : Prop :=
  ∀ i < followerInsts.length, (∀ j < i, Changed config (responses j)) →
    ¬ Changed config (responses i) → (responses i).code = -4046 →
    ∀ inst ∈ followerInsts.drop (i + 1), inst ∈ followerInsts.take (i + 1)

/-! ## The requests of the loop -/

variable {config} (responses : ℕ → CommonRestResponse) (n : ℕ)

/-- A program of requests, run on the responses from number `n` on. -/
abbrev answered {α : Type} (p : RestProg α) :
    List (Prog.Exchange RestRequest fun _ => CommonRestResponse) × α :=
  Prog.transcript (fun i _ => responses i) n p

/-- The margin type requests of some instruments, in order. -/
def marginExchanges (config : AccountSettings) (responses : ℕ → CommonRestResponse) :
    ℕ → List String → List (Prog.Exchange RestRequest fun _ => CommonRestResponse)
  | _, [] => []
  | n, inst :: insts =>
    ⟨.changeMarginType inst config.marginType, responses n⟩ ::
      marginExchanges config responses (n + 1) insts

theorem mem_marginExchanges {insts : List String} {inst : String} {response : CommonRestResponse} :
    ⟨.changeMarginType inst config.marginType, response⟩ ∈
        marginExchanges config responses n insts ↔
      ∃ i, insts[i]? = some inst ∧ responses (n + i) = response := by
  induction insts generalizing n with
  | nil => simp [marginExchanges]
  | cons first insts ih =>
    rw [marginExchanges, List.mem_cons, ih (n + 1)]
    constructor
    · rintro (h | ⟨i, hi, hr⟩)
      · simp only [Sigma.mk.injEq, RestRequest.changeMarginType.injEq, heq_eq_eq] at h
        exact ⟨0, by simp [h.1.1], h.2.symm⟩
      · exact ⟨i + 1, by simpa using hi, by rw [← hr, Nat.add_assoc, Nat.add_comm 1 i]⟩
    · rintro ⟨_ | i, hi, hr⟩
      · left
        obtain rfl : first = inst := by simpa using hi
        rw [← hr, Nat.add_zero]
      · right
        exact ⟨i, by simpa using hi, by rw [← hr, Nat.add_assoc, Nat.add_comm 1 i]⟩

/-- While all answers are successes, the loop goes through the whole list. -/
theorem changeMarginType_of_changed {insts : List String}
    (h : ∀ i < insts.length, Changed config (responses (n + i))) :
    answered responses n (changeMarginType config insts) =
      (marginExchanges config responses n insts, true) := by
  induction insts generalizing n with
  | nil => rfl
  | cons inst insts ih =>
    have hfirst : Changed config (responses n) := h 0 (by simp)
    have hrest : ∀ i < insts.length, Changed config (responses (n + 1 + i)) := by
      intro i hi
      rw [Nat.add_assoc, Nat.add_comm 1 i]
      exact h (i + 1) (by simpa using hi)
    have hgo : ¬ ((responses n).code ≠ config.restCodeOK ∨ (responses n).data = false) := by
      simp [hfirst.1, hfirst.2]
    rw [answered, changeMarginType, Prog.transcript_call_bind, if_neg hgo]
    show (_ :: (answered responses (n + 1) _).1, (answered responses (n + 1) _).2) = _
    rw [ih (n + 1) hrest]
    rfl

/-- The first answer that is not a success ends the loop. -/
theorem changeMarginType_of_stopped {insts : List String} {i : ℕ} (hi : i < insts.length)
    (hbefore : ∀ j < i, Changed config (responses (n + j)))
    (hstop : ¬ Changed config (responses (n + i))) :
    answered responses n (changeMarginType config insts) =
      (marginExchanges config responses n (insts.take (i + 1)),
        decide ((responses (n + i)).code = -4046)) := by
  induction insts generalizing n i with
  | nil => simp at hi
  | cons inst insts ih =>
    rw [answered, changeMarginType, Prog.transcript_call_bind]
    cases i with
    | zero =>
      have hends : (responses n).code ≠ config.restCodeOK ∨ (responses n).data = false := by
        by_contra hgo
        simp only [not_or, not_not, Bool.not_eq_false] at hgo
        exact hstop hgo
      rw [if_pos hends]
      by_cases hcode : (responses n).code = -4046
      · simp [hcode, marginExchanges]
      · simp [hcode, marginExchanges]
    | succ i =>
      have hfirst : Changed config (responses n) := hbefore 0 (Nat.succ_pos i)
      have hgo : ¬ ((responses n).code ≠ config.restCodeOK ∨ (responses n).data = false) := by
        simp [hfirst.1, hfirst.2]
      rw [if_neg hgo]
      show (_ :: (answered responses (n + 1) _).1, (answered responses (n + 1) _).2) = _
      have hrest : ∀ j < i, Changed config (responses (n + 1 + j)) := by
        intro j hj
        rw [Nat.add_assoc, Nat.add_comm 1 j]
        exact hbefore (j + 1) (Nat.succ_lt_succ hj)
      have hshift : n + 1 + i = n + (i + 1) := by omega
      rw [ih (n + 1) (Nat.lt_of_succ_lt_succ hi) hrest (hshift ▸ hstop), hshift]
      rfl

/-- **The loop settles every instrument** when it succeeds, exactly when none is skipped. -/
theorem changeMarginType_settles_iff (config : AccountSettings) (insts : List String) :
    ((answered responses n (changeMarginType config insts)).2 = true →
        MarginTypesSettled config insts
          (answered responses n (changeMarginType config insts)).1) ↔
      NoneSkipped config insts fun i => responses (n + i) := by
  by_cases hall : ∀ i < insts.length, Changed config (responses (n + i))
  · rw [changeMarginType_of_changed responses n hall]
    refine iff_of_true (fun _ inst hinst => ?_) fun i hi _ hstop => absurd (hall i hi) hstop
    obtain ⟨i, hi, rfl⟩ := List.getElem_of_mem hinst
    exact ⟨_, (mem_marginExchanges responses n).mpr ⟨i, by simp [hi], rfl⟩, Or.inl (hall i hi)⟩
  · push Not at hall
    obtain ⟨i, ⟨hi, hstop⟩, hmin⟩ := Nat.findX hall
    have hbefore : ∀ j < i, Changed config (responses (n + j)) := by
      intro j hj
      by_contra hnot
      exact hmin j hj ⟨hj.trans hi, hnot⟩
    have hunique : ∀ k, (∀ j < k, Changed config (responses (n + j))) →
        ¬ Changed config (responses (n + k)) → k = i := by
      intro k hk hkstop
      rcases Nat.lt_trichotomy k i with hlt | heq | hgt
      · exact absurd (hbefore k hlt) hkstop
      · exact heq
      · exact absurd (hk i hgt) hstop
    rw [changeMarginType_of_stopped responses n hi hbefore hstop, decide_eq_true_iff]
    constructor
    · intro h k hk hkbefore hkstop hcode inst hinst
      obtain rfl := hunique k hkbefore hkstop
      obtain ⟨response, hmem, -⟩ := h hcode inst (List.mem_of_mem_drop hinst)
      obtain ⟨j, hj, -⟩ := (mem_marginExchanges responses n).mp hmem
      exact List.mem_of_getElem? hj
    · intro h hcode inst hinst
      have htake : inst ∈ insts.take (i + 1) := by
        rw [← List.take_append_drop (i + 1) insts] at hinst
        rcases List.mem_append.mp hinst with hinst | hinst
        · exact hinst
        · exact h i hi hbefore hstop hcode inst hinst
      obtain ⟨j, hj⟩ := List.mem_iff_getElem?.mp htake
      refine ⟨_, (mem_marginExchanges responses n).mpr ⟨j, hj, rfl⟩, ?_⟩
      rcases Nat.lt_or_ge j i with hlt | hge
      · exact Or.inl (hbefore j hlt)
      · have hlen : j < (insts.take (i + 1)).length := (List.getElem?_eq_some_iff.mp hj).1
        obtain rfl : j = i := by
          rw [List.length_take] at hlen
          omega
        exact Or.inr hcode

/-! ## The set-up -/

/-- A log without margin type requests. -/
def NoMarginType (log : List (Prog.Exchange RestRequest fun _ => CommonRestResponse)) : Prop :=
  ∀ e ∈ log, ∀ symbol marginType, e.1 ≠ .changeMarginType symbol marginType

/-- What requests other than those of the loop add to a log settles nothing. -/
theorem marginTypesSettled_append {insts : List String}
    {before log after : List (Prog.Exchange RestRequest fun _ => CommonRestResponse)}
    (hbefore : NoMarginType before) (hafter : NoMarginType after) :
    MarginTypesSettled config insts (before ++ (log ++ after)) ↔
      MarginTypesSettled config insts log := by
  constructor
  · intro h inst hinst
    obtain ⟨response, hmem, hsettled⟩ := h inst hinst
    refine ⟨response, ?_, hsettled⟩
    rcases List.mem_append.mp hmem with hmem | hmem
    · exact absurd rfl (hbefore _ hmem _ _)
    rcases List.mem_append.mp hmem with hmem | hmem
    · exact hmem
    · exact absurd rfl (hafter _ hmem _ _)
  · intro h inst hinst
    obtain ⟨response, hmem, hsettled⟩ := h inst hinst
    exact ⟨response, List.mem_append_right _ (List.mem_append_left _ hmem), hsettled⟩

/-- A step of the set-up that does not exit, and what comes after it. -/
theorem exitUnless_done {step : RestProg Bool} {rest : RestProg SetUp}
    {log : List (Prog.Exchange RestRequest fun _ => CommonRestResponse)}
    (h : answered responses n (exitUnless step rest) = (log, .done)) :
    ∃ log₁ log₂, answered responses n step = (log₁, true) ∧
      answered responses (n + log₁.length) rest = (log₂, .done) ∧ log = log₁ ++ log₂ := by
  rw [answered, exitUnless, Prog.transcript_bind] at h
  obtain ⟨hlog, hdone⟩ := Prod.mk.inj h
  cases hstep : (answered responses n step).2 with
  | false =>
    rw [show (Prog.transcript _ n step).2 = false from hstep] at hdone
    cases hdone
  | true =>
    rw [show (Prog.transcript _ n step).2 = true from hstep] at hdone hlog
    exact ⟨_, _, Prod.ext rfl hstep, Prod.ext rfl hdone, hlog.symm⟩

/-- A leverage loop that succeeds made one request for each instrument. -/
theorem changeInitLeverage_of_true {insts : List String}
    {log : List (Prog.Exchange RestRequest fun _ => CommonRestResponse)}
    (h : answered responses n (changeInitLeverage config insts) = (log, true)) :
    log.length = insts.length ∧ NoMarginType log := by
  induction insts generalizing n log with
  | nil =>
    obtain ⟨rfl, -⟩ := Prod.mk.inj h
    exact ⟨rfl, by simp [NoMarginType]⟩
  | cons inst insts ih =>
    rw [answered, changeInitLeverage, Prog.transcript_call_bind] at h
    obtain ⟨rfl, hrest⟩ := Prod.mk.inj h
    by_cases hcode : (responses n).code ≠ config.restCodeOK
    · rw [if_pos hcode] at hrest
      cases hrest
    · rw [if_neg hcode] at hrest ⊢
      obtain ⟨hlength, hnone⟩ := ih (n + 1) (Prod.ext rfl hrest)
      refine ⟨congrArg Nat.succ hlength, fun e he symbol marginType => ?_⟩
      rcases List.mem_cons.mp he with rfl | he
      · simp
      · exact hnone e he symbol marginType

/-- The log of a setting is its request. -/
theorem changeSetting_log {request : RestRequest} {unchanged : ℤ} {succeeded : Bool}
    {log : List (Prog.Exchange RestRequest fun _ => CommonRestResponse)}
    (h : answered responses n (changeSetting config request unchanged) = (log, succeeded)) :
    log = [⟨request, responses n⟩] := by
  rw [answered, changeSetting, Prog.transcript_call_bind] at h
  split_ifs at h
  · exact (Prod.mk.inj h).1.symm
  · exact (Prod.mk.inj h).1.symm

theorem toggleBnbBurn_log {succeeded : Bool}
    {log : List (Prog.Exchange RestRequest fun _ => CommonRestResponse)}
    (h : answered responses n (toggleBnbBurn config) = (log, succeeded)) :
    log = [⟨.toggleBnbFeeBurn true, responses n⟩] := by
  rw [answered, toggleBnbBurn, Prog.transcript_call_bind] at h
  split_ifs at h
  · exact (Prod.mk.inj h).1.symm
  · exact (Prod.mk.inj h).1.symm

/-- **A set-up that lets trading start** on a node that processes the settings contains a margin
type loop that succeeded, after one answer for the fee burn and one for each leverage. -/
theorem prepareAccountSettings_done {insts : List String}
    {log : List (Prog.Exchange RestRequest fun _ => CommonRestResponse)}
    (hprocess : config.dtGroupMainNode = true ∧ config.processAccountSettings = true)
    (h : answered responses 0 (prepareAccountSettings config insts) = (log, .done)) :
    ∃ before margin after, log = before ++ (margin ++ after) ∧
      NoMarginType before ∧ NoMarginType after ∧
      answered responses (1 + insts.length) (changeMarginType config insts) = (margin, true) := by
  have hgo : ¬ (config.dtGroupMainNode = false ∨ config.processAccountSettings = false) := by
    simp [hprocess]
  rw [prepareAccountSettings, if_neg hgo] at h
  obtain ⟨burn, _, hburn, h₁, rfl⟩ := exitUnless_done responses 0 h
  obtain ⟨leverage, _, hleverage, h₂, rfl⟩ := exitUnless_done responses _ h₁
  obtain ⟨margin, _, hmargin, h₃, rfl⟩ := exitUnless_done responses _ h₂
  obtain ⟨multi, _, hmulti, h₄, rfl⟩ := exitUnless_done responses _ h₃
  obtain ⟨dual, _, hdual, h₅, rfl⟩ := exitUnless_done responses _ h₄
  obtain ⟨rfl, -⟩ := Prod.mk.inj h₅
  obtain rfl := toggleBnbBurn_log responses 0 hburn
  obtain rfl := changeSetting_log responses _ hmulti
  obtain rfl := changeSetting_log responses _ hdual
  obtain ⟨hlength, hnone⟩ := changeInitLeverage_of_true responses _ hleverage
  rw [hlength] at hmargin
  refine ⟨_ :: leverage, margin, [_, _], rfl, ?_, ?_, by simpa using hmargin⟩
  · simpa [NoMarginType] using hnone
  · simp [NoMarginType]

/-- A node that does not process the settings starts trading without a request. -/
theorem prepareAccountSettings_unprocessed {insts : List String}
    (hprocess : ¬ (config.dtGroupMainNode = true ∧ config.processAccountSettings = true)) :
    answered responses 0 (prepareAccountSettings config insts) = ([], .done) := by
  have hgo : config.dtGroupMainNode = false ∨ config.processAccountSettings = false := by
    rwa [not_and_or, Bool.not_eq_true, Bool.not_eq_true] at hprocess
  rw [prepareAccountSettings, if_pos hgo]
  rfl

/-- **The margin types are settled** by a loop that succeeds exactly when no instrument is skipped;
and by a set-up that lets trading start exactly when the node processes the settings and no
instrument is skipped, or there is none. -/
theorem marginTypes_settled_iff (config : AccountSettings) (insts : List String)
    (responses : ℕ → CommonRestResponse) :
    (((answered responses 0 (changeMarginType config insts)).2 = true →
          MarginTypesSettled config insts
            (answered responses 0 (changeMarginType config insts)).1) ↔
        NoneSkipped config insts responses) ∧
      ((answered responses 0 (prepareAccountSettings config insts)).2 = .done →
        (MarginTypesSettled config insts
            (answered responses 0 (prepareAccountSettings config insts)).1 ↔
          insts = [] ∨
          ((config.dtGroupMainNode = true ∧ config.processAccountSettings = true) ∧
            NoneSkipped config insts fun i => responses (1 + insts.length + i)))) := by
  constructor
  · simpa using changeMarginType_settles_iff responses 0 config insts
  · intro hdone
    by_cases hprocess : config.dtGroupMainNode = true ∧ config.processAccountSettings = true
    · obtain ⟨log, hlog⟩ :
          ∃ log, answered responses 0 (prepareAccountSettings config insts) = (log, .done) :=
        ⟨_, Prod.ext rfl hdone⟩
      obtain ⟨before, margin, after, rfl, hbefore, hafter, hmargin⟩ :=
        prepareAccountSettings_done responses hprocess hlog
      have hiff := changeMarginType_settles_iff responses (1 + insts.length) config insts
      rw [hmargin] at hiff
      rw [hlog, marginTypesSettled_append hbefore hafter, ← hiff]
      constructor
      · exact fun h => Or.inr ⟨hprocess, fun _ => h⟩
      · rintro (rfl | ⟨-, h⟩)
        · simp [MarginTypesSettled]
        · exact h rfl
    · rw [prepareAccountSettings_unprocessed responses hprocess]
      cases insts with
      | nil => simp [MarginTypesSettled]
      | cons inst insts =>
        simp only [hprocess, false_and, or_false, reduceCtorEq, iff_false]
        intro h
        obtain ⟨response, hmem, -⟩ := h inst (List.mem_cons_self ..)
        cases hmem

/-- Two instruments, the first of which has the margin type already: the loop succeeds after one
request. -/
theorem marginType_skipped :
    ∃ (config : AccountSettings) (responses : ℕ → CommonRestResponse),
      (answered responses 0 (changeMarginType config ["BTCUSDC", "ETHUSDC"])).2 = true ∧
      ¬ MarginTypesSettled config ["BTCUSDC", "ETHUSDC"]
        (answered responses 0 (changeMarginType config ["BTCUSDC", "ETHUSDC"])).1 := by
  let config : AccountSettings :=
    { dtGroupMainNode := true, processAccountSettings := true, initialLeverage := 5
      marginType := "CROSSED", multiAssetsMargin := true, positionSideDual := false
      restCodeOK := 0 }
  have hlog : answered (fun _ => ⟨-4046, false⟩) 0
      (changeMarginType config ["BTCUSDC", "ETHUSDC"]) =
      ([⟨.changeMarginType "BTCUSDC" "CROSSED", ⟨-4046, false⟩⟩], true) := rfl
  refine ⟨config, fun _ => ⟨-4046, false⟩, congrArg Prod.snd hlog, fun h => ?_⟩
  obtain ⟨response, hmem, -⟩ := h "ETHUSDC" (by simp)
  rw [hlog] at hmem
  simp at hmem

end UmTaker.Actuary
