import UmTaker.Actuary.Account
import UmTaker.Actuary.DynamicConfig
import UmTaker.General.Latch

/-!
# The watchdogs

Two threads watch the account: one its meta data and margin, one its BNB balance. A round of
either reads the account and the clock, and stops or resumes orders in the dynamic configuration
both share. Each watchdog owns its reasons, so what a watchdog knows of them survives the steps of
the other; the flags then follow from the reasons of both.

## Main definitions

* `watchAccountMeta`, `watchBnbBalance`: one round of each watchdog
* `watchdogs`: the two threads over the shared dynamic configuration
* `metaReasons`, `bnbReasons`: the reasons that the rounds so far leave outstanding

## Main results

* `watchAccountMeta_spec`, `watchBnbBalance_spec`: what a round does to the owned reasons
* `watchdogs_reflect_reasons`: between rounds the flags say exactly which reasons are outstanding
-/

namespace UmTaker.Actuary

open Concurrency History

/-! ## Rounds -/

/-- What a round of `watch_account_meta` reads. -/
structure MetaRound where
  account : AccountMetaInfo
  now : ℕ

/-- What a round of `watch_bnb_balance` reads. -/
structure BnbRound where
  balance : Option AccountBalanceInfo
  now : ℕ

/-- The share of the wallet used as margin, or one of an empty wallet. -/
def marginUseRatio (account : AccountMetaInfo) : ℚ :=
  if account.totalCrossWalletBalance ≤ 0 then 1
  else account.totalInitialMargin / account.totalCrossWalletBalance

/-- One round of `watch_account_meta`. -/
def watchAccountMeta (config : ActuaryConfig) (r : MetaRound) : DynamicProg Unit :=
  if u64 (r.account.updateTimeMillis + 300 * 1000) < r.now then
    stopUnlessStopped .order .accountMeta
  else do
    resumeIfStopped .order .accountMeta
    if marginUseRatio r.account > config.marginRatioThresholds 1 then
      stopUnlessStopped .openOrder .marginLimited
    else if marginUseRatio r.account < config.marginRatioThresholds 0 then
      resumeIfStopped .openOrder .marginLimited
    else
      pure ()

/-- One round of `watch_bnb_balance`. -/
def watchBnbBalance (config : ActuaryConfig) (r : BnbRound) : DynamicProg Unit :=
  match r.balance with
  | none => stopUnlessStopped .order .bnb
  | some balance =>
    if u64 (balance.updateTimeMillis + 300 * 1000) < r.now then
      stopUnlessStopped .order .bnb
    else do
      resumeIfStopped .order .bnb
      if balance.crossWalletBalance < config.bnbBalanceThresholds 0 then
        stopUnlessStopped .order .bnbShortage
      else if balance.crossWalletBalance < config.bnbBalanceThresholds 1 then
        -- not enough, but no reason to stop: the round only warns
        pure ()
      else if balance.crossWalletBalance > config.bnbBalanceThresholds 1 then
        resumeIfStopped .order .bnbShortage
      else
        pure ()

/-- The watchdog threads. -/
inductive Watchdog
  | accountMeta
  | bnbBalance
  deriving DecidableEq, Repr

/-- What a watchdog reads in a round. -/
abbrev Round : Watchdog → Type
  | .accountMeta => MetaRound
  | .bnbBalance => BnbRound

/-- The rounds a watchdog has completed, oldest first. -/
abbrev Rounds (t : Watchdog) : Type := List (Round t)

/-- The two watchdogs over the shared dynamic configuration. -/
def watchdogs (config : ActuaryConfig) :
    System Watchdog DynamicConfig Rounds Round DynamicOp DynamicAns where
  exec _ o d := some (dynamicExec d o)
  body
    | .accountMeta, rounds, r => do
      watchAccountMeta config r
      pure (rounds ++ [r])
    | .bnbBalance, rounds, r => do
      watchBnbBalance config r
      pure (rounds ++ [r])

/-- The dynamic configurations that runs of the watchdogs reach. -/
abbrev WatchReachable (config : ActuaryConfig) :=
  (watchdogs config).Reachable System.Unrestricted
    (.init config.stopMakeOrder config.makePositionCloseOnly) fun _ => []

/-! ## Ownership of the reasons -/

/-- The reasons a watchdog adds and removes. -/
def Watchdog.owns : Watchdog → StopKind → StopReason → Bool
  | .accountMeta, .order, .accountMeta => true
  | .accountMeta, .openOrder, .marginLimited => true
  | .bnbBalance, .order, .bnb => true
  | .bnbBalance, .order, .bnbShortage => true
  | _, _, _ => false

/-- No reason has two owners. -/
theorem Watchdog.owns_unique {t u : Watchdog} {k : StopKind} {r : StopReason}
    (ht : t.owns k r = true) (hu : u.owns k r = true) : t = u := by
  cases t <;> cases u <;> cases k <;> cases r <;> simp_all [Watchdog.owns]

/-- Unowned reasons stay as configured; a watchdog relies on the reasons it owns. -/
def watchInterference (config : ActuaryConfig) : Interference Watchdog DynamicConfig where
  inv d := ∀ k r, (∀ t : Watchdog, t.owns k r = false) →
    (r ∈ (d.get k).reasons ↔
      r ∈ ((DynamicConfig.init config.stopMakeOrder config.makePositionCloseOnly).get k).reasons)
  rely t d d' := ∀ k r, t.owns k r = true → (r ∈ (d'.get k).reasons ↔ r ∈ (d.get k).reasons)
  refl _ _ _ _ _ := Iff.rfl
  trans _ _ _ _ h₁ h₂ k r ht := (h₂ k r ht).trans (h₁ k r ht)

/-- The reasons of `F` are the outstanding ones among those `t` owns. -/
def Outstanding (t : Watchdog) (F : Set (StopKind × StopReason)) (d : DynamicConfig) : Prop :=
  ∀ k r, t.owns k r = true → (r ∈ (d.get k).reasons ↔ (k, r) ∈ F)

variable {config : ActuaryConfig} {t : Watchdog} {k : StopKind} {r : StopReason}
  {F : Set (StopKind × StopReason)}

theorem Outstanding.stable : (watchInterference config).Stable t (Outstanding t F) :=
  fun _ _ _ _ hr h k r ht => (hr k r ht).trans (h k r ht)

/-- Changing one owned reason respects the other watchdog. -/
theorem respects_set {d : DynamicConfig} {s : StopState}
    (hd : (watchInterference config).inv d) (ht : t.owns k r = true)
    (h : ∀ r', r' ≠ r → (r' ∈ s.reasons ↔ r' ∈ (d.get k).reasons)) :
    (watchInterference config).Respects t d (d.set k s) := by
  have key : ∀ k' r', (k', r') ≠ (k, r) →
      (r' ∈ ((d.set k s).get k').reasons ↔ r' ∈ (d.get k').reasons) := by
    intro k' r' hne
    rw [DynamicConfig.get_set]
    split_ifs with hk
    · subst hk
      exact h r' fun he => hne (he ▸ rfl)
    · exact Iff.rfl
  constructor
  · intro k' r' hfree
    refine (key k' r' ?_).trans (hd k' r' hfree)
    rintro ⟨⟩
    simp [hfree t] at ht
  · intro u hu k' r' hown
    apply key k' r'
    rintro ⟨⟩
    exact hu (Watchdog.owns_unique hown ht)

theorem respects_refl {d : DynamicConfig} (hd : (watchInterference config).inv d) :
    (watchInterference config).Respects t d d :=
  ⟨hd, fun u _ => (watchInterference config).refl u d⟩

/-! ## The programs of the watchdogs -/

abbrev WatchTriple (config : ActuaryConfig) {α : Type} (t : Watchdog) :=
  Triple (α := α) (watchdogs config) System.Unrestricted (watchInterference config) t

/-- The owner of a reason learns whether it is outstanding. -/
theorem isStopAsReason_spec (ht : t.owns k r = true) :
    WatchTriple config t (Outstanding t F) (isStopAsReason k r)
      fun b d => Outstanding t F d ∧ (b = true ↔ (k, r) ∈ F) := by
  refine Triple.step (R := fun (b : Bool) d => Outstanding t F d ∧ (b = false → (k, r) ∉ F))
    Outstanding.stable ?_ fun b => Triple.ite (fun hb => ?_) fun hb => ?_
  · rintro d hd hF - d' b he
    obtain ⟨rfl, rfl⟩ := Prod.mk.inj (Option.some.inj he)
    refine ⟨respects_refl hd, hF, fun hb hmem => ?_⟩
    -- an outstanding reason keeps the flag set, so the unlocked read cannot miss it
    have := StopState.stopped_of_mem ((hF k r ht).mpr hmem)
    rw [this] at hb
    cases hb
  · exact Triple.ret fun d _ h => ⟨h.1, by simpa using h.2 hb⟩
  · apply Triple.call (Outstanding.stable.and (Interference.Stable.const _ _))
    rintro d hd ⟨hF, -⟩ - d' b' he
    obtain ⟨rfl, rfl⟩ := Prod.mk.inj (Option.some.inj he)
    refine ⟨respects_refl hd, hF, ?_⟩
    rw [← hF k r ht, decide_eq_true_iff]
    exact ⟨fun h => h.2, fun h => ⟨Finset.card_pos.mpr ⟨r, h⟩, h⟩⟩

/-- Stopping adds the reason. -/
theorem stopUnlessStopped_spec (ht : t.owns k r = true) :
    WatchTriple config t (Outstanding t F) (stopUnlessStopped k r)
      fun _ => Outstanding t (insert (k, r) F) := by
  refine Triple.bind (isStopAsReason_spec ht) fun b => Triple.ite (fun _ => ?_) fun hb => ?_
  · apply Triple.call (Outstanding.stable.and (Interference.Stable.const _ _))
    rintro d hd ⟨hF, -⟩ - d' b' he
    obtain ⟨rfl, rfl⟩ := Prod.mk.inj (Option.some.inj he)
    refine ⟨respects_set hd ht fun r' hr' => by simp [hr'], fun k' r' ht' => ?_⟩
    rw [DynamicConfig.get_set]
    split_ifs with hk
    · subst hk
      simp [← hF k' r' ht']
    · simp [hk, ← hF k' r' ht']
  · refine Triple.ret fun d _ h k' r' ht' => ?_
    have hmem : (k, r) ∈ F := h.2.mp (by simpa using hb)
    rw [h.1 k' r' ht', Set.insert_eq_of_mem hmem]

/-- Resuming removes the reason. -/
theorem resumeIfStopped_spec (ht : t.owns k r = true) :
    WatchTriple config t (Outstanding t F) (resumeIfStopped k r)
      fun _ => Outstanding t (F \ {(k, r)}) := by
  refine Triple.bind (isStopAsReason_spec ht) fun b => Triple.ite (fun _ => ?_) fun hb => ?_
  · refine Triple.step (R := fun _ => Outstanding t (F \ {(k, r)}))
      (Outstanding.stable.and (Interference.Stable.const _ _)) ?_
      fun _ => Triple.ret fun _ _ h => h
    rintro d hd ⟨hF, -⟩ - d' b' he
    obtain ⟨rfl, rfl⟩ := Prod.mk.inj (Option.some.inj he)
    refine ⟨respects_set hd ht fun r' hr' => by simp [hr'], fun k' r' ht' => ?_⟩
    rw [DynamicConfig.get_set]
    split_ifs with hk
    · subst hk
      simp [← hF k' r' ht', and_comm]
    · simp [hk, ← hF k' r' ht']
  · refine Triple.ret fun d _ h k' r' ht' => ?_
    have hmem : (k, r) ∉ F := fun hF => hb (h.2.mpr hF)
    rw [h.1 k' r' ht', Set.sdiff_singleton_eq_self hmem]

/-! ## The reasons after a round -/

/-- The round finds the account's meta data fresh. -/
def MetaRound.Fresh (r : MetaRound) : Prop :=
  r.now ≤ u64 (r.account.updateTimeMillis + 300 * 1000)

/-- The round finds a balance, and finds it fresh. -/
def BnbRound.Fresh (r : BnbRound) : Prop :=
  ∃ balance, r.balance = some balance ∧ r.now ≤ u64 (balance.updateTimeMillis + 300 * 1000)

/-- A fresh margin ratio above the upper threshold: it sets the margin latch. -/
def MarginOver (config : ActuaryConfig) (r : MetaRound) : Prop :=
  r.Fresh ∧ config.marginRatioThresholds 1 < marginUseRatio r.account

/-- A fresh margin ratio below the lower threshold: it clears the margin latch. -/
def MarginRecovered (config : ActuaryConfig) (r : MetaRound) : Prop :=
  r.Fresh ∧ marginUseRatio r.account < config.marginRatioThresholds 0

/-- A fresh balance below the lower threshold: it sets the shortage latch. -/
def BnbShort (config : ActuaryConfig) (r : BnbRound) : Prop :=
  r.Fresh ∧ ∃ balance, r.balance = some balance ∧
    balance.crossWalletBalance < config.bnbBalanceThresholds 0

/-- A fresh balance above the upper threshold: it clears the shortage latch. -/
def BnbEnough (config : ActuaryConfig) (r : BnbRound) : Prop :=
  r.Fresh ∧ ∃ balance, r.balance = some balance ∧
    config.bnbBalanceThresholds 1 < balance.crossWalletBalance

/-- Two reasons, each outstanding under its own condition. -/
def reasonsWhen (a b : StopKind × StopReason) (p q : Prop) : Set (StopKind × StopReason) :=
  {x | (x = a ∧ p) ∨ (x = b ∧ q)}

section ReasonsWhen

variable {a b : StopKind × StopReason} {p q p' q' : Prop}

theorem reasonsWhen_congr (hp : p ↔ p') (hq : q ↔ q') :
    reasonsWhen a b p q = reasonsWhen a b p' q' := by rw [propext hp, propext hq]

theorem insert_fst : insert a (reasonsWhen a b p q) = reasonsWhen a b True q := by
  ext x
  by_cases hx : x = a <;> simp [reasonsWhen, hx]

theorem insert_snd : insert b (reasonsWhen a b p q) = reasonsWhen a b p True := by
  ext x
  by_cases hx : x = b <;> simp [reasonsWhen, hx]

theorem sdiff_fst (h : a ≠ b) : reasonsWhen a b p q \ {a} = reasonsWhen a b False q := by
  ext x
  by_cases hx : x = a <;> simp [reasonsWhen, hx, h]

theorem sdiff_snd (h : a ≠ b) : reasonsWhen a b p q \ {b} = reasonsWhen a b p False := by
  ext x
  by_cases hx : x = b <;> simp [reasonsWhen, hx, h.symm]

end ReasonsWhen

/-- The meta watchdog's reasons after its rounds. -/
def metaReasons (config : ActuaryConfig) (rounds : List MetaRound) :
    Set (StopKind × StopReason) :=
  reasonsWhen (.order, .accountMeta) (.openOrder, .marginLimited)
    (∃ r ∈ rounds.getLast?, ¬ r.Fresh)
    (Latched (MarginOver config) (MarginRecovered config) rounds)

/-- The BNB watchdog's reasons after its rounds. -/
def bnbReasons (config : ActuaryConfig) (rounds : List BnbRound) :
    Set (StopKind × StopReason) :=
  reasonsWhen (.order, .bnb) (.order, .bnbShortage)
    (∃ r ∈ rounds.getLast?, ¬ r.Fresh)
    (Latched (BnbShort config) (BnbEnough config) rounds)

/-- A triple for a set of outstanding reasons is one for an equal set. -/
theorem WatchTriple.congr {t : Watchdog} {F G H : Set (StopKind × StopReason)}
    {p : DynamicProg Unit}
    (h : WatchTriple config t (Outstanding t F) p fun _ => Outstanding t G) (he : G = H) :
    WatchTriple config t (Outstanding t F) p fun _ => Outstanding t H := he ▸ h

/-- **One round of the meta watchdog** leaves its reasons as the rounds so far say. -/
theorem watchAccountMeta_spec (rounds : List MetaRound) (r : MetaRound) :
    WatchTriple config .accountMeta (Outstanding .accountMeta (metaReasons config rounds))
      (watchAccountMeta config r)
      fun _ => Outstanding .accountMeta (metaReasons config (rounds ++ [r])) := by
  have hne : ((.order, .accountMeta) : StopKind × StopReason) ≠ (.openOrder, .marginLimited) := by
    decide
  refine Triple.ite (fun hstale => ?_) fun hfresh => ?_
  · have hf : ¬ r.Fresh := not_le.mpr hstale
    refine (stopUnlessStopped_spec rfl).congr (insert_fst.trans (reasonsWhen_congr ?_ ?_))
    · simp [hf]
    · simp [latched_snoc, MarginOver, MarginRecovered, hf]
  · have hf : r.Fresh := not_lt.mp hfresh
    have hlast : False ↔ ∃ r' ∈ (rounds ++ [r]).getLast?, ¬ r'.Fresh := by simp [hf]
    refine Triple.bind ((resumeIfStopped_spec rfl).congr (sdiff_fst hne)) fun _ =>
      Triple.ite (fun hover => ?_) fun hover => Triple.ite (fun hunder => ?_) fun hunder => ?_
    · refine (stopUnlessStopped_spec rfl).congr (insert_snd.trans (reasonsWhen_congr hlast ?_))
      simp [latched_snoc, MarginOver, hf, hover]
    · refine (resumeIfStopped_spec rfl).congr ((sdiff_snd hne).trans (reasonsWhen_congr hlast ?_))
      simp [latched_snoc, MarginOver, MarginRecovered, hf, hover, hunder]
    · have hkeep : reasonsWhen (.order, .accountMeta) (.openOrder, .marginLimited) False
          (Latched (MarginOver config) (MarginRecovered config) rounds) =
          metaReasons config (rounds ++ [r]) :=
        reasonsWhen_congr hlast
          (by simp [latched_snoc, MarginOver, MarginRecovered, not_lt.mp hover, not_lt.mp hunder])
      exact Triple.ret fun d _ h => hkeep ▸ h

/-- **One round of the BNB watchdog** leaves its reasons as the rounds so far say. -/
theorem watchBnbBalance_spec (rounds : List BnbRound) (r : BnbRound) :
    WatchTriple config .bnbBalance (Outstanding .bnbBalance (bnbReasons config rounds))
      (watchBnbBalance config r)
      fun _ => Outstanding .bnbBalance (bnbReasons config (rounds ++ [r])) := by
  have hne : ((.order, .bnb) : StopKind × StopReason) ≠ (.order, .bnbShortage) := by decide
  -- a missing balance and a stale one end in the same stop
  have hstop (hf : ¬ r.Fresh) :
      WatchTriple config .bnbBalance (Outstanding .bnbBalance (bnbReasons config rounds))
        (stopUnlessStopped .order .bnb)
        fun _ => Outstanding .bnbBalance (bnbReasons config (rounds ++ [r])) := by
    refine (stopUnlessStopped_spec rfl).congr (insert_fst.trans (reasonsWhen_congr ?_ ?_))
    · simp [hf]
    · simp [latched_snoc, BnbShort, BnbEnough, hf]
  unfold watchBnbBalance
  cases hb : r.balance with
  | none => exact hstop fun ⟨b, h, _⟩ => by simp [hb] at h
  | some balance =>
    refine Triple.ite (fun hstale => hstop ?_) fun hfresh => ?_
    · rintro ⟨b, h, hle⟩
      obtain rfl : balance = b := by simpa [hb] using h
      exact not_le.mpr hstale hle
    · have hf : r.Fresh := ⟨balance, hb, not_lt.mp hfresh⟩
      have hlast : False ↔ ∃ r' ∈ (rounds ++ [r]).getLast?, ¬ r'.Fresh := by simp [hf]
      have hkeep (h₀ : ¬ balance.crossWalletBalance < config.bnbBalanceThresholds 0)
          (h₁ : ¬ config.bnbBalanceThresholds 1 < balance.crossWalletBalance) :
          reasonsWhen (.order, .bnb) (.order, .bnbShortage) False
            (Latched (BnbShort config) (BnbEnough config) rounds) =
          bnbReasons config (rounds ++ [r]) :=
        reasonsWhen_congr hlast (by simp [latched_snoc, BnbShort, BnbEnough, hb, h₀, h₁])
      refine Triple.bind ((resumeIfStopped_spec rfl).congr (sdiff_fst hne)) fun _ =>
        Triple.ite (fun hshort => ?_) fun hshort => Triple.ite (fun hfew => ?_) fun hfew =>
          Triple.ite (fun henough => ?_) fun henough => ?_
      · refine (stopUnlessStopped_spec rfl).congr (insert_snd.trans (reasonsWhen_congr hlast ?_))
        simp [latched_snoc, BnbShort, hf, hb, hshort]
      · exact Triple.ret fun d _ h => hkeep hshort hfew.not_gt ▸ h
      · refine (resumeIfStopped_spec rfl).congr
          ((sdiff_snd hne).trans (reasonsWhen_congr hlast ?_))
        simp [latched_snoc, BnbShort, BnbEnough, hf, hb, hshort, henough]
      · exact Triple.ret fun d _ h => hkeep hshort henough ▸ h

/-! ## The outstanding reasons between rounds -/

/-- The proof outline of the watchdogs: between rounds, each knows its outstanding reasons. -/
def watchOutline (config : ActuaryConfig) : Outline (watchdogs config) System.Unrestricted where
  I := watchInterference config
  atRest
    | .accountMeta, rounds => Outstanding .accountMeta (metaReasons config rounds)
    | .bnbBalance, rounds => Outstanding .bnbBalance (bnbReasons config rounds)
  stable
    | .accountMeta, _ => Outstanding.stable
    | .bnbBalance, _ => Outstanding.stable
  body
    | .accountMeta, rounds, r =>
      Triple.bind (watchAccountMeta_spec rounds r) fun _ => Triple.ret fun _ _ h => h
    | .bnbBalance, rounds, r =>
      Triple.bind (watchBnbBalance_spec rounds r) fun _ => Triple.ret fun _ _ h => h

theorem watchOutline_init (config : ActuaryConfig) :
    (watchOutline config).I.inv (.init config.stopMakeOrder config.makePositionCloseOnly) ∧
      ∀ t, (watchOutline config).atRest t []
        (.init config.stopMakeOrder config.makePositionCloseOnly) := by
  refine ⟨fun _ _ _ => Iff.rfl, fun t => ?_⟩
  cases t <;> intro k r ht <;> cases k <;> cases r <;>
    simp_all [Watchdog.owns, DynamicConfig.init, metaReasons, bnbReasons,
      reasonsWhen]

/-- In every reachable state the configured reasons, and only they, are outstanding among those
that no watchdog owns. -/
theorem reachable_unowned {c} (hc : WatchReachable config c) {k : StopKind} {r : StopReason}
    (h : ∀ t : Watchdog, t.owns k r = false) :
    r ∈ (c.shared.get k).reasons ↔
      r ∈ ((DynamicConfig.init config.stopMakeOrder config.makePositionCloseOnly).get k).reasons :=
  (watchOutline config).inv (watchOutline_init config).1 (watchOutline_init config).2 hc k r h

/-- **The stop flags reflect the outstanding reasons.** While no round is in progress, orders can
be made exactly when they are not stopped by configuration, both watchdogs last found their data
fresh, and the BNB-shortage latch is off; and orders that open positions exactly when neither
setting stops them and the margin latch is off. -/
theorem watchdogs_reflect_reasons (config : ActuaryConfig) {c} (hc : WatchReachable config c)
    {metaRounds : List MetaRound} {bnbRounds : List BnbRound}
    (hmeta : c.thread .accountMeta = .idle metaRounds)
    (hbnb : c.thread .bnbBalance = .idle bnbRounds) :
    (dynamicCouldMakeOrder c.shared = true ↔
      config.stopMakeOrder = false ∧
      (∀ r ∈ metaRounds.getLast?, r.Fresh) ∧ (∀ r ∈ bnbRounds.getLast?, r.Fresh) ∧
      ¬ Latched (BnbShort config) (BnbEnough config) bnbRounds) ∧
    (dynamicCouldMakeOpenPositionOrder c.shared = true ↔
      config.stopMakeOrder = false ∧ config.makePositionCloseOnly = false ∧
      ¬ Latched (MarginOver config) (MarginRecovered config) metaRounds) := by
  have hm : Outstanding .accountMeta (metaReasons config metaRounds) c.shared :=
    (watchOutline config).idle (watchOutline_init config).1 (watchOutline_init config).2 hc hmeta
  have hb : Outstanding .bnbBalance (bnbReasons config bnbRounds) c.shared :=
    (watchOutline config).idle (watchOutline_init config).1 (watchOutline_init config).2 hc hbnb
  have hfree {k : StopKind} {r : StopReason} (h : ∀ t : Watchdog, t.owns k r = false) :=
    reachable_unowned hc h
  refine ⟨(StopState.not_stopped_iff _).trans ?_, (StopState.not_stopped_iff _).trans ?_⟩
  · have hstatic : .staticConfig ∈ c.shared.order.reasons ↔ config.stopMakeOrder = true := by
      simpa [DynamicConfig.init] using
        hfree (k := .order) (r := .staticConfig) (by rintro (_ | _) <;> rfl)
    have hmargin : .marginLimited ∉ c.shared.order.reasons := by
      simpa [DynamicConfig.init] using
        hfree (k := .order) (r := .marginLimited) (by rintro (_ | _) <;> rfl)
    have hmeta : .accountMeta ∈ c.shared.order.reasons ↔
        ∃ r ∈ metaRounds.getLast?, ¬ r.Fresh := by
      simpa [metaReasons, reasonsWhen] using hm .order .accountMeta rfl
    have hbnb : .bnb ∈ c.shared.order.reasons ↔ ∃ r ∈ bnbRounds.getLast?, ¬ r.Fresh := by
      simpa [bnbReasons, reasonsWhen] using hb .order .bnb rfl
    have hshort : .bnbShortage ∈ c.shared.order.reasons ↔
        Latched (BnbShort config) (BnbEnough config) bnbRounds := by
      simpa [bnbReasons, reasonsWhen] using hb .order .bnbShortage rfl
    rw [StopReason.forall_iff, hstatic, hmeta, hbnb, hshort]
    simp [hmargin]
  · have hstatic : .staticConfig ∈ c.shared.openOrder.reasons ↔
        (config.stopMakeOrder || config.makePositionCloseOnly) = true := by
      simpa [DynamicConfig.init] using
        hfree (k := .openOrder) (r := .staticConfig) (by rintro (_ | _) <;> rfl)
    have hother (r : StopReason) (hr : r ≠ .staticConfig) (hm : r ≠ .marginLimited) :
        r ∉ c.shared.openOrder.reasons := by
      have h := hfree (k := .openOrder) (r := r) (by
        rintro (_ | _) <;> cases r <;> first | rfl | exact absurd rfl hm)
      simpa [DynamicConfig.init, hr] using h
    have hmargin : .marginLimited ∈ c.shared.openOrder.reasons ↔
        Latched (MarginOver config) (MarginRecovered config) metaRounds := by
      simpa [metaReasons, reasonsWhen] using hm .openOrder .marginLimited rfl
    rw [StopReason.forall_iff, hstatic, hmargin]
    simp [hother]
    tauto

/-- The BNB watchdog finds no balance, and the meta watchdog has not run: orders are stopped, and
opening positions is not. -/
theorem watchdogs_reflect_reasons_no_balance :
    ∃ c, WatchReachable sampleConfig c ∧
      dynamicCouldMakeOrder c.shared = false ∧
      dynamicCouldMakeOpenPositionOrder c.shared = true := by
  obtain ⟨c, hc, hm, hb⟩ : ∃ c, WatchReachable sampleConfig c ∧
      c.thread .accountMeta = .idle [] ∧ c.thread .bnbBalance = .idle [⟨none, 0⟩] :=
    ⟨_, System.reachable_of_schedule .refl [.start .bnbBalance ⟨none, 0⟩, .act .bnbBalance,
      .act .bnbBalance, .finish .bnbBalance] rfl, rfl, rfl⟩
  have h := watchdogs_reflect_reasons sampleConfig hc hm hb
  refine ⟨c, hc, ?_, h.2.mpr ⟨rfl, rfl, not_latched_nil _ _⟩⟩
  rw [← Bool.not_eq_true, h.1]
  simp [BnbRound.Fresh]

end UmTaker.Actuary
