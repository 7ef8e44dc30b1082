import UmTaker.General.KeyedTable

/-!
# Reports on a log

Entries with keys are written at the end of a log. A report tells what the log said of a key when it
had a certain length, the stamp of the report. A live report is made of each entry as it is written;
others are made later, of what the log says of a key at a time.

## Main definitions

* `Report`, `Follows`: a report, and the order in which reports may be heard
* `OrderedFor`, `CompleteFor`: the reports of a key are in order, and none is missing

## Main results

* `lastSave_take`: what a log said of a key when nothing was written about it since
* `lastSave_of_lastReport`: the last report heard of a key tells what the log says of it
-/

namespace LogReports

open KeyedTable

variable {ε κ : Type*} [DecidableEq κ] {k : ε → κ} {x : κ}

/-! ## What a log said -/

theorem lastSave_append (log log' : List ε) :
    lastSave k x (log ++ log') = (lastSave k x log').or (lastSave k x log) := by
  rw [lastSave, lastSave, lastSave, List.reverse_append, List.find?_append]

/-- The keys of the entries are all that counts. -/
theorem lastSave_congr {k' : ε → κ} {log : List ε} (h : ∀ e ∈ log, k e = k' e) :
    lastSave k x log = lastSave k' x log := by
  induction log using List.reverseRecOn with
  | nil => rfl
  | append_singleton log e ih =>
    rw [lastSave_snoc, lastSave_snoc, h e (List.mem_append_right _ (List.mem_singleton_self e)),
      ih fun e' he' => h e' (List.mem_append_left _ he')]

theorem lastSave_map {δ : Type*} (f : δ → ε) (log : List δ) :
    lastSave k x (log.map f) = (lastSave (fun d => k (f d)) x log).map f := by
  rw [lastSave, lastSave, ← List.map_reverse, List.find?_map]
  rfl

/-- A log said of a key what it says, if no entry written since has the key. -/
theorem lastSave_take {log : List ε} {n : ℕ}
    (h : ∀ i e, n ≤ i → log[i]? = some e → k e ≠ x) :
    lastSave k x (log.take n) = lastSave k x log := by
  have hlater : lastSave k x (log.drop n) = none := by
    apply List.find?_eq_none.mpr
    intro e he
    obtain ⟨i, hi⟩ := List.mem_iff_getElem?.mp (List.mem_reverse.mp he)
    rw [List.getElem?_drop] at hi
    simpa using h (n + i) e (Nat.le_add_right n i) hi
  have hsplit : lastSave k x log = lastSave k x (log.take n ++ log.drop n) := by
    rw [List.take_append_drop]
  rw [hsplit, lastSave_append, hlater, Option.none_or]

/-- In a list ordered by a relation, an entry of a key is the last one, or related to it. -/
theorem eq_or_of_lastSave {R : ε → ε → Prop} {log : List ε} (h : log.Pairwise R) {e last : ε}
    (he : e ∈ log) (hkey : k e = x) (hlast : lastSave k x log = some last) :
    e = last ∨ R e last := by
  induction log using List.reverseRecOn with
  | nil => cases he
  | append_singleton log new ih =>
    obtain ⟨hlog, -, hnew⟩ := List.pairwise_append.mp h
    rw [lastSave_snoc] at hlast
    rcases List.mem_append.mp he with hold | hself
    · split_ifs at hlast with hk
      · obtain rfl := Option.some.inj hlast
        exact Or.inr (hnew e hold _ (List.mem_singleton_self _))
      · exact ih hlog hold hlast
    · obtain rfl := List.mem_singleton.mp hself
      rw [if_pos hkey] at hlast
      exact Or.inl (Option.some.inj hlast)

/-! ## Reports -/

/-- A report of a key: the length the log had, and whether it was made of the entry just written. -/
structure Report (κ : Type*) where
  key : κ
  stamp : ℕ
  live : Bool

/-- The order of reports: after a live one, live ones are of later entries, and others were made
when its entry had been written. -/
def Follows (r r' : Report κ) : Prop :=
  r.live = true → (r'.live = true → r.stamp < r'.stamp) ∧ (r'.live = false → r.stamp ≤ r'.stamp)

/-- The reports of a key are heard in order. -/
def OrderedFor (x : κ) (reports : List (Report κ)) : Prop :=
  reports.Pairwise fun r r' => r.key = x → r'.key = x → Follows r r'

/-- Every entry of a key, from a length of the log on, was reported live. -/
def CompleteFor (k : ε → κ) (x : κ) (n : ℕ) (log : List ε) (reports : List (Report κ)) : Prop :=
  ∀ i e, n ≤ i → log[i]? = some e → k e = x → ⟨x, i + 1, true⟩ ∈ reports

/-- **The last report** heard of a key tells what the log says of it, if the reports of the key are
in order, and complete from when it was made. -/
theorem lastSave_of_lastReport {log : List ε} {reports : List (Report κ)} {r : Report κ}
    (horder : OrderedFor x reports) (hcomplete : CompleteFor k x r.stamp log reports)
    (hr : lastSave Report.key x reports = some r) :
    lastSave k x (log.take r.stamp) = lastSave k x log := by
  refine lastSave_take fun i e hi he hkey => ?_
  -- the entry was reported live, so its report is the last one, or came before it
  rcases eq_or_of_lastSave horder (hcomplete i e hi he hkey) rfl hr with rfl | hfollows
  · exact absurd hi (Nat.not_succ_le_self i)
  · obtain ⟨hlive, hlater⟩ := hfollows rfl (key_of_lastSave hr) rfl
    cases hr : r.live with
    | true => exact absurd (hlive hr) (by simp only; omega)
    | false => exact absurd (hlater hr) (by simp only; omega)

/-- A key that was written is told of, and a key that is told of was written, if every report is of
a key that the log had. -/
theorem lastReport_eq_none_iff {log : List ε} {reports : List (Report κ)}
    (hcomplete : CompleteFor k x 0 log reports)
    (hmade : ∀ r ∈ reports, r.key = x → ∃ e ∈ log, k e = x) :
    lastSave Report.key x reports = none ↔ lastSave k x log = none := by
  constructor
  · intro hnone
    apply List.find?_eq_none.mpr
    intro e he hkey
    obtain ⟨i, hi⟩ := List.mem_iff_getElem?.mp (List.mem_reverse.mp he)
    have hmem := hcomplete i e (Nat.zero_le i) hi (of_decide_eq_true hkey)
    exact List.find?_eq_none.mp hnone _ (List.mem_reverse.mpr hmem) (decide_eq_true rfl)
  · intro hnone
    apply List.find?_eq_none.mpr
    intro r hr hkey
    obtain ⟨e, he, hkey⟩ := hmade r (List.mem_reverse.mp hr) (of_decide_eq_true hkey)
    exact List.find?_eq_none.mp hnone e (List.mem_reverse.mpr he) (decide_eq_true hkey)

end LogReports
