import UmTaker.Common.AutoResetCounter
import Mathlib.Data.List.AList

/-!
# The boss of the counters

A boss creates counters up to a capacity, keeps them under their ids, and refreshes them: a thread
of its own goes through them again and again and resets those whose cycle ended. A counter is shared
with whoever created it, so it is referred to by its place among all counters created.

## Main definitions

* `AutoResetCounterBoss`: the boss, and whether its refresh thread was launched
* `init`, `start`, `stop`, `createNewCounter`, `getExistCounter`: its operations
* `refreshCounter`: the refresh thread resets one counter

## Main results

* `foldl_refreshCounter_full`: once the refresh thread went through the counters, one that was due
  is full
-/

namespace UmTaker

/-- The boss of the counters: `counterMap` refers to a counter by its place. -/
structure AutoResetCounterBoss where
  maxCapacity : ℤ
  refreshDurationMillis : ℕ
  isStarted : Bool
  counterMap : AList fun _ : String => ℕ
  refreshThread : Bool

/-- The counters created, in order. -/
abbrev Counters := List AutoResetCounter

namespace AutoResetCounterBoss

/-- A boss just constructed: only the map is initialised, and no thread runs. -/
def ofMemory (maxCapacity : ℤ) (refreshDurationMillis : ℕ) (isStarted : Bool) :
    AutoResetCounterBoss where
  maxCapacity := maxCapacity
  refreshDurationMillis := refreshDurationMillis
  isStarted := isStarted
  counterMap := ∅
  refreshThread := false

/-- `init`. -/
def init (boss : AutoResetCounterBoss) (maxCapacity : ℤ) (refreshDurationMillis : ℕ) :
    AutoResetCounterBoss :=
  { boss with
    isStarted := false
    maxCapacity := maxCapacity
    refreshDurationMillis := if refreshDurationMillis ≤ 0 then 1 else refreshDurationMillis }

/-- `start`: the refresh thread is launched unless the boss is started. -/
def start (boss : AutoResetCounterBoss) : AutoResetCounterBoss :=
  if boss.isStarted then boss else { boss with isStarted := true, refreshThread := true }

/-- `stop`. -/
def stop (boss : AutoResetCounterBoss) : AutoResetCounterBoss := { boss with isStarted := false }

/-- The refresh thread runs its loop `while (is_started)`. -/
def refreshLoopRuns (boss : AutoResetCounterBoss) : Bool := boss.refreshThread && boss.isStarted

/-- `create_new_counter`, with the id and the clock reading of a new counter. -/
def createNewCounter (boss : AutoResetCounterBoss) (counters : Counters) (semaphoreCount : ℤ)
    (resetDurationMillis : ℕ) (id : String) (now : ℕ) :
    Option ℕ × AutoResetCounterBoss × Counters :=
  if boss.maxCapacity ≤ int32 boss.counterMap.keys.length then
    (none, boss, counters)
  else
    (some counters.length, { boss with counterMap := boss.counterMap.insert id counters.length },
      counters ++ [.init semaphoreCount resetDurationMillis now])

/-- `get_exist_counter`. -/
def getExistCounter (boss : AutoResetCounterBoss) (counterId : String) : Option ℕ :=
  boss.counterMap.lookup counterId

/-- The refresh thread resets the counter of an id, if its cycle ended. -/
def refreshCounter (boss : AutoResetCounterBoss) (counters : Counters) (id : String) (now : ℕ) :
    Counters :=
  match boss.counterMap.lookup id with
  | some ref => counters.modify ref (·.resetIfCycleEnd now)
  | none => counters

end AutoResetCounterBoss

/-! ## Creating -/

namespace AutoResetCounterBoss

variable {boss : AutoResetCounterBoss} (counters : Counters) (semaphoreCount : ℤ)
  (resetDurationMillis : ℕ) (id : String) (now : ℕ)

/-- A boss at its capacity creates no counter. -/
theorem createNewCounter_of_full (h : boss.maxCapacity ≤ int32 boss.counterMap.keys.length) :
    boss.createNewCounter counters semaphoreCount resetDurationMillis id now =
      (none, boss, counters) :=
  if_pos h

/-- A boss below its capacity creates the counter and keeps it under its id. -/
theorem createNewCounter_of_room
    (h : ¬ boss.maxCapacity ≤ int32 boss.counterMap.keys.length) :
    boss.createNewCounter counters semaphoreCount resetDurationMillis id now =
      (some counters.length,
        { boss with counterMap := boss.counterMap.insert id counters.length },
        counters ++ [.init semaphoreCount resetDurationMillis now]) :=
  if_neg h

end AutoResetCounterBoss

/-! ## Refreshing -/

namespace SemaphoreWindow

/-- A counter whose latest reset lies a cycle back has its full count after a reset, as has one that
was full before. -/
theorem resetIfCycleEnd_full {w : SemaphoreWindow} {now : ℕ}
    (h : w.remainCount = w.initCount ∨ w.latestResetMillis + w.resetDurationMillis ≤ now) :
    (w.resetIfCycleEnd now).remainCount = (w.resetIfCycleEnd now).initCount := by
  unfold resetIfCycleEnd
  split_ifs with hended
  · rfl
  · rcases h with hfull | hdue
    · exact hfull
    · have hle : (u64 (w.latestResetMillis + w.resetDurationMillis) : ℤ) ≤
          w.latestResetMillis + w.resetDurationMillis := u64_le (by omega)
      have hpast : u64 (w.latestResetMillis + w.resetDurationMillis) ≤ now := by omega
      exact absurd (decide_eq_true hpast) hended

end SemaphoreWindow

namespace AutoResetCounterBoss

variable {boss : AutoResetCounterBoss} {counters : Counters} {now ref : ℕ}

/-- Only the counter of the id is reset. -/
theorem refreshCounter_getElem? (id : String) :
    (boss.refreshCounter counters id now)[ref]? =
      if boss.counterMap.lookup id = some ref then
        counters[ref]?.map (·.resetIfCycleEnd now)
      else counters[ref]? := by
  unfold refreshCounter
  cases hid : boss.counterMap.lookup id with
  | none => simp
  | some other =>
    rw [List.getElem?_modify]
    by_cases h : other = ref
    · simp [h]
    · simp [h]

/-- **Once the refresh thread went through the counters**, one that was due has its full count. -/
theorem foldl_refreshCounter_full {ids : List String} {w : AutoResetCounter}
    (hw : counters[ref]? = some w)
    (h : w.remainCount = w.initCount ∨
      (w.latestResetMillis + w.resetDurationMillis ≤ now ∧
        ∃ id ∈ ids, boss.counterMap.lookup id = some ref)) :
    ∃ w', (ids.foldl (fun counters id => boss.refreshCounter counters id now) counters)[ref]? =
        some w' ∧ w'.remainCount = w'.initCount ∧ w'.initCount = w.initCount := by
  induction ids generalizing counters w with
  | nil =>
    rcases h with hfull | ⟨-, id, hid, -⟩
    · exact ⟨w, hw, hfull, rfl⟩
    · cases hid
  | cons first ids ih =>
    rw [List.foldl_cons]
    by_cases hfirst : boss.counterMap.lookup first = some ref
    · have hnext : (boss.refreshCounter counters first now)[ref]? =
          some (w.resetIfCycleEnd now) := by
        rw [refreshCounter_getElem?, if_pos hfirst, hw]
        rfl
      have hfull := SemaphoreWindow.resetIfCycleEnd_full (h.imp_right And.left)
      obtain ⟨w', hw', hfull', hinit⟩ := ih hnext (Or.inl hfull)
      exact ⟨w', hw', hfull', hinit.trans (SemaphoreWindow.resetIfCycleEnd_initCount w now)⟩
    · have hnext : (boss.refreshCounter counters first now)[ref]? = some w := by
        rw [refreshCounter_getElem?, if_neg hfirst, hw]
      refine ih hnext (h.imp_right ?_)
      rintro ⟨hdue, id, hid, hlookup⟩
      rcases List.mem_cons.mp hid with rfl | hid
      · exact absurd hlookup hfirst
      · exact ⟨hdue, id, hid, hlookup⟩

end AutoResetCounterBoss

end UmTaker
