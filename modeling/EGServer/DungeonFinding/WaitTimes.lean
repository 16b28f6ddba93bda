import EGServer.Lib.GuardedRun
import Mathlib.Algebra.Ring.Nat
import Mathlib.Data.Int.Order.Basic
import Mathlib.Logic.Function.Basic
import Mathlib.Tactic.Common

/-!
# Wait times

The queue keeps, for every dungeon and every role, the average time that players waited for
a group. `LfgWaitTime` holds the average and the number of times in it; an update multiplies
the two, adds the new time and divides by the new number, all of it in 32 bits.

The product is the sum of the recorded times, rounded down. It fits in 32 bits for the first
two times and need not fit for the third: the average is one as long as the sum fits.
-/

namespace EGServer.DungeonFinding

/-- The average of the recorded wait times, and how many there are. -/
structure LfgWaitTime where
  time : Int32 := -1
  number : UInt32 := 0
  deriving DecidableEq

/-- `wt.time = int32((wt.time * old_number + waitTime) / wt.number)`. The counter is unsigned,
so the signed operands are converted before they are used. `none` is a division by zero. -/
def LfgWaitTime.update (wt : LfgWaitTime) (waitTime : Int32) : Option LfgWaitTime :=
  let old_number := wt.number
  let number := wt.number + 1
  if number = 0 then none
  else
    let sum := wt.time.toUInt32 * old_number + waitTime.toUInt32
    some ⟨(sum / number).toInt32, number⟩

/-! ## The stores of the queue -/

/-- The four stores, by the role they are for. -/
inductive WaitTimesStore where
  | avg
  | tank
  | healer
  | dps
  deriving DecidableEq

/-- `waitTimesAvgStore`, `waitTimesTankStore`, `waitTimesHealerStore` and `waitTimesDpsStore`; a
dungeon without an entry gets a fresh one when it is looked up. -/
abbrev WaitTimes := WaitTimesStore → UInt32 → LfgWaitTime

namespace WaitTimes

/-- The stores of a new queue. -/
def empty : WaitTimes := fun _ _ => {}

/-- The update of one store. -/
def updateWaitTime (store : WaitTimesStore) (waits : WaitTimes) (waitTime : Int32)
    (dungeonId : UInt32) : Option WaitTimes := do
  let wt ← (waits store dungeonId).update waitTime
  return Function.update waits store (Function.update (waits store) dungeonId wt)

def updateWaitTimeAvg := updateWaitTime .avg
def updateWaitTimeTank := updateWaitTime .tank
def updateWaitTimeHealer := updateWaitTime .healer
def updateWaitTimeDps := updateWaitTime .dps

end WaitTimes

/-! ## What an average is -/

/-- The time lies between the least and the greatest of the recorded times. -/
def Between (time : Int32) (recorded : List Int32) : Prop :=
  (∃ lo ∈ recorded, lo ≤ time) ∧ ∃ hi ∈ recorded, time ≤ hi

instance (time : Int32) (recorded : List Int32) : Decidable (Between time recorded) :=
  inferInstanceAs (Decidable (_ ∧ _))

/-- The sum that the update forms fits in 32 bits, and so does the new counter. -/
def LfgWaitTime.Fits (wt : LfgWaitTime) (waitTime : Int32) : Prop :=
  wt.time.toUInt32.toNat * wt.number.toNat + waitTime.toUInt32.toNat < 2 ^ 32 ∧
    wt.number.toNat + 1 < 2 ^ 32

namespace LfgWaitTime

variable {wt wt' : LfgWaitTime} {waitTime : Int32} {recorded : List Int32}

theorem toInt_of_nonneg {x : Int32} (hx : 0 ≤ x) : x.toInt = x.toUInt32.toNat := by
  rw [Int32.toNat_toUInt32_of_le hx, Int32.cast_toNatClampNeg x hx]

theorem toInt_toInt32 {y : UInt32} (hy : y.toNat < 2 ^ 31) : y.toInt32.toInt = y.toNat := by
  show y.toBitVec.toInt = y.toBitVec.toNat
  apply BitVec.toInt_eq_toNat_of_lt
  show 2 * y.toNat < 2 ^ 32
  omega

theorem le_iff_toNat {x y : Int32} (hx : 0 ≤ x) (hy : 0 ≤ y) :
    x ≤ y ↔ x.toUInt32.toNat ≤ y.toUInt32.toNat := by
  rw [Int32.le_iff_toInt_le, toInt_of_nonneg hx, toInt_of_nonneg hy, Int.ofNat_le]

theorem toNat_lt_of_nonneg {x : Int32} (hx : 0 ≤ x) : x.toUInt32.toNat < 2 ^ 31 := by
  have hint := toInt_of_nonneg hx
  have hlt := x.toInt_lt
  omega

theorem toInt32_nonneg {y : UInt32} (hy : y.toNat < 2 ^ 31) : 0 ≤ y.toInt32 := by
  rw [Int32.le_iff_toInt_le, toInt_toInt32 hy]
  exact Int.natCast_nonneg _

theorem le_mean {lo t n w : ℕ} (ht : lo ≤ t) (hw : lo ≤ w) : lo ≤ (t * n + w) / (n + 1) := by
  rw [Nat.le_div_iff_mul_le n.succ_pos]
  calc lo * (n + 1) = lo * n + lo := Nat.mul_succ ..
    _ ≤ t * n + w := Nat.add_le_add (Nat.mul_le_mul_right n ht) hw

theorem mean_le {hi t n w : ℕ} (ht : t ≤ hi) (hw : w ≤ hi) : (t * n + w) / (n + 1) ≤ hi := by
  apply Nat.div_le_of_le_mul
  calc t * n + w ≤ hi * n + hi := Nat.add_le_add (Nat.mul_le_mul_right n ht) hw
    _ = (n + 1) * hi := by rw [Nat.mul_comm, Nat.mul_comm (n + 1), Nat.mul_succ, Nat.mul_comm]

/-- **What an update stores**: when the sum fits, the quotient of the two numbers. -/
theorem update_spec (h : wt.Fits waitTime) :
    ∃ q : UInt32, wt.update waitTime = some ⟨q.toInt32, wt.number + 1⟩ ∧
      q.toNat =
        (wt.time.toUInt32.toNat * wt.number.toNat + waitTime.toUInt32.toNat) /
          (wt.number.toNat + 1) := by
  obtain ⟨hsum, hnumber⟩ := h
  have hnext : (wt.number + 1).toNat = wt.number.toNat + 1 := by
    rw [UInt32.toNat_add]
    exact Nat.mod_eq_of_lt hnumber
  have hne : wt.number + 1 ≠ 0 := by
    intro h0
    rw [h0] at hnext
    exact absurd hnext.symm (Nat.succ_ne_zero _)
  have hmul : wt.time.toUInt32.toNat * wt.number.toNat < 2 ^ 32 := by omega
  refine ⟨_, if_neg hne, ?_⟩
  rw [UInt32.toNat_div, UInt32.toNat_add, UInt32.toNat_mul, hnext, Nat.mod_eq_of_lt hmul,
    Nat.mod_eq_of_lt hsum]

/-- What holds of a store entry and the times that were recorded in it. -/
structure Averages (wt : LfgWaitTime) (recorded : List Int32) : Prop where
  fresh : recorded = [] → wt = {}
  nonneg : ∀ w ∈ recorded, 0 ≤ w
  between : recorded ≠ [] → Between wt.time recorded

theorem Averages.update (h : wt.Averages recorded) (hw : 0 ≤ waitTime) (hfits : wt.Fits waitTime)
    (hupdate : wt.update waitTime = some wt') : wt'.Averages (recorded ++ [waitTime]) := by
  obtain ⟨q, hq, hmean⟩ := update_spec hfits
  obtain rfl : _ = wt' := Option.some.inj (hq.symm.trans hupdate)
  refine ⟨fun he => absurd he (by simp), ?_, fun _ => ?_⟩
  · intro w hmem
    rw [List.mem_append, List.mem_singleton] at hmem
    exact hmem.elim (h.nonneg w) fun he => he ▸ hw
  by_cases hempty : recorded = []
  · -- the time of a fresh entry is multiplied by zero
    have hwait : q.toInt32 = waitTime := by
      rw [h.fresh hempty] at hmean
      rw [show q = waitTime.toUInt32 from UInt32.toNat_inj.mp (by simpa using hmean),
        Int32.toInt32_toUInt32]
    exact ⟨⟨waitTime, by simp, by simp [hwait]⟩, waitTime, by simp, by simp [hwait]⟩
  · obtain ⟨⟨lo, hlo, hlole⟩, hi, hhi, hlehi⟩ := h.between hempty
    have hlo0 := h.nonneg lo hlo
    have hhi0 := h.nonneg hi hhi
    have htime0 : 0 ≤ wt.time := Int32.le_trans hlo0 hlole
    rw [le_iff_toNat hlo0 htime0] at hlole
    rw [le_iff_toNat htime0 hhi0] at hlehi
    have hq31 : q.toNat < 2 ^ 31 := by
      have htime := toNat_lt_of_nonneg htime0
      have hwait := toNat_lt_of_nonneg hw
      have hle : q.toNat ≤ 2 ^ 31 - 1 := by
        rw [hmean]
        exact mean_le (by omega) (by omega)
      omega
    have hq0 := toInt32_nonneg hq31
    constructor
    · -- the lesser of the old bound and the new time
      rcases Nat.le_total lo.toUInt32.toNat waitTime.toUInt32.toNat with hle | hle
      · refine ⟨lo, by simp [hlo], ?_⟩
        rw [le_iff_toNat hlo0 hq0, UInt32.toUInt32_toInt32, hmean]
        exact le_mean hlole hle
      · refine ⟨waitTime, by simp, ?_⟩
        rw [le_iff_toNat hw hq0, UInt32.toUInt32_toInt32, hmean]
        exact le_mean (Nat.le_trans hle hlole) (Nat.le_refl _)
    · rcases Nat.le_total waitTime.toUInt32.toNat hi.toUInt32.toNat with hle | hle
      · refine ⟨hi, by simp [hhi], ?_⟩
        rw [le_iff_toNat hq0 hhi0, UInt32.toUInt32_toInt32, hmean]
        exact mean_le hlehi hle
      · refine ⟨waitTime, by simp, ?_⟩
        rw [le_iff_toNat hq0 hw, UInt32.toUInt32_toInt32, hmean]
        exact mean_le (Nat.le_trans hlehi hle) (Nat.le_refl _)

end LfgWaitTime

/-! ## Every sequence of updates -/

namespace WaitTimes

/-- A wait time to be recorded. The caller has seen to it that it is not negative. -/
structure Update where
  store : WaitTimesStore
  dungeonId : UInt32
  waitTime : Int32
  nonneg : 0 ≤ waitTime

/-- The function that is called for a store. -/
def call : WaitTimesStore → WaitTimes → Int32 → UInt32 → Option WaitTimes
  | .avg => updateWaitTimeAvg
  | .tank => updateWaitTimeTank
  | .healer => updateWaitTimeHealer
  | .dps => updateWaitTimeDps

/-- The stores, and the wait times recorded so far. -/
structure Recorded where
  waits : WaitTimes
  log : List Update

/-- The wait times that were recorded in an entry. -/
def Recorded.times (r : Recorded) (store : WaitTimesStore) (dungeonId : UInt32) : List Int32 :=
  (r.log.filter fun u => u.store = store ∧ u.dungeonId = dungeonId).map Update.waitTime

def start : Recorded := ⟨empty, []⟩

/-- One call of `UpdateWaitTimeAvg`, `UpdateWaitTimeTank`, `UpdateWaitTimeHealer` or
`UpdateWaitTimeDps`. -/
def record (r : Recorded) (u : Update) : Option Recorded := do
  let waits ← call u.store r.waits u.waitTime u.dungeonId
  return ⟨waits, r.log ++ [u]⟩

def Step (r : Recorded) (u : Update) (r' : Recorded) : Prop := record r u = some r'

/-- The sum for the entry that is updated fits. -/
def SumFits (r : Recorded) (u : Update) : Prop :=
  (r.waits u.store u.dungeonId).Fits u.waitTime

instance (r : Recorded) (u : Update) : Decidable (SumFits r u) :=
  inferInstanceAs (Decidable (_ ∧ _))

/-- Every entry of the stores is the average of what was recorded in it. -/
def Kept (r : Recorded) : Prop :=
  ∀ store dungeonId, (r.waits store dungeonId).Averages (r.times store dungeonId)

theorem call_eq (store : WaitTimesStore) : call store = updateWaitTime store := by
  cases store <;> rfl

/-- **What an update changes**: one entry of one store. -/
theorem updateWaitTime_spec {waits waits' : WaitTimes} {store : WaitTimesStore}
    {waitTime : Int32} {dungeonId : UInt32}
    (h : updateWaitTime store waits waitTime dungeonId = some waits') :
    ∃ wt, (waits store dungeonId).update waitTime = some wt ∧
      ∀ s d, waits' s d = if s = store ∧ d = dungeonId then wt else waits s d := by
  cases hu : (waits store dungeonId).update waitTime with
  | none => simp [updateWaitTime, hu] at h
  | some wt =>
    refine ⟨wt, rfl, ?_⟩
    intro s d
    simp only [updateWaitTime, hu, Option.pure_def, Option.bind_eq_bind, Option.bind_some,
      Option.some.injEq] at h
    subst h
    by_cases hs : s = store
    · subst hs
      by_cases hd : d = dungeonId <;> simp [Function.update, hd]
    · simp [Function.update, hs]

theorem record_eq_some {r r' : Recorded} {u : Update} (h : record r u = some r') :
    ∃ waits, call u.store r.waits u.waitTime u.dungeonId = some waits ∧
      r' = ⟨waits, r.log ++ [u]⟩ := by
  cases hcall : call u.store r.waits u.waitTime u.dungeonId with
  | none => simp [record, hcall] at h
  | some waits =>
    refine ⟨waits, rfl, ?_⟩
    simpa [record, hcall, eq_comm] using h

theorem Kept.step {r r' : Recorded} {u : Update} (h : Kept r) (hfits : SumFits r u)
    (hstep : Step r u r') : Kept r' := by
  obtain ⟨waits, hcall, rfl⟩ := record_eq_some hstep
  rw [call_eq] at hcall
  obtain ⟨wt, hwt, hwaits⟩ := updateWaitTime_spec hcall
  intro store dungeonId
  simp only [Recorded.times, List.filter_append, List.map_append, hwaits]
  by_cases hentry : store = u.store ∧ dungeonId = u.dungeonId
  · obtain ⟨rfl, rfl⟩ := hentry
    simpa [Recorded.times] using (h u.store u.dungeonId).update u.nonneg hfits hwt
  · have hentry' : ¬(u.store = store ∧ u.dungeonId = dungeonId) :=
      fun he => hentry ⟨he.1.symm, he.2.symm⟩
    simpa [Recorded.times, hentry, hentry'] using h store dungeonId

theorem kept_start : Kept start := by
  intro store dungeonId
  exact ⟨fun _ => rfl, by simp [start, Recorded.times], fun h => absurd rfl h⟩

/-- **The average stays an average.** While the sums fit in 32 bits, every entry that a wait
time was recorded in lies between the least and the greatest of these, and the next update
whose sum fits is defined. -/
theorem average_kept (r : Recorded) (h : Reaches Step SumFits start r) :
    (∀ store dungeonId, r.times store dungeonId ≠ [] →
        Between (r.waits store dungeonId).time (r.times store dungeonId)) ∧
      ∀ u : Update, SumFits r u → (call u.store r.waits u.waitTime u.dungeonId).isSome := by
  have hkept : Kept r := h.invariant kept_start fun hr hfits hstep => hr.step hfits hstep
  refine ⟨fun store dungeonId hne => (hkept store dungeonId).between hne, ?_⟩
  intro u hfits
  obtain ⟨q, hq, _⟩ := LfgWaitTime.update_spec hfits
  rw [call_eq, updateWaitTime, hq]
  rfl

theorem step_get {r : Recorded} {u : Update} (h : (record r u).isSome) :
    Step r u ((record r u).get h) :=
  (Option.some_get h).symm

/-- Two tanks waited for the same dungeon, half a minute and a minute. -/
theorem average_kept_pair :
    ∃ r : Recorded, r.times .tank 261 = [30, 60] ∧ (r.waits .tank 261).time = 45 ∧
      Between (r.waits .tank 261).time [30, 60] := by
  let half : Update := ⟨.tank, 261, 30, by decide⟩
  let whole : Update := ⟨.tank, 261, 60, by decide⟩
  have h1 := step_get (r := start) (u := half) (by decide)
  have h2 := step_get (u := whole) (r := (record start half).get (by decide)) (by decide)
  have hreach := ((Reaches.refl start).next (by decide : SumFits _ _) h1).next (by decide) h2
  exact ⟨_, by decide, by decide, (average_kept _ hreach).1 .tank 261 (by decide)⟩

/-- Three tanks waited as long as an `int32` can say. The sum of their times does not fit in 32
bits, and the average comes out at a third of what each of them waited. -/
theorem average_lost :
    ¬∀ r, Reaches Step (fun _ _ => True) start r → ∀ store dungeonId,
      r.times store dungeonId ≠ [] →
        Between (r.waits store dungeonId).time (r.times store dungeonId) := by
  intro hall
  let long : Update := ⟨.tank, 261, 2147483647, by decide⟩
  have h1 := step_get (r := start) (u := long) (by decide)
  have h2 := step_get (u := long) (r := (record start long).get (by decide)) (by decide)
  have h3 := step_get (u := long)
    (r := (record ((record start long).get (by decide)) long).get (by decide)) (by decide)
  have hreach : Reaches Step (fun _ _ => True) start _ :=
    (((Reaches.refl start).next trivial h1).next trivial h2).next trivial h3
  exact absurd (hall _ hreach .tank 261 (by decide)) (by decide)

end WaitTimes

end EGServer.DungeonFinding
