import Mathlib.Data.List.Nodup
import Mathlib.Tactic.Common

/-!
# Cyclic runs

Consecutive numbers, each cut down below a bound: what a counter that starts again at the bound
hands out. A run no longer than the bound hands out nothing twice.
-/

/-- `n` numbers from `start` on, below `max`. -/
def cyclicRun (max start n : Nat) : List Nat := (List.range' start n).map (· % max)

namespace CyclicRun

variable {max start n : Nat}

theorem lt (hmax : 0 < max) {x : Nat} (hx : x ∈ cyclicRun max start n) : x < max := by
  obtain ⟨y, -, rfl⟩ := List.mem_map.mp hx
  exact Nat.mod_lt y hmax

theorem concat : cyclicRun max start (n + 1) = cyclicRun max start n ++ [(start + n) % max] := by
  rw [cyclicRun, List.range'_1_concat, List.map_append]
  rfl

theorem cons : cyclicRun max start (n + 1) = start % max :: cyclicRun max (start + 1) n := by
  rw [cyclicRun, List.range'_succ, List.map_cons]
  rfl

/-- Numbers closer together than the bound are not cut down to the same. -/
theorem mod_inj {a b : Nat} (hle : a ≤ b) (hlt : b < a + max) (heq : a % max = b % max) :
    a = b := by
  have hzero : (b - a) % max = 0 := Nat.sub_mod_eq_zero_of_mod_eq heq.symm
  rw [Nat.mod_eq_of_lt (by omega)] at hzero
  omega

theorem nodup (hn : n ≤ max) : (cyclicRun max start n).Nodup := by
  refine List.Nodup.map_on ?_ List.nodup_range'
  intro a ha b hb heq
  rw [List.mem_range'_1] at ha hb
  rcases Nat.le_total a b with hab | hba
  · exact mod_inj hab (by omega) heq
  · exact (mod_inj hba (by omega) heq.symm).symm

/-- A run as long as the bound goes on with its first number. -/
theorem next_full : (start + max) % max = start % max := Nat.add_mod_right start max

end CyclicRun
