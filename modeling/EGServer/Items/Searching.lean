import EGServer.Items.Places

/-!
# How a search ends

A search goes through its stages until one fails for good or everything is placed. One that
succeeds has placed everything, and there was no surplus.
-/

namespace EGServer.Items

variable {d : Planned} {full : InventoryResult} {n : UInt32} {stage : Stage}
  {todo stages : List Stage}

theorem runStages_error (hfinal : stage.final = true) (herror : (stage.run d).1 ≠ .ok) :
    runStages full n (stage :: todo) d = stage.run d := by
  rw [runStages, if_pos herror, if_pos hfinal]

theorem runStages_done (hok : (stage.run d).1 = .ok) (hdone : (stage.run d).2.count = 0) :
    runStages full n (stage :: todo) d = (if n = 0 then .ok else .itemMaxCount, (stage.run d).2) := by
  rw [runStages, if_neg (not_not.mpr hok), if_pos hdone]

/-- **A search that succeeds** has placed everything, and there was no surplus. -/
theorem runStages_ok (hfull : full ≠ .ok) (h : (runStages full n stages d).1 = .ok) :
    n = 0 ∧ (runStages full n stages d).2.count = 0 := by
  induction stages generalizing d with
  | nil => exact absurd h hfull
  | cons stage todo ih =>
    rw [runStages] at h ⊢
    grind

end EGServer.Items
