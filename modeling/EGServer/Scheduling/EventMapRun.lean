import EGServer.Scheduling.Refinement

/-!
# Runs of an `EventMap`

Step by step the map and its queue return the same; and the queue accounts for its events: each one
inserted is executed once, dropped out of phase, cancelled, or still there.
-/

namespace EGServer.Scheduling

open EventMap (Op Output)

namespace Refines

variable {M : EventMap} {Q : EventQueue}

theorem phase_of (h : Refines M Q) {mask : UInt8} {phases : Finset Nat}
    (hphases : members mask = phases) :
    Refines { M with phaseMask := mask } { Q with phases := phases } :=
  ⟨h.time, hphases, h.entries, h.last⟩

theorem setPhase (h : Refines M Q) (phase : UInt8) : Refines (M.SetPhase phase)
    (if phase.toNat ≤ 8 then { Q with phases := indexSet phase.toNat } else Q) := by
  unfold EventMap.SetPhase
  split
  · rename_i hzero
    subst hzero
    exact h.phase_of members_zero
  · rename_i hpos
    split
    · rename_i hle
      rw [if_pos (show phase.toNat ≤ 8 from UInt8.le_iff_toNat_le.mp hle)]
      refine h.phase_of ?_
      rw [members_bitMask hpos hle, indexSet, if_neg]
      exact fun h0 => hpos (UInt8.toNat_inj.mp h0)
    · rename_i hgt
      rw [if_neg fun hle : phase.toNat ≤ 8 => hgt (UInt8.le_iff_toNat_le.mpr hle)]
      exact h

theorem addPhase (h : Refines M Q) (phase : UInt8) : Refines (M.AddPhase phase)
    (if EventQueue.isIndex phase.toNat then { Q with phases := insert phase.toNat Q.phases }
      else Q) := by
  unfold EventMap.AddPhase
  by_cases hindex : phase ≠ 0 ∧ phase ≤ 8
  · rw [if_pos hindex, if_pos ((isIndex_toNat phase).mpr hindex)]
    refine h.phase_of ?_
    rw [members_or, members_bitMask hindex.1 hindex.2, h.phases, Finset.union_comm,
      Finset.singleton_union]
  · rw [if_neg hindex, if_neg (mt (isIndex_toNat phase).mp hindex)]
    exact h

theorem removePhase (h : Refines M Q) (phase : UInt8) : Refines (M.RemovePhase phase)
    (if EventQueue.isIndex phase.toNat then { Q with phases := Q.phases.erase phase.toNat }
      else Q) := by
  unfold EventMap.RemovePhase
  by_cases hindex : phase ≠ 0 ∧ phase ≤ 8
  · rw [if_pos hindex, if_pos ((isIndex_toNat phase).mpr hindex)]
    refine h.phase_of ?_
    rw [members_and, members_not, members_bitMask hindex.1 hindex.2, ← h.phases]
    grind [mem_members]
  · rw [if_neg hindex, if_neg (mt (isIndex_toNat phase).mp hindex)]
    exact h

/-- **One operation** returns the same on the map and on the queue, and keeps them related. -/
theorem step (h : Refines M Q) (op : Op) :
    (M.step op).1 = (Q.step op).1 ∧ Refines (M.step op).2 (Q.step op).2 := by
  cases op with
  | Reset => exact ⟨rfl, rfl, members_zero, Files.nil, h.last⟩
  | Update time => exact ⟨rfl, by rw [EventMap.step, EventMap.Update, h.time]; rfl, h.phases,
      h.entries, h.last⟩
  | SetPhase phase => exact ⟨rfl, h.setPhase phase⟩
  | AddPhase phase => exact ⟨rfl, h.addPhase phase⟩
  | RemovePhase phase => exact ⟨rfl, h.removePhase phase⟩
  | ScheduleEvent eventId time group phase =>
    exact ⟨rfl, h.scheduleEvent eventId time group phase⟩
  | RescheduleEvent eventId time group phase =>
    exact ⟨rfl, (h.cancelEvent eventId).scheduleEvent eventId time group phase⟩
  | Repeat time => exact ⟨rfl, h.add time h.last⟩
  | ExecuteEvent =>
    obtain ⟨hid, hrefines⟩ := h.executeEvent
    exact ⟨congrArg Output.executed hid, hrefines⟩
  | DelayEvents delay => exact ⟨rfl, h.delayEvents delay⟩
  | DelayEventsOf delay group => exact ⟨rfl, h.delayEventsOf delay group⟩
  | SetMinimalDelay eventId delay => exact ⟨rfl, h.setMinimalDelay eventId delay⟩
  | CancelEvent eventId => exact ⟨rfl, h.cancelEvent eventId⟩
  | CancelEventGroup group => exact ⟨rfl, h.cancelEventGroup group⟩
  | GetTimeUntilEvent eventId =>
    exact ⟨congrArg Output.timeUntil (h.getTimeUntilEvent eventId), h⟩
  | HasEventScheduled eventId =>
    exact ⟨congrArg Output.scheduled (h.hasEventScheduled eventId), h⟩

theorem run (h : Refines M Q) (ops : List Op) :
    (M.run ops).1 = (Q.run ops).1 ∧ Refines (M.run ops).2 (Q.run ops).2 := by
  induction ops generalizing M Q with
  | nil => exact ⟨rfl, h⟩
  | cons op ops ih =>
    obtain ⟨houtput, hstep⟩ := h.step op
    obtain ⟨houtputs, hrun⟩ := ih hstep
    exact ⟨congrArg₂ List.cons houtput houtputs, hrun⟩

end Refines

/-! ## Minimal delays -/

theorem EventMap.le_due_of_setMinimalDelay (M : EventMap) (eventId : UInt16) (delay : Nat) :
    ∀ e ∈ (M.SetMinimalDelay eventId delay).eventMap.toList, e.2.id = eventId →
      M.time + delay ≤ e.1 := by
  have hloop := Refines.files_minimalDelayLoop eventId (M.time + delay) M.eventMap 0
    (Files.of_sorted M.eventMap.sorted) (by rintro e ⟨⟩)
  intro e he hid
  rcases List.mem_append.mp ((hloop.mem_iff e).mp he) with he | he
  · have hlate := (List.mem_filter.mp he).2
    rw [EventMap.isEarly, hid, decide_eq_true rfl, Bool.true_and, Bool.not_eq_true',
      decide_eq_false_iff_not] at hlate
    exact not_lt.mp hlate
  · obtain ⟨x, -, rfl⟩ := List.mem_map.mp he
    exact le_rfl

/-! ## The account -/

/-- The events that have come into a queue, and those that have left it. -/
structure Ledger where
  inserted : Multiset QueuedEvent := 0
  executed : Multiset QueuedEvent := 0
  dropped : Multiset QueuedEvent := 0
  cancelled : Multiset QueuedEvent := 0

def Ledger.add (L L' : Ledger) : Ledger :=
  ⟨L.inserted + L'.inserted, L.executed + L'.executed, L.dropped + L'.dropped,
    L.cancelled + L'.cancelled⟩

namespace EventQueue

variable (Q : EventQueue)

/-- The events in the queue. -/
def pending : Multiset QueuedEvent := (Q.entries.map Prod.snd : List QueuedEvent)

/-- The events with `p`. -/
def pendingOf (p : QueuedEvent → Bool) : Multiset QueuedEvent := Q.pending.filter (p · = true)

/-- The event that `schedule` inserts, if its indexes are. -/
def scheduled (eventId : UInt16) (group phase : UInt8) : Multiset QueuedEvent :=
  if group.toNat ≤ 8 ∧ phase.toNat ≤ 8 then
    {⟨eventId, indexSet group.toNat, indexSet phase.toNat⟩}
  else 0

/-- What an operation inserts, executes, drops and cancels; delays do nothing of it. -/
def entry (Q : EventQueue) : Op → Ledger
  | .Reset => { cancelled := Q.pending }
  | .ScheduleEvent eventId _ group phase => { inserted := scheduled eventId group phase }
  | .RescheduleEvent eventId _ group phase =>
    { inserted := scheduled eventId group phase
      cancelled := Q.pendingOf fun e => e.id = eventId }
  | .Repeat _ => { inserted := {Q.last} }
  | .ExecuteEvent =>
    { executed := (Q.next?.toList.map Prod.snd : List QueuedEvent)
      dropped := (Q.dropped.map Prod.snd : List QueuedEvent) }
  | .CancelEvent eventId => { cancelled := Q.pendingOf fun e => e.id = eventId }
  | .CancelEventGroup group =>
    { cancelled := Q.pendingOf fun e => isIndex group.toNat && group.toNat ∈ e.groups }
  | _ => {}

/-- The account of a run. -/
def ledger (Q : EventQueue) : List Op → Ledger
  | [] => {}
  | op :: ops => (Q.entry op).add ((Q.step op).2.ledger ops)

theorem pending_add (time : Nat) (e : QueuedEvent) : (Q.add time e).pending = Q.pending + {e} := by
  rw [pending, add, List.map_append, ← Multiset.coe_add]
  rfl

theorem pending_cancel (p : QueuedEvent → Bool) :
    (Q.cancel p).pending + Q.pendingOf p = Q.pending := by
  have hfilter : (Q.cancel p).pending = Q.pending.filter (¬ p · = true) := by
    rw [pending, cancel, pending, Multiset.filter_coe, List.filter_map]
    simp only [Bool.not_eq_true, Function.comp_def, Bool.decide_eq_false]
  rw [hfilter, pendingOf, add_comm, Multiset.filter_add_not]

theorem pending_schedule (eventId : UInt16) (time : Nat) (group phase : UInt8) :
    (Q.schedule eventId time group.toNat phase.toNat).pending =
      Q.pending + scheduled eventId group phase := by
  unfold schedule scheduled
  split
  · exact Q.pending_add time _
  · exact (add_zero _).symm

theorem pending_reinsert (p : Nat × QueuedEvent → Bool) (f : Nat → Nat) :
    (Q.reinsert p f).pending = Q.pending := by
  have hperm : Q.order.Perm Q.entries := (files_stableOrder Q.entries).perm
  have hfilter : (Q.entries.filter (!p ·) ++ Q.entries.filter p).Perm Q.entries :=
    List.perm_append_comm.trans (List.filter_append_perm p Q.entries)
  rw [pending, pending, reinsert, Multiset.coe_eq_coe, List.map_append, List.map_map]
  refine List.Perm.trans ?_ (hfilter.map Prod.snd)
  rw [List.map_append]
  exact ((hperm.filter p).map Prod.snd).append_left _

theorem prefix_order : Q.dropped ++ Q.next?.toList <+: Q.order := by
  have hdueOrder : Q.due <+: Q.order := List.takeWhile_prefix _
  refine List.IsPrefix.trans ?_ hdueOrder
  cases hnext : Q.next? with
  | none =>
    rw [Option.toList_none, List.append_nil]
    exact List.takeWhile_prefix _
  | some e =>
    obtain ⟨hmatch, front, back, hdue, hfront⟩ := List.find?_eq_some_iff_append.mp hnext
    have hdropped : Q.dropped = front := by
      grind [List.takeWhile_cons_of_neg, List.takeWhile_append_of_pos, dropped]
    rw [hdropped, hdue]
    exact ⟨back, by rw [Option.toList_some, List.append_assoc]; rfl⟩

theorem pending_execute : Q.execute.pending +
    ((Q.next?.toList.map Prod.snd : List QueuedEvent) +
      (Q.dropped.map Prod.snd : List QueuedEvent) : Multiset QueuedEvent) = Q.pending := by
  have hperm : (Q.dropped ++ Q.next?.toList ++
      Q.entries.diff (Q.dropped ++ Q.next?.toList)).Perm Q.entries := by
    refine List.subperm_append_diff_self_of_count_le ?_
    intro e _
    rw [← (files_stableOrder Q.entries).perm.count_eq]
    exact Q.prefix_order.sublist.count_le e
  have hmap := Multiset.coe_eq_coe.mpr (hperm.map Prod.snd)
  rw [List.map_append, List.map_append, ← Multiset.coe_add, ← Multiset.coe_add] at hmap
  rw [pending, pending, execute, ← hmap]
  abel

/-- **One operation accounts for the events** it inserts and removes. -/
theorem step_account (op : Op) : (Q.step op).2.pending +
    ((Q.entry op).executed + (Q.entry op).dropped + (Q.entry op).cancelled) =
      Q.pending + (Q.entry op).inserted := by
  cases op with
  | Reset =>
    simp only [step, entry, zero_add, add_zero]
    exact zero_add _
  | SetPhase phase =>
    simp only [step, entry, add_zero]
    split <;> rfl
  | AddPhase phase =>
    simp only [step, entry, add_zero]
    split <;> rfl
  | RemovePhase phase =>
    simp only [step, entry, add_zero]
    split <;> rfl
  | ScheduleEvent eventId time group phase =>
    simp only [step, entry, add_zero]
    exact Q.pending_schedule eventId time group phase
  | RescheduleEvent eventId time group phase =>
    have hcancel := Q.pending_cancel fun e => e.id = eventId
    simp only [step, entry, add_zero, zero_add]
    rw [pending_schedule, add_right_comm, hcancel]
  | Repeat time =>
    simp only [step, entry, add_zero]
    exact Q.pending_add time Q.last
  | ExecuteEvent =>
    simp only [step, entry, add_zero]
    exact Q.pending_execute
  | DelayEvents delay =>
    simp only [step, entry, add_zero]
    rw [pending, List.map_map]
    rfl
  | DelayEventsOf delay group =>
    simp only [step, entry, add_zero]
    exact Q.pending_reinsert _ _
  | SetMinimalDelay eventId delay =>
    simp only [step, entry, add_zero]
    exact Q.pending_reinsert _ _
  | CancelEvent eventId =>
    simp only [step, entry, add_zero, zero_add]
    exact Q.pending_cancel _
  | CancelEventGroup group =>
    simp only [step, entry, add_zero, zero_add]
    exact Q.pending_cancel _
  | Update time => simp only [step, entry, add_zero]; rfl
  | GetTimeUntilEvent eventId => simp only [step, entry, add_zero]
  | HasEventScheduled eventId => simp only [step, entry, add_zero]

theorem run_account (ops : List Op) : (Q.run ops).2.pending +
    ((Q.ledger ops).executed + (Q.ledger ops).dropped + (Q.ledger ops).cancelled) =
      Q.pending + (Q.ledger ops).inserted := by
  induction ops generalizing Q with
  | nil =>
    simp only [run, ledger, add_zero]
  | cons op ops ih =>
    have hstep := Q.step_account op
    have hrun := ih (Q.step op).2
    calc (Q.run (op :: ops)).2.pending + ((Q.ledger (op :: ops)).executed +
          (Q.ledger (op :: ops)).dropped + (Q.ledger (op :: ops)).cancelled)
        = ((Q.step op).2.run ops).2.pending + (((Q.step op).2.ledger ops).executed +
            ((Q.step op).2.ledger ops).dropped + ((Q.step op).2.ledger ops).cancelled) +
            ((Q.entry op).executed + (Q.entry op).dropped + (Q.entry op).cancelled) := by
          simp only [run, ledger, Ledger.add]
          abel
      _ = (Q.step op).2.pending + ((Q.entry op).executed + (Q.entry op).dropped +
            (Q.entry op).cancelled) + ((Q.step op).2.ledger ops).inserted := by
          rw [hrun]
          abel
      _ = Q.pending + (Q.ledger (op :: ops)).inserted := by
          rw [hstep]
          simp only [ledger, Ledger.add]
          abel

end EventQueue

/-- **`EventMap` refines its queue** in every run, so its events come out by due time and, those of
one time, in the order in which they were inserted. Each event inserted is executed, dropped,
cancelled or still there, once. After `SetMinimalDelay` no event of the id is due before the
delay. -/
theorem EventMap_refines (ops : List Op) :
    (EventMap.run {} ops).1 = (EventQueue.run {} ops).1 ∧
    Refines (EventMap.run {} ops).2 (EventQueue.run {} ops).2 ∧
    (EventQueue.run {} ops).2.pending + ((EventQueue.ledger {} ops).executed +
      (EventQueue.ledger {} ops).dropped + (EventQueue.ledger {} ops).cancelled) =
        (EventQueue.ledger {} ops).inserted ∧
    ∀ eventId delay,
      ∀ e ∈ ((EventMap.run {} ops).2.SetMinimalDelay eventId delay).eventMap.toList,
        e.2.id = eventId → (EventMap.run {} ops).2.time + delay ≤ e.1 := by
  obtain ⟨houtputs, hrefines⟩ := Refines.init.run ops
  refine ⟨houtputs, hrefines, ?_, ?_⟩
  · rw [EventQueue.run_account]
    exact zero_add _
  · intro eventId delay
    exact EventMap.le_due_of_setMinimalDelay _ eventId delay

end EGServer.Scheduling
