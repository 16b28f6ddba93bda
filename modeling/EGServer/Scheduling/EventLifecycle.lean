import EGServer.Scheduling.EventFiling

/-!
# The life of an event

What holds of an event processor after every step. `Fine` is about the record of one event,
`Filed` about the queue, and `Stands` about where the code is: which event is out of the queue,
and, in a forced kill, that the events behind the iterator are deleted and the others are not.
-/

namespace EGServer.Scheduling

open Function (update_self update_of_ne)

/-- The record of an event agrees with where it is; `inAbort` if `Update` has called its `Abort`. -/
structure Fine (inAbort : Bool) (e : BasicEvent) : Prop where
  deletes : e.deletes = if e.place = .deleted then 1 else 0
  aborts : e.aborts = if e.abortState = .aborted ∨ inAbort = true then 1 else 0
  stopped : e.stopped = true ↔ e.abortState ≠ .running
  running : e.place = .unborn ∨ e.place = .released → e.abortState = .running

theorem Fine.queue {inAbort : Bool} {e : BasicEvent} (h : Fine inAbort e)
    (hd : e.place ≠ .deleted) (addTime execTime : Nat) :
    Fine inAbort { e with addTime := addTime, execTime := execTime, place := .queued } where
  deletes := by rw [h.deletes, if_neg hd]; rfl
  aborts := h.aborts
  stopped := h.stopped
  running hp := by simp at hp

namespace EventProcessor

variable {p q : EventProcessor} {event : Nat} {x : Nat × Node} {l a b : List (Nat × Node)}

/-- Every node is that of a queued event. -/
def AllQueued (p : EventProcessor) : Prop :=
  ∀ x ∈ p.events.toList, (p.heap x.2.event).place = .queued

/-- Only `event` may be out of the queue. -/
def OnlyCurrent (p : EventProcessor) (event : Nat) : Prop :=
  ∀ e, (p.heap e).place = .current → e = event

def NoneCurrent (p : EventProcessor) : Prop := ∀ e, (p.heap e).place ≠ .current

/-- The queue of a forced kill, with the events before `b` killed and the others to come. -/
def Cut (p : EventProcessor) (b : List (Nat × Node)) : Prop :=
  ∃ a, p.events.toList = a ++ b ∧
    (∀ x ∈ a, (p.heap x.2.event).place = .deleted ∧ (p.heap x.2.event).abortState = .aborted) ∧
    ∀ x ∈ b, (p.heap x.2.event).place = .queued

/-- Where the code stands, and what it relies on there. -/
def Stands (p : EventProcessor) : Prop :=
  match p.phase with
  | .idle | .updating => p.AllQueued ∧ p.NoneCurrent
  | .executing event =>
    p.AllQueued ∧ p.OnlyCurrent event ∧
      ((p.heap event).place = .current ∧ (p.heap event).abortState = .running ∨
        (p.heap event).place = .queued)
  | .aborting event =>
    p.AllQueued ∧ p.OnlyCurrent event ∧
      (p.heap event).place = .current ∧ (p.heap event).abortState = .abortScheduled
  | .killing false itr =>
    p.AllQueued ∧ p.NoneCurrent ∧ ∀ i, itr = some i → ∃ x ∈ p.events.toList, x.2.stamp = i
  | .killAborting false itr =>
    p.AllQueued ∧ p.NoneCurrent ∧
      ∃ x ∈ p.events.toList, x.2.stamp = itr ∧ (p.heap x.2.event).abortState = .aborted
  | .killing true itr => p.NoneCurrent ∧ ∃ b, itr = b.head?.map (·.2.stamp) ∧ p.Cut b
  | .killAborting true itr =>
    p.NoneCurrent ∧
      ∃ x b, x.2.stamp = itr ∧ (p.heap x.2.event).abortState = .aborted ∧ p.Cut (x :: b)

structure Invariant (p : EventProcessor) : Prop where
  filed : Filed p.events.toList p.stamps p.heap
  fine : ∀ e, Fine (decide (p.phase = .aborting e)) (p.heap e)
  stands : p.Stands

theorem invariant_start : Invariant start where
  filed := by
    constructor
    all_goals simp [start]
  fine _ := ⟨rfl, rfl, by simp [start], fun _ => rfl⟩
  stands := by
    constructor
    · intro x hx
      cases hx
    · intro e he
      cases he

/-! ## Calls -/

/-- What the owners may do at this point leaves no event of the queue behind the iterator of a
forced kill. -/
def Sound (p : EventProcessor) : Action → Prop
  | .addEvent _ time _ | .modifyEventTime _ time =>
    ∀ itr, p.phase = .killAborting true itr → ∀ x ∈ p.events.toList, x.2.stamp = itr → x.1 ≤ time
  | _ => True

theorem fine_setEvent (h : ∀ e, Fine (decide (p.phase = .aborting e)) (p.heap e)) {e : BasicEvent}
    (he : Fine (decide (p.phase = .aborting event)) e) :
    ∀ e', Fine (decide (p.phase = .aborting e')) (Function.update p.heap event e e') := by
  grind

/-- **Calls keep the stand.** A call leaves an event queued that is neither being aborted nor
behind the iterator, and touches no node of another event. -/
theorem stands_of_call {e : BasicEvent} (h : p.Stands) (hmay : p.MayCall)
    (hphase : q.phase = p.phase) (hheap : q.heap = Function.update p.heap event e)
    (hplace : e.place = .queued)
    (hnew : ∀ y ∈ q.events.toList, y.2.event ≠ event → y ∈ p.events.toList)
    (hold : ∀ y ∈ p.events.toList, y.2.event ≠ event → y ∈ q.events.toList)
    (haborting : p.phase ≠ .aborting event) (hkilled : ¬p.IsKilled event)
    (hcut : ∀ itr x b, p.phase = .killAborting true itr → x.2.stamp = itr → p.Cut (x :: b) →
      ∃ b', q.Cut (x :: b')) : q.Stands := by
  have hself : q.heap event = e := by rw [hheap, update_self]
  have hother {e' : Nat} (hne : e' ≠ event) : q.heap e' = p.heap e' := by
    rw [hheap, update_of_ne hne]
  have hqueued (hall : p.AllQueued) : q.AllQueued := by
    intro y hy
    by_cases heq : y.2.event = event
    · rw [heq, hself, hplace]
    · rw [hother heq]
      exact hall y (hnew y hy heq)
  have hcurrent {e₀ : Nat} (honly : p.OnlyCurrent e₀) : q.OnlyCurrent e₀ := by
    intro e' he'
    by_cases heq : e' = event
    · rw [heq, hself, hplace] at he'
      cases he'
    · rw [hother heq] at he'
      exact honly e' he'
  have hnone (hno : p.NoneCurrent) : q.NoneCurrent := by
    intro e' he'
    by_cases heq : e' = event
    · rw [heq, hself, hplace] at he'
      cases he'
    · rw [hother heq] at he'
      exact hno e' he'
  unfold Stands at h ⊢
  unfold MayCall at hmay
  unfold IsKilled at hkilled
  rw [hphase]
  cases hp : p.phase with
  | idle =>
    rw [hp] at h
    exact ⟨hqueued h.1, hnone h.2⟩
  | updating => rw [hp] at hmay; cases hmay
  | executing e₀ =>
    grind
  | aborting e₀ =>
    grind
  | killing force itr => rw [hp] at hmay; cases hmay
  | killAborting force itr =>
    rw [hp] at h hkilled
    cases force with
    | false =>
      grind
    | true =>
      obtain ⟨hno, x, b, hitr, haborted, hc⟩ := h
      have hx : x ∈ p.events.toList := by
        obtain ⟨a, hl, -, -⟩ := hc
        rw [hl]
        exact List.mem_append_right a List.mem_cons_self
      grind

theorem mem_insertUpper {K V : Type} [LinearOrder K] {e y : K × V} {l : List (K × V)} :
    y ∈ insertUpper e l ↔ y = e ∨ y ∈ l := by
  rw [(insertUpper_perm e l).mem_iff, List.mem_cons]

theorem Invariant.addEvent (h : Invariant p) {eTime : Nat} {setAddtime : Bool}
    (ha : p.Admissible (.addEvent event eTime setAddtime))
    (hs : p.Sound (.addEvent event eTime setAddtime)) :
    Invariant (p.addEvent event eTime setAddtime) := by
  obtain ⟨hmay, hplace⟩ := ha
  have hq : (p.heap event).place ≠ .queued := by
    rcases hplace with hp | hp | ⟨-, hp⟩
    all_goals
      rw [hp]
      decide
  have hd : (p.heap event).place ≠ .deleted := by
    rcases hplace with hp | hp | ⟨-, hp⟩
    all_goals
      rw [hp]
      decide
  have hno := h.filed.not_mem hq hd
  refine ⟨h.filed.insert hno rfl rfl, fine_setEvent h.fine ((h.fine event).queue hd _ _), ?_⟩
  apply stands_of_call h.stands hmay
  · rfl
  · rfl
  · rfl
  · intro y hy hne
    rcases mem_insertUpper.mp hy with rfl | hy
    · exact absurd rfl hne
    · exact hy
  · exact fun y hy _ => mem_insertUpper.mpr (Or.inr hy)
  · intro hphase
    have hst := h.stands
    grind [Stands]
  · grind [IsKilled]
  · intro itr x b hphase hitr hc
    obtain ⟨a, hl, hdel, hqueued⟩ := hc
    have hx : x ∈ p.events.toList := by
      rw [hl]
      exact List.mem_append_right a List.mem_cons_self
    have hfiled := h.filed
    rw [hl] at hfiled
    have hle : x.1 ≤ eTime := hs itr hphase x hx hitr
    have hkeep {y : Nat × Node} (hy : y ∈ a ++ x :: b) :
        (p.addEvent event eTime setAddtime).heap y.2.event = p.heap y.2.event :=
      update_of_ne (hno y (by rw [hl]; exact hy)) _ _
    refine ⟨insertUpper (eTime, ⟨event, p.stamps⟩) b, a, ?_, ?_, ?_⟩
    · show insertUpper _ p.events.toList = _
      rw [hl, hfiled.insertUpper_cut hle]
    · intro y hy
      rw [hkeep (List.mem_append_left _ hy)]
      exact hdel y hy
    · intro y hy
      rcases List.mem_cons.mp hy with rfl | hy
      · rw [hkeep (List.mem_append_right a List.mem_cons_self)]
        exact hqueued y List.mem_cons_self
      · rcases mem_insertUpper.mp hy with rfl | hy
        · show (Function.update p.heap event _ event).place = _
          rw [update_self]
        · grind

theorem Invariant.isKilled_place (h : Invariant p) (hk : p.IsKilled event) :
    (p.heap event).place = .queued ∧ (p.heap event).abortState = .aborted := by
  have hst := h.stands
  unfold IsKilled at hk
  unfold Stands at hst
  cases hp : p.phase with
  | killAborting force itr =>
    rw [hp] at hk hst
    obtain ⟨x, hx, hitr, rfl⟩ := hk
    cases force with
    | false =>
      obtain ⟨hall, -, y, hy, hyitr, haborted⟩ := hst
      have hxy := h.filed.eq_of_stamp hx hy (hitr.trans hyitr.symm)
      rw [hxy]
      exact ⟨hall y hy, haborted⟩
    | true =>
      obtain ⟨-, y, b, hyitr, haborted, a, hl, -, hqueued⟩ := hst
      have hy : y ∈ p.events.toList := by
        rw [hl]
        exact List.mem_append_right a List.mem_cons_self
      have hxy := h.filed.eq_of_stamp hx hy (hitr.trans hyitr.symm)
      rw [hxy]
      exact ⟨hqueued y List.mem_cons_self, haborted⟩
  | _ =>
    rw [hp] at hk
    cases hk

theorem Invariant.ne_aborting (h : Invariant p) (hplace : (p.heap event).place ≠ .current) :
    p.phase ≠ .aborting event := by
  intro hphase
  have hst := h.stands
  unfold Stands at hst
  rw [hphase] at hst
  exact hplace hst.2.2.1

theorem Invariant.scheduleAbort (h : Invariant p) (ha : p.Admissible (.scheduleAbort event))
    (hq : p.scheduleAbort event = some q) : Invariant q := by
  obtain ⟨hmay, hplace, hrunning⟩ := ha
  rw [EventProcessor.scheduleAbort, if_pos hrunning] at hq
  cases hq
  have hphase : p.phase ≠ .aborting event := h.ne_aborting (by rw [hplace]; decide)
  refine ⟨?_, ?_, ?_⟩
  · exact h.filed.update rfl id fun _ => Or.inl hplace
  · apply fine_setEvent h.fine
    have hfine := h.fine event
    rw [decide_eq_false hphase] at hfine ⊢
    refine ⟨hfine.deletes, ?_, ?_, ?_⟩
    · rw [hfine.aborts, hrunning]
      rfl
    · exact iff_of_true rfl fun h' => nomatch h'
    · intro hp
      rw [hplace] at hp
      simp at hp
  · apply stands_of_call h.stands hmay
    · rfl
    · rfl
    · exact hplace
    · exact fun y hy _ => hy
    · exact fun y hy _ => hy
    · exact hphase
    · intro hk
      rw [(h.isKilled_place hk).2] at hrunning
      cases hrunning
    · intro itr x b _ _ hc
      obtain ⟨a, hl, hdel, hqueued⟩ := hc
      refine ⟨b, a, hl, ?_, ?_⟩
      · intro y hy
        have hne : y.2.event ≠ event := by
          intro heq
          rw [← heq, (hdel y hy).1] at hplace
          cases hplace
        show (Function.update p.heap event _ y.2.event).place = _ ∧
          (Function.update p.heap event _ y.2.event).abortState = _
        rw [update_of_ne hne]
        exact hdel y hy
      · intro y hy
        show (Function.update p.heap event _ y.2.event).place = _
        grind

theorem Invariant.modifyEventTime (h : Invariant p) {newTime : Nat}
    (ha : p.Admissible (.modifyEventTime event newTime))
    (hs : p.Sound (.modifyEventTime event newTime)) :
    Invariant (p.modifyEventTime event newTime) := by
  obtain ⟨hmay, hd, hkilled⟩ := ha
  unfold EventProcessor.modifyEventTime
  split
  · exact h
  next itr hfind =>
  have hitr : itr ∈ p.events.toList := List.mem_of_find?_eq_some hfind
  have hevent : itr.2.event = event := by simpa using List.find?_some hfind
  have hplace : (p.heap event).place = .queued := by
    rcases h.filed.places itr hitr with hp | hp
    · rw [← hevent, hp]
    · rw [hevent] at hp
      exact absurd hp hd
  have hphase : p.phase ≠ .aborting event := h.ne_aborting (by rw [hplace]; decide)
  subst hevent
  -- taken out for a moment, the event is as good as current
  have hout := h.filed.removeNode (e := { p.heap itr.2.event with place := .current }) hitr
    (fun h' => nomatch h')
  have hcurrent : (Function.update p.heap itr.2.event
      { p.heap itr.2.event with place := .current } itr.2.event).place = .current := by
    rw [update_self]
  have hno := hout.not_mem (by rw [hcurrent]; decide) (by rw [hcurrent]; decide)
  have hin := hout.insert (e := { p.heap itr.2.event with execTime := newTime }) hno hplace rfl
  rw [Function.update_idem] at hin
  have hold {y : Nat × Node} (hy : y ∈ p.events.toList) (hne : y.2.event ≠ itr.2.event) :
      y ∈ p.events.toList.filter fun z => !decide (z.2.stamp = itr.2.stamp) := by
    refine List.mem_filter.mpr ⟨hy, ?_⟩
    have hstamp : y.2.stamp ≠ itr.2.stamp := fun heq => hne (by rw [h.filed.eq_of_stamp hy hitr heq])
    simp only [hstamp, decide_false, Bool.not_false]
  refine ⟨hin, ?_, ?_⟩
  · exact fine_setEvent h.fine ⟨(h.fine _).deletes, (h.fine _).aborts, (h.fine _).stopped,
      (h.fine _).running⟩
  · apply stands_of_call h.stands hmay
    · rfl
    · rfl
    · exact hplace
    · intro y hy hne
      rcases mem_insertUpper.mp hy with rfl | hy
      · exact absurd rfl hne
      · exact List.mem_of_mem_filter hy
    · exact fun y hy hne => mem_insertUpper.mpr (Or.inr (hold hy hne))
    · exact hphase
    · exact hkilled
    · intro i x b hp hi hc
      obtain ⟨a, hl, hdel, hqueued⟩ := hc
      have hx : x ∈ p.events.toList := by
        rw [hl]
        exact List.mem_append_right a List.mem_cons_self
      have hxe : x.2.event ≠ itr.2.event := by
        intro heq
        apply hkilled
        unfold IsKilled
        rw [hp]
        exact ⟨x, hx, hi, heq⟩
      have hae : ∀ y ∈ a, y.2.event ≠ itr.2.event := by
        intro y hy heq
        rw [← heq, (hdel y hy).1] at hplace
        cases hplace
      have hle : x.1 ≤ newTime := hs i hp x hx hi
      -- the moved node was behind the iterator, and goes behind it again
      have hcut : p.events.toList.filter (fun z => !decide (z.2.stamp = itr.2.stamp)) =
          a ++ x :: b.filter fun z => !decide (z.2.stamp = itr.2.stamp) := by
        rw [hl] at hold ⊢
        have ha : ∀ y ∈ a, (!decide (y.2.stamp = itr.2.stamp)) = true := fun y hy =>
          (List.mem_filter.mp (hold (List.mem_append_left _ hy) (hae y hy))).2
        have hxf := (List.mem_filter.mp (hold (List.mem_append_right a List.mem_cons_self) hxe)).2
        rw [List.filter_append, List.filter_eq_self.mpr ha, List.filter_cons, if_pos hxf]
      rw [hcut] at hout
      refine ⟨insertUpper (newTime, ⟨itr.2.event, p.stamps⟩)
        (b.filter fun z => !decide (z.2.stamp = itr.2.stamp)), a, ?_, ?_, ?_⟩
      · show insertUpper _ (p.events.toList.filter fun z => !decide (z.2.stamp = itr.2.stamp)) = _
        rw [hcut, hout.insertUpper_cut hle]
      · intro y hy
        show (Function.update p.heap itr.2.event _ y.2.event).place = _ ∧
          (Function.update p.heap itr.2.event _ y.2.event).abortState = _
        rw [update_of_ne (hae y hy)]
        exact hdel y hy
      · intro y hy
        show (Function.update p.heap itr.2.event _ y.2.event).place = _
        by_cases heq : y.2.event = itr.2.event
        · rw [heq, update_self]
          exact hplace
        · rw [update_of_ne heq]
          rcases List.mem_cons.mp hy with rfl | hy
          · exact hqueued y List.mem_cons_self
          · rcases mem_insertUpper.mp hy with rfl | hy
            · exact absurd rfl heq
            · exact hqueued y (List.mem_cons_of_mem _ (List.mem_of_mem_filter hy))

end EventProcessor

end EGServer.Scheduling
