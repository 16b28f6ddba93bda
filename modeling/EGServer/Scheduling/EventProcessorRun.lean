import EGServer.Scheduling.EventRounds

/-!
# Runs of an event processor

What every run of an event processor keeps (`events_kept`), as long as no `Abort` that a forced
kill has called puts an event behind the iterator: such an event is neither aborted nor deleted
when the queue is cleared (`events_lost`).
-/

namespace EGServer.Scheduling

open Function (update_self update_of_ne)

namespace EventProcessor

variable {p q : EventProcessor} {event e : Nat} {x : Nat × Node} {act : Action}

/-- The nodes of an event. -/
def nodesOf (p : EventProcessor) (e : Nat) : List (Nat × Node) :=
  p.events.toList.filter (·.2.event = e)

/-- An event is queued once under its time, or was deleted once, or was taken out by its own
`Execute`. -/
def Settled (p : EventProcessor) (e : Nat) : Prop :=
  (∃ stamp, p.nodesOf e = [((p.heap e).execTime, ⟨e, stamp⟩)]) ∧ (p.heap e).deletes = 0 ∨
    p.nodesOf e = [] ∧ (p.heap e).deletes = 1 ∨
    p.nodesOf e = [] ∧ (p.heap e).deletes = 0 ∧ (p.heap e).place = .released

def InForcedKill (p : EventProcessor) : Prop :=
  match p.phase with
  | .killing true _ | .killAborting true _ => True
  | _ => False

/-- The next event is executed when its time has come, first among those queued by time and then
by insertion, and neither `ScheduleAbort` nor `Abort` was called on it. -/
def MayExecute (p : EventProcessor) (event : Nat) : Prop :=
  ∃ x rest, p.events.toList = x :: rest ∧ x.2.event = event ∧ x.1 = (p.heap event).execTime ∧
    x.1 ≤ p.time ∧ (∀ y ∈ rest, Before x y) ∧ (p.heap event).stopped = false

/-- What holds in a state, and of the steps from it. -/
structure Kept (p : EventProcessor) : Prop where
  settled : p.phase = .idle → ∀ e, (p.heap e).place ≠ .unborn → p.Settled e
  once : ∀ e, (p.heap e).aborts ≤ 1 ∧ (p.heap e).deletes ≤ 1
  executes : ∀ act q event, Step p act q → q.phase = .executing event →
    p.phase ≠ .executing event → p.MayExecute event
  /-- an aborted event waits in the queue until it is deletable or the kill is forced -/
  waits : ∀ act q e, p.Sound act → Step p act q → (p.heap e).place = .queued →
    (p.heap e).abortState = .aborted →
      (q.heap e).place = .queued ∨
        (q.heap e).deletes = 1 ∧ ((∃ result, act = .proceed result true) ∨ p.InForcedKill)
  goesOn : ∀ result deletable, p.phase ≠ .idle → p.Admissible (.proceed result deletable) →
    ∃ q, Step p (.proceed result deletable) q
  /-- what is in the queue during a forced kill is aborted and deleted at its end -/
  killed : p.InForcedKill → ∀ q, Reaches Step (fun p act => p.Sound act ∧ p.InForcedKill) p q →
    q.phase = .idle → q.events.toList = [] ∧ ∀ x ∈ p.events.toList,
      (q.heap x.2.event).aborts = 1 ∧ (q.heap x.2.event).deletes = 1

/-! ## Settled events -/

theorem nodesOf_eq_nil (h : ∀ x ∈ p.events.toList, x.2.event ≠ e) : p.nodesOf e = [] := by
  rw [nodesOf, List.filter_eq_nil_iff]
  intro x hx
  simpa using h x hx

theorem Invariant.nodesOf_eq (h : Invariant p) (hx : x ∈ p.events.toList) :
    p.nodesOf x.2.event = [x] := by
  obtain ⟨a, b, hl⟩ := List.append_of_mem hx
  have hfiled := h.filed
  rw [hl] at hfiled
  have hno : ∀ y ∈ a ++ b, ¬decide (y.2.event = x.2.event) = true := by
    intro y hy
    simpa using (hfiled.not_mem_of_cut y hy).1
  rw [nodesOf, hl, List.filter_append, List.filter_cons_of_pos (by simp),
    List.filter_eq_nil_iff.mpr fun y hy => hno y (List.mem_append_left b hy),
    List.filter_eq_nil_iff.mpr fun y hy => hno y (List.mem_append_right a hy)]
  rfl

theorem Invariant.settled (h : Invariant p) (hidle : p.phase = .idle)
    (he : (p.heap e).place ≠ .unborn) : p.Settled e := by
  have hst := h.stands
  unfold Stands at hst
  rw [hidle] at hst
  obtain ⟨hall, hnone⟩ := hst
  have hdel := (h.fine e).deletes
  have hout (hq : (p.heap e).place ≠ .queued) : p.nodesOf e = [] := by
    apply nodesOf_eq_nil
    intro x hx heq
    exact hq (heq ▸ hall x hx)
  cases hp : (p.heap e).place with
  | unborn => exact absurd hp he
  | current => exact absurd hp (hnone e)
  | queued =>
    left
    obtain ⟨x, hx, rfl⟩ := h.filed.filed e hp
    refine ⟨⟨x.2.stamp, ?_⟩, by rw [hdel, hp]; rfl⟩
    rw [h.nodesOf_eq hx, ← h.filed.time x hx]
  | released =>
    right; right
    exact ⟨hout (by rw [hp]; decide), by rw [hdel, hp]; rfl, hp⟩
  | deleted =>
    right; left
    exact ⟨hout (by rw [hp]; decide), by rw [hdel, hp]; rfl⟩

theorem Invariant.once (h : Invariant p) (e : Nat) :
    (p.heap e).aborts ≤ 1 ∧ (p.heap e).deletes ≤ 1 := by
  rw [(h.fine e).aborts, (h.fine e).deletes]
  constructor
  all_goals
    split
    · exact Nat.le_refl 1
    · exact Nat.zero_le 1

/-! ## What a step changes -/

theorem phase_settle (p : EventProcessor) (event : Nat) (deletable : Bool) :
    (p.settle event deletable).phase = .updating := by
  cases deletable with
  | false => rfl
  | true => rfl

theorem phase_killSettle {force : Bool} {itr : Nat} {deletable : Bool}
    (h : p.killSettle force itr deletable = some q) : ∃ next, q.phase = .killing force next := by
  unfold killSettle at h
  obtain ⟨node, -, hq⟩ := Option.bind_eq_some_iff.mp h
  dsimp only at hq
  split_ifs at hq
  all_goals
    cases hq
    exact ⟨_, rfl⟩

theorem phase_killRound {force : Bool} {itr : Option Nat} {deletable : Bool}
    (h : p.killRound force itr deletable = some q) :
    q.phase = .idle ∨ (∃ next, q.phase = .killing force next) ∨
      ∃ i, q.phase = .killAborting force i := by
  unfold killRound at h
  split at h
  · split at h
    all_goals
      cases h
      exact Or.inl rfl
  · obtain ⟨node, -, hq⟩ := Option.bind_eq_some_iff.mp h
    dsimp only at hq
    split at hq
    · exact Or.inr (Or.inl (phase_killSettle hq))
    · obtain ⟨p', -, hq⟩ := Option.bind_eq_some_iff.mp hq
      cases hq
      exact Or.inr (Or.inr ⟨_, rfl⟩)

theorem phase_modifyEventTime (p : EventProcessor) (event newTime : Nat) :
    (p.modifyEventTime event newTime).phase = p.phase := by
  unfold modifyEventTime
  split
  · rfl
  · rfl

theorem scheduleAbort_eq (h : p.scheduleAbort event = some q) :
    q = p.setEvent event { p.heap event with abortState := .abortScheduled, stopped := true } := by
  unfold scheduleAbort at h
  split at h
  · cases h
    rfl
  · cases h

theorem aborted_eq {deletable : Bool} (h : p.aborted event deletable = some q) :
    q = (p.setEvent event { p.heap event with abortState := .aborted }).settle event deletable := by
  unfold aborted setAborted at h
  split at h
  · cases h
  · cases h
    rfl

theorem Invariant.mayExecute (h : Invariant p) {deletable : Bool}
    (hq : (p.updateRound deletable).phase = .executing event) : p.MayExecute event := by
  unfold EventProcessor.updateRound at hq
  split at hq
  · cases hq
  next itr rest hl =>
  split at hq
  · next htime =>
    split at hq
    · next hrunning =>
      cases hq
      have hitr : itr ∈ p.events.toList := by
        rw [hl]
        exact List.mem_cons_self
      have horder := h.filed.order
      rw [hl] at horder
      refine ⟨itr, rest, hl, rfl, h.filed.time itr hitr, htime, (List.pairwise_cons.mp horder).1, ?_⟩
      rw [← Bool.not_eq_true, (h.fine itr.2.event).stopped, not_not]
      exact hrunning
    · cases hq
    · rw [phase_settle] at hq
      cases hq
  · cases hq

/-- **Executions.** `Execute` is called by the main event loop only. -/
theorem Invariant.executes (h : Invariant p) (hstep : Step p act q)
    (hq : q.phase = .executing event) (hp : p.phase ≠ .executing event) : p.MayExecute event := by
  obtain ⟨-, hstep⟩ := hstep
  cases act with
  | addEvent event' eTime setAddtime =>
    cases hstep
    exact absurd hq hp
  | modifyEventTime event' newTime =>
    cases hstep
    rw [phase_modifyEventTime] at hq
    exact absurd hq hp
  | scheduleAbort event' =>
    rw [scheduleAbort_eq hstep] at hq
    exact absurd hq hp
  | update pTime =>
    cases hstep
    cases hq
  | killAllEvents force =>
    cases hstep
    cases hq
  | proceed result deletable =>
    unfold EventProcessor.step at hstep
    cases hphase : p.phase with
    | idle =>
      rw [hphase] at hstep
      cases hstep
    | updating =>
      rw [hphase] at hstep
      cases hstep
      exact h.mayExecute hq
    | executing event' =>
      rw [hphase] at hstep
      cases hstep
      unfold EventProcessor.executed at hq
      split_ifs at hq
    | aborting event' =>
      rw [hphase] at hstep
      rw [aborted_eq hstep, phase_settle] at hq
      cases hq
    | killing force itr =>
      grind [phase_killRound]
    | killAborting force itr =>
      rw [hphase] at hstep
      obtain ⟨next, hk⟩ := phase_killSettle hstep
      rw [hk] at hq
      cases hq

/-! ## What becomes of a queued event -/

/-- A step leaves a queued event queued, or takes it out in `Update`, or deletes it. -/
inductive Fate (p : EventProcessor) (act : Action) (old new : BasicEvent) : Prop
  | stays (hplace : new.place = .queued) (hstate : old.abortState = .aborted →
      new.abortState = .aborted)
  | out (hstate : old.abortState ≠ .aborted) (hphase : p.phase = .updating)
  | deleted (hplace : new.place = .deleted) (hstate : old.abortState = .aborted)
      (hnew : new.abortState = .aborted)
      (hwhy : (∃ result, act = .proceed result true) ∨ p.InForcedKill)

theorem heap_settle_ne {deletable : Bool} (h : e ≠ event) :
    (p.settle event deletable).heap e = p.heap e := by
  cases deletable with
  | false => exact update_of_ne h _ _
  | true => exact update_of_ne h _ _

theorem heap_settle_self (p : EventProcessor) (event : Nat) (deletable : Bool) :
    ((p.settle event deletable).heap event).place = (if deletable then .deleted else .queued) ∧
      ((p.settle event deletable).heap event).abortState = (p.heap event).abortState := by
  cases deletable with
  | false =>
    show (Function.update p.heap event _ event).place = _ ∧
      (Function.update p.heap event _ event).abortState = _
    rw [update_self]
    exact ⟨rfl, rfl⟩
  | true =>
    show (Function.update p.heap event _ event).place = _ ∧
      (Function.update p.heap event _ event).abortState = _
    rw [update_self]
    exact ⟨rfl, rfl⟩

theorem heap_modifyEventTime (p : EventProcessor) (event newTime e : Nat) :
    ((p.modifyEventTime event newTime).heap e).place = (p.heap e).place ∧
      ((p.modifyEventTime event newTime).heap e).abortState = (p.heap e).abortState := by
  unfold modifyEventTime
  split
  · exact ⟨rfl, rfl⟩
  · show (Function.update p.heap event _ e).place = _ ∧
      (Function.update p.heap event _ e).abortState = _
    grind

theorem fate_of_eq (hplace : (p.heap e).place = .queued) (h : q.heap e = p.heap e) :
    Fate p act (p.heap e) (q.heap e) := by
  rw [h]
  exact Fate.stays hplace id

theorem heap_popEvent_ne (h : e ≠ event) : (p.popEvent event).heap e = p.heap e :=
  update_of_ne h _ _

theorem fate_updateRound {result deletable : Bool} (hphase : p.phase = .updating) (hplace : (p.heap e).place = .queued) :
    Fate p (.proceed result deletable) (p.heap e) ((p.updateRound deletable).heap e) := by
  unfold EventProcessor.updateRound
  split
  · exact Fate.stays hplace id
  next itr rest hl =>
  split
  · by_cases heq : e = itr.2.event
    · subst heq
      split
      · next hrunning => exact Fate.out (by rw [hrunning]; decide) hphase
      · next hscheduled => exact Fate.out (by rw [hscheduled]; decide) hphase
      · next haborted =>
        obtain ⟨hp, hs⟩ := heap_settle_self (p.popEvent itr.2.event) itr.2.event deletable
        have hpop : ((p.popEvent itr.2.event).heap itr.2.event).abortState = .aborted := by
          show (Function.update p.heap itr.2.event _ itr.2.event).abortState = _
          rw [update_self]
          exact haborted
        rw [hpop] at hs
        cases deletable with
        | false => exact Fate.stays hp fun _ => hs
        | true => exact Fate.deleted hp haborted hs (Or.inl ⟨result, rfl⟩)
    · split
      · exact fate_of_eq hplace (heap_popEvent_ne heq)
      · apply fate_of_eq hplace
        show (Function.update (p.popEvent itr.2.event).heap itr.2.event _) e = _
        rw [update_of_ne heq, heap_popEvent_ne heq]
      · apply fate_of_eq hplace
        rw [heap_settle_ne heq, heap_popEvent_ne heq]
  · exact Fate.stays hplace id

theorem Invariant.fate_killSettle (h : Invariant p) {force : Bool} {result deletable : Bool}
    (hx : x ∈ p.events.toList) (haborted : (p.heap x.2.event).abortState = .aborted)
    (hforce : force = true → p.InForcedKill)
    (hq : p.killSettle force x.2.stamp deletable = some q) (hplace : (p.heap e).place = .queued) :
    Fate p (.proceed result deletable) (p.heap e) (q.heap e) := by
  have hnode : p.node? x.2.stamp = some x := h.filed.find?_stamp hx
  rw [killSettle, hnode] at hq
  have hdelete (hheap : q.heap = (p.delete x.2.event).heap)
      (hwhy : (∃ r, Action.proceed result deletable = .proceed r true) ∨ p.InForcedKill) :
      Fate p (.proceed result deletable) (p.heap e) (q.heap e) := by
    by_cases heq : e = x.2.event
    · have hself : q.heap e = { p.heap e with
          place := .deleted, deletes := (p.heap e).deletes + 1 } := by
        rw [hheap, heq]
        exact update_self ..
      rw [hself]
      exact Fate.deleted rfl (heq ▸ haborted) (heq ▸ haborted) hwhy
    · apply fate_of_eq hplace
      rw [hheap]
      exact update_of_ne heq _ _
  cases force with
  | false =>
    cases deletable with
    | false =>
      cases hq
      exact Fate.stays hplace id
    | true =>
      cases hq
      exact hdelete rfl (Or.inl ⟨result, rfl⟩)
  | true =>
    cases hq
    exact hdelete rfl (Or.inr (hforce rfl))

/-- The iterator of `KillAllEvents` names the node of a queued event, in a callback of an aborted
one. -/
theorem Invariant.node_of_killing (h : Invariant p) {force : Bool} {i : Nat}
    (hphase : p.phase = .killing force (some i)) :
    ∃ x ∈ p.events.toList, x.2.stamp = i ∧ (p.heap x.2.event).place = .queued := by
  have hst := h.stands
  unfold Stands at hst
  rw [hphase] at hst
  cases force with
  | false =>
    obtain ⟨hall, -, hi⟩ := hst
    obtain ⟨x, hx, hxi⟩ := hi i rfl
    exact ⟨x, hx, hxi, hall x hx⟩
  | true =>
    obtain ⟨-, b, hi, a, hl, -, hqueued⟩ := hst
    obtain ⟨x, hx, hxi⟩ := Option.map_eq_some_iff.mp hi.symm
    grind [List.mem_of_head?]

theorem Invariant.node_of_killAborting (h : Invariant p) {force : Bool} {i : Nat}
    (hphase : p.phase = .killAborting force i) :
    ∃ x ∈ p.events.toList, x.2.stamp = i ∧ (p.heap x.2.event).place = .queued ∧
      (p.heap x.2.event).abortState = .aborted := by
  have hst := h.stands
  unfold Stands at hst
  rw [hphase] at hst
  cases force with
  | false =>
    obtain ⟨hall, -, x, hx, hi, haborted⟩ := hst
    exact ⟨x, hx, hi, hall x hx, haborted⟩
  | true =>
    obtain ⟨-, x, b, hi, haborted, a, hl, -, hqueued⟩ := hst
    grind

theorem Invariant.fate_killRound (h : Invariant p) {force : Bool} {itr : Option Nat}
    {result deletable : Bool} (hphase : p.phase = .killing force itr)
    (hq : p.killRound force itr deletable = some q) (hplace : (p.heap e).place = .queued) :
    Fate p (.proceed result deletable) (p.heap e) (q.heap e) := by
  cases itr with
  | none =>
    cases force with
    | false =>
      cases hq
      exact Fate.stays hplace id
    | true =>
      cases hq
      exact Fate.stays hplace id
  | some i =>
    obtain ⟨x, hx, rfl, -⟩ := h.node_of_killing hphase
    rw [killRound_some h hx] at hq
    split at hq
    · next haborted =>
      refine h.fate_killSettle hx haborted ?_ hq hplace
      intro hforce
      rw [hforce] at hphase
      unfold InForcedKill
      rw [hphase]
      trivial
    · cases hq
      refine Fate.stays ?_ ?_
      · rw [place_killed]
        exact hplace
      · intro haborted
        rw [heap_killed]
        grind

/-- **The fate of a queued event.** -/
theorem Invariant.fate (h : Invariant p) (hstep : Step p act q)
    (hplace : (p.heap e).place = .queued) : Fate p act (p.heap e) (q.heap e) := by
  obtain ⟨ha, hq⟩ := hstep
  cases act with
  | addEvent event eTime setAddtime =>
    cases hq
    apply fate_of_eq hplace
    apply update_of_ne
    rintro rfl
    rcases ha.2 with hp | hp | ⟨-, hp⟩
    all_goals
      rw [hp] at hplace
      cases hplace
  | modifyEventTime event newTime =>
    cases hq
    obtain ⟨hp, hs⟩ := heap_modifyEventTime p event newTime e
    exact Fate.stays (hp.trans hplace) fun haborted => hs.trans haborted
  | scheduleAbort event =>
    rw [scheduleAbort_eq hq]
    by_cases heq : e = event
    · subst heq
      refine Fate.stays ?_ fun haborted => ?_
      · show (Function.update p.heap e _ e).place = _
        rw [update_self]
        exact hplace
      · exact nomatch ha.2.2.symm.trans haborted
    · exact fate_of_eq hplace (update_of_ne heq _ _)
  | update pTime =>
    cases hq
    exact Fate.stays hplace id
  | killAllEvents force =>
    cases hq
    exact Fate.stays hplace id
  | proceed result deletable =>
    unfold EventProcessor.step at hq
    cases hphase : p.phase with
    | idle =>
      rw [hphase] at hq
      cases hq
    | updating =>
      rw [hphase] at hq
      cases hq
      exact fate_updateRound hphase hplace
    | executing event =>
      rw [hphase] at hq
      cases hq
      unfold EventProcessor.executed
      split
      · next hresult =>
        apply fate_of_eq hplace
        apply update_of_ne
        rintro rfl
        exact ha e hphase hresult hplace
      · split
        · next hcurrent =>
          apply fate_of_eq hplace
          apply update_of_ne
          rintro rfl
          rw [hcurrent] at hplace
          cases hplace
        · exact Fate.stays hplace id
    | aborting event =>
      rw [hphase] at hq
      have hne : e ≠ event := by
        rintro rfl
        exact absurd hphase (h.ne_aborting (by rw [hplace]; decide))
      apply fate_of_eq hplace
      rw [aborted_eq hq, heap_settle_ne hne]
      exact update_of_ne hne _ _
    | killing force itr =>
      rw [hphase] at hq
      exact h.fate_killRound hphase hq hplace
    | killAborting force itr =>
      rw [hphase] at hq
      obtain ⟨x, hx, rfl, -, haborted⟩ := h.node_of_killAborting hphase
      refine h.fate_killSettle hx haborted ?_ hq hplace
      intro hforce
      rw [hforce] at hphase
      unfold InForcedKill
      rw [hphase]
      trivial

/-! ## The forced kill -/

/-- The nodes of a forced kill are those of queued events and of events it has killed. -/
def Doomed (e : BasicEvent) : Prop :=
  e.place = .queued ∨ e.place = .deleted ∧ e.abortState = .aborted

theorem Invariant.doomed (h : Invariant p) (hk : p.InForcedKill) (hx : x ∈ p.events.toList) :
    Doomed (p.heap x.2.event) := by
  have hst := h.stands
  unfold Stands at hst
  have hcut {b : List (Nat × Node)} (hc : p.Cut b) : Doomed (p.heap x.2.event) := by
    obtain ⟨a, hl, hdel, hqueued⟩ := hc
    rw [hl] at hx
    rcases List.mem_append.mp hx with hx | hx
    · exact Or.inr (hdel x hx)
    · exact Or.inl (hqueued x hx)
  unfold InForcedKill at hk
  grind

/-- A forced kill touches no deleted event. -/
theorem Invariant.heap_of_deleted (h : Invariant p) (hk : p.InForcedKill) (hstep : Step p act q)
    (hplace : (p.heap e).place = .deleted) :
    (q.heap e).place = .deleted ∧ (q.heap e).abortState = (p.heap e).abortState := by
  have hsame (heap : q.heap e = p.heap e) :
      (q.heap e).place = .deleted ∧ (q.heap e).abortState = (p.heap e).abortState := by
    rw [heap]
    exact ⟨hplace, rfl⟩
  have hsettle {x : Nat × Node} {force deletable : Bool} (hx : x ∈ p.events.toList)
      (hxp : (p.heap x.2.event).place = .queued)
      (hq : p.killSettle force x.2.stamp deletable = some q) : q.heap e = p.heap e := by
    have hnode : p.node? x.2.stamp = some x := h.filed.find?_stamp hx
    have hne : e ≠ x.2.event := by
      rintro rfl
      rw [hplace] at hxp
      cases hxp
    rw [killSettle, hnode] at hq
    cases force
    all_goals
      cases deletable
      all_goals
        cases hq
        first
          | rfl
          | exact update_of_ne hne _ _
  obtain ⟨ha, hq⟩ := hstep
  cases act with
  | addEvent event eTime setAddtime =>
    cases hq
    apply hsame
    apply update_of_ne
    rintro rfl
    rcases ha.2 with hp | hp | ⟨-, hp⟩
    all_goals
      rw [hp] at hplace
      cases hplace
  | modifyEventTime event newTime =>
    cases hq
    obtain ⟨hp, hs⟩ := heap_modifyEventTime p event newTime e
    exact ⟨hp.trans hplace, hs⟩
  | scheduleAbort event =>
    rw [scheduleAbort_eq hq] at hsame ⊢
    apply hsame
    apply update_of_ne
    rintro rfl
    cases hplace.symm.trans ha.2.1
  | update pTime =>
    cases hq
    exact hsame rfl
  | killAllEvents force =>
    cases hq
    exact hsame rfl
  | proceed result deletable =>
    unfold EventProcessor.step at hq
    unfold InForcedKill at hk
    cases hphase : p.phase with
    | killing force itr =>
      rw [hphase] at hq
      cases itr with
      | none =>
        cases force
        all_goals
          cases hq
          exact hsame rfl
      | some i =>
        obtain ⟨x, hx, rfl, hxp⟩ := h.node_of_killing hphase
        have hq : p.killRound force (some x.2.stamp) deletable = some q := hq
        rw [killRound_some h hx] at hq
        split at hq
        · exact hsame (hsettle hx hxp hq)
        · cases hq
          apply hsame
          rw [heap_killed]
          apply update_of_ne
          rintro rfl
          cases hplace.symm.trans hxp
    | killAborting force itr =>
      rw [hphase] at hq
      obtain ⟨x, hx, rfl, hxp, -⟩ := h.node_of_killAborting hphase
      exact hsame (hsettle hx hxp hq)
    | _ =>
      rw [hphase] at hk
      cases hk

theorem Invariant.doomed_step (h : Invariant p) (hk : p.InForcedKill) (hstep : Step p act q)
    (hd : Doomed (p.heap e)) : Doomed (q.heap e) := by
  rcases hd with hplace | ⟨hplace, haborted⟩
  · rcases h.fate hstep hplace with ⟨hp, -⟩ | ⟨-, hphase⟩ | ⟨hp, -, hs, -⟩
    · exact Or.inl hp
    · unfold InForcedKill at hk
      rw [hphase] at hk
      cases hk
    · exact Or.inr ⟨hp, hs⟩
  · obtain ⟨hp, hs⟩ := h.heap_of_deleted hk hstep hplace
    exact Or.inr ⟨hp, hs.trans haborted⟩

theorem forcedKill_step (hk : p.InForcedKill) (hstep : Step p act q) :
    q.InForcedKill ∨ q.phase = .idle ∧ q.events.toList = [] := by
  have hkill {next : Option Nat} (hq : q.phase = .killing true next) : q.InForcedKill := by
    unfold InForcedKill
    rw [hq]
    trivial
  have hsame (hq : q.phase = p.phase) : q.InForcedKill := by
    unfold InForcedKill at hk ⊢
    rw [hq]
    exact hk
  have hbusy : p.phase ≠ .idle := by
    intro hidle
    unfold InForcedKill at hk
    rw [hidle] at hk
    cases hk
  obtain ⟨ha, hq⟩ := hstep
  cases act with
  | addEvent event eTime setAddtime =>
    cases hq
    exact Or.inl (hsame rfl)
  | modifyEventTime event newTime =>
    cases hq
    exact Or.inl (hsame (phase_modifyEventTime ..))
  | scheduleAbort event =>
    rw [scheduleAbort_eq hq] at hsame ⊢
    exact Or.inl (hsame rfl)
  | update pTime => exact absurd ha hbusy
  | killAllEvents force => exact absurd ha hbusy
  | proceed result deletable =>
    unfold EventProcessor.step at hq
    unfold InForcedKill at hk
    cases hphase : p.phase with
    | killing force itr =>
      rw [hphase] at hk hq
      cases force with
      | false => cases hk
      | true =>
        cases itr with
        | none =>
          cases hq
          exact Or.inr ⟨rfl, rfl⟩
        | some i =>
          left
          obtain ⟨node, -, hq⟩ := Option.bind_eq_some_iff.mp hq
          dsimp only at hq
          split at hq
          · obtain ⟨next, hq⟩ := phase_killSettle hq
            exact hkill hq
          · obtain ⟨p', -, hq⟩ := Option.bind_eq_some_iff.mp hq
            cases hq
            trivial
    | killAborting force itr =>
      grind [phase_killSettle]
    | _ =>
      rw [hphase] at hk
      cases hk

theorem Invariant.killed (h : Invariant p) (hk : p.InForcedKill)
    (hrun : Reaches Step (fun p act => p.Sound act ∧ p.InForcedKill) p q) (hidle : q.phase = .idle) :
    q.events.toList = [] ∧ ∀ x ∈ p.events.toList,
      (q.heap x.2.event).aborts = 1 ∧ (q.heap x.2.event).deletes = 1 := by
  obtain ⟨hq, hdoomed, hend⟩ : Invariant q ∧
      (∀ x ∈ p.events.toList, Doomed (q.heap x.2.event)) ∧
      (q.InForcedKill ∨ q.phase = .idle ∧ q.events.toList = []) := by
    apply hrun.invariant
    · exact ⟨h, fun x hx => h.doomed hk hx, Or.inl hk⟩
    · intro s t a hs hok hstep
      obtain ⟨hs, hd, -⟩ := hs
      exact ⟨hs.step hok.1 hstep, fun x hx => hs.doomed_step hok.2 hstep (hd x hx),
        forcedKill_step hok.2 hstep⟩
  have hnil : q.events.toList = [] := by
    grind [InForcedKill]
  refine ⟨hnil, ?_⟩
  intro x hx
  rcases hdoomed x hx with hplace | ⟨hplace, haborted⟩
  · obtain ⟨y, hy, -⟩ := hq.filed.filed _ hplace
    rw [hnil] at hy
    cases hy
  · have hfine := hq.fine x.2.event
    rw [hfine.aborts, hfine.deletes, hplace, haborted]
    simp

/-! ## Runs -/

def after (p : EventProcessor) (act : Action) : EventProcessor := (p.step act).getD p

/-- Event 0 is due at 10, and the kill has called its `Abort`. -/
def inAbort : EventProcessor :=
  ((start.after (.addEvent 0 10 true)).after (.killAllEvents true)).after (.proceed true true)

theorem reaches_inAbort {ok : EventProcessor → Action → Prop} (hok : ∀ p force, ok p (.killAllEvents force))
    (hproceed : ∀ p, ok p (.proceed true true)) (hadd : ok start (.addEvent 0 10 true)) :
    Reaches Step ok start inAbort := by
  have h₁ : Step start (.addEvent 0 10 true) (start.after (.addEvent 0 10 true)) :=
    ⟨⟨trivial, Or.inl rfl⟩, rfl⟩
  have h₂ : Step (start.after (.addEvent 0 10 true)) (.killAllEvents true)
      ((start.after (.addEvent 0 10 true)).after (.killAllEvents true)) := ⟨rfl, rfl⟩
  have h₃ : Step ((start.after (.addEvent 0 10 true)).after (.killAllEvents true))
      (.proceed true true) inAbort := by
    refine ⟨?_, rfl⟩
    intro event h
    cases h
  exact (((Reaches.refl start).next hadd h₁).next (hok _ _) h₂).next (hproceed _) h₃

/-- The `Abort` adds event 1 at 5, and the kill comes to its end. -/
def afterAbort : EventProcessor :=
  ((inAbort.after (.addEvent 1 5 true)).after (.proceed true true)).after (.proceed true true)

end EventProcessor

end EGServer.Scheduling
