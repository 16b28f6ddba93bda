import EGServer.Scheduling.EventLifecycle

/-!
# The rounds of an event processor

What the code does between the calls keeps the invariant, and it never gets stuck: no assertion
fails and no iterator dangles (`Invariant.proceed`). With the calls this is every step
(`Invariant.step`).
-/

namespace EGServer.Scheduling

open Function (update_self update_of_ne)

namespace EventProcessor

variable {p q : EventProcessor} {event : Nat} {x : Nat × Node} {l b : List (Nat × Node)}

/-! ## Rounds of `Update` -/

/-- An event is out of the queue, and `Update` has to do something with it. -/
structure Popped (p : EventProcessor) (event : Nat) : Prop where
  filed : Filed p.events.toList p.stamps p.heap
  fine : ∀ e, Fine false (p.heap e)
  queued : p.AllQueued
  only : p.OnlyCurrent event
  current : (p.heap event).place = .current

theorem Popped.not_mem (h : Popped p event) : ∀ x ∈ p.events.toList, x.2.event ≠ event :=
  h.filed.not_mem (by rw [h.current]; decide) (by rw [h.current]; decide)

theorem fine_update {heap : Nat → BasicEvent} (h : ∀ e, Fine false (heap e)) {e : BasicEvent}
    (he : Fine false e) : ∀ e', Fine false (Function.update heap event e e') := by
  grind

/-- What `Update` does with the event: it goes back into the queue or to another place. -/
theorem Popped.settled (h : Popped p event) {e : BasicEvent}
    (hphase : q.phase = .updating) (hheap : q.heap = Function.update p.heap event e)
    (hplace : e.place ≠ .current) (hfine : Fine false e)
    (hfiled : Filed q.events.toList q.stamps q.heap)
    (hnodes : ∀ y ∈ q.events.toList, y.2.event ≠ event → y ∈ p.events.toList)
    (hqueued : (∃ y ∈ q.events.toList, y.2.event = event) → e.place = .queued) : Invariant q := by
  refine ⟨hfiled, ?_, ?_⟩
  · intro e'
    rw [hphase, hheap]
    exact fine_update h.fine hfine e'
  · unfold Stands
    rw [hphase]
    constructor
    · intro y hy
      rw [hheap]
      by_cases heq : y.2.event = event
      · rw [heq, update_self]
        exact hqueued ⟨y, hy, heq⟩
      · rw [update_of_ne heq]
        exact h.queued y (hnodes y hy heq)
    · intro e' he'
      rw [hheap] at he'
      by_cases heq : e' = event
      · rw [heq, update_self] at he'
        exact hplace he'
      · rw [update_of_ne heq] at he'
        exact heq (h.only e' he')

theorem Popped.delete (h : Popped p event) :
    Invariant { p.delete event with phase := .updating } := by
  apply h.settled rfl rfl
  · exact fun h' => nomatch h'
  · have hfine := h.fine event
    refine ⟨?_, hfine.aborts, hfine.stopped, fun h' => by simp at h'⟩
    show (p.heap event).deletes + 1 = 1
    rw [hfine.deletes, h.current]
    rfl
  · exact h.filed.remove (List.Sublist.refl _) (fun x hx _ => hx) h.not_mem fun h' => nomatch h'
  · exact fun y hy _ => hy
  · rintro ⟨y, hy, heq⟩
    exact absurd heq (h.not_mem y hy)

theorem Popped.requeue (h : Popped p event) (eTime : Nat) :
    Invariant { p.addEvent event eTime false with phase := .updating } := by
  have hd : (p.heap event).place ≠ .deleted := by rw [h.current]; decide
  apply h.settled rfl rfl
  · exact fun h' => nomatch h'
  · exact (h.fine event).queue hd _ _
  · exact h.filed.insert h.not_mem rfl rfl
  · intro y hy hne
    rcases mem_insertUpper.mp hy with rfl | hy
    · exact absurd rfl hne
    · exact hy
  · exact fun _ => rfl

theorem Popped.settle (h : Popped p event) (deletable : Bool) :
    Invariant (p.settle event deletable) := by
  cases deletable with
  | false => exact h.requeue _
  | true => exact h.delete

theorem Popped.release (h : Popped p event) (hrunning : (p.heap event).abortState = .running) :
    Invariant { p.setEvent event { p.heap event with place := .released } with
      phase := .updating } := by
  apply h.settled rfl rfl
  · exact fun h' => nomatch h'
  · have hfine := h.fine event
    refine ⟨?_, hfine.aborts, hfine.stopped, fun _ => hrunning⟩
    rw [hfine.deletes, h.current]
    rfl
  · exact h.filed.remove (List.Sublist.refl _) (fun x hx _ => hx) h.not_mem fun h' => nomatch h'
  · exact fun y hy _ => hy
  · rintro ⟨y, hy, heq⟩
    exact absurd heq (h.not_mem y hy)

theorem Popped.callAbort (h : Popped p event)
    (hscheduled : (p.heap event).abortState = .abortScheduled) :
    Invariant { p.callAbort event with phase := .aborting event } := by
  have hself : (p.callAbort event).heap event = { p.heap event with
      stopped := true, aborts := (p.heap event).aborts + 1 } := update_self ..
  have hother {e : Nat} (heq : e ≠ event) : (p.callAbort event).heap e = p.heap e :=
    update_of_ne heq _ _
  have hfine := h.fine event
  refine ⟨?_, ?_, ?_⟩
  · exact h.filed.remove (List.Sublist.refl _) (fun x hx _ => hx) h.not_mem
      (by simp only [h.current]; decide)
  · intro e
    show Fine (decide (Phase.aborting event = Phase.aborting e)) ((p.callAbort event).heap e)
    by_cases heq : e = event
    · rw [heq, hself, decide_eq_true rfl]
      refine ⟨hfine.deletes, ?_, ?_, ?_⟩
      · rw [hfine.aborts, hscheduled]
        simp
      · exact iff_of_true rfl (by rw [hscheduled]; decide)
      · intro hp
        rw [h.current] at hp
        simp at hp
    · rw [hother heq, decide_eq_false fun h' => heq (Phase.aborting.inj h').symm]
      exact h.fine e
  · refine ⟨?_, ?_, ?_, ?_⟩
    · intro y hy
      show ((p.callAbort event).heap y.2.event).place = _
      rw [hother (h.not_mem y hy)]
      exact h.queued y hy
    · intro e he
      by_cases heq : e = event
      · exact heq
      · rw [show ({ p.callAbort event with phase := Phase.aborting event } : EventProcessor).heap e =
          p.heap e from hother heq] at he
        exact h.only e he
    · show ((p.callAbort event).heap event).place = _
      rw [hself]
      exact h.current
    · show ((p.callAbort event).heap event).abortState = _
      rw [hself]
      exact hscheduled

theorem fine_false (h : Invariant p) (hphase : ∀ e, p.phase ≠ .aborting e) :
    ∀ e, Fine false (p.heap e) := by
  intro e
  have hfine := h.fine e
  rwa [decide_eq_false (hphase e)] at hfine

theorem popped (h : Invariant p) (hphase : p.phase = .updating) {rest : List (Nat × Node)}
    (hl : p.events.toList = x :: rest) : Popped (p.popEvent x.2.event) x.2.event := by
  have hst := h.stands
  unfold Stands at hst
  rw [hphase] at hst
  obtain ⟨hall, hnone⟩ := hst
  have hrest : (p.popEvent x.2.event).events.toList = rest := by
    show p.events.toList.eraseIdx 0 = rest
    rw [hl]
    rfl
  have hfiled := h.filed
  rw [hl] at hfiled
  have hx : (p.heap x.2.event).place = .queued := hall x (by rw [hl]; exact List.mem_cons_self)
  have hne : ∀ y ∈ rest, y.2.event ≠ x.2.event := fun y hy => (hfiled.not_mem_of_cut (a := []) y hy).1
  have hfine := fine_false h (fun e => by rw [hphase]; exact fun h' => nomatch h')
  refine ⟨?_, ?_, ?_, ?_, ?_⟩
  · rw [hrest]
    exact hfiled.pop fun h' => nomatch h'
  · apply fine_update hfine
    have hf := hfine x.2.event
    refine ⟨?_, hf.aborts, hf.stopped, fun h' => by simp at h'⟩
    rw [hf.deletes, hx]
    rfl
  · intro y hy
    rw [hrest] at hy
    show (Function.update p.heap x.2.event _ y.2.event).place = _
    rw [update_of_ne (hne y hy)]
    exact hall y (by rw [hl]; exact List.mem_cons_of_mem _ hy)
  · intro e he
    by_cases heq : e = x.2.event
    · exact heq
    · have hother : (p.popEvent x.2.event).heap e = p.heap e := update_of_ne heq _ _
      rw [hother] at he
      exact absurd he (hnone e)
  · show (Function.update p.heap x.2.event _ x.2.event).place = _
    rw [update_self]

theorem Invariant.updateRound (h : Invariant p) (hphase : p.phase = .updating) (deletable : Bool) :
    Invariant (p.updateRound deletable) := by
  have hst := h.stands
  unfold Stands at hst
  rw [hphase] at hst
  have hfalse := fine_false h (fun e => by rw [hphase]; exact fun h' => nomatch h')
  have hidle : Invariant { p with phase := .idle } := ⟨h.filed, hfalse, hst⟩
  unfold EventProcessor.updateRound
  split
  · exact hidle
  next itr rest hl =>
  split
  · have hpop := popped h hphase hl
    have hheap : (p.popEvent itr.2.event).heap itr.2.event =
        { p.heap itr.2.event with place := .current } := update_self ..
    split
    · next hrunning =>
      refine ⟨hpop.filed, hpop.fine, hpop.queued, hpop.only, Or.inl ⟨hpop.current, ?_⟩⟩
      show ((p.popEvent itr.2.event).heap itr.2.event).abortState = _
      rw [hheap]
      exact hrunning
    · next hscheduled => exact hpop.callAbort (by rw [hheap]; exact hscheduled)
    · exact hpop.settle deletable
  · exact hidle

theorem Invariant.executed (h : Invariant p) (hphase : p.phase = .executing event) {result : Bool}
    (ha : result = true → (p.heap event).place ≠ .queued) :
    Invariant (p.executed event result) := by
  have hst := h.stands
  unfold Stands at hst
  rw [hphase] at hst
  obtain ⟨hall, honly, hplace⟩ := hst
  have hfalse := fine_false h (fun e => by rw [hphase]; exact fun h' => nomatch h')
  have hpop (hcurrent : (p.heap event).place = .current) : Popped p event :=
    ⟨h.filed, hfalse, hall, honly, hcurrent⟩
  unfold EventProcessor.executed
  rcases hplace with ⟨hcurrent, hrunning⟩ | hqueued
  · split
    · exact (hpop hcurrent).delete
    · exact (hpop hcurrent).release hrunning
  · rw [if_neg (fun hr => ha hr hqueued), if_neg (by rw [hqueued]; decide)]
    refine ⟨h.filed, hfalse, hall, ?_⟩
    intro e he
    rw [honly e he, hqueued] at he
    cases he

theorem Invariant.aborted (h : Invariant p) (hphase : p.phase = .aborting event)
    (deletable : Bool) : ∃ q, p.aborted event deletable = some q ∧ Invariant q := by
  have hst := h.stands
  unfold Stands at hst
  rw [hphase] at hst
  obtain ⟨hall, honly, hcurrent, hscheduled⟩ := hst
  have hset : p.setAborted event =
      some (p.setEvent event { p.heap event with abortState := .aborted }) :=
    if_neg (by rw [hscheduled]; decide)
  refine ⟨_, by rw [EventProcessor.aborted, hset]; rfl, ?_⟩
  have hself := h.fine event
  rw [hphase, decide_eq_true rfl] at hself
  -- with `SetAborted` the count of the aborts is that of an aborted event
  have hpop : Popped (p.setEvent event { p.heap event with abortState := .aborted }) event := by
    refine ⟨?_, ?_, ?_, ?_, ?_⟩
    · exact h.filed.update rfl id fun hx => by
        obtain ⟨x, hx, heq⟩ := hx
        rw [← heq]
        exact h.filed.places x hx
    · intro e
      show Fine false (Function.update p.heap event _ e)
      by_cases heq : e = event
      · rw [heq, update_self]
        refine ⟨hself.deletes, ?_, ?_, ?_⟩
        · rw [hself.aborts]
          simp
        · exact iff_of_true (hself.stopped.mpr (by rw [hscheduled]; decide)) fun h' => nomatch h'
        · intro hp
          rw [hcurrent] at hp
          simp at hp
      · rw [update_of_ne heq]
        have hfine := h.fine e
        rwa [hphase, decide_eq_false (fun h' => heq (Phase.aborting.inj h').symm)] at hfine
    · intro y hy
      show (Function.update p.heap event _ y.2.event).place = _
      by_cases heq : y.2.event = event
      · have hy' := hall y hy
        rw [heq, hcurrent] at hy'
        cases hy'
      · rw [update_of_ne heq]
        exact hall y hy
    · intro e he
      by_cases heq : e = event
      · exact heq
      · have hother : (p.setEvent event { p.heap event with abortState := .aborted }).heap e =
            p.heap e := update_of_ne heq _ _
        rw [hother] at he
        exact honly e he
    · show (Function.update p.heap event _ event).place = _
      rw [update_self]
      exact hcurrent
  exact hpop.settle deletable

/-! ## Rounds of `KillAllEvents` -/

theorem following_mem {itr i : Nat} (h : following itr l = some i) : ∃ x ∈ l, x.2.stamp = i := by
  induction l with
  | nil => cases h
  | cons y l ih =>
    rw [following] at h
    split at h
    · obtain ⟨x, hx, hi⟩ := Option.map_eq_some_iff.mp h
      exact ⟨x, List.mem_cons_of_mem _ (List.mem_of_head? hx), hi⟩
    · obtain ⟨x, hx, hi⟩ := ih h
      exact ⟨x, List.mem_cons_of_mem _ hx, hi⟩

theorem fine_delete {e : BasicEvent} (h : Fine false e) (hplace : e.place = .queued) :
    Fine false { e with place := .deleted, deletes := e.deletes + 1 } where
  deletes := by
    show e.deletes + 1 = 1
    rw [h.deletes, hplace]
    rfl
  aborts := h.aborts
  stopped := h.stopped
  running hp := by simp at hp

theorem Invariant.killAllEvents (h : Invariant p) (hphase : p.phase = .idle) (force : Bool) :
    Invariant (p.killAllEvents force) := by
  have hst := h.stands
  unfold Stands at hst
  rw [hphase] at hst
  have hfalse := fine_false h (fun e => by rw [hphase]; exact fun h' => nomatch h')
  refine ⟨h.filed, hfalse, ?_⟩
  cases force with
  | false =>
    refine ⟨hst.1, hst.2, ?_⟩
    intro i hi
    obtain ⟨x, hx, hxi⟩ := Option.map_eq_some_iff.mp hi
    exact ⟨x, List.mem_of_head? hx, hxi⟩
  | true => exact ⟨hst.2, p.events.toList, rfl, [], rfl, List.forall_mem_nil _, hst.1⟩

theorem Invariant.killSettle_unforced (h : Invariant p) (hall : p.AllQueued) (hnone : p.NoneCurrent)
    (hfalse : ∀ e, Fine false (p.heap e)) (hx : x ∈ p.events.toList) (deletable : Bool) :
    ∃ q, p.killSettle false x.2.stamp deletable = some q ∧ Invariant q := by
  have hnode : p.node? x.2.stamp = some x := h.filed.find?_stamp hx
  obtain ⟨a, b, hl⟩ := List.append_of_mem hx
  have hfiled := h.filed
  rw [hl] at hfiled
  have hfollowing : following x.2.stamp p.events.toList = b.head?.map (·.2.stamp) := by
    rw [hl, hfiled.following_cut]
  rw [killSettle, hnode]
  cases deletable with
  | false =>
    refine ⟨_, rfl, h.filed, hfalse, hall, hnone, ?_⟩
    exact fun i hi => following_mem hi
  | true =>
    have hout := h.filed.removeNode
      (e := { p.heap x.2.event with place := .deleted, deletes := (p.heap x.2.event).deletes + 1 })
      hx (fun h' => nomatch h')
    refine ⟨_, rfl, hout, fine_update hfalse (fine_delete (hfalse _) (hall x hx)), ?_, ?_, ?_⟩
    · intro y hy
      obtain ⟨hy, hstamp⟩ := List.mem_filter.mp hy
      have hne : y.2.event ≠ x.2.event := by
        intro heq
        rw [h.filed.eq_of_event hy hx heq] at hstamp
        simp at hstamp
      show (Function.update p.heap x.2.event _ y.2.event).place = _
      rw [update_of_ne hne]
      exact hall y hy
    · intro e he
      by_cases heq : e = x.2.event
      · have hself : ((p.delete x.2.event).heap e).place = .deleted := by
          show (Function.update p.heap x.2.event _ e).place = _
          rw [heq, update_self]
        exact nomatch hself.symm.trans he
      · have hother : (p.delete x.2.event).heap e = p.heap e := update_of_ne heq _ _
        exact hnone e (hother ▸ he)
    · intro i hi
      rw [hfollowing] at hi
      obtain ⟨y, hy, hyi⟩ := Option.map_eq_some_iff.mp hi
      have hyb : y ∈ b := List.mem_of_head? hy
      refine ⟨y, List.mem_filter.mpr ⟨?_, ?_⟩, hyi⟩
      · rw [hl]
        exact List.mem_append_right a (List.mem_cons_of_mem _ hyb)
      · have hstamp := (hfiled.not_mem_of_cut y (List.mem_append_right a hyb)).2
        simp only [hstamp, decide_false, Bool.not_false]

theorem Invariant.killSettle_forced (h : Invariant p) (hnone : p.NoneCurrent)
    (hfalse : ∀ e, Fine false (p.heap e)) (hcut : p.Cut (x :: b))
    (haborted : (p.heap x.2.event).abortState = .aborted) (deletable : Bool) :
    ∃ q, p.killSettle true x.2.stamp deletable = some q ∧ Invariant q := by
  obtain ⟨a, hl, hdel, hqueued⟩ := hcut
  have hfiled := h.filed
  rw [hl] at hfiled
  have hx : x ∈ p.events.toList := by
    rw [hl]
    exact List.mem_append_right a List.mem_cons_self
  have hnode : p.node? x.2.stamp = some x := h.filed.find?_stamp hx
  have hfollowing : following x.2.stamp p.events.toList = b.head?.map (·.2.stamp) := by
    rw [hl, hfiled.following_cut]
  have hplace : (p.heap x.2.event).place = .queued := hqueued x List.mem_cons_self
  have hself : (p.delete x.2.event).heap x.2.event = { p.heap x.2.event with
      place := .deleted, deletes := (p.heap x.2.event).deletes + 1 } := update_self ..
  have hother {e : Nat} (heq : e ≠ x.2.event) : (p.delete x.2.event).heap e = p.heap e :=
    update_of_ne heq _ _
  rw [killSettle, hnode]
  refine ⟨_, rfl, ?_, fine_update hfalse (fine_delete (hfalse _) hplace), ?_, b, hfollowing, a ++ [x],
    ?_, ?_, ?_⟩
  · exact h.filed.update rfl (fun h' => nomatch h') fun _ => Or.inr rfl
  · intro e he
    by_cases heq : e = x.2.event
    · grind
    · exact hnone e (hother heq ▸ he)
  · rw [← List.append_cons]
    exact hl
  · grind
  · intro y hy
    show ((p.delete x.2.event).heap y.2.event).place = _
    rw [hother (hfiled.not_mem_of_cut y (List.mem_append_right a hy)).1]
    exact hqueued y (List.mem_cons_of_mem _ hy)

/-- `SetAborted` and the call of `Abort`, on an event of the queue that is not aborted. -/
def killed (p : EventProcessor) (force : Bool) (x : Nat × Node) : EventProcessor :=
  { (p.setEvent x.2.event { p.heap x.2.event with abortState := .aborted }).callAbort x.2.event with
    phase := .killAborting force x.2.stamp }

theorem heap_killed (p : EventProcessor) (force : Bool) (x : Nat × Node) :
    (p.killed force x).heap = Function.update p.heap x.2.event { p.heap x.2.event with
      abortState := .aborted, stopped := true, aborts := (p.heap x.2.event).aborts + 1 } := by
  unfold killed callAbort setEvent
  dsimp only
  rw [Function.update_idem, update_self]

theorem fine_killed {e : BasicEvent} (h : Fine false e) (hplace : e.place = .queued)
    (hstate : e.abortState ≠ .aborted) :
    Fine false { e with abortState := .aborted, stopped := true, aborts := e.aborts + 1 } where
  deletes := h.deletes
  aborts := by
    rw [h.aborts, if_neg (by simp [hstate])]
    rfl
  stopped := iff_of_true rfl fun h' => nomatch h'
  running hp := by
    rw [hplace] at hp
    simp at hp

theorem place_killed (p : EventProcessor) (force : Bool) (x : Nat × Node) (e : Nat) :
    ((p.killed force x).heap e).place = (p.heap e).place := by
  rw [heap_killed]
  by_cases heq : e = x.2.event
  · rw [heq, update_self]
  · rw [update_of_ne heq]

/-- A round of `KillAllEvents` up to the call of `Abort`. -/
theorem killRound_some (h : Invariant p) {force : Bool} (hx : x ∈ p.events.toList)
    (deletable : Bool) : p.killRound force (some x.2.stamp) deletable =
      if (p.heap x.2.event).abortState = .aborted then p.killSettle force x.2.stamp deletable
      else some (p.killed force x) := by
  have hnode : p.node? x.2.stamp = some x := h.filed.find?_stamp hx
  rw [killRound, hnode]
  show (if (p.heap x.2.event).abortState = .aborted then _ else _) = _
  split
  · rfl
  · next hstate =>
    rw [setAborted, if_neg hstate]
    rfl

theorem Invariant.killRound_unforced (h : Invariant p) {itr : Option Nat}
    (hphase : p.phase = .killing false itr) (deletable : Bool) :
    ∃ q, p.killRound false itr deletable = some q ∧ Invariant q := by
  have hst := h.stands
  unfold Stands at hst
  rw [hphase] at hst
  obtain ⟨hall, hnone, hitr⟩ := hst
  have hfalse := fine_false h (fun e => by rw [hphase]; exact fun h' => nomatch h')
  cases itr with
  | none => exact ⟨_, rfl, h.filed, hfalse, hall, hnone⟩
  | some i =>
    obtain ⟨x, hx, rfl⟩ := hitr i rfl
    rw [killRound_some h hx]
    split
    · exact h.killSettle_unforced hall hnone hfalse hx deletable
    · next hstate =>
      refine ⟨_, rfl, ?_, ?_, ?_, ?_, x, hx, rfl, ?_⟩
      · rw [heap_killed]
        apply h.filed.update
        · rfl
        · exact id
        · exact fun _ => Or.inl (hall x hx)
      · rw [heap_killed]
        exact fine_update hfalse (fine_killed (hfalse _) (hall x hx) hstate)
      · intro y hy
        rw [place_killed]
        exact hall y hy
      · intro e
        rw [place_killed]
        exact hnone e
      · rw [heap_killed, update_self]

theorem Invariant.killRound_forced (h : Invariant p) {itr : Option Nat}
    (hphase : p.phase = .killing true itr) (deletable : Bool) :
    ∃ q, p.killRound true itr deletable = some q ∧ Invariant q := by
  have hst := h.stands
  unfold Stands at hst
  rw [hphase] at hst
  obtain ⟨hnone, b, hitr, hcut⟩ := hst
  have hfalse := fine_false h (fun e => by rw [hphase]; exact fun h' => nomatch h')
  cases b with
  | nil =>
    rw [hitr]
    refine ⟨_, rfl, ?_, hfalse, List.forall_mem_nil _, hnone⟩
    -- at the end everything behind the iterator is deleted, so nothing queued is lost
    have hno : ∀ e, (p.heap e).place ≠ .queued := by
      intro e he
      obtain ⟨y, hy, hye⟩ := h.filed.filed e he
      obtain ⟨a, hl, hdel, -⟩ := hcut
      rw [hl, List.append_nil] at hy
      rw [← hye, (hdel y hy).1] at he
      cases he
    constructor
    · exact List.Pairwise.nil
    · exact List.forall_mem_nil _
    · exact List.nodup_nil
    · exact List.nodup_nil
    · exact List.forall_mem_nil _
    · exact fun e he => absurd he (hno e)
    · exact List.forall_mem_nil _
  | cons x b =>
    obtain ⟨a, hl, hdel, hqueued⟩ := hcut
    have hx : x ∈ p.events.toList := by
      rw [hl]
      exact List.mem_append_right a List.mem_cons_self
    have hplace := hqueued x List.mem_cons_self
    have hsome : itr = some x.2.stamp := hitr
    rw [hsome, killRound_some h hx]
    split
    · next hstate =>
      exact h.killSettle_forced hnone hfalse ⟨a, hl, hdel, hqueued⟩ hstate deletable
    · next hstate =>
      have hfiled := h.filed
      rw [hl] at hfiled
      refine ⟨_, rfl, ?_, ?_, ?_, x, b, rfl, ?_, a, hl, ?_, ?_⟩
      · rw [heap_killed]
        apply h.filed.update
        · rfl
        · exact id
        · exact fun _ => Or.inl hplace
      · rw [heap_killed]
        exact fine_update hfalse (fine_killed (hfalse _) hplace hstate)
      · intro e
        rw [place_killed]
        exact hnone e
      · rw [heap_killed, update_self]
      · intro y hy
        rw [heap_killed, update_of_ne (hfiled.not_mem_of_cut y (List.mem_append_left b hy)).1]
        exact hdel y hy
      · intro y hy
        rw [place_killed]
        exact hqueued y hy

theorem Invariant.killAborting (h : Invariant p) {force : Bool} {itr : Nat}
    (hphase : p.phase = .killAborting force itr) (deletable : Bool) :
    ∃ q, p.killSettle force itr deletable = some q ∧ Invariant q := by
  have hst := h.stands
  unfold Stands at hst
  rw [hphase] at hst
  have hfalse := fine_false h (fun e => by rw [hphase]; exact fun h' => nomatch h')
  cases force with
  | false =>
    obtain ⟨hall, hnone, x, hx, rfl, -⟩ := hst
    exact h.killSettle_unforced hall hnone hfalse hx deletable
  | true =>
    obtain ⟨hnone, x, b, rfl, haborted, hcut⟩ := hst
    exact h.killSettle_forced hnone hfalse hcut haborted deletable

/-! ## All steps -/

/-- **Progress and preservation of the code.** It never gets stuck, and keeps the invariant. -/
theorem Invariant.proceed (h : Invariant p) {result : Bool} (deletable : Bool)
    (hidle : p.phase ≠ .idle) (ha : p.Admissible (.proceed result deletable)) :
    ∃ q, p.step (.proceed result deletable) = some q ∧ Invariant q := by
  unfold step
  cases hphase : p.phase with
  | idle => exact absurd hphase hidle
  | updating => exact ⟨_, rfl, h.updateRound hphase deletable⟩
  | executing event => exact ⟨_, rfl, h.executed hphase (ha event hphase)⟩
  | aborting event => exact h.aborted hphase deletable
  | killing force itr =>
    cases force with
    | false => exact h.killRound_unforced hphase deletable
    | true => exact h.killRound_forced hphase deletable
  | killAborting force itr => exact h.killAborting hphase deletable

theorem Invariant.step {act : Action} (h : Invariant p) (hs : p.Sound act) (hstep : Step p act q) :
    Invariant q := by
  obtain ⟨ha, hq⟩ := hstep
  cases act with
  | addEvent event eTime setAddtime =>
    cases hq
    exact h.addEvent ha hs
  | modifyEventTime event newTime =>
    cases hq
    exact h.modifyEventTime ha hs
  | scheduleAbort event => exact h.scheduleAbort ha hq
  | update pTime =>
    cases hq
    have hst := h.stands
    have hidle : p.phase = .idle := ha
    have hfalse := fine_false h (fun e => by rw [hidle]; exact fun h' => nomatch h')
    unfold Stands at hst
    rw [hidle] at hst
    exact ⟨h.filed, hfalse, hst⟩
  | killAllEvents force =>
    cases hq
    exact h.killAllEvents ha force
  | proceed result deletable =>
    have hidle : p.phase ≠ .idle := by
      intro hidle
      unfold EventProcessor.step at hq
      simp only [hidle] at hq
      cases hq
    obtain ⟨q', hq', h'⟩ := h.proceed deletable hidle ha
    rw [hq'] at hq
    cases hq
    exact h'

theorem invariant_of_reaches (h : Reaches Step Sound start p) : Invariant p :=
  h.invariant invariant_start fun hp hs hstep => hp.step hs hstep

end EventProcessor

end EGServer.Scheduling
