import EGServer.Scheduling.EventProcessor

/-!
# What the queue of an event processor holds

`Filed l stamps heap`: the nodes stand by time and then by insertion, each event has at most one,
its time is the event's, and the queued events have one. The queue changes in three ways only: a
node is inserted (`Filed.insert`), the node of an event goes (`Filed.remove`), or an event changes
where it stands (`Filed.update`).
-/

namespace EGServer.Scheduling

open Function (update update_self update_of_ne)

/-- By time, and by the order of insertion among equal times. -/
def Before (a b : Nat × Node) : Prop := a.1 < b.1 ∨ a.1 = b.1 ∧ a.2.stamp < b.2.stamp

structure Filed (l : List (Nat × Node)) (stamps : Nat) (heap : Nat → BasicEvent) : Prop where
  order : l.Pairwise Before
  fresh : ∀ x ∈ l, x.2.stamp < stamps
  once : (l.map (·.2.event)).Nodup
  named : (l.map (·.2.stamp)).Nodup
  time : ∀ x ∈ l, x.1 = (heap x.2.event).execTime
  filed : ∀ e, (heap e).place = .queued → ∃ x ∈ l, x.2.event = e
  places : ∀ x ∈ l, (heap x.2.event).place = .queued ∨ (heap x.2.event).place = .deleted

namespace Filed

variable {l l' a b : List (Nat × Node)} {x y itr : Nat × Node} {stamps event t c : Nat}
  {heap : Nat → BasicEvent} {e : BasicEvent}

theorem not_mem (h : Filed l stamps heap) (hq : (heap event).place ≠ .queued)
    (hd : (heap event).place ≠ .deleted) : ∀ x ∈ l, x.2.event ≠ event := by
  intro x hx heq
  obtain hp | hp := h.places x hx
  · exact hq (heq ▸ hp)
  · exact hd (heq ▸ hp)

theorem eq_of_event (h : Filed l stamps heap) (hx : x ∈ l) (hy : y ∈ l)
    (heq : x.2.event = y.2.event) : x = y :=
  List.inj_on_of_nodup_map h.once hx hy heq

theorem eq_of_stamp (h : Filed l stamps heap) (hx : x ∈ l) (hy : y ∈ l)
    (heq : x.2.stamp = y.2.stamp) : x = y :=
  List.inj_on_of_nodup_map h.named hx hy heq

/-! ## The three changes -/

theorem before_insertUpper (h : l.Pairwise Before) (hfresh : ∀ x ∈ l, x.2.stamp < stamps) :
    (insertUpper (t, ⟨event, stamps⟩) l).Pairwise Before := by
  induction l with
  | nil => exact List.pairwise_singleton _ _
  | cons a l ih =>
    obtain ⟨ha, hl⟩ := List.pairwise_cons.mp h
    rw [insertUpper]
    split
    · next hlt =>
      refine List.pairwise_cons.mpr ⟨?_, h⟩
      intro x hx
      rcases List.mem_cons.mp hx with rfl | hx
      · exact Or.inl hlt
      · left
        rcases ha x hx with hax | hax
        · exact Nat.lt_trans hlt hax
        · exact Nat.lt_of_lt_of_eq hlt hax.1
    · next hle =>
      refine List.pairwise_cons.mpr ⟨?_, ih hl fun x hx => hfresh x (List.mem_cons_of_mem _ hx)⟩
      intro x hx
      rcases List.mem_cons.mp ((insertUpper_perm _ l).mem_iff.mp hx) with rfl | hx
      · have hstamp : a.2.stamp < stamps := hfresh a List.mem_cons_self
        rcases Nat.lt_or_eq_of_le (Nat.not_lt.mp hle) with hlt | heq
        · exact Or.inl hlt
        · exact Or.inr ⟨heq, hstamp⟩
      · exact ha x hx

theorem insert (h : Filed l stamps heap) (hno : ∀ x ∈ l, x.2.event ≠ event)
    (hq : e.place = .queued) (ht : e.execTime = t) :
    Filed (insertUpper (t, ⟨event, stamps⟩) l) (stamps + 1) (update heap event e) := by
  have hperm := insertUpper_perm (t, (⟨event, stamps⟩ : Node)) l
  have hmem {x : Nat × Node} (hx : x ∈ insertUpper (t, ⟨event, stamps⟩) l) :
      x = (t, ⟨event, stamps⟩) ∨ x ∈ l := List.mem_cons.mp (hperm.mem_iff.mp hx)
  have hold {x : Nat × Node} (hx : x ∈ l) : update heap event e x.2.event = heap x.2.event :=
    update_of_ne (hno x hx) _ _
  constructor
  · exact before_insertUpper h.order h.fresh
  · intro x hx
    rcases hmem hx with rfl | hx
    · exact Nat.lt_succ_self stamps
    · exact Nat.lt_succ_of_lt (h.fresh x hx)
  · rw [(hperm.map _).nodup_iff, List.map_cons, List.nodup_cons]
    refine ⟨?_, h.once⟩
    intro hin
    obtain ⟨x, hx, heq⟩ := List.mem_map.mp hin
    exact hno x hx heq
  · rw [(hperm.map _).nodup_iff, List.map_cons, List.nodup_cons]
    refine ⟨?_, h.named⟩
    intro hin
    obtain ⟨x, hx, heq⟩ := List.mem_map.mp hin
    exact Nat.ne_of_lt (h.fresh x hx) heq
  · intro x hx
    rcases hmem hx with rfl | hx
    · rw [update_self, ht]
    · rw [hold hx, h.time x hx]
  · intro e' he'
    by_cases heq : e' = event
    · exact ⟨_, hperm.mem_iff.mpr List.mem_cons_self, heq.symm⟩
    · rw [update_of_ne heq] at he'
      obtain ⟨x, hx, hxe⟩ := h.filed e' he'
      exact ⟨x, hperm.mem_iff.mpr (List.mem_cons_of_mem _ hx), hxe⟩
  · intro x hx
    rcases hmem hx with rfl | hx
    · rw [update_self]
      exact Or.inl hq
    · rw [hold hx]
      exact h.places x hx

theorem remove (h : Filed l stamps heap) (hsub : l'.Sublist l)
    (hrest : ∀ x ∈ l, x.2.event ≠ event → x ∈ l') (hno : ∀ x ∈ l', x.2.event ≠ event)
    (hq : e.place ≠ .queued) : Filed l' stamps (update heap event e) := by
  have hold {x : Nat × Node} (hx : x ∈ l') : update heap event e x.2.event = heap x.2.event :=
    update_of_ne (hno x hx) _ _
  constructor
  · exact h.order.sublist hsub
  · exact fun x hx => h.fresh x (hsub.subset hx)
  · exact h.once.sublist (hsub.map _)
  · exact h.named.sublist (hsub.map _)
  · intro x hx
    rw [hold hx, h.time x (hsub.subset hx)]
  · intro e' he'
    by_cases heq : e' = event
    · rw [heq, update_self] at he'
      exact absurd he' hq
    · rw [update_of_ne heq] at he'
      obtain ⟨x, hx, hxe⟩ := h.filed e' he'
      exact ⟨x, hrest x hx (hxe ▸ heq), hxe⟩
  · intro x hx
    rw [hold hx]
    exact h.places x (hsub.subset hx)

theorem update (h : Filed l stamps heap) (ht : e.execTime = (heap event).execTime)
    (hq : e.place = .queued → (heap event).place = .queued)
    (hp : (∃ x ∈ l, x.2.event = event) → e.place = .queued ∨ e.place = .deleted) :
    Filed l stamps (update heap event e) := by
  refine { h with time := ?_, filed := ?_, places := ?_ }
  · intro x hx
    by_cases heq : x.2.event = event
    · rw [heq, update_self, ht, ← heq, h.time x hx]
    · rw [update_of_ne heq, h.time x hx]
  · intro e' he'
    by_cases heq : e' = event
    · rw [heq, update_self] at he'
      rw [heq]
      exact h.filed event (hq he')
    · rw [update_of_ne heq] at he'
      exact h.filed e' he'
  · intro x hx
    by_cases heq : x.2.event = event
    · rw [heq, update_self]
      exact hp ⟨x, hx, heq⟩
    · rw [update_of_ne heq]
      exact h.places x hx

/-! ## Nodes that iterators name -/

theorem removeNode (h : Filed l stamps heap) (hx : x ∈ l) (hq : e.place ≠ .queued) :
    Filed (l.filter fun y => !decide (y.2.stamp = x.2.stamp)) stamps
      (Function.update heap x.2.event e) := by
  apply h.remove List.filter_sublist _ _ hq
  · intro y hy hne
    refine List.mem_filter.mpr ⟨hy, ?_⟩
    have hstamp : y.2.stamp ≠ x.2.stamp := fun heq => hne (by rw [h.eq_of_stamp hy hx heq])
    simp only [hstamp, decide_false, Bool.not_false]
  · intro y hy heq
    obtain ⟨hy, hstamp⟩ := List.mem_filter.mp hy
    rw [h.eq_of_event hy hx heq] at hstamp
    simp only [decide_true, Bool.not_true, Bool.false_eq_true] at hstamp

theorem pop (h : Filed (x :: l) stamps heap) (hq : e.place ≠ .queued) :
    Filed l stamps (Function.update heap x.2.event e) := by
  apply h.remove (List.sublist_cons_self x l) _ _ hq
  · intro y hy hne
    rcases List.mem_cons.mp hy with rfl | hy
    · exact absurd rfl hne
    · exact hy
  · intro y hy heq
    have honce := h.once
    rw [List.map_cons, List.nodup_cons] at honce
    exact honce.1 (List.mem_map.mpr ⟨y, hy, heq⟩)

theorem find?_stamp (h : Filed l stamps heap) (hx : x ∈ l) :
    l.find? (·.2.stamp = x.2.stamp) = some x := by
  cases hf : l.find? (·.2.stamp = x.2.stamp) with
  | none =>
    have hno := List.find?_eq_none.mp hf x hx
    simp at hno
  | some y =>
    have hy := List.mem_of_find?_eq_some hf
    have hstamp : y.2.stamp = x.2.stamp := by simpa using List.find?_some hf
    rw [h.eq_of_stamp hy hx hstamp]

/-! ## The list cut at a node -/

theorem sorted (h : Filed l stamps heap) : l.Pairwise fun a b => a.1 ≤ b.1 := by
  apply h.order.imp
  intro a b hab
  rcases hab with hlt | ⟨heq, -⟩
  · exact Nat.le_of_lt hlt
  · exact Nat.le_of_eq heq

theorem le_of_cut (h : Filed (a ++ x :: b) stamps heap) : ∀ y ∈ a ++ [x], y.1 ≤ x.1 := by
  intro y hy
  rcases List.mem_append.mp hy with hy | hy
  · exact (List.pairwise_append.mp h.sorted).2.2 y hy x List.mem_cons_self
  · rw [List.mem_singleton.mp hy]

theorem insertUpper_cut (h : Filed (a ++ x :: b) stamps heap) (ht : x.1 ≤ t) (n : Node) :
    insertUpper (t, n) (a ++ x :: b) = a ++ x :: insertUpper (t, n) b := by
  have hle : ∀ y ∈ a ++ [x], y.1 ≤ t := fun y hy => Nat.le_trans (h.le_of_cut y hy) ht
  rw [List.append_cons, insertUpper_append hle, ← List.append_cons]

theorem not_mem_of_cut (h : Filed (a ++ x :: b) stamps heap) :
    ∀ y ∈ a ++ b, y.2.event ≠ x.2.event ∧ y.2.stamp ≠ x.2.stamp := by
  have honce := h.once
  have hnamed := h.named
  grind

theorem following_cut (h : Filed (a ++ x :: b) stamps heap) :
    EventProcessor.following x.2.stamp (a ++ x :: b) = b.head?.map (·.2.stamp) := by
  have hne : ∀ y ∈ a, y.2.stamp ≠ x.2.stamp := fun y hy =>
    (h.not_mem_of_cut y (List.mem_append_left _ hy)).2
  clear h
  induction a with
  | nil => rw [List.nil_append, EventProcessor.following, if_pos rfl]
  | cons y a ih =>
    rw [List.cons_append, EventProcessor.following, if_neg (hne y List.mem_cons_self)]
    exact ih fun z hz => hne z (List.mem_cons_of_mem _ hz)

end Filed

end EGServer.Scheduling
