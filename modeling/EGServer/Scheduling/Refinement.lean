import EGServer.Scheduling.EventMap

/-!
# `EventMap` refines its queue

Masks stand for sets of indexes, and the multimap for the entries in the order of the queue. Each
operation keeps this and returns what the queue's does.
-/

namespace EGServer.Scheduling

/-! ## Masks -/

/-- The indexes whose bit is set. -/
def members (mask : UInt8) : Finset Nat :=
  (Finset.Icc 1 8).filter fun index => mask.toBitVec.getLsbD (index - 1) = true

theorem mem_members {mask : UInt8} {index : Nat} :
    index ∈ members mask ↔ 1 ≤ index ∧ index ≤ 8 ∧ mask.toBitVec.getLsbD (index - 1) = true := by
  rw [members, Finset.mem_filter, Finset.mem_Icc, and_assoc]

@[simp] theorem members_zero : members 0 = ∅ := by decide

theorem members_eq_empty {mask : UInt8} : members mask = ∅ ↔ mask = 0 := by
  constructor
  · intro h
    apply UInt8.toBitVec_inj.mp
    apply BitVec.eq_of_getLsbD_eq
    intro i hi
    rw [UInt8.toBitVec_zero, BitVec.getLsbD_zero]
    by_contra hbit
    have hmem : i + 1 ∈ members mask :=
      mem_members.mpr ⟨by omega, by omega, Bool.not_eq_false _ ▸ hbit⟩
    rw [h] at hmem
    exact absurd hmem (Finset.notMem_empty _)
  · rintro rfl
    exact members_zero

theorem members_and (a b : UInt8) : members (a &&& b) = members a ∩ members b := by
  ext index
  rw [Finset.mem_inter, mem_members, mem_members, mem_members, UInt8.toBitVec_and,
    BitVec.getLsbD_and, Bool.and_eq_true]
  tauto

theorem members_or (a b : UInt8) : members (a ||| b) = members a ∪ members b := by
  ext index
  rw [Finset.mem_union, mem_members, mem_members, mem_members, UInt8.toBitVec_or,
    BitVec.getLsbD_or, Bool.or_eq_true]
  tauto

theorem members_not (a : UInt8) : members (~~~a) = Finset.Icc 1 8 \ members a := by
  ext index
  rw [Finset.mem_sdiff, mem_members, mem_members, UInt8.toBitVec_not, BitVec.getLsbD_not,
    Finset.mem_Icc, Bool.and_eq_true, Bool.not_eq_true', decide_eq_true_iff]
  grind

theorem members_bitMask {index : UInt8} (hpos : index ≠ 0) (hle : index ≤ 8) :
    members (bitMask index) = {index.toNat} := by
  have hpos' : index.toNat ≠ 0 := fun h => hpos (UInt8.toNat_inj.mp h)
  have hle' : index.toNat ≤ 8 := UInt8.le_iff_toNat_le.mp hle
  have hmembers : ∀ n, n ≠ 0 → n ≤ 8 →
      members (bitMask (.ofNat n)) = {(UInt8.ofNat n).toNat} := by
    intro n hn0 hn8
    interval_cases n
    · exact absurd rfl hn0
    all_goals decide
  have h := hmembers index.toNat hpos' hle'
  rwa [UInt8.ofNat_toNat] at h

theorem isIndex_toNat (index : UInt8) :
    EventQueue.isIndex index.toNat = true ↔ index ≠ 0 ∧ index ≤ 8 := by
  rw [EventQueue.isIndex, Bool.and_eq_true, decide_eq_true_iff, decide_eq_true_iff,
    UInt8.le_iff_toNat_le]
  have hzero : index = 0 ↔ index.toNat = 0 := UInt8.toNat_inj.symm
  rw [ne_eq, ne_eq, hzero]
  rfl

theorem not_isIndex {index : UInt8} (h : index = 0 ∨ index > 8) :
    EventQueue.isIndex index.toNat = false := by
  rw [← Bool.not_eq_true, isIndex_toNat]
  grind

theorem and_bitMask_ne_zero {mask index : UInt8} (hpos : index ≠ 0) (hle : index ≤ 8) :
    mask &&& bitMask index ≠ 0 ↔ index.toNat ∈ members mask := by
  rw [ne_eq, ← members_eq_empty, members_and, members_bitMask hpos hle,
    ← ne_eq, ← Finset.nonempty_iff_ne_empty]
  constructor
  · grind
  · intro hmem
    exact ⟨_, Finset.mem_inter.mpr ⟨hmem, Finset.mem_singleton_self _⟩⟩

/-! ## The relation -/

def Event.abs (e : Event) : QueuedEvent := ⟨e.id, members e.groupMask, members e.phaseMask⟩

theorem Event.abs_new (id : UInt16) {group phase : UInt8} (hgroup : group ≤ 8)
    (hphase : phase ≤ 8) :
    (Event.new id group phase).abs = ⟨id, indexSet group.toNat, indexSet phase.toNat⟩ := by
  have hset {index : UInt8} (hle : index ≤ 8) :
      members (if index ≠ 0 then bitMask index else 0) = indexSet index.toNat := by
    unfold indexSet
    by_cases h : index = 0
    · subst h
      rfl
    · have h' : index.toNat ≠ 0 := fun h0 => h (UInt8.toNat_inj.mp h0)
      rw [if_pos h, if_neg h', members_bitMask h hle]
  rw [Event.new, Event.abs, hset hgroup, hset hphase]

/-- A pair of the map as an entry of the queue. -/
def entry (e : Nat × Event) : Nat × QueuedEvent := (e.1, e.2.abs)

structure Refines (M : EventMap) (Q : EventQueue) : Prop where
  time : M.time = Q.now
  phases : members M.phaseMask = Q.phases
  entries : Files Q.entries (M.eventMap.toList.map entry)
  last : M.lastEvent.abs = Q.last

namespace Refines

variable {M : EventMap} {Q : EventQueue}

theorem init : Refines {} {} := ⟨rfl, members_zero, Files.nil, rfl⟩

theorem order_eq (h : Refines M Q) : Q.order = M.eventMap.toList.map entry :=
  h.entries.eq_stableOrder.symm

theorem of_entries (h : Refines M Q) {m : Multimap Nat Event} {l : List (Nat × QueuedEvent)}
    (hl : Files l (m.toList.map entry)) :
    Refines { M with eventMap := m } { Q with entries := l } :=
  ⟨h.time, h.phases, hl, h.last⟩

theorem add (h : Refines M Q) (time : Nat) {e : Event} {q : QueuedEvent} (he : e.abs = q) :
    Refines { M with eventMap := M.eventMap.insert (M.time + time) e } (Q.add time q) := by
  refine h.of_entries ?_
  have hinsert := h.entries.insert (Q.now + time, q)
  rw [Multimap.toList_insert, map_insertUpper entry (fun _ => rfl), entry, he, h.time]
  exact hinsert

theorem eraseIf (h : Refines M Q) {p : Nat × Event → Bool} {q : QueuedEvent → Bool}
    (hpq : ∀ e, p e = q e.2.abs) :
    Refines { M with eventMap := M.eventMap.eraseIf p } (Q.cancel q) := by
  refine h.of_entries ?_
  have hfilter := h.entries.filter fun e => !q e.2
  rw [List.filter_map] at hfilter
  have hcomp : ((fun e : Nat × QueuedEvent => !q e.2) ∘ entry) = (!p ·) := by
    funext e
    rw [hpq e]
    rfl
  rwa [hcomp] at hfilter

/-! ## Delays -/

theorem sorted_delay (l : List (Nat × Event)) (delay : Nat)
    (h : l.Pairwise fun a b => a.1 ≤ b.1) :
    (l.map fun e => (e.1 + delay, e.2)).Pairwise fun a b => a.1 ≤ b.1 := by
  rw [List.pairwise_map]
  exact h.imp fun hab => Nat.add_le_add_right hab delay

theorem delayEvents (h : Refines M Q) (delay : Nat) : Refines (M.DelayEvents delay)
    { Q with entries := Q.entries.map fun e => (e.1 + delay, e.2) } := by
  refine h.of_entries ?_
  rw [Multimap.toList_empty_insertRange (sorted_delay _ _ M.eventMap.sorted), List.map_map]
  have hmap := h.entries.mapKey (f := (· + delay)) fun a b hab => Nat.add_lt_add_right hab delay
  rwa [List.map_map] at hmap

theorem files_reinsert (h : Refines M Q) {p : Nat × Event → Bool}
    {q : Nat × QueuedEvent → Bool} (hpq : ∀ e, p e = q (entry e)) (f : Nat → Nat)
    {m : List (Nat × Event)}
    (hm : Files (M.eventMap.toList.filter (!p ·) ++
      (M.eventMap.toList.filter p).map fun e => (f e.1, e.2)) m) :
    Files (Q.reinsert q f).entries (m.map entry) := by
  have hq : (fun e => q (entry e)) = p := by
    funext e
    rw [hpq e]
  have hmap := hm.mapValue Event.abs
  refine hmap.congr ?_
  intro k
  rw [EventQueue.reinsert, List.map_append, List.filter_append, List.filter_append, h.order_eq]
  congr 1
  · -- what is left stands in the order of the queue
    have hfilter := (h.entries.filter (!q ·)).stable k
    have hleft : (M.eventMap.toList.map entry).filter (!q ·) =
        (M.eventMap.toList.filter (!p ·)).map entry := by
      rw [List.filter_map, ← hq]
      rfl
    rw [← hfilter, hleft]
    rfl
  · rw [List.filter_map (f := entry), List.map_map, List.map_map]
    have hcomp : q ∘ entry = p := hq
    rw [hcomp]
    rfl

theorem delayEventsOf (h : Refines M Q) (delay : Nat) (group : UInt8) :
    Refines (M.DelayEventsOf delay group)
      (Q.reinsert (fun e => EventQueue.isIndex group.toNat && group.toNat ∈ e.2.groups)
        (· + delay)) := by
  unfold EventMap.DelayEventsOf
  split
  · rename_i hgroup
    have hnone : (fun e : Nat × QueuedEvent =>
        EventQueue.isIndex group.toNat && decide (group.toNat ∈ e.2.groups)) = fun _ => false := by
      funext e
      rw [not_isIndex hgroup, Bool.false_and]
    rw [hnone, EventQueue.reinsert]
    refine ⟨h.time, h.phases, ?_, h.last⟩
    simp only [Bool.not_false, List.filter_true, List.filter_false, List.map_nil, List.append_nil]
    exact h.entries
  · rename_i hgroup
    obtain ⟨hpos, hle⟩ := not_or.mp hgroup
    have hle := UInt8.not_lt.mp hle
    have hindex := (isIndex_toNat group).mpr ⟨hpos, hle⟩
    have hin (e : Nat × Event) : decide (e.2.groupMask &&& bitMask group ≠ 0) =
        (EventQueue.isIndex group.toNat && decide (group.toNat ∈ (entry e).2.groups)) := by
      rw [hindex, Bool.true_and, decide_eq_decide]
      exact and_bitMask_ne_zero hpos hle
    refine h.of_entries (h.files_reinsert
      (p := fun e => decide (e.2.groupMask &&& bitMask group ≠ 0))
      (q := fun e => EventQueue.isIndex group.toNat && decide (group.toNat ∈ e.2.groups))
      hin (· + delay) ?_)
    rw [Multimap.toList_empty_insertRange
      (sorted_delay _ _ (M.eventMap.sorted.filter _)), Multimap.toList_insertRange]
    exact (Files.of_sorted (M.eventMap.eraseIf _).sorted).insertAll _

/-- **The loop of `SetMinimalDelay`** ends with the early events inserted anew, in the order in
which it meets them. -/
theorem files_minimalDelayLoop (eventId : UInt16) (bound : Nat) (m : Multimap Nat Event) (i : Nat)
    {l : List (Nat × Event)} (hl : Files l m.toList)
    (hi : ∀ e ∈ m.toList.take i, EventMap.isEarly eventId bound e = false) :
    Files (l.filter (!EventMap.isEarly eventId bound ·) ++
      (m.toList.filter (EventMap.isEarly eventId bound)).map fun e => (bound, e.2))
      (EventMap.minimalDelayLoop eventId bound m i).toList := by
  induction m, i using EventMap.minimalDelayLoop.induct eventId bound generalizing l with
  | case1 m i hnode =>
    -- the iterator is at the end, and there are no early events
    rw [List.take_of_length_le (List.getElem?_eq_none_iff.mp hnode)] at hi
    have hnone : m.toList.filter (EventMap.isEarly eventId bound) = [] := by
      rw [List.filter_eq_nil_iff]
      intro e he
      rw [hi e he]
      decide
    have hall : l.filter (!EventMap.isEarly eventId bound ·) = l := by
      rw [List.filter_eq_self]
      intro e he
      rw [hi e ((hl.mem_iff e).mpr he)]
      rfl
    grind [EventMap.minimalDelayLoop]
  | case2 m i e hnode hearly ih =>
    -- the event `e` goes behind the iterator
    have hlt : e.1 < bound := by simpa [EventMap.isEarly] using (Bool.and_eq_true_iff.mp hearly).2
    obtain ⟨hsplit, hfront, hraise⟩ := EventMap.toList_raise hnode hlt
    have hnot : EventMap.isEarly eventId bound (bound, e.2) = false := by
      simp [EventMap.isEarly]
    have hloop : EventMap.minimalDelayLoop eventId bound m i =
        EventMap.minimalDelayLoop eventId bound ((m.insert bound e.2).eraseAt i) i := by
      rw [EventMap.minimalDelayLoop]
      grind
    rw [hloop]
    have hnotin : e ∉ m.toList.take i := by
      intro he
      rw [hi e he] at hearly
      cases hearly
    have hl' : Files (l.erase e ++ [(bound, e.2)])
        ((m.insert bound e.2).eraseAt i).toList := by
      have herase := hl.erase e
      rw [hsplit, List.erase_append_right _ hnotin, List.erase_cons_head] at herase
      rw [hraise, ← insertUpper_append hfront]
      exact herase.insert (bound, e.2)
    have hearlier : (m.toList.take i).filter (EventMap.isEarly eventId bound) = [] := by
      rw [List.filter_eq_nil_iff]
      intro x hx
      rw [hi x hx]
      decide
    have hrest := ih hl' (by
      grind)
    -- the other events stay, and the early ones are `e` and those behind it
    have hother : (l.erase e ++ [(bound, e.2)]).filter (!EventMap.isEarly eventId bound ·) =
        l.filter (!EventMap.isEarly eventId bound ·) ++ [(bound, e.2)] := by
      grind [List.erase_of_not_mem]
    grind [filter_insertUpper_of_not]
  | case3 m i e hnode hearly ih =>
    have hloop : EventMap.minimalDelayLoop eventId bound m i =
        EventMap.minimalDelayLoop eventId bound m (i + 1) := by
      rw [EventMap.minimalDelayLoop]
      grind
    rw [hloop]
    refine ih hl ?_
    intro x hx
    rw [List.take_add_one, hnode, Option.toList_some, List.mem_append, List.mem_singleton] at hx
    rcases hx with hx | rfl
    · exact hi x hx
    · exact Bool.not_eq_true _ ▸ hearly

theorem setMinimalDelay (h : Refines M Q) (eventId : UInt16) (delay : Nat) :
    Refines (M.SetMinimalDelay eventId delay)
      (Q.reinsert (fun e => e.2.id = eventId && e.1 < Q.now + delay) fun _ => Q.now + delay) := by
  have hearly (e : Nat × Event) : EventMap.isEarly eventId (M.time + delay) e =
      (decide ((entry e).2.id = eventId) && decide ((entry e).1 < Q.now + delay)) := by
    rw [EventMap.isEarly, h.time, decide_eq_decide.mpr eq_comm]
    rfl
  have hloop := files_minimalDelayLoop eventId (M.time + delay) M.eventMap 0
    (Files.of_sorted M.eventMap.sorted) (by rintro e ⟨⟩)
  have hfiles := h.files_reinsert (q := fun e => e.2.id = eventId && e.1 < Q.now + delay) hearly
    (fun _ => M.time + delay) hloop
  unfold EventMap.SetMinimalDelay
  rw [← h.time] at hfiles ⊢
  exact h.of_entries hfiles

/-! ## Execution -/

theorem ExecuteEvent_nil {M : EventMap} (h : M.eventMap.toList[0]? = none) :
    M.ExecuteEvent = (0, M) := by
  rw [EventMap.ExecuteEvent]
  split
  · rfl
  · rename_i hfront
    rw [h] at hfront
    cases hfront

theorem ExecuteEvent_cons {M : EventMap} {due : Nat} {event : Event}
    (h : M.eventMap.toList[0]? = some (due, event)) :
    M.ExecuteEvent = if due > M.time then (0, M)
      else if M.outOfPhase event then
        EventMap.ExecuteEvent { M with eventMap := M.eventMap.eraseAt 0 }
      else (event.id, { M with lastEvent := event, eventMap := M.eventMap.eraseAt 0 }) := by
  grind [EventMap.ExecuteEvent]

theorem eq_cons_eraseAt {m : Multimap Nat Event} {e : Nat × Event} (h : m.toList[0]? = some e) :
    m.toList = e :: (m.eraseAt 0).toList := by
  rw [Multimap.toList_eraseAt]
  cases hm : m.toList with
  | nil =>
    rw [hm] at h
    cases h
  | cons a l =>
    rw [hm] at h
    cases h
    rfl

/-- What `ExecuteEvent` does with the map's pairs: it drops due events out of phase, and takes the
first that is in phase or stops where none is due. -/
theorem ExecuteEvent_spec (M : EventMap) : ∃ dropped rest,
    M.eventMap.toList = dropped ++ rest ∧
    (∀ e ∈ dropped, e.1 ≤ M.time ∧ M.outOfPhase e.2 = true) ∧
    M.ExecuteEvent.2.time = M.time ∧ M.ExecuteEvent.2.phaseMask = M.phaseMask ∧
    ((∃ e, rest = e :: M.ExecuteEvent.2.eventMap.toList ∧ e.1 ≤ M.time ∧
        M.outOfPhase e.2 = false ∧ M.ExecuteEvent.1 = e.2.id ∧
        M.ExecuteEvent.2.lastEvent = e.2) ∨
      (rest = M.ExecuteEvent.2.eventMap.toList ∧ (∀ e ∈ rest.head?, M.time < e.1) ∧
        M.ExecuteEvent.1 = 0 ∧ M.ExecuteEvent.2.lastEvent = M.lastEvent)) := by
  induction M using EventMap.ExecuteEvent.induct with
  | case1 M hfront =>
    rw [ExecuteEvent_nil hfront]
    refine ⟨[], _, rfl, by rintro e ⟨⟩, rfl, rfl, .inr ⟨rfl, ?_, rfl, rfl⟩⟩
    intro e he
    rw [← List.head?_eq_getElem?] at hfront
    rw [hfront] at he
    cases he
  | case2 M due event hfront hlate =>
    rw [ExecuteEvent_cons hfront, if_pos hlate]
    refine ⟨[], _, rfl, by rintro e ⟨⟩, rfl, rfl, .inr ⟨rfl, ?_, rfl, rfl⟩⟩
    intro e he
    rw [← List.head?_eq_getElem?] at hfront
    rw [hfront] at he
    cases he
    exact hlate
  | case3 M due event hfront hdue hout ih =>
    rw [ExecuteEvent_cons hfront, if_neg hdue, if_pos hout]
    obtain ⟨dropped, rest, hsplit, hdropped, hrest⟩ := ih
    refine ⟨(due, event) :: dropped, rest, ?_, ?_, hrest⟩
    · rw [eq_cons_eraseAt hfront, hsplit, List.cons_append]
    · intro e he
      rcases List.mem_cons.mp he with rfl | he
      · exact ⟨not_lt.mp hdue, hout⟩
      · exact hdropped e he
  | case4 M due event hfront hdue hout =>
    rw [ExecuteEvent_cons hfront, if_neg hdue, if_neg hout]
    exact ⟨[], _, rfl, by rintro e ⟨⟩, rfl, rfl, .inl ⟨(due, event), eq_cons_eraseAt hfront,
      not_lt.mp hdue, Bool.not_eq_true _ ▸ hout, rfl, rfl⟩⟩

theorem matchesPhase_abs (h : Refines M Q) (e : Event) :
    Q.matchesPhase e.abs = !M.outOfPhase e := by
  rw [EventQueue.matchesPhase, EventMap.outOfPhase, Event.abs, ← h.phases, ← members_and]
  simp only [ne_eq, members_eq_empty, Bool.not_and, decide_not, Bool.not_not]

theorem execute_entries (h : Refines M Q) (next : Option (Nat × Event)) {dropped rest : List (Nat × Event)}
    (hsplit : M.eventMap.toList = dropped ++ rest)
    (hdropped : ∀ e ∈ dropped, e.1 ≤ M.time ∧ M.outOfPhase e.2 = true)
    (hnext : ∀ e ∈ next, rest.head? = some e ∧ e.1 ≤ M.time ∧ M.outOfPhase e.2 = false)
    (hnone : next = none → ∀ e ∈ rest.head?, M.time < e.1) :
    Q.dropped = dropped.map entry ∧ Q.next? = next.map entry := by
  have hdue : Q.due = dropped.map entry ++ (rest.map entry).takeWhile fun e => e.1 ≤ Q.now := by
    rw [EventQueue.due, h.order_eq, hsplit, List.map_append, List.takeWhile_append_of_pos]
    intro e he
    obtain ⟨e, hmem, rfl⟩ := List.mem_map.mp he
    rw [← h.time]
    exact decide_eq_true (hdropped e hmem).1
  have hmatch (e : Nat × Event) : Q.matchesPhase (entry e).2 = !M.outOfPhase e.2 :=
    h.matchesPhase_abs e.2
  have hunmatched : ∀ e ∈ dropped.map entry, Q.matchesPhase e.2 = false := by
    intro e he
    obtain ⟨e, hmem, rfl⟩ := List.mem_map.mp he
    rw [hmatch, (hdropped e hmem).2]
    rfl
  have htake : Q.dropped = dropped.map entry ++ ((rest.map entry).takeWhile
      fun e => e.1 ≤ Q.now).takeWhile fun e => !Q.matchesPhase e.2 := by
    rw [EventQueue.dropped, hdue, List.takeWhile_append_of_pos]
    intro e he
    rw [hunmatched e he]
    rfl
  have hfind : Q.next? = ((rest.map entry).takeWhile
      fun e => e.1 ≤ Q.now).find? fun e => Q.matchesPhase e.2 := by
    grind [EGServer.Scheduling.EventQueue.next?]
  rw [htake, hfind]
  cases rest with
  | nil =>
    cases next with
    | none => exact ⟨List.append_nil _, rfl⟩
    | some e => cases (hnext e rfl).1
  | cons x rest =>
    rw [List.map_cons, List.takeWhile_cons]
    cases next with
    | none =>
      have hlate := hnone rfl x rfl
      rw [if_neg]
      · exact ⟨List.append_nil _, rfl⟩
      · rw [← h.time]
        exact fun hle => absurd (of_decide_eq_true hle) (not_le.mpr hlate)
    | some e =>
      obtain ⟨hhead, hle, hin⟩ := hnext e rfl
      cases hhead
      have hx : Q.matchesPhase (entry x).2 = true := by rw [hmatch, hin]; rfl
      rw [if_pos (by rw [← h.time]; exact decide_eq_true hle), List.takeWhile_cons_of_neg
        (by rw [hx]; decide), List.append_nil]
      exact ⟨rfl, List.find?_cons_of_pos hx⟩

theorem executeEvent (h : Refines M Q) :
    M.ExecuteEvent.1 = (Q.next?.map fun e => e.2.id).getD 0 ∧
      Refines M.ExecuteEvent.2 Q.execute := by
  obtain ⟨dropped, rest, hsplit, hdropped, htime, hphase, hrest⟩ := ExecuteEvent_spec M
  have hentries := h.entries
  rw [hsplit, List.map_append] at hentries
  rcases hrest with ⟨e, hrest, hle, hin, hid, hlast⟩ | ⟨hrest, hlate, hid, hlast⟩
  · subst hrest
    obtain ⟨hdroppedQ, hnextQ⟩ := h.execute_entries (some e) hsplit hdropped
      (by rintro x ⟨⟩; exact ⟨rfl, hle, hin⟩) (by rintro ⟨⟩)
    refine ⟨?_, ?_⟩
    · rw [hid, hnextQ]
      rfl
    · refine ⟨htime.trans h.time, by rw [hphase]; exact h.phases, ?_, ?_⟩
      · rw [EventQueue.execute, hdroppedQ, hnextQ]
        rw [List.map_cons, List.append_cons] at hentries
        exact hentries.drop
      · rw [hlast, EventQueue.execute, hnextQ]
        rfl
  · obtain ⟨hdroppedQ, hnextQ⟩ := h.execute_entries none hsplit hdropped
      (by rintro x ⟨⟩) (fun _ => hlate)
    refine ⟨?_, ?_⟩
    · rw [hid, hnextQ]
      rfl
    · refine ⟨htime.trans h.time, by rw [hphase]; exact h.phases, ?_, ?_⟩
      · rw [EventQueue.execute, hdroppedQ, hnextQ]
        rw [hrest] at hentries
        dsimp only [Option.map_none, Option.toList_none]
        rw [List.append_nil]
        exact hentries.drop
      · rw [hlast, EventQueue.execute, hnextQ]
        exact h.last

/-! ## Queries -/

theorem getTimeUntilEvent (h : Refines M Q) (eventId : UInt16) :
    M.GetTimeUntilEvent eventId = (Q.earliest eventId).map fun due : Nat => (due : Int) - Q.now := by
  have hmem (e : Nat × Event) (he : e ∈ M.eventMap.toList) : entry e ∈ Q.entries :=
    (h.entries.mem_iff _).mp (List.mem_map_of_mem he)
  have hearliest : Q.earliest eventId =
      (M.eventMap.toList.find? fun e => eventId = e.2.id).map Prod.fst := by
    unfold EventQueue.earliest
    cases hfind : M.eventMap.toList.find? fun e => eventId = e.2.id with
    | none =>
      rw [Option.map_none, List.min?_eq_none_iff, List.map_eq_nil_iff, List.filter_eq_nil_iff]
      intro q hq
      obtain ⟨e, he, rfl⟩ := List.mem_map.mp ((h.entries.mem_iff q).mpr hq)
      have hnot := List.find?_eq_none.mp hfind e he
      rw [decide_eq_true_iff] at hnot ⊢
      exact Ne.symm hnot
    | some e =>
      obtain ⟨hid, front, back, hsplit, hfront⟩ := List.find?_eq_some_iff_append.mp hfind
      have hid := of_decide_eq_true hid
      have hsorted := M.eventMap.sorted
      rw [hsplit] at hsorted
      rw [Option.map_some, List.min?_eq_some_iff]
      constructor
      · refine List.mem_map.mpr ⟨entry e, List.mem_filter.mpr ⟨hmem e ?_, ?_⟩, rfl⟩
        · rw [hsplit]
          exact List.mem_append_right _ List.mem_cons_self
        · exact decide_eq_true hid.symm
      · intro due hdue
        obtain ⟨q, hq, rfl⟩ := List.mem_map.mp hdue
        obtain ⟨hq, hqid⟩ := List.mem_filter.mp hq
        obtain ⟨x, hx, rfl⟩ := List.mem_map.mp ((h.entries.mem_iff q).mpr hq)
        rw [hsplit] at hx
        rcases List.mem_append.mp hx with hx | hx
        · have hnot := hfront x hx
          rw [Bool.not_eq_true', decide_eq_false_iff_not] at hnot
          exact absurd (of_decide_eq_true hqid).symm hnot
        · rcases List.mem_cons.mp hx with rfl | hx
          · exact le_rfl
          · exact (List.pairwise_cons.mp (List.pairwise_append.mp hsorted).2.1).1 x hx
  rw [EventMap.GetTimeUntilEvent, hearliest, Option.map_map, h.time]
  rfl

theorem hasEventScheduled (h : Refines M Q) (eventId : UInt16) :
    M.HasEventScheduled eventId = Q.entries.any fun e => e.2.id = eventId := by
  rw [EventMap.HasEventScheduled, EventMap.GetTimeUntilEvent, Option.isSome_map,
    Bool.eq_iff_iff, List.find?_isSome, List.any_eq_true]
  constructor
  · rintro ⟨e, he, hid⟩
    exact ⟨entry e, (h.entries.mem_iff _).mp (List.mem_map_of_mem he),
      decide_eq_true (of_decide_eq_true hid).symm⟩
  · rintro ⟨q, hq, hid⟩
    obtain ⟨e, he, rfl⟩ := List.mem_map.mp ((h.entries.mem_iff q).mpr hq)
    exact ⟨e, he, decide_eq_true (of_decide_eq_true hid).symm⟩

/-! ## Steps and runs -/

theorem scheduleEvent (h : Refines M Q) (eventId : UInt16) (time : Nat) (group phase : UInt8) :
    Refines (M.ScheduleEvent eventId time group phase)
      (Q.schedule eventId time group.toNat phase.toNat) := by
  unfold EventMap.ScheduleEvent EventQueue.schedule
  have hle (index : UInt8) : ¬ index > 8 ↔ index.toNat ≤ 8 := by
    rw [gt_iff_lt, UInt8.not_lt, UInt8.le_iff_toNat_le]
    rfl
  by_cases hgroup : group > 8
  · rw [if_pos hgroup, if_neg]
    · exact h
    · exact fun hboth => (hle group).mpr hboth.1 hgroup
  · by_cases hphase : phase > 8
    · grind
    · rw [if_neg hgroup, if_neg hphase, if_pos ⟨(hle group).mp hgroup, (hle phase).mp hphase⟩]
      exact h.add time (Event.abs_new eventId (UInt8.not_lt.mp hgroup) (UInt8.not_lt.mp hphase))

theorem cancelEvent (h : Refines M Q) (eventId : UInt16) :
    Refines (M.CancelEvent eventId) (Q.cancel fun e => e.id = eventId) :=
  h.eraseIf fun _ => decide_eq_decide.mpr eq_comm

theorem cancelEventGroup (h : Refines M Q) (group : UInt8) :
    Refines (M.CancelEventGroup group)
      (Q.cancel fun e => EventQueue.isIndex group.toNat && group.toNat ∈ e.groups) := by
  unfold EventMap.CancelEventGroup
  split
  · rename_i hgroup
    rw [not_isIndex hgroup]
    simp only [Bool.false_and, EventQueue.cancel, Bool.not_false, List.filter_true]
    exact h
  · rename_i hgroup
    obtain ⟨hpos, hle⟩ := not_or.mp hgroup
    have hle := UInt8.not_lt.mp hle
    refine h.eraseIf ?_
    intro e
    rw [(isIndex_toNat group).mpr ⟨hpos, hle⟩, Bool.true_and, decide_eq_decide]
    exact and_bitMask_ne_zero hpos hle

end Refines

end EGServer.Scheduling
