import EGServer.Lib.StableQueue
import Mathlib.Data.List.Nodup
import Mathlib.Tactic.Common
import Mathlib.Algebra.Ring.Nat
import Mathlib.Logic.Relation
import Mathlib.Data.List.Range
import Mathlib.Data.List.Perm.Basic

/-!
# The task scheduler

A `TaskScheduler` holds tasks by the time at which they end, and callables that are run at the next
update tick. What a callable does to its scheduler is a list of commands, which may submit further
callables and schedule further tasks. `Dispatch` runs the callable at the front of the queue in
place and pops it afterwards, so what the callable does to the queue happens in between.

The durations that a caller draws at random are arguments. `Repeat`, the group that a task changes
for itself, and updates from within a callable are not modelled.
-/

namespace EGServer.Scheduling

/-- What a callable, or the handler of a task, does to the scheduler. -/
inductive Command where
  | async (callable : List Command)
  | schedule (time : Int) (group : Option Nat) (task : List Command)
  | cancelAll
  | cancelGroup (group : Nat)
  | delayAll (duration : Int)
  | delayGroup (group : Nat) (duration : Int)
  | rescheduleAll (duration : Int)
  | rescheduleGroup (group : Nat) (duration : Int)

abbrev Callable := List Command

structure Task where
  group : Option Nat := none
  task : Callable

def Task.isInGroup (task : Task) (group : Nat) : Bool := task.group == some group

/-- A callable that has been submitted. -/
structure Submission where
  /-- Not in the source: how many were submitted before. -/
  number : Nat
  callable : Callable

structure TaskScheduler where
  now : Int := 0
  /-- `_task_holder`: the tasks with their ends. -/
  task_holder : List (Int × Task) := []
  asyncHolder : List Submission := []
  /-- Not in the source: how many callables have been submitted. -/
  submitted : Nat := 0
  /-- Not in the source: the numbers of those that were run. -/
  ran : List Nat := []
  /-- Not in the source: the numbers of those that were cancelled before they were run. -/
  cancelled : List Nat := []

/-- Why a `Dispatch` does not return. -/
inductive DispatchError where
  /-- `pop` on an empty queue. -/
  | emptyQueue
  | outOfFuel
  deriving DecidableEq

namespace TaskScheduler

variable (s : TaskScheduler)

/-! ## Operations -/

def async (callable : Callable) : TaskScheduler :=
  { s with
    asyncHolder := s.asyncHolder ++ [⟨s.submitted, callable⟩]
    submitted := s.submitted + 1 }

def cancelAll : TaskScheduler :=
  { s with
    task_holder := []
    asyncHolder := []
    cancelled := s.cancelled ++ (s.asyncHolder.map (·.number)).filter fun n => n ∉ s.ran }

def cancelGroup (group : Nat) : TaskScheduler :=
  { s with task_holder := s.task_holder.filter fun e => !e.2.isInGroup group }

def insertTask (e : Int × Task) : TaskScheduler :=
  { s with task_holder := insertUpper e s.task_holder }

/-- `ScheduleAt`; a caller that is a task counts from its own end. -/
def scheduleAt (fin time : Int) (group : Option Nat) (task : Callable) : TaskScheduler :=
  s.insertTask (fin + time, { group, task })

/-- `TaskQueue::ModifyIf`: the tasks that are changed are taken out and put in again. -/
def modifyIf (filter : Task → Bool) (newEnd : Int → Int) : TaskScheduler :=
  { s with
    task_holder := ((s.task_holder.filter fun e => filter e.2).map fun e => (newEnd e.1, e.2)).foldl
      (fun holder e => insertUpper e holder) (s.task_holder.filter fun e => !filter e.2) }

/-- One command of a caller that schedules from `fin`. -/
def perform (fin : Int) : Command → TaskScheduler
  | .async callable => s.async callable
  | .schedule time group task => s.scheduleAt fin time group task
  | .cancelAll => s.cancelAll
  | .cancelGroup group => s.cancelGroup group
  | .delayAll duration => s.modifyIf (fun _ => true) (· + duration)
  | .delayGroup group duration => s.modifyIf (·.isInGroup group) (· + duration)
  | .rescheduleAll duration => s.modifyIf (fun _ => true) fun _ => s.now + duration
  | .rescheduleGroup group duration => s.modifyIf (·.isInGroup group) fun _ => s.now + duration

def performAll (fin : Int) (commands : Callable) : TaskScheduler :=
  commands.foldl (fun s command => s.perform fin command) s

/-! ## Dispatching -/

/-- `_asyncHolder.front()()` -/
def invoke (front : Submission) : TaskScheduler :=
  performAll { s with ran := s.ran ++ [front.number] } s.now front.callable

/-- "Process all asyncs"; the answer is whether the validator allows to go on. -/
def processAsyncs (predicate : TaskScheduler → Bool) :
    Nat → TaskScheduler → Except DispatchError (TaskScheduler × Bool)
  | 0, _ => .error .outOfFuel
  | fuel + 1, s =>
    match s.asyncHolder with
    | [] => .ok (s, true)
    | front :: _ =>
      let s := s.invoke front
      -- `_asyncHolder.pop()`
      match s.asyncHolder with
      | [] => .error .emptyQueue
      | _ :: rest =>
        let s := { s with asyncHolder := rest }
        if predicate s then processAsyncs predicate fuel s else .ok (s, false)

/-- The tasks that are due, each popped before it is invoked. -/
def processTasks (predicate : TaskScheduler → Bool) :
    Nat → TaskScheduler → Except DispatchError TaskScheduler
  | 0, _ => .error .outOfFuel
  | fuel + 1, s =>
    match s.task_holder with
    | [] => .ok s
    | e :: rest =>
      if s.now < e.1 then .ok s
      else
        let s := performAll { s with task_holder := rest } e.1 e.2.task
        if predicate s then processTasks predicate fuel s else .ok s

def dispatch (predicate : TaskScheduler → Bool) (fuel : Nat) :
    Except DispatchError TaskScheduler :=
  if predicate s then
    match s.processAsyncs predicate fuel with
    | .error e => .error e
    | .ok (s, true) => s.processTasks predicate fuel
    | .ok (s, false) => .ok s
  else .ok s

/-- `Update(difftime)` -/
def update (predicate : TaskScheduler → Bool) (fuel : Nat) (difftime : Int) :
    Except DispatchError TaskScheduler :=
  dispatch { s with now := s.now + difftime } predicate fuel

end TaskScheduler

end EGServer.Scheduling

/-!
# Running the callables of a task scheduler

Every callable that is submitted has been run, has been cancelled, or is still in the queue, and those
of the first kind were run in the order in which they were submitted. Every operation keeps it so, and
so does `Dispatch`, as long as no callable cancels all tasks while it runs. One that does takes
itself out of the queue, and what is popped behind it is another callable, or nothing.
-/

namespace EGServer.Scheduling

/-! ## Sizes -/

mutual

/-- How many callables and handlers a command brings in, those that they bring in included. -/
def Command.weight : Command → Nat
  | .async callable => Command.weightAll callable + 1
  | .schedule _ _ task => Command.weightAll task + 1
  | _ => 0

def Command.weightAll : List Command → Nat
  | [] => 0
  | command :: commands => command.weight + Command.weightAll commands

end

namespace TaskScheduler

variable {s s' t t' : TaskScheduler} {predicate : TaskScheduler → Bool} {commands : Callable}
  {front : Submission} {fin : Int} {fuel n : Nat}

def queueWeight (s : TaskScheduler) : Nat :=
  (s.asyncHolder.map fun q => Command.weightAll q.callable + 1).sum

def holderWeight (s : TaskScheduler) : Nat :=
  (s.task_holder.map fun e => Command.weightAll e.2.task + 1).sum

/-- The numbers of the callables in the queue. -/
def queued (s : TaskScheduler) : List Nat := s.asyncHolder.map (·.number)

/-! ## What is accounted for -/

/-- **Every callable is accounted for**: those that were not cancelled have been run, or are in the
queue, in the order in which they were submitted. -/
structure Accounted (s : TaskScheduler) : Prop where
  inOrder : s.ran ++ s.queued = (List.range s.submitted).filter fun n => n ∉ s.cancelled
  cancelled_lt : ∀ n ∈ s.cancelled, n < s.submitted

theorem accounted_start (now : Int) : Accounted { now } := by
  refine ⟨rfl, ?_⟩
  intro n hn
  cases hn

namespace Accounted

theorem nodup (h : s.Accounted) : (s.ran ++ s.queued).Nodup := by
  rw [h.inOrder]
  exact List.nodup_range.filter _

theorem lt (h : s.Accounted) (hn : n ∈ s.ran ++ s.queued) : n < s.submitted := by
  rw [h.inOrder] at hn
  exact List.mem_range.mp (List.mem_of_mem_filter hn)

/-- **Once each.** -/
theorem mem_of_lt (h : s.Accounted) (hn : n < s.submitted) (hcancelled : n ∉ s.cancelled) :
    n ∈ s.ran ++ s.queued := by
  rw [h.inOrder, List.mem_filter]
  exact ⟨List.mem_range.mpr hn, decide_eq_true hcancelled⟩

end Accounted

theorem Accounted.append {k : Nat} (h : s.Accounted) (hran : s'.ran ++ s'.queued =
      s.ran ++ s.queued ++ List.range' s.submitted k) (hsubmitted : s'.submitted = s.submitted + k)
    (hcancelled : s'.cancelled = s.cancelled) : s'.Accounted := by
  constructor
  · have hnew : (List.range' s.submitted k).filter (fun n => n ∉ s.cancelled) =
        List.range' s.submitted k := by
      apply List.filter_eq_self.mpr
      intro n hn
      apply decide_eq_true
      intro hmem
      exact Nat.not_lt.mpr (List.mem_range'_1.mp hn).1 (h.cancelled_lt n hmem)
    have hrange : List.range (s.submitted + k) =
        List.range s.submitted ++ List.range' s.submitted k := by
      rw [List.range_eq_range', List.range_eq_range', ← List.range'_append_1, Nat.zero_add]
    rw [hran, hsubmitted, hcancelled, h.inOrder, hrange, List.filter_append, hnew]
  · intro n hn
    rw [hcancelled] at hn
    rw [hsubmitted]
    exact Nat.lt_add_right k (h.cancelled_lt n hn)

/-! ## Commands -/

theorem Accounted.cancelAll (h : s.Accounted) : s.cancelAll.Accounted := by
  constructor
  · show s.ran ++ [] = (List.range s.submitted).filter fun n =>
      n ∉ s.cancelled ++ s.queued.filter fun n => n ∉ s.ran
    have hsplit : ((List.range s.submitted).filter fun n =>
        n ∉ s.cancelled ++ s.queued.filter fun n => n ∉ s.ran) =
          ((List.range s.submitted).filter fun n => n ∉ s.cancelled).filter
            fun n => n ∉ s.queued.filter fun n => n ∉ s.ran := by
      rw [List.filter_filter]
      apply List.filter_congr
      intro n _
      simp [Bool.and_comm]
    have hkept : s.ran.filter (fun n => n ∉ s.queued.filter fun n => n ∉ s.ran) = s.ran := by
      apply List.filter_eq_self.mpr
      intro n hn
      simp [hn]
    have hgone : s.queued.filter (fun n => n ∉ s.queued.filter fun n => n ∉ s.ran) = [] := by
      apply List.filter_eq_nil_iff.mpr
      intro n hn
      have hnot : n ∉ s.ran := fun hran => (List.nodup_append.mp h.nodup).2.2 n hran n hn rfl
      simp [hn, hnot]
    rw [hsplit, ← h.inOrder, List.filter_append, hkept, hgone]
  · intro n hn
    rcases List.mem_append.mp hn with hn | hn
    · exact h.cancelled_lt n hn
    · exact h.lt (List.mem_append_right _ (List.mem_of_mem_filter hn))

theorem perform_clean {command : Command} (h : command ≠ .cancelAll) :
    ∃ new : List Submission, (s.perform fin command).asyncHolder = s.asyncHolder ++ new ∧
      new.map (·.number) = List.range' s.submitted new.length ∧
      (s.perform fin command).submitted = s.submitted + new.length ∧
      (s.perform fin command).ran = s.ran ∧ (s.perform fin command).cancelled = s.cancelled := by
  have hsame : ∃ new : List Submission, s.asyncHolder = s.asyncHolder ++ new ∧
      new.map (·.number) = List.range' s.submitted new.length ∧
      s.submitted = s.submitted + new.length ∧ s.ran = s.ran ∧ s.cancelled = s.cancelled :=
    ⟨[], (List.append_nil _).symm, rfl, rfl, rfl, rfl⟩
  cases command with
  | async callable => exact ⟨[⟨s.submitted, callable⟩], rfl, rfl, rfl, rfl, rfl⟩
  | cancelAll => exact absurd rfl h
  | schedule time group task => exact hsame
  | cancelGroup group => exact hsame
  | delayAll duration => exact hsame
  | delayGroup group duration => exact hsame
  | rescheduleAll duration => exact hsame
  | rescheduleGroup group duration => exact hsame

/-- **Commands of which none cancels all tasks** add callables at the end of the queue. -/
theorem performAll_clean (h : ∀ command ∈ commands, command ≠ .cancelAll) :
    ∃ new : List Submission, (s.performAll fin commands).asyncHolder = s.asyncHolder ++ new ∧
      new.map (·.number) = List.range' s.submitted new.length ∧
      (s.performAll fin commands).submitted = s.submitted + new.length ∧
      (s.performAll fin commands).ran = s.ran ∧
      (s.performAll fin commands).cancelled = s.cancelled := by
  induction commands generalizing s with
  | nil => exact ⟨[], (List.append_nil _).symm, rfl, rfl, rfl, rfl⟩
  | cons command commands ih =>
    obtain ⟨new, hqueue, hnumbers, hsubmitted, hran, hcancelled⟩ :=
      @perform_clean s fin command (h command List.mem_cons_self)
    obtain ⟨new', hqueue', hnumbers', hsubmitted', hran', hcancelled'⟩ :=
      @ih (s.perform fin command) fun c hc => h c (List.mem_cons_of_mem _ hc)
    refine ⟨new ++ new', ?_, ?_, ?_, hran'.trans hran, hcancelled'.trans hcancelled⟩
    · rw [← List.append_assoc, ← hqueue]
      exact hqueue'
    · rw [List.map_append, hnumbers, hnumbers', hsubmitted, List.length_append,
        ← List.range'_append_1]
    · rw [List.length_append, ← Nat.add_assoc, ← hsubmitted]
      exact hsubmitted'

theorem performAll_append (s : TaskScheduler) (fin : Int) (before after : Callable) :
    s.performAll fin (before ++ after) = (s.performAll fin before).performAll fin after :=
  List.foldl_append

/-- **Every operation keeps the callables accounted for.** -/
theorem Accounted.perform (h : s.Accounted) (fin : Int) (command : Command) :
    (s.perform fin command).Accounted := by
  by_cases hcancel : command = .cancelAll
  · rw [hcancel]
    exact h.cancelAll
  · obtain ⟨new, hqueue, hnumbers, hsubmitted, hran, hcancelled⟩ := @perform_clean s fin command hcancel
    refine h.append (k := new.length) ?_ hsubmitted hcancelled
    rw [hran, queued, hqueue, List.map_append, hnumbers, List.append_assoc, queued]

theorem Accounted.performAll (h : s.Accounted) (fin : Int) (commands : Callable) :
    (s.performAll fin commands).Accounted := by
  induction commands generalizing s with
  | nil => exact h
  | cons command commands ih => exact ih (h.perform fin command)

/-! ## The loop over the callables -/

/-- One turn of the loop of `processAsyncs`. -/
def turn (s : TaskScheduler) : Option TaskScheduler :=
  match s.asyncHolder with
  | [] => none
  | front :: _ =>
    match (s.invoke front).asyncHolder with
    | [] => none
    | _ :: rest => some { s.invoke front with asyncHolder := rest }

/-- The states in which the loop takes a turn, or ends. -/
def Reached (predicate : TaskScheduler → Bool) : TaskScheduler → TaskScheduler → Prop :=
  Relation.ReflTransGen fun s t => s.turn = some t ∧ predicate t = true

theorem processAsyncs_nil (h : s.asyncHolder = []) (fuel : Nat) :
    s.processAsyncs predicate (fuel + 1) = .ok (s, true) := by
  rw [processAsyncs, h]

theorem processAsyncs_turn (h : s.turn = some t) (fuel : Nat) :
    s.processAsyncs predicate (fuel + 1) =
      if predicate t then t.processAsyncs predicate fuel else .ok (t, false) := by
  unfold turn at h
  rw [processAsyncs]
  grind

theorem processAsyncs_empty (hqueue : s.asyncHolder = front :: t.asyncHolder) (h : s.turn = none)
    (fuel : Nat) : s.processAsyncs predicate (fuel + 1) = .error .emptyQueue := by
  unfold turn at h
  rw [processAsyncs]
  grind

theorem Reached.processAsyncs (h : Reached predicate s t) :
    ∃ k, ∀ fuel, s.processAsyncs predicate (fuel + k) = t.processAsyncs predicate fuel := by
  induction h using Relation.ReflTransGen.head_induction_on with
  | refl => exact ⟨0, fun _ => rfl⟩
  | head hturn _ ih =>
    obtain ⟨k, hk⟩ := ih
    refine ⟨k + 1, fun fuel => ?_⟩
    rw [← Nat.add_assoc, processAsyncs_turn hturn.1, if_pos hturn.2]
    exact hk fuel

/-- **A turn with a callable that does not cancel all tasks** pops that callable. -/
theorem turn_clean {rest : List Submission} (hqueue : s.asyncHolder = front :: rest)
    (hclean : ∀ command ∈ front.callable, command ≠ .cancelAll) :
    ∃ new : List Submission, s.turn = some { s.invoke front with asyncHolder := rest ++ new } ∧
      (s.invoke front).asyncHolder = front :: rest ++ new ∧
      new.map (·.number) = List.range' s.submitted new.length ∧
      (s.invoke front).submitted = s.submitted + new.length ∧
      (s.invoke front).ran = s.ran ++ [front.number] ∧
      (s.invoke front).cancelled = s.cancelled := by
  obtain ⟨new, hafter, hnumbers, hsubmitted, hran, hcancelled⟩ :=
    @performAll_clean { s with ran := s.ran ++ [front.number] } front.callable s.now hclean
  have hafter : (s.invoke front).asyncHolder = front :: rest ++ new := by
    rw [← hqueue]
    exact hafter
  refine ⟨new, ?_, hafter, hnumbers, hsubmitted, hran, hcancelled⟩
  rw [turn, hqueue]
  dsimp only
  rw [hafter]
  rfl

theorem Accounted.turn {rest new : List Submission} (h : s.Accounted)
    (hqueue : s.asyncHolder = front :: rest)
    (hnumbers : new.map (·.number) = List.range' s.submitted new.length)
    (hsubmitted : (s.invoke front).submitted = s.submitted + new.length)
    (hran : (s.invoke front).ran = s.ran ++ [front.number])
    (hcancelled : (s.invoke front).cancelled = s.cancelled) :
    Accounted { s.invoke front with asyncHolder := rest ++ new } := by
  refine h.append (k := new.length) ?_ hsubmitted hcancelled
  show (s.invoke front).ran ++ (rest ++ new).map (·.number) = _
  rw [hran, List.map_append, hnumbers, queued, hqueue]
  simp

/-! ## Weights -/

theorem weight_insertUpper (e : Int × Task) (l : List (Int × Task)) :
    ((insertUpper e l).map fun e => Command.weightAll e.2.task + 1).sum =
      Command.weightAll e.2.task + 1 + (l.map fun e => Command.weightAll e.2.task + 1).sum := by
  induction l with
  | nil => rfl
  | cons a l ih =>
    grind [insertUpper]

theorem holderWeight_modifyIf (s : TaskScheduler) (filter : Task → Bool) (newEnd : Int → Int) :
    (s.modifyIf filter newEnd).holderWeight = s.holderWeight := by
  have hput : ∀ moved kept : List (Int × Task),
      ((moved.foldl (fun holder e => insertUpper e holder) kept).map
        fun e => Command.weightAll e.2.task + 1).sum =
          (moved.map fun e => Command.weightAll e.2.task + 1).sum +
            (kept.map fun e => Command.weightAll e.2.task + 1).sum := by
    intro moved
    induction moved with
    | nil => simp
    | cons e moved ih =>
      intro kept
      rw [List.foldl_cons, ih, weight_insertUpper, List.map_cons, List.sum_cons]
      omega
  have hsplit : ∀ l : List (Int × Task),
      ((l.filter fun e => filter e.2).map fun e => Command.weightAll e.2.task + 1).sum +
        ((l.filter fun e => !filter e.2).map fun e => Command.weightAll e.2.task + 1).sum =
          (l.map fun e => Command.weightAll e.2.task + 1).sum := by
    intro l
    induction l with
    | nil => rfl
    | cons e l ih =>
      grind
  rw [holderWeight, modifyIf, hput, List.map_map]
  exact hsplit s.task_holder

theorem queueWeight_perform (s : TaskScheduler) (fin : Int) (command : Command) :
    (s.perform fin command).queueWeight ≤ s.queueWeight + command.weight := by
  cases command with
  | async callable =>
    simp [perform, async, queueWeight, Command.weight]
  | cancelAll => exact Nat.zero_le _
  | schedule time group task => exact Nat.le_add_right _ _
  | cancelGroup group => exact Nat.le_refl _
  | delayAll duration => exact Nat.le_refl _
  | delayGroup group duration => exact Nat.le_refl _
  | rescheduleAll duration => exact Nat.le_refl _
  | rescheduleGroup group duration => exact Nat.le_refl _

theorem holderWeight_perform (s : TaskScheduler) (fin : Int) (command : Command) :
    (s.perform fin command).holderWeight ≤ s.holderWeight + command.weight := by
  cases command with
  | async callable => exact Nat.le_add_right _ _
  | cancelAll => exact Nat.zero_le _
  | schedule time group task =>
    have hput := weight_insertUpper (fin + time, { group, task }) s.task_holder
    show ((insertUpper (fin + time, ⟨group, task⟩) s.task_holder).map _).sum ≤ _
    rw [hput, Command.weight, holderWeight, Nat.add_comm]
  | cancelGroup group =>
    show ((s.task_holder.filter fun e => !e.2.isInGroup group).map _).sum ≤ (s.task_holder.map _).sum
    induction s.task_holder with
    | nil => exact Nat.le_refl _
    | cons e holder ih =>
      grind
  | delayAll duration => exact (holderWeight_modifyIf ..).le
  | delayGroup group duration => exact (holderWeight_modifyIf ..).le
  | rescheduleAll duration => exact (holderWeight_modifyIf ..).le
  | rescheduleGroup group duration => exact (holderWeight_modifyIf ..).le

theorem weight_performAll (s : TaskScheduler) (fin : Int) (commands : Callable) :
    (s.performAll fin commands).queueWeight ≤ s.queueWeight + Command.weightAll commands ∧
      (s.performAll fin commands).holderWeight ≤ s.holderWeight + Command.weightAll commands := by
  induction commands generalizing s with
  | nil => exact ⟨Nat.le_refl _, Nat.le_refl _⟩
  | cons command commands ih =>
    grind [performAll, Command.weightAll, holderWeight_perform, queueWeight_perform]

/-! ## The loops end -/

theorem queueWeight_turn {rest new : List Submission}
    (hafter : (s.invoke front).asyncHolder = front :: rest ++ new) :
    queueWeight { s.invoke front with asyncHolder := rest ++ new } < s.queueWeight := by
  -- what the callable has submitted weighs no more than the callable
  have hweight : (s.invoke front).queueWeight ≤ s.queueWeight + Command.weightAll front.callable :=
    (weight_performAll { s with ran := s.ran ++ [front.number] } s.now front.callable).1
  grind [queueWeight]

/-- **The loop over the callables**, when none of those that are run cancels all tasks: it ends, with
every callable accounted for, and goes on until the queue is empty unless the validator fails. -/
theorem processAsyncs_clean (h : s.Accounted)
    (hclean : ∀ t, Reached predicate s t → ∀ front rest, t.asyncHolder = front :: rest →
      ∀ command ∈ front.callable, command ≠ .cancelAll) :
    ∃ t ok, (∀ fuel, s.queueWeight < fuel → s.processAsyncs predicate fuel = .ok (t, ok)) ∧
      t.Accounted ∧ (ok = true → t.asyncHolder = []) := by
  induction hw : s.queueWeight using Nat.strongRecOn generalizing s with
  | ind w ih =>
    subst hw
    have hfuel : ∀ {fuel w : Nat}, w < fuel → ∃ fuel', fuel = fuel' + 1 ∧ w ≤ fuel' :=
      fun h => ⟨_, (Nat.succ_pred_eq_of_pos (Nat.zero_lt_of_lt h)).symm, Nat.le_pred_of_lt h⟩
    cases hqueue : s.asyncHolder with
    | nil =>
      refine ⟨s, true, ?_, h, fun _ => hqueue⟩
      intro fuel hlt
      obtain ⟨fuel, rfl, -⟩ := hfuel hlt
      exact processAsyncs_nil hqueue fuel
    | cons front rest =>
      obtain ⟨new, hturn, hafter, hnumbers, hsubmitted, hran, hcancelled⟩ :=
        turn_clean hqueue (hclean s Relation.ReflTransGen.refl front rest hqueue)
      have hnext := h.turn hqueue hnumbers hsubmitted hran hcancelled
      have hlt := queueWeight_turn hafter
      cases hok : predicate { s.invoke front with asyncHolder := rest ++ new } with
      | false =>
        refine ⟨_, false, ?_, hnext, fun h => nomatch h⟩
        intro fuel hw
        obtain ⟨fuel, rfl, -⟩ := hfuel hw
        rw [processAsyncs_turn hturn, hok]
        rfl
      | true =>
        obtain ⟨t, ok, hrun, ht, hempty⟩ := ih _ hlt hnext
          (fun t ht => hclean t (Relation.ReflTransGen.head ⟨hturn, hok⟩ ht)) rfl
        refine ⟨t, ok, ?_, ht, hempty⟩
        intro fuel hw
        obtain ⟨fuel, rfl, hle⟩ := hfuel hw
        rw [processAsyncs_turn hturn, if_pos hok]
        exact hrun fuel (Nat.lt_of_lt_of_le hlt hle)

/-- **The loop over the tasks** ends, with every callable accounted for. -/
theorem processTasks_spec (predicate : TaskScheduler → Bool) (h : s.Accounted) :
    ∃ t, (∀ fuel, s.holderWeight < fuel → s.processTasks predicate fuel = .ok t) ∧ t.Accounted := by
  induction hw : s.holderWeight using Nat.strongRecOn generalizing s with
  | ind w ih =>
    subst hw
    have hfuel : ∀ {fuel w : Nat}, w < fuel → ∃ fuel', fuel = fuel' + 1 ∧ w ≤ fuel' :=
      fun h => ⟨_, (Nat.succ_pred_eq_of_pos (Nat.zero_lt_of_lt h)).symm, Nat.le_pred_of_lt h⟩
    cases hholder : s.task_holder with
    | nil =>
      refine ⟨s, ?_, h⟩
      intro fuel hlt
      obtain ⟨fuel, rfl, -⟩ := hfuel hlt
      rw [processTasks, hholder]
    | cons e rest =>
      by_cases hdue : s.now < e.1
      · refine ⟨s, ?_, h⟩
        intro fuel hlt
        obtain ⟨fuel, rfl, -⟩ := hfuel hlt
        rw [processTasks, hholder]
        exact if_pos hdue
      · have hpopped : Accounted { s with task_holder := rest } := ⟨h.inOrder, h.cancelled_lt⟩
        have hnext := hpopped.performAll e.1 e.2.task
        have hlt : (performAll { s with task_holder := rest } e.1 e.2.task).holderWeight <
            s.holderWeight := by
          have hweight := (weight_performAll { s with task_holder := rest } e.1 e.2.task).2
          have hbefore : s.holderWeight = Command.weightAll e.2.task + 1 +
              holderWeight { s with task_holder := rest } := by
            rw [holderWeight, hholder]
            rfl
          omega
        have hstep : ∀ fuel, s.processTasks predicate (fuel + 1) =
            if predicate (performAll { s with task_holder := rest } e.1 e.2.task) then
              processTasks predicate fuel (performAll { s with task_holder := rest } e.1 e.2.task)
            else .ok (performAll { s with task_holder := rest } e.1 e.2.task) := by
          intro fuel
          rw [processTasks, hholder]
          exact if_neg hdue
        cases hok : predicate (performAll { s with task_holder := rest } e.1 e.2.task) with
        | false =>
          grind
        | true =>
          obtain ⟨t, hrun, ht⟩ := ih _ hlt hnext rfl
          refine ⟨t, ?_, ht⟩
          intro fuel hw
          obtain ⟨fuel, rfl, hle⟩ := hfuel hw
          rw [hstep, if_pos hok]
          exact hrun fuel (Nat.lt_of_lt_of_le hlt hle)

/-! ## What a callable that cancels all tasks does -/

/-- A callable that has been submitted and is not accounted for any more. -/
structure Lost (b : Nat) (s : TaskScheduler) : Prop where
  lt : b < s.submitted
  notRan : b ∉ s.ran
  notQueued : b ∉ s.queued
  notCancelled : b ∉ s.cancelled

theorem Lost.not_accounted {b : Nat} (h : Lost b s) : ¬s.Accounted := by
  intro ha
  rcases List.mem_append.mp (ha.mem_of_lt h.lt h.notCancelled) with hran | hqueued
  · exact h.notRan hran
  · exact h.notQueued hqueued

theorem Lost.perform {b : Nat} (h : Lost b s) (command : Command) : Lost b (s.perform fin command) := by
  by_cases hcancel : command = .cancelAll
  · rw [hcancel]
    refine ⟨h.lt, h.notRan, List.not_mem_nil, ?_⟩
    intro hmem
    rcases List.mem_append.mp hmem with hmem | hmem
    · exact h.notCancelled hmem
    · exact h.notQueued (List.mem_of_mem_filter hmem)
  · obtain ⟨new, hqueue, hnumbers, hsubmitted, hran, hcancelled⟩ := @perform_clean s fin command hcancel
    refine ⟨?_, ?_, ?_, ?_⟩
    · rw [hsubmitted]
      exact Nat.lt_add_right _ h.lt
    · rw [hran]
      exact h.notRan
    · rw [queued, hqueue, List.map_append, hnumbers]
      intro hmem
      rcases List.mem_append.mp hmem with hmem | hmem
      · exact h.notQueued hmem
      · exact Nat.not_le.mpr h.lt (List.mem_range'_1.mp hmem).1
    · rw [hcancelled]
      exact h.notCancelled

theorem Lost.performAll {b : Nat} (h : Lost b s) : Lost b (s.performAll fin commands) := by
  induction commands generalizing s with
  | nil => exact h
  | cons command commands ih => exact ih (h.perform command)

theorem Lost.turn {b : Nat} (h : Lost b s) (hturn : s.turn = some t) : Lost b t := by
  unfold TaskScheduler.turn at hturn
  cases hqueue : s.asyncHolder with
  | nil =>
    rw [hqueue] at hturn
    cases hturn
  | cons front rest =>
    rw [hqueue] at hturn
    dsimp only at hturn
    have hfront : b ≠ front.number := by
      intro hb
      apply h.notQueued
      rw [queued, hqueue, hb]
      exact List.mem_cons_self
    have hrun : Lost b (s.invoke front) := by
      refine Lost.performAll (s := { s with ran := s.ran ++ [front.number] }) ⟨h.lt, ?_, h.notQueued,
        h.notCancelled⟩
      intro hmem
      rcases List.mem_append.mp hmem with hmem | hmem
      · exact h.notRan hmem
      · exact hfront (List.mem_singleton.mp hmem)
    cases hafter : (s.invoke front).asyncHolder with
    | nil =>
      rw [hafter] at hturn
      cases hturn
    | cons popped rest' =>
      rw [hafter] at hturn
      cases hturn
      refine ⟨hrun.lt, hrun.notRan, ?_, hrun.notCancelled⟩
      intro hmem
      apply hrun.notQueued
      rw [queued, hafter]
      exact List.mem_cons_of_mem _ hmem

theorem Lost.processAsyncs {b : Nat} {ok : Bool} (h : Lost b s)
    (hrun : s.processAsyncs predicate fuel = .ok (t, ok)) : Lost b t := by
  induction fuel generalizing s with
  | zero => cases hrun
  | succ fuel ih =>
    cases hqueue : s.asyncHolder with
    | nil =>
      rw [processAsyncs_nil hqueue] at hrun
      cases hrun
      exact h
    | cons front rest =>
      cases hturn : s.turn with
      | none =>
        rw [processAsyncs_empty (t := { s with asyncHolder := rest }) hqueue hturn] at hrun
        cases hrun
      | some s' =>
        rw [processAsyncs_turn hturn] at hrun
        split at hrun
        · exact ih (h.turn hturn) hrun
        · cases hrun
          exact h.turn hturn

/-- The numbers in the queue, and of what was cancelled, have been given out. -/
structure Numbered (s : TaskScheduler) : Prop where
  queued_lt : ∀ n ∈ s.queued, n < s.submitted
  cancelled_lt : ∀ n ∈ s.cancelled, n < s.submitted

theorem Numbered.perform (h : s.Numbered) (fin : Int) (command : Command) :
    (s.perform fin command).Numbered ∧ (s.perform fin command).ran = s.ran ∧
      s.submitted ≤ (s.perform fin command).submitted := by
  by_cases hcancel : command = .cancelAll
  · rw [hcancel]
    refine ⟨⟨?_, ?_⟩, rfl, Nat.le_refl _⟩
    · intro n hn
      cases hn
    · intro n hn
      rcases List.mem_append.mp hn with hn | hn
      · exact h.cancelled_lt n hn
      · exact h.queued_lt n (List.mem_of_mem_filter hn)
  · obtain ⟨new, hqueue, hnumbers, hsubmitted, hran, hcancelled⟩ := @perform_clean s fin command hcancel
    refine ⟨⟨?_, ?_⟩, hran, hsubmitted ▸ Nat.le_add_right _ _⟩
    · intro n hn
      rw [queued, hqueue, List.map_append, hnumbers] at hn
      rw [hsubmitted]
      rcases List.mem_append.mp hn with hn | hn
      · exact Nat.lt_add_right _ (h.queued_lt n hn)
      · exact (List.mem_range'_1.mp hn).2
    · intro n hn
      rw [hcancelled] at hn
      rw [hsubmitted]
      exact Nat.lt_add_right _ (h.cancelled_lt n hn)

theorem Numbered.performAll (h : s.Numbered) (fin : Int) (commands : Callable) :
    (s.performAll fin commands).Numbered ∧ (s.performAll fin commands).ran = s.ran ∧
      s.submitted ≤ (s.performAll fin commands).submitted := by
  induction commands generalizing s with
  | nil => exact ⟨h, rfl, Nat.le_refl _⟩
  | cons command commands ih =>
    obtain ⟨hnext, hran, hle⟩ := h.perform fin command
    obtain ⟨hlast, hran', hle'⟩ := ih hnext
    exact ⟨hlast, hran'.trans hran, hle.trans hle'⟩

theorem exists_last_cancel (h : .cancelAll ∈ commands) :
    ∃ before after : Callable, commands = before ++ .cancelAll :: after ∧
      ∀ command ∈ after, command ≠ .cancelAll := by
  induction commands with
  | nil => cases h
  | cons command commands ih =>
    by_cases hlater : .cancelAll ∈ commands
    · obtain ⟨before, after, rfl, hafter⟩ := ih hlater
      exact ⟨command :: before, after, rfl, hafter⟩
    · refine ⟨[], commands, ?_, fun c hc heq => hlater (heq ▸ hc)⟩
      rw [(List.mem_cons.mp h).resolve_right hlater]
      rfl

/-- **Commands that cancel all tasks** leave in the queue what was submitted behind the last such
command. -/
theorem queued_of_cancels (h : s.Numbered) (hcancels : .cancelAll ∈ commands) :
    ∃ first k, (s.performAll fin commands).queued = List.range' first k ∧ s.submitted ≤ first ∧
      (s.performAll fin commands).submitted = first + k ∧
      (s.performAll fin commands).ran = s.ran ∧
      ∀ n ∈ (s.performAll fin commands).cancelled, n < first := by
  obtain ⟨before, after, rfl, hafter⟩ := exists_last_cancel hcancels
  obtain ⟨hbefore, hran, hle⟩ := h.performAll fin before
  obtain ⟨hcancel, -, -⟩ := hbefore.perform fin .cancelAll
  have hsplit : s.performAll fin (before ++ .cancelAll :: after) =
      (s.performAll fin before).cancelAll.performAll fin after := performAll_append ..
  obtain ⟨new, hqueue, hnumbers, hsubmitted, hran', hcancelled⟩ :=
    @performAll_clean (s.performAll fin before).cancelAll after fin hafter
  rw [hsplit]
  refine ⟨(s.performAll fin before).submitted, new.length, ?_, hle, hsubmitted, hran'.trans hran, ?_⟩
  · rw [queued, hqueue]
    exact hnumbers
  · intro n hn
    rw [hcancelled] at hn
    exact hcancel.cancelled_lt n hn

/-- **A turn with a callable that cancels all tasks** pops from an empty queue, or loses a
callable. -/
theorem turn_of_cancels {rest : List Submission} (h : s.Accounted)
    (hqueue : s.asyncHolder = front :: rest) (hcancels : .cancelAll ∈ front.callable) :
    s.turn = none ∨ ∃ b t, s.turn = some t ∧ Lost b t := by
  have hqueued : ∀ n ∈ s.queued, n < s.submitted := fun n hn => h.lt (List.mem_append_right _ hn)
  obtain ⟨first, k, hnumbers, hle, hsubmitted, hran, hcancelled⟩ :=
    @queued_of_cancels { s with ran := s.ran ++ [front.number] } front.callable s.now
      ⟨hqueued, h.cancelled_lt⟩ hcancels
  have hnumbers : (s.invoke front).queued = List.range' first k := hnumbers
  have hsubmitted : (s.invoke front).submitted = first + k := hsubmitted
  have hran : (s.invoke front).ran = s.ran ++ [front.number] := hran
  have hcancelled : ∀ n ∈ (s.invoke front).cancelled, n < first := hcancelled
  rw [turn, hqueue]
  dsimp only
  cases hafter : (s.invoke front).asyncHolder with
  | nil => exact Or.inl rfl
  | cons popped rest' =>
    rw [queued, hafter, List.map_cons] at hnumbers
    cases k with
    | zero => cases hnumbers
    | succ k =>
      rw [List.range'_succ] at hnumbers
      obtain ⟨hpopped, hrest⟩ := List.cons.inj hnumbers
      refine Or.inr ⟨first, _, rfl, ?_, ?_, ?_, ?_⟩
      · show first < (s.invoke front).submitted
        omega
      · show first ∉ (s.invoke front).ran
        rw [hran]
        intro hmem
        have hlt : first < s.submitted := by
          rcases List.mem_append.mp hmem with hmem | hmem
          · exact h.lt (List.mem_append_left _ hmem)
          · grind [List.mem_cons_self, queued]
        exact Nat.not_lt.mpr hle hlt
      · show first ∉ rest'.map (·.number)
        rw [hrest]
        intro hmem
        exact Nat.not_succ_le_self _ (List.mem_range'_1.mp hmem).1
      · intro hmem
        exact Nat.lt_irrefl _ (hcancelled first hmem)

/-! ## Dispatching -/

/-- **The queue survives a `Dispatch`**: it returns with every callable accounted for, and unless the
validator fails, the loop over the callables goes on until the queue is empty. -/
def Survives (predicate : TaskScheduler → Bool) (s : TaskScheduler) : Prop :=
  ∃ s' n, (∀ fuel, n ≤ fuel → s.dispatch predicate fuel = .ok s') ∧ s'.Accounted ∧
    (predicate s = true → ∃ t ok, (∀ fuel, n ≤ fuel → s.processAsyncs predicate fuel = .ok (t, ok)) ∧
      t.Accounted ∧ (ok = true → t.asyncHolder = []))

/-- No callable that the loop runs cancels all tasks. -/
def NeverCancels (predicate : TaskScheduler → Bool) (s : TaskScheduler) : Prop :=
  predicate s = true → ∀ t, Reached predicate s t → ∀ front rest, t.asyncHolder = front :: rest →
    ∀ command ∈ front.callable, command ≠ .cancelAll

theorem Reached.lost_or_accounted (h : Reached predicate s t) (ha : s.Accounted) :
    t.Accounted ∨ ∃ b, Lost b t := by
  induction h with
  | refl => exact Or.inl ha
  | @tail t t' _ hturn ih =>
    rcases ih with ht | ⟨b, hlost⟩
    · cases hqueue : t.asyncHolder with
      | nil =>
        have hnone : t.turn = none := by rw [turn, hqueue]
        rw [hnone] at hturn
        cases hturn.1
      | cons front rest =>
        by_cases hcancels : .cancelAll ∈ front.callable
        · grind [turn_of_cancels]
        · obtain ⟨new, hsome, -, hnumbers, hsubmitted, hran, hcancelled⟩ :=
            turn_clean hqueue fun c hc heq => hcancels (heq ▸ hc)
          cases hsome.symm.trans hturn.1
          exact Or.inl (ht.turn hqueue hnumbers hsubmitted hran hcancelled)
    · exact Or.inr ⟨b, hlost.turn hturn.1⟩

theorem neverCancels_of_survives (h : s.Accounted) (hsurvives : s.Survives predicate) :
    s.NeverCancels predicate := by
  intro hok t ht front rest hqueue command hcommand hcancel
  obtain ⟨-, n, -, -, hasyncs⟩ := hsurvives
  obtain ⟨t', ok, hrun, ht', -⟩ := hasyncs hok
  -- from `t` on the loop ends in the same state
  obtain ⟨k, hk⟩ := ht.processAsyncs
  have hend : t.processAsyncs predicate (n + 1) = .ok (t', ok) := by
    rw [← hk]
    exact hrun _ (by omega)
  rcases ht.lost_or_accounted h with hacc | ⟨b, hlost⟩
  · rcases turn_of_cancels hacc hqueue (hcancel ▸ hcommand) with hnone | ⟨b, t'', hsome, hlost⟩
    · rw [processAsyncs_empty (t := { t with asyncHolder := rest }) hqueue hnone] at hend
      cases hend
    · rw [processAsyncs_turn hsome] at hend
      split at hend
      · exact (hlost.processAsyncs hend).not_accounted ht'
      · cases hend
        exact hlost.not_accounted ht'
  · exact (hlost.processAsyncs hend).not_accounted ht'

end TaskScheduler

end EGServer.Scheduling
