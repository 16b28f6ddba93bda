import EGServer.Lib.CyclicRun
import Mathlib.Data.UInt
import Mathlib.Tactic.Common

/-!
# The event logs of a guild

A `LogHolder` keeps the newest entries in memory, the oldest first, and numbers them in a circle;
their rows in the database are keyed by that number, and a new entry overwrites the row of its
number. `Ring` relates the three: the numbers in memory are a cyclic run, the next one follows
it, and the rows are the entries.
-/

namespace EGServer.Guilds

def GUILD_EVENT_LOG_GUID_UNDEFINED : UInt32 := 0xFFFFFFFF

/-- An entry and its row; `key` is the rest of the primary key: the guild, and for a bank log the
tab. -/
structure LogEntry (κ δ : Type) where
  key : κ
  guid : UInt32
  data : δ
deriving DecidableEq

structure LogHolder (κ δ : Type) where
  log : List (LogEntry κ δ)
  maxRecords : UInt32
  nextGUID : UInt32

variable {κ δ : Type}

namespace LogHolder

def new (maxRecords : UInt32) : LogHolder κ δ where
  log := []
  maxRecords
  nextGUID := GUILD_EVENT_LOG_GUID_UNDEFINED

def canInsert (h : LogHolder κ δ) : Bool := h.log.length < h.maxRecords.toNat

def loadEvent (newEntry : LogEntry κ δ) (h : LogHolder κ δ) : LogHolder κ δ :=
  { h with
    log := newEntry :: h.log,
    nextGUID :=
      if h.nextGUID = GUILD_EVENT_LOG_GUID_UNDEFINED then newEntry.guid else h.nextGUID }

/-- `LoadEventLogFromDB`, for each row in turn. -/
def loadFromDB (maxRecords : UInt32) (rows : List (LogEntry κ δ)) : LogHolder κ δ :=
  rows.foldl (fun h row => if h.canInsert then h.loadEvent row else h) (new maxRecords)

/-- A division by 0 is `none`. -/
def getNextGUID (h : LogHolder κ δ) : Option (UInt32 × LogHolder κ δ) :=
  if h.nextGUID = GUILD_EVENT_LOG_GUID_UNDEFINED then some (0, { h with nextGUID := 0 })
  else if h.maxRecords = 0 then none
  else
    let next := (h.nextGUID + 1) % h.maxRecords
    some (next, { h with nextGUID := next })

/-- `AddEvent` first drops the oldest entry of a full log; `pop_front` on an empty list is `none`. -/
def makeRoom (h : LogHolder κ δ) : Option (List (LogEntry κ δ)) :=
  if h.canInsert then some h.log else h.log.tail?

end LogHolder

variable [DecidableEq κ]

/-- `SaveToDB`: the row with the same primary key is deleted first. -/
def saveToDB (entry : LogEntry κ δ) (table : List (LogEntry κ δ)) : List (LogEntry κ δ) :=
  table.filter (fun row => ¬(row.key = entry.key ∧ row.guid = entry.guid)) ++ [entry]

/-- A log in memory and the table it is saved to. -/
structure LogStore (κ δ : Type) where
  holder : LogHolder κ δ
  table : List (LogEntry κ δ)

namespace LogStore

def addEvent (entry : LogEntry κ δ) (s : LogStore κ δ) : Option (LogStore κ δ) := do
  let log ← s.holder.makeRoom
  return { holder := { s.holder with log := log ++ [entry] }, table := saveToDB entry s.table }

/-- `_LogEvent`, `_LogBankEvent`. -/
def logEvent (key : κ) (s : LogStore κ δ) (data : δ) : Option (LogStore κ δ) := do
  let (guid, holder) ← s.holder.getNextGUID
  { s with holder }.addEvent ⟨key, guid, data⟩

/-- The rows of one log. -/
def rowsOf (key : κ) (s : LogStore κ δ) : List (LogEntry κ δ) := s.table.filter (·.key = key)

/-- The rows of all other logs. -/
def others (key : κ) (s : LogStore κ δ) : List (LogEntry κ δ) := s.table.filter (·.key ≠ key)

/-- The row an entry numbered `guid` overwrites. -/
def overwritten (key : κ) (guid : UInt32) (s : LogStore κ δ) : List (LogEntry κ δ) :=
  s.table.filter fun row => row.key = key ∧ row.guid = guid

end LogStore

/-! ## The rows -/

theorem rows_filter (table : List (LogEntry κ δ)) (key : κ) (p : LogEntry κ δ → Prop)
    [DecidablePred p] :
    (table.filter (·.key = key)).filter (p ·) = table.filter (fun row => row.key = key ∧ p row) := by
  rw [List.filter_filter]
  apply List.filter_congr
  simp [and_comm]

theorem rows_saveToDB (key : κ) (guid : UInt32) (data : δ) (table : List (LogEntry κ δ)) :
    (saveToDB ⟨key, guid, data⟩ table).filter (·.key = key) =
      (table.filter (·.key = key)).filter (·.guid ≠ guid) ++ [⟨key, guid, data⟩] := by
  rw [saveToDB, List.filter_append, rows_filter, List.filter_filter]
  congr 1
  · apply List.filter_congr
    grind
  · simp

theorem others_saveToDB (key : κ) (guid : UInt32) (data : δ) (table : List (LogEntry κ δ)) :
    (saveToDB ⟨key, guid, data⟩ table).filter (·.key ≠ key) = table.filter (·.key ≠ key) := by
  have hnone : [(⟨key, guid, data⟩ : LogEntry κ δ)].filter (·.key ≠ key) = [] := by simp
  rw [saveToDB, List.filter_append, List.filter_filter, hnone, List.append_nil]
  apply List.filter_congr
  grind

/-! ## The invariant -/

/-- The numbers of entries, the oldest first. -/
def guids (log : List (LogEntry κ δ)) : List Nat := log.map (·.guid.toNat)

/-- **The log invariant.** -/
structure Ring (max : UInt32) (key : κ) (start : Nat) (s : LogStore κ δ) : Prop where
  records : s.holder.maxRecords = max
  room : s.holder.log.length ≤ max.toNat
  run : guids s.holder.log = cyclicRun max.toNat start s.holder.log.length
  /-- the next number follows the run -/
  next : ∃ guid, s.holder.getNextGUID = some (guid, { s.holder with nextGUID := guid }) ∧
    guid.toNat = (start + s.holder.log.length) % max.toNat
  saved : (s.rowsOf key).Perm s.holder.log

variable {max : UInt32} {key : κ} {start : Nat} {s : LogStore κ δ}

omit [DecidableEq κ] in
theorem getNextGUID_defined {h : LogHolder κ δ} (hlt : h.nextGUID.toNat < h.maxRecords.toNat) :
    ∃ guid, h.getNextGUID = some (guid, { h with nextGUID := guid }) ∧
      guid.toNat = (h.nextGUID.toNat + 1) % h.maxRecords.toNat := by
  have hbound := h.maxRecords.toNat_lt
  -- the undefined number is the greatest one, and no remainder
  have hdefined : h.nextGUID ≠ GUILD_EVENT_LOG_GUID_UNDEFINED := by
    rintro heq
    have hvalue := congrArg UInt32.toNat heq
    have hundefined : GUILD_EVENT_LOG_GUID_UNDEFINED.toNat = 2 ^ 32 - 1 := rfl
    omega
  have hpositive : h.maxRecords ≠ 0 := by
    rintro heq
    rw [heq] at hlt
    exact Nat.not_lt_zero _ hlt
  refine ⟨(h.nextGUID + 1) % h.maxRecords, ?_, ?_⟩
  · rw [LogHolder.getNextGUID, if_neg hdefined, if_neg hpositive]
  · have hone : (1 : UInt32).toNat = 1 := rfl
    rw [UInt32.toNat_mod, UInt32.toNat_add, hone, Nat.mod_eq_of_lt (by omega : _ < 2 ^ 32)]

omit [DecidableEq κ] in
theorem loadFromDB_concat (rows : List (LogEntry κ δ)) (row : LogEntry κ δ) :
    LogHolder.loadFromDB max (rows ++ [row]) =
      if (LogHolder.loadFromDB max rows).canInsert then
        (LogHolder.loadFromDB max rows).loadEvent row
      else LogHolder.loadFromDB max rows := by
  rw [LogHolder.loadFromDB, List.foldl_append]
  rfl

omit [DecidableEq κ] in
theorem loadFromDB_eq {rows : List (LogEntry κ δ)} (hroom : rows.length ≤ max.toNat)
    (hlt : ∀ row ∈ rows, row.guid.toNat < max.toNat) :
    LogHolder.loadFromDB max rows = ⟨rows.reverse, max,
      (rows.head?.map (·.guid)).getD GUILD_EVENT_LOG_GUID_UNDEFINED⟩ := by
  induction rows using List.reverseRecOn with
  | nil => rfl
  | append_singleton rows row ih =>
    rw [List.length_append, List.length_singleton] at hroom
    rw [loadFromDB_concat, ih (by omega) fun r hr => hlt r (List.mem_append_left _ hr), if_pos]
    · -- the newest row is read first, and sets the number
      cases rows with
      | nil => rfl
      | cons first rows =>
        have hfirst := hlt first (by simp)
        have hbound := max.toNat_lt
        have hdefined : first.guid ≠ GUILD_EVENT_LOG_GUID_UNDEFINED := by
          rintro heq
          have hvalue : first.guid.toNat = 2 ^ 32 - 1 := congrArg UInt32.toNat heq
          omega
        simp [LogHolder.loadEvent, hdefined]
    · simp only [LogHolder.canInsert, List.length_reverse, decide_eq_true_eq]
      exact hroom

theorem ring_load {table rows : List (LogEntry κ δ)} (hmax : 1 ≤ max.toNat)
    (hroom : rows.length ≤ max.toNat) (hrows : (table.filter (·.key = key)).Perm rows)
    (hrun : guids rows.reverse = cyclicRun max.toNat start rows.length) :
    ∃ start, Ring max key start ⟨LogHolder.loadFromDB max rows, table⟩ := by
  have hlt : ∀ row ∈ rows, row.guid.toNat < max.toNat := by
    intro row hrow
    apply @CyclicRun.lt _ start rows.length hmax
    rw [← hrun]
    exact List.mem_map_of_mem (List.mem_reverse.mpr hrow)
  have hload := loadFromDB_eq hroom hlt
  have hsaved : (table.filter (·.key = key)).Perm rows.reverse :=
    hrows.trans (List.reverse_perm rows).symm
  cases rows with
  | nil =>
    refine ⟨0, ⟨rfl, hroom, rfl, ⟨0, rfl, ?_⟩, hsaved⟩⟩
    exact (Nat.zero_mod _).symm
  | cons newest rows =>
    have hnewest : newest.guid.toNat = (start + rows.length) % max.toNat := by
      rw [List.length_cons, CyclicRun.concat, List.reverse_cons, guids, List.map_append] at hrun
      exact (List.cons.inj (List.append_inj_right' hrun rfl)).1
    refine ⟨start, ?_⟩
    rw [hload]
    refine ⟨rfl, ?_, ?_, ?_, hsaved⟩
    · rw [List.length_reverse]
      exact hroom
    · rw [List.length_reverse]
      exact hrun
    · obtain ⟨guid, hguid, hvalue⟩ := getNextGUID_defined
        (h := ⟨(newest :: rows).reverse, max, newest.guid⟩) (hlt newest List.mem_cons_self)
      refine ⟨guid, hguid, hvalue.trans ?_⟩
      rw [List.length_reverse, List.length_cons, ← Nat.add_assoc]
      show (newest.guid.toNat + 1) % max.toNat = _
      rw [hnewest, Nat.mod_add_mod]

/-- What `AddEvent` drops, and what it keeps. -/
def dropped (h : LogHolder κ δ) : List (LogEntry κ δ) := if h.canInsert then [] else h.log.take 1

omit [DecidableEq κ] in
theorem perm_dropped {h : LogHolder κ δ} {l : List (LogEntry κ δ)} (hperm : l.Perm (dropped h)) :
    l = dropped h := by
  rw [dropped] at hperm ⊢
  by_cases hcan : h.canInsert = true
  · rw [if_pos hcan] at hperm ⊢
    exact hperm.eq_nil
  · rw [if_neg hcan, List.take_one] at hperm ⊢
    cases hhead : h.log.head? with
    | none => exact (hhead ▸ hperm).eq_nil
    | some e => exact (hhead ▸ hperm).eq_singleton

omit [DecidableEq κ] in
theorem guids_append (log log' : List (LogEntry κ δ)) :
    guids (log ++ log') = guids log ++ guids log' := List.map_append

namespace Ring

/-- **One insertion's place in the circle**: what is dropped has the number that comes next, what is
kept has not, and is a run that this number continues. -/
theorem place (h : Ring max key start s) (hmax : 1 ≤ max.toNat) :
    ∃ kept start', s.holder.log = dropped s.holder ++ kept ∧
      s.holder.makeRoom = some kept ∧
      kept.length + 1 ≤ max.toNat ∧ guids kept = cyclicRun max.toNat start' kept.length ∧
      (start' + kept.length) % max.toNat = (start + s.holder.log.length) % max.toNat ∧
      ∀ e ∈ dropped s.holder, e.guid.toNat = (start + s.holder.log.length) % max.toNat := by
  have hroom := h.room
  by_cases hcan : s.holder.canInsert = true
  · -- there is room, and nothing is dropped
    rw [dropped, LogHolder.makeRoom, if_pos hcan, if_pos hcan]
    have hlt : s.holder.log.length < s.holder.maxRecords.toNat := of_decide_eq_true hcan
    rw [h.records] at hlt
    exact ⟨s.holder.log, start, rfl, rfl, hlt, h.run, rfl, by simp⟩
  · -- the oldest entry of a full log is dropped; a turn round the circle ends with its number
    rw [dropped, LogHolder.makeRoom, if_neg hcan, if_neg hcan]
    have hfull : ¬s.holder.log.length < s.holder.maxRecords.toNat := fun hlt =>
      hcan (decide_eq_true hlt)
    rw [h.records] at hfull
    have hrun := h.run
    cases hlog : s.holder.log with
    | nil =>
      rw [hlog, List.length_nil] at hfull
      omega
    | cons oldest kept =>
      rw [hlog, List.length_cons] at hroom hfull hrun
      rw [CyclicRun.cons] at hrun
      obtain ⟨hhead, htail⟩ := List.cons.inj hrun
      refine ⟨kept, start + 1, rfl, rfl, hroom, htail, ?_, ?_⟩
      · rw [List.length_cons]
        congr 1
        omega
      · rintro e he
        rw [List.take_one, List.head?_cons, Option.toList_some, List.mem_singleton] at he
        rw [he, List.length_cons]
        refine hhead.trans ?_
        rw [show start + (kept.length + 1) = start + max.toNat by omega,
          CyclicRun.next_full]

omit [DecidableEq κ] in
theorem notMem_kept {kept : List (LogEntry κ δ)} {guid : UInt32}
    (hroom : kept.length + 1 ≤ max.toNat) (hrun : guids kept = cyclicRun max.toNat start kept.length)
    (hguid : guid.toNat = (start + kept.length) % max.toNat) : ∀ e ∈ kept, e.guid ≠ guid := by
  have hnodup : (cyclicRun max.toNat start (kept.length + 1)).Nodup := CyclicRun.nodup hroom
  rw [CyclicRun.concat, ← hrun, ← hguid] at hnodup
  rintro e he heq
  refine List.disjoint_of_nodup_append hnodup (List.mem_map_of_mem he) ?_
  rw [heq]
  exact List.mem_singleton_self _

theorem insertion (h : Ring max key start s) (hmax : 1 ≤ max.toNat) :
    ∃ guid kept start', s.holder.getNextGUID = some (guid, { s.holder with nextGUID := guid }) ∧
      s.holder.makeRoom = some kept ∧ kept.length + 1 ≤ max.toNat ∧
      guids kept = cyclicRun max.toNat start' kept.length ∧
      guid.toNat = (start' + kept.length) % max.toNat ∧
      ((s.rowsOf key).filter (·.guid ≠ guid)).Perm kept ∧
      s.overwritten key guid = dropped s.holder := by
  obtain ⟨guid, hnext, hvalue⟩ := h.next
  obtain ⟨kept, start', hlog, hadd, hroom, hrun, hplace, hdropped⟩ := h.place hmax
  have hguid := hvalue.trans hplace.symm
  have hkept : ∀ e ∈ kept, e.guid ≠ guid := notMem_kept hroom hrun hguid
  have hdropped : ∀ e ∈ dropped s.holder, e.guid = guid := fun e he =>
    UInt32.toNat_inj.mp ((hdropped e he).trans hvalue.symm)
  -- of the rows as of the entries: those dropped have the new number, those kept have not
  have hrows (p : LogEntry κ δ → Bool) :
      ((s.rowsOf key).filter p).Perm ((dropped s.holder).filter p ++ kept.filter p) := by
    rw [← List.filter_append, ← hlog]
    exact h.saved.filter p
  refine ⟨guid, kept, start', hnext, hadd, hroom, hrun, hguid, ?_, ?_⟩
  · have hnone : (dropped s.holder).filter (·.guid ≠ guid) = [] :=
      List.filter_eq_nil_iff.mpr fun e he => by simp [hdropped e he]
    have hall : kept.filter (·.guid ≠ guid) = kept :=
      List.filter_eq_self.mpr fun e he => by simp [hkept e he]
    have hperm := hrows (·.guid ≠ guid)
    rwa [hnone, hall, List.nil_append] at hperm
  · have hall : (dropped s.holder).filter (·.guid = guid) = dropped s.holder :=
      List.filter_eq_self.mpr fun e he => by simp [hdropped e he]
    have hnone : kept.filter (·.guid = guid) = [] :=
      List.filter_eq_nil_iff.mpr fun e he => by simp [hkept e he]
    have hperm := hrows (·.guid = guid)
    rw [hall, hnone, List.append_nil] at hperm
    rw [LogStore.overwritten, ← rows_filter]
    exact perm_dropped hperm

/-- **An insertion** keeps the invariant and the rows of other logs. -/
theorem logEvent (h : Ring max key start s) (hmax : 1 ≤ max.toNat) (data : δ) :
    ∃ s' start', s.logEvent key data = some s' ∧ Ring max key start' s' ∧
      s'.others key = s.others key := by
  obtain ⟨guid, kept, start', hnext, hadd, hroom, hrun, hguid, hrows, -⟩ := h.insertion hmax
  have hlt : guid.toNat < max.toNat := hguid ▸ Nat.mod_lt _ hmax
  let holder : LogHolder κ δ := { s.holder with nextGUID := guid, log := kept ++ [⟨key, guid, data⟩] }
  refine ⟨⟨holder, saveToDB ⟨key, guid, data⟩ s.table⟩, start', ?_, ⟨h.records, ?_, ?_, ?_, ?_⟩,
    others_saveToDB key guid data s.table⟩
  · rw [LogStore.logEvent, hnext]
    show s.holder.makeRoom.bind _ = _
    rw [hadd]
    rfl
  · rw [List.length_append]
    exact hroom
  · show guids (kept ++ [_]) = cyclicRun max.toNat start' (kept ++ [_]).length
    rw [guids_append, hrun, List.length_append, List.length_singleton, CyclicRun.concat, ← hguid]
    rfl
  · have hrecords : holder.maxRecords = max := h.records
    obtain ⟨guid', hguid', hvalue⟩ := getNextGUID_defined (h := holder) (hrecords ▸ hlt)
    refine ⟨guid', hguid', hvalue.trans ?_⟩
    show (guid.toNat + 1) % holder.maxRecords.toNat = (start' + (kept ++ [_]).length) % max.toNat
    rw [hrecords, hguid, Nat.mod_add_mod, List.length_append, Nat.add_assoc]
    rfl
  · show ((saveToDB _ _).filter _).Perm (kept ++ [_])
    rw [rows_saveToDB]
    exact hrows.append_right _

end Ring

/-! ## Every run -/

/-- Events in turn. -/
def LogStore.logEvents (key : κ) (s : LogStore κ δ) (events : List δ) : Option (LogStore κ δ) :=
  events.foldlM (LogStore.logEvent key) s

theorem Ring.logEvents (hmax : 1 ≤ max.toNat) (events : List δ) (h : Ring max key start s) :
    ∃ s' start', s.logEvents key events = some s' ∧ Ring max key start' s' ∧
      s'.others key = s.others key := by
  induction events generalizing s start with
  | nil => exact ⟨s, start, rfl, h, rfl⟩
  | cons data events ih =>
    obtain ⟨s₁, start₁, hs₁, h₁, hothers₁⟩ := h.logEvent hmax data
    obtain ⟨s₂, start₂, hs₂, h₂, hothers₂⟩ := ih h₁
    refine ⟨s₂, start₂, ?_, h₂, hothers₂.trans hothers₁⟩
    rw [LogStore.logEvents, List.foldlM_cons, hs₁]
    exact hs₂

/-- **The log rings.** After any events, on rows loaded that were a cyclic run: no number is held
twice, the rows of the log are its entries, and the row the next insertion overwrites is that of the
entry it drops. The rows of other logs stay as they are. -/
theorem log_ring (max : UInt32) (hmax : 1 ≤ max.toNat) (key : κ) (table rows : List (LogEntry κ δ))
    (hrows : (table.filter (·.key = key)).Perm rows) (hroom : rows.length ≤ max.toNat)
    (start : Nat) (hrun : guids rows.reverse = cyclicRun max.toNat start rows.length)
    (events : List δ) :
    ∃ s, LogStore.logEvents key ⟨LogHolder.loadFromDB max rows, table⟩ events = some s ∧
      s.holder.log.length ≤ max.toNat ∧ (s.holder.log.map (·.guid)).Nodup ∧
      (s.rowsOf key).Perm s.holder.log ∧ s.others key = table.filter (·.key ≠ key) ∧
      ∃ guid holder, s.holder.getNextGUID = some (guid, holder) ∧
        s.overwritten key guid = dropped s.holder := by
  obtain ⟨start, hload⟩ := ring_load hmax hroom hrows hrun
  obtain ⟨s, start', hs, h, hothers⟩ := hload.logEvents hmax events
  obtain ⟨guid, -, -, hnext, -, -, -, -, -, hrow⟩ := h.insertion hmax
  have hnodup : (guids s.holder.log).Nodup := h.run ▸ CyclicRun.nodup h.room
  have heq : guids s.holder.log = (s.holder.log.map (·.guid)).map UInt32.toNat := by
    rw [List.map_map]
    rfl
  exact ⟨s, hs, h.room, (heq ▸ hnodup).of_map _, h.saved, hothers, guid, _, hnext, hrow⟩

/-- A table of two logs, the first of them full and numbered across the bound. -/
def twoLogs : List (LogEntry Nat Nat) := [⟨1, 1, 10⟩, ⟨2, 0, 20⟩, ⟨1, 0, 11⟩]

theorem twoLogs_ring :
    ∃ s, LogStore.logEvents 1 ⟨LogHolder.loadFromDB 2 [⟨1, 0, 11⟩, ⟨1, 1, 10⟩], twoLogs⟩ [12, 13, 14] =
        some s ∧
      s.holder.log.length ≤ 2 ∧ (s.holder.log.map (·.guid)).Nodup ∧
      (s.rowsOf 1).Perm s.holder.log ∧ s.others 1 = twoLogs.filter (·.key ≠ 1) ∧
      ∃ guid holder, s.holder.getNextGUID = some (guid, holder) ∧
        s.overwritten 1 guid = dropped s.holder :=
  log_ring 2 (by decide) 1 twoLogs [⟨1, 0, 11⟩, ⟨1, 1, 10⟩] (by decide) (by decide) 1 rfl
    [12, 13, 14]

/-! ## A restart -/

/-- The number counted from is that of the last entry. -/
def LogHolder.Numbered (h : LogHolder κ δ) : Prop :=
  h.nextGUID = (h.log.getLast?.map (·.guid)).getD GUILD_EVENT_LOG_GUID_UNDEFINED

theorem numbered_addEvent {entry : LogEntry κ δ} {s' : LogStore κ δ}
    (hnext : s.holder.nextGUID = entry.guid) (hs : s.addEvent entry = some s') :
    s'.holder.Numbered := by
  obtain ⟨log, -, heq⟩ := Option.bind_eq_some_iff.mp hs
  cases heq
  rw [LogHolder.Numbered, List.getLast?_concat]
  exact hnext

theorem numbered_logEvent {data : δ} {s' : LogStore κ δ} (hs : s.logEvent key data = some s') :
    s'.holder.Numbered := by
  obtain ⟨⟨guid, holder⟩, hnext, hadd⟩ := Option.bind_eq_some_iff.mp hs
  refine numbered_addEvent ?_ hadd
  unfold LogHolder.getNextGUID at hnext
  split at hnext
  · cases hnext
    rfl
  · split at hnext
    · cases hnext
    · cases hnext
      rfl

theorem numbered_logEvents {s' : LogStore κ δ} (events : List δ) (h : s.holder.Numbered)
    (hs : s.logEvents key events = some s') : s'.holder.Numbered := by
  induction events generalizing s with
  | nil =>
    cases hs
    exact h
  | cons data events ih =>
    rw [LogStore.logEvents, List.foldlM_cons] at hs
    obtain ⟨s₁, hs₁, hrest⟩ := Option.bind_eq_some_iff.mp hs
    exact ih (numbered_logEvent hs₁) hrest

end EGServer.Guilds
