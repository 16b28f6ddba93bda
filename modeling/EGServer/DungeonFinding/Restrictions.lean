import EGServer.DungeonFinding.Queue

/-!
# The dungeons that are open to everybody

`LFGMgr::GetCompatibleDungeons` takes from a set of dungeons those that are locked for a
player. A group that goes on with an instance may keep a dungeon although it is locked: each
lock of it must be a raid lock, the player must be bound to a save, and the save must be of
the instance that the players before him were bound to.

The loop removes while it walks, stops when nothing is left, and remembers of the players
before only the last instance of each dungeon. What it leaves is nevertheless the filter
`OpenToAll`, which names no order.
-/

namespace EGServer.DungeonFinding

/-- `LFG_LOCKSTATUS_RAID_LOCKED`. -/
def LFG_LOCKSTATUS_RAID_LOCKED : Nat := 6

/-- Of a dungeon: the map and the difficulty that a player may be bound to. -/
structure LFGDungeonData where
  map : Nat
  difficulty : Nat

/-- What the function asks of the world. -/
structure Restrictions where
  /-- `ObjectAccessor::FindConnectedPlayer` finds the player. -/
  findConnectedPlayer : ObjectGuid → Bool
  /-- The locks of a connected player, in the order of the walk. -/
  locks : ObjectGuid → LfgLockMap
  /-- `GetLFGDungeon`. -/
  getLFGDungeon : DungeonId → Option LFGDungeonData
  /-- `GetBoundInstance`: the bind, and in it the instance id of its save. -/
  getBoundInstance : ObjectGuid → Nat → Nat → Option (Option Nat)

namespace Restrictions

variable (env : Restrictions)

/-- `GetLockedDungeons`: a player who is not in the game has no locks. -/
def getLockedDungeons (guid : ObjectGuid) : LfgLockMap :=
  if env.findConnectedPlayer guid then env.locks guid else []

end Restrictions

/-- `entry & 0x00FFFFFF`: an entry is the dungeon id with the type above it. -/
def dungeonOf (entry : Nat) : DungeonId := entry &&& 0x00FFFFFF

/-! ## The map of locks -/

/-- `map[key] = value`. -/
def assign {κ β : Type} [DecidableEq κ] (key : κ) (value : β) : List (κ × β) → List (κ × β)
  | [] => [(key, value)]
  | (k, b) :: l => if k = key then (key, value) :: l else (k, b) :: assign key value l

/-- `map[key]`, where a key that is not there yet stands for an empty value. -/
def valueAt {κ β : Type} [DecidableEq κ] (key : κ) (l : List (κ × List β)) : List β :=
  ((l.find? fun pair => decide (pair.1 = key)).map Prod.snd).getD []

/-- `lockMap[guid][entry] = status`. -/
def LfgLockPartyMap.set (lockMap : LfgLockPartyMap) (guid : ObjectGuid) (entry status : Nat) :
    LfgLockPartyMap :=
  assign guid (assign entry status (valueAt guid lockMap)) lockMap

/-- The map tells of the lock of a player. -/
def LfgLockPartyMap.Tells (lockMap : LfgLockPartyMap) (guid : ObjectGuid) (entry status : Nat) :
    Prop :=
  ∃ lock ∈ lockMap, lock.1 = guid ∧ (entry, status) ∈ lock.2

/-! ## The loop -/

/-- The local variables of the loop. -/
structure Remaining where
  dungeons : Finset DungeonId
  lockedDungeons : DungeonId → Option Nat
  lockMap : LfgLockPartyMap

section Loop

variable (env : Restrictions) (isContinue : Bool)

/-- May the dungeon stay although it is locked? `none` is a failed assertion. -/
def mayContinue (guid : ObjectGuid) (s : Remaining) (dungeonId : DungeonId) (status : Nat) :
    Option (Bool × (DungeonId → Option Nat)) :=
  if status = LFG_LOCKSTATUS_RAID_LOCKED ∧ isContinue then do
    let dungeon ← env.getLFGDungeon dungeonId
    guard (env.findConnectedPlayer guid)
    match env.getBoundInstance guid dungeon.map dungeon.difficulty with
    | some (some dungeonInstanceId) =>
      let last := s.lockedDungeons dungeonId
      return (last = none ∨ last = some dungeonInstanceId,
        Function.update s.lockedDungeons dungeonId (some dungeonInstanceId))
    | _ => return (false, s.lockedDungeons)
  else return (false, s.lockedDungeons)

/-- The body of the inner loop. -/
def visitLock (guid : ObjectGuid) (s : Remaining) (lock : Nat × Nat) : Option Remaining :=
  let dungeonId := dungeonOf lock.1
  if dungeonId ∈ s.dungeons then do
    let (keeps, lockedDungeons) ← mayContinue env isContinue guid s dungeonId lock.2
    return {
      dungeons := if keeps then s.dungeons else s.dungeons.erase dungeonId
      lockedDungeons := lockedDungeons
      lockMap := LfgLockPartyMap.set s.lockMap guid lock.1 lock.2 }
  else return s

/-- The inner loop; both loops end when no dungeon is left. -/
def visitLocks (guid : ObjectGuid) : LfgLockMap → Remaining → Option Remaining
  | [], s => some s
  | lock :: rest, s =>
    if s.dungeons = ∅ then some s
    else (visitLock env isContinue guid s lock).bind (visitLocks guid rest)

def visitPlayers : List ObjectGuid → Remaining → Option Remaining
  | [], s => some s
  | guid :: rest, s =>
    if s.dungeons = ∅ then some s
    else (visitLocks env isContinue guid (env.getLockedDungeons guid) s).bind (visitPlayers rest)

/-- The dungeons that stay and the map of locks. -/
def getCompatibleDungeons (dungeons : Finset DungeonId) (players : List ObjectGuid) :
    Option (Finset DungeonId × LfgLockPartyMap) := do
  let s ← visitPlayers env isContinue players ⟨dungeons, fun _ => none, []⟩
  return (s.dungeons, if s.dungeons = ∅ then s.lockMap else [])

end Loop

/-! ## What it computes -/

/-- The instance that a player is bound to in a dungeon, when the bind has a save. -/
def Restrictions.savedInstance (env : Restrictions) (guid : ObjectGuid) (d : DungeonId) :
    Option Nat := do
  let dungeon ← env.getLFGDungeon d
  let bind ← env.getBoundInstance guid dungeon.map dungeon.difficulty
  bind

/-- A lock of a player: the player, the entry and the status. -/
abbrev PlayerLock := ObjectGuid × Nat × Nat

/-- The lock is one that a group may go on with in the instance. -/
def Continues (env : Restrictions) (isContinue : Bool) (instanceId : Nat) (lock : PlayerLock) :
    Prop :=
  isContinue ∧ lock.2.2 = LFG_LOCKSTATUS_RAID_LOCKED ∧
    env.savedInstance lock.1 (dungeonOf lock.2.1) = some instanceId

/-- No lock of the dungeon stands in the way: there is none, or all are of one instance. -/
def Open (env : Restrictions) (isContinue : Bool) (locks : List PlayerLock) (d : DungeonId) :
    Prop :=
  (∀ lock ∈ locks, dungeonOf lock.2.1 ≠ d) ∨
    ∃ instanceId, ∀ lock ∈ locks, dungeonOf lock.2.1 = d →
      Continues env isContinue instanceId lock

/-- The locks of all players, in the order of the loop. -/
def Restrictions.playerLocks (env : Restrictions) (players : List ObjectGuid) : List PlayerLock :=
  players.flatMap fun guid => (env.getLockedDungeons guid).map fun lock => (guid, lock)

/-- The filter: no player has a lock for the dungeon, or the group goes on, and every lock of
it is a raid lock of a player who is bound to a save, all of the same instance. -/
def OpenToAll (env : Restrictions) (isContinue : Bool) (players : List ObjectGuid)
    (d : DungeonId) : Prop :=
  (∀ guid ∈ players, ∀ lock ∈ env.getLockedDungeons guid, dungeonOf lock.1 ≠ d) ∨
    isContinue ∧ ∃ instanceId, ∀ guid ∈ players, ∀ lock ∈ env.getLockedDungeons guid,
      dungeonOf lock.1 = d →
        lock.2 = LFG_LOCKSTATUS_RAID_LOCKED ∧ env.savedInstance guid d = some instanceId

/-! ## The map tells of what was put in -/

section Assign

variable {κ β : Type} [DecidableEq κ] {key : κ} {value : β} {l : List (κ × β)} {p : κ × β}

theorem mem_assign_self (key : κ) (value : β) (l : List (κ × β)) :
    (key, value) ∈ assign key value l := by
  induction l with
  | nil => exact List.mem_singleton.mpr rfl
  | cons head rest ih =>
    grind [assign]

theorem mem_assign_or (key : κ) (value : β) (h : p ∈ l) :
    p ∈ assign key value l ∨ l.find? (fun pair => decide (pair.1 = key)) = some p := by
  induction l with
  | nil => exact absurd h List.not_mem_nil
  | cons head rest ih =>
    obtain ⟨k, b⟩ := head
    rw [assign]
    grind

theorem of_mem_assign (h : p ∈ assign key value l) : p = (key, value) ∨ p ∈ l := by
  induction l with
  | nil => exact Or.inl (List.mem_singleton.mp h)
  | cons head rest ih =>
    obtain ⟨k, b⟩ := head
    rw [assign] at h
    grind

end Assign

theorem mem_of_mem_valueAt {κ β : Type} [DecidableEq κ] {key : κ} {l : List (κ × List β)} {b : β}
    (h : b ∈ valueAt key l) : ∃ pair ∈ l, pair.1 = key ∧ b ∈ pair.2 := by
  unfold valueAt at h
  cases hfind : l.find? fun pair => decide (pair.1 = key) with
  | none => simp [hfind] at h
  | some pair =>
    grind

namespace LfgLockPartyMap

variable {lockMap : LfgLockPartyMap} {guid g : ObjectGuid} {entry status e st : Nat}

theorem tells_set_self (lockMap : LfgLockPartyMap) (guid : ObjectGuid) (entry status : Nat) :
    (lockMap.set guid entry status).Tells guid entry status :=
  ⟨_, mem_assign_self guid _ lockMap, rfl, mem_assign_self entry status _⟩

theorem Tells.set (h : lockMap.Tells g e st) (guid : ObjectGuid) (entry status : Nat) :
    ∃ st', (lockMap.set guid entry status).Tells g e st' := by
  obtain ⟨lock, hmem, rfl, hin⟩ := h
  rcases mem_assign_or guid (assign entry status (valueAt guid lockMap)) hmem with hstays | hfind
  · exact ⟨st, lock, hstays, rfl, hin⟩
  · have hkey : lock.1 = guid := by simpa using List.find?_some hfind
    have hvalue : valueAt guid lockMap = lock.2 := by rw [valueAt, hfind]; rfl
    rcases mem_assign_or entry status hin with hstays | hold
    · refine ⟨st, _, mem_assign_self guid _ lockMap, hkey.symm, ?_⟩
      rw [hvalue]
      exact hstays
    · have hentry : e = entry := by simpa using List.find?_some hold
      exact ⟨status, _, mem_assign_self guid _ lockMap, hkey.symm,
        hentry ▸ mem_assign_self entry status _⟩

theorem tells_of_tells_set (h : (lockMap.set guid entry status).Tells g e st) :
    (g, e, st) = (guid, entry, status) ∨ lockMap.Tells g e st := by
  obtain ⟨lock, hmem, rfl, hin⟩ := h
  rcases of_mem_assign hmem with rfl | hold
  · rcases of_mem_assign hin with heq | hold
    · exact Or.inl (congrArg (Prod.mk guid) heq)
    · obtain ⟨pair, hpair, hkey, hb⟩ := mem_of_mem_valueAt hold
      exact Or.inr ⟨pair, hpair, hkey, hb⟩
  · exact Or.inr ⟨lock, hold, rfl, hin⟩

end LfgLockPartyMap

/-! ## Both loops are one walk over the locks -/

section Walk

variable {env : Restrictions} {isContinue : Bool}

theorem visitLock_of_empty {s : Remaining} (h : s.dungeons = ∅) (guid : ObjectGuid)
    (lock : Nat × Nat) : visitLock env isContinue guid s lock = some s := by
  have hnone : dungeonOf lock.1 ∉ s.dungeons := h ▸ Finset.notMem_empty _
  exact if_neg hnone

theorem foldlM_visitLock_of_empty {s : Remaining} (h : s.dungeons = ∅) (locks : List PlayerLock) :
    locks.foldlM (fun s lock => visitLock env isContinue lock.1 s lock.2) s = some s := by
  induction locks with
  | nil => rfl
  | cons lock rest ih =>
    rw [List.foldlM_cons, visitLock_of_empty h]
    exact ih

theorem visitLocks_eq (guid : ObjectGuid) (locks : LfgLockMap) (s : Remaining) :
    visitLocks env isContinue guid locks s =
      (locks.map fun lock => (guid, lock)).foldlM
        (fun s lock => visitLock env isContinue lock.1 s lock.2) s := by
  induction locks generalizing s with
  | nil => rfl
  | cons lock rest ih =>
    rw [visitLocks]
    split
    · next h => exact (foldlM_visitLock_of_empty h _).symm
    · rw [List.map_cons, List.foldlM_cons]
      exact Option.bind_congr fun s' _ => ih s'

theorem visitPlayers_eq (players : List ObjectGuid) (s : Remaining) :
    visitPlayers env isContinue players s =
      (env.playerLocks players).foldlM
        (fun s lock => visitLock env isContinue lock.1 s lock.2) s := by
  induction players generalizing s with
  | nil => rfl
  | cons guid rest ih =>
    rw [visitPlayers]
    split
    · next h => exact (foldlM_visitLock_of_empty h _).symm
    · rw [Restrictions.playerLocks, List.flatMap_cons, List.foldlM_append, visitLocks_eq]
      exact Option.bind_congr fun s' _ => ih s'

end Walk

/-! ## The walk computes the filter -/

section Filter

variable {env : Restrictions} {isContinue : Bool} {input : Finset DungeonId}
  {done : List PlayerLock} {s : Remaining} {lock : PlayerLock} {d : DungeonId}

/-- Where the loop is after the locks `done`. -/
structure Visited (env : Restrictions) (isContinue : Bool) (input : Finset DungeonId)
    (done : List PlayerLock) (s : Remaining) : Prop where
  stays : ∀ d, d ∈ s.dungeons ↔ d ∈ input ∧ Open env isContinue done d
  /-- A dungeon that stays and has a last instance has a lock, and all its locks are of it. -/
  last : ∀ d ∈ s.dungeons, ∀ i, s.lockedDungeons d = some i →
    (∃ lock ∈ done, dungeonOf lock.2.1 = d) ∧
      ∀ lock ∈ done, dungeonOf lock.2.1 = d → Continues env isContinue i lock
  unlocked : ∀ d ∈ s.dungeons, s.lockedDungeons d = none →
    ∀ lock ∈ done, dungeonOf lock.2.1 ≠ d
  explained : ∀ d ∈ input, d ∉ s.dungeons →
    ∃ guid entry status, s.lockMap.Tells guid entry status ∧ dungeonOf entry = d
  told : ∀ guid entry status, s.lockMap.Tells guid entry status → (guid, entry, status) ∈ done

theorem Visited.start (env : Restrictions) (isContinue : Bool) (input : Finset DungeonId) :
    Visited env isContinue input [] ⟨input, fun _ => none, []⟩ where
  stays d := by
    grind [Open]
  last _ _ _ h := by cases h
  unlocked _ _ _ _ h := absurd h List.not_mem_nil
  explained _ h hgone := absurd h hgone
  told _ _ _ h := by
    obtain ⟨_, hmem, _⟩ := h
    exact absurd hmem List.not_mem_nil

theorem open_append_of_ne (h : dungeonOf lock.2.1 ≠ d) :
    Open env isContinue (done ++ [lock]) d ↔ Open env isContinue done d := by
  simp only [Open, List.forall_mem_append, List.forall_mem_singleton, h, ne_eq, not_false_eq_true,
    and_true, false_implies]

theorem open_append_of_eq (h : dungeonOf lock.2.1 = d) :
    Open env isContinue (done ++ [lock]) d ↔
      ∃ i, Continues env isContinue i lock ∧
        ∀ l ∈ done, dungeonOf l.2.1 = d → Continues env isContinue i l := by
  simp only [Open, List.forall_mem_append, List.forall_mem_singleton, h, ne_eq, not_true_eq_false,
    and_false, false_or, true_implies]
  exact exists_congr fun i => And.comm

theorem Open.of_append (h : Open env isContinue (done ++ [lock]) d) :
    Open env isContinue done d := by
  rcases h with h | ⟨i, h⟩
  · exact Or.inl fun l hl => h l (List.mem_append_left _ hl)
  · exact Or.inr ⟨i, fun l hl => h l (List.mem_append_left _ hl)⟩

/-- What an answer of `mayContinue` is: the dungeon may stay exactly when the lock is one to go
on with, of the last instance if there was one. -/
structure Decides (env : Restrictions) (isContinue : Bool) (s : Remaining) (lock : PlayerLock)
    (keeps : Bool) (lockedDungeons : DungeonId → Option Nat) : Prop where
  keeps_iff : keeps = true ↔ ∃ i, Continues env isContinue i lock ∧
    ∀ j, s.lockedDungeons (dungeonOf lock.2.1) = some j → j = i
  recorded : keeps = true → ∃ i, Continues env isContinue i lock ∧
    lockedDungeons (dungeonOf lock.2.1) = some i
  others : ∀ d, d ≠ dungeonOf lock.2.1 → lockedDungeons d = s.lockedDungeons d

theorem Decides.refused (h : ∀ i, ¬ Continues env isContinue i lock) :
    Decides env isContinue s lock false s.lockedDungeons where
  keeps_iff := by
    constructor
    · intro hkeeps
      cases hkeeps
    · rintro ⟨i, hi, -⟩
      exact absurd hi (h i)
  recorded hkeeps := absurd hkeeps Bool.false_ne_true
  others _ _ := rfl

theorem Decides.bound {i : Nat} (h : ∀ j, Continues env isContinue j lock ↔ i = j) :
    Decides env isContinue s lock
      (decide (s.lockedDungeons (dungeonOf lock.2.1) = none ∨
        s.lockedDungeons (dungeonOf lock.2.1) = some i))
      (Function.update s.lockedDungeons (dungeonOf lock.2.1) (some i)) where
  keeps_iff := by
    rw [decide_eq_true_eq]
    constructor
    · rintro (hlast | hlast)
      · exact ⟨i, (h i).mpr rfl, fun j hj => by rw [hlast] at hj; cases hj⟩
      · refine ⟨i, (h i).mpr rfl, fun j hj => ?_⟩
        rw [hlast] at hj
        exact (Option.some.inj hj).symm
    · rintro ⟨j, hj, hlast⟩
      obtain rfl := (h j).mp hj
      cases hlocked : s.lockedDungeons (dungeonOf lock.2.1) with
      | none => exact Or.inl rfl
      | some j => exact Or.inr (congrArg some (hlast j hlocked))
  recorded _ := ⟨i, (h i).mpr rfl, Function.update_self ..⟩
  others d hd := Function.update_of_ne hd ..

theorem mayContinue_spec {guid : ObjectGuid} {entry status : Nat}
    (hknown : isContinue = true → ∃ dungeon, env.getLFGDungeon (dungeonOf entry) = some dungeon)
    (hconnected : env.findConnectedPlayer guid = true) :
    ∃ keeps lockedDungeons,
      mayContinue env isContinue guid s (dungeonOf entry) status = some (keeps, lockedDungeons) ∧
      Decides env isContinue s (guid, entry, status) keeps lockedDungeons := by
  by_cases hraid : status = LFG_LOCKSTATUS_RAID_LOCKED ∧ isContinue = true
  · obtain ⟨dungeon, hdungeon⟩ := hknown hraid.2
    have hsaved : ∀ i, Continues env isContinue i (guid, entry, status) ↔
        env.getBoundInstance guid dungeon.map dungeon.difficulty = some (some i) := by
      intro i
      simp only [Continues, Restrictions.savedInstance, hraid.1, hraid.2, hdungeon, true_and,
        Option.bind_eq_bind, Option.bind_some]
      cases env.getBoundInstance guid dungeon.map dungeon.difficulty <;> simp
    simp only [mayContinue, if_pos hraid, hdungeon, hconnected, Option.bind_eq_bind,
      Option.bind_some, guard_true, Option.pure_def]
    cases hbound : env.getBoundInstance guid dungeon.map dungeon.difficulty with
    | none =>
      refine ⟨_, _, rfl, Decides.refused fun i => ?_⟩
      rw [hsaved, hbound]
      exact nofun
    | some save =>
      cases save with
      | none =>
        refine ⟨_, _, rfl, Decides.refused fun i => ?_⟩
        rw [hsaved, hbound]
        simp
      | some instanceId =>
        refine ⟨_, _, rfl, Decides.bound fun j => ?_⟩
        rw [hsaved, hbound, Option.some_inj, Option.some_inj]
  · simp only [mayContinue, if_neg hraid]
    refine ⟨_, _, rfl, Decides.refused fun i hi => ?_⟩
    exact hraid ⟨hi.2.1, hi.1⟩

/-! ## One lock, and all of them -/

theorem Visited.skip (h : Visited env isContinue input done s)
    (hgone : dungeonOf lock.2.1 ∉ s.dungeons) :
    Visited env isContinue input (done ++ [lock]) s where
  stays d := by
    by_cases hd : dungeonOf lock.2.1 = d
    · have hnot : d ∉ s.dungeons := hd ▸ hgone
      simp only [hnot, false_iff, not_and]
      intro hin hopen
      exact hnot ((h.stays d).mpr ⟨hin, hopen.of_append⟩)
    · rw [h.stays, open_append_of_ne hd]
  last d hd i hi := by
    obtain ⟨⟨l, hl, hld⟩, hall⟩ := h.last d hd i hi
    grind
  unlocked d hd hnone := by
    have hne : dungeonOf lock.2.1 ≠ d := fun heq => hgone (heq ▸ hd)
    rw [List.forall_mem_append, List.forall_mem_singleton]
    exact ⟨h.unlocked d hd hnone, hne⟩
  explained := h.explained
  told guid entry status ht := List.mem_append_left _ (h.told guid entry status ht)

theorem Continues.unique {i j : Nat} (hi : Continues env isContinue i lock)
    (hj : Continues env isContinue j lock) : i = j :=
  Option.some.inj (hi.2.2.symm.trans hj.2.2)

theorem Visited.last_iff (h : Visited env isContinue input done s) (hd : d ∈ s.dungeons) (i : Nat) :
    (∀ j, s.lockedDungeons d = some j → j = i) ↔
      ∀ l ∈ done, dungeonOf l.2.1 = d → Continues env isContinue i l := by
  cases hlocked : s.lockedDungeons d with
  | none =>
    have hnone := h.unlocked d hd hlocked
    constructor
    · exact fun _ l hl hld => absurd hld (hnone l hl)
    · exact fun _ j hj => by cases hj
  | some k =>
    obtain ⟨⟨l, hl, hld⟩, hall⟩ := h.last d hd k hlocked
    constructor
    · intro hlast
      rw [← hlast k rfl]
      exact hall
    · intro hcontinues j hj
      cases hj
      exact (hall l hl hld).unique (hcontinues l hl hld)

theorem mem_ite_erase {keeps : Bool} {D : Finset DungeonId} {d₀ : DungeonId} :
    d ∈ (if keeps = true then D else D.erase d₀) ↔ d ∈ D ∧ (d = d₀ → keeps = true) := by
  cases keeps
  · rw [if_neg Bool.false_ne_true, Finset.mem_erase, And.comm]
    simp
  · simp

theorem Visited.decided {keeps : Bool} {lockedDungeons : DungeonId → Option Nat}
    (h : Visited env isContinue input done s) (hin : dungeonOf lock.2.1 ∈ s.dungeons)
    (hdecides : Decides env isContinue s lock keeps lockedDungeons) :
    Visited env isContinue input (done ++ [lock])
      { dungeons := if keeps then s.dungeons else s.dungeons.erase (dungeonOf lock.2.1)
        lockedDungeons := lockedDungeons
        lockMap := s.lockMap.set lock.1 lock.2.1 lock.2.2 } where
  stays d := by
    show d ∈ (if keeps = true then _ else _) ↔ _
    rw [mem_ite_erase]
    by_cases hd : dungeonOf lock.2.1 = d
    · subst hd
      have hinput := ((h.stays _).mp hin).1
      simp only [hin, hinput, true_and, forall_const, open_append_of_eq, hdecides.keeps_iff,
        h.last_iff hin]
    · rw [h.stays, open_append_of_ne hd]
      exact and_iff_left fun heq => absurd heq.symm hd
  last d hd i hi := by
    obtain ⟨hmem, hkeeps⟩ := mem_ite_erase.mp hd
    by_cases heq : d = dungeonOf lock.2.1
    · subst heq
      obtain ⟨j, hj, hrecorded⟩ := hdecides.recorded (hkeeps rfl)
      obtain rfl : j = i := Option.some.inj (hrecorded.symm.trans hi)
      obtain ⟨k, hk, hlast⟩ := hdecides.keeps_iff.mp (hkeeps rfl)
      rw [hk.unique hj, h.last_iff hin] at hlast
      grind
    · have hold : s.lockedDungeons d = some i := (hdecides.others d heq).symm.trans hi
      obtain ⟨⟨l, hl, hld⟩, hall⟩ := h.last d hmem i hold
      grind
  unlocked d hd hnone := by
    obtain ⟨hmem, hkeeps⟩ := mem_ite_erase.mp hd
    by_cases heq : d = dungeonOf lock.2.1
    · subst heq
      obtain ⟨j, -, hrecorded⟩ := hdecides.recorded (hkeeps rfl)
      cases hnone.symm.trans hrecorded
    · rw [List.forall_mem_append, List.forall_mem_singleton]
      exact ⟨h.unlocked d hmem ((hdecides.others d heq).symm.trans hnone), Ne.symm heq⟩
  explained d hd hgone := by
    by_cases hmem : d ∈ s.dungeons
    · -- it was there before this lock, so this lock took it
      grind [LfgLockPartyMap.tells_set_self]
    · obtain ⟨guid, entry, status, htells, hentry⟩ := h.explained d hd hmem
      obtain ⟨status', htells'⟩ := htells.set lock.1 lock.2.1 lock.2.2
      exact ⟨guid, entry, status', htells', hentry⟩
  told guid entry status ht := by
    rw [List.mem_append, List.mem_singleton]
    rcases LfgLockPartyMap.tells_of_tells_set ht with heq | hold
    · exact Or.inr heq
    · exact Or.inl (h.told guid entry status hold)

/-- The assertions of the loop hold: the dungeons of a group that goes on are dungeons of the
store. -/
def Restrictions.Knows (env : Restrictions) (isContinue : Bool) (input : Finset DungeonId) : Prop :=
  isContinue = true → ∀ d ∈ input, ∃ dungeon, env.getLFGDungeon d = some dungeon

theorem Visited.step (h : Visited env isContinue input done s) (hknows : env.Knows isContinue input)
    (hconnected : env.findConnectedPlayer lock.1 = true) :
    ∃ s', visitLock env isContinue lock.1 s lock.2 = some s' ∧
      Visited env isContinue input (done ++ [lock]) s' := by
  by_cases hin : dungeonOf lock.2.1 ∈ s.dungeons
  · have hknown : isContinue = true →
        ∃ dungeon, env.getLFGDungeon (dungeonOf lock.2.1) = some dungeon :=
      fun hcontinue => hknows hcontinue _ ((h.stays _).mp hin).1
    obtain ⟨keeps, lockedDungeons, hmay, hdecides⟩ := mayContinue_spec hknown hconnected
    refine ⟨_, ?_, h.decided hin hdecides⟩
    simp only [visitLock, if_pos hin, hmay, Option.bind_eq_bind, Option.bind_some, Option.pure_def]
  · exact ⟨s, if_neg hin, h.skip hin⟩

theorem Visited.run {locks : List PlayerLock} (h : Visited env isContinue input done s)
    (hknows : env.Knows isContinue input)
    (hconnected : ∀ lock ∈ locks, env.findConnectedPlayer lock.1 = true) :
    ∃ s', locks.foldlM (fun s lock => visitLock env isContinue lock.1 s lock.2) s = some s' ∧
      Visited env isContinue input (done ++ locks) s' := by
  induction locks generalizing done s with
  | nil => exact ⟨s, rfl, by rwa [List.append_nil]⟩
  | cons lock rest ih =>
    rw [List.forall_mem_cons] at hconnected
    obtain ⟨s₁, hstep, h₁⟩ := h.step hknows hconnected.1
    grind

/-! ## The players' locks -/

theorem mem_playerLocks {players : List ObjectGuid} {lock : PlayerLock} :
    lock ∈ env.playerLocks players ↔
      lock.1 ∈ players ∧ lock.2 ∈ env.getLockedDungeons lock.1 := by
  simp only [Restrictions.playerLocks, List.mem_flatMap, List.mem_map]
  grind

theorem connected_of_mem_playerLocks {players : List ObjectGuid}
    (h : lock ∈ env.playerLocks players) : env.findConnectedPlayer lock.1 = true := by
  have hlocks := (mem_playerLocks.mp h).2
  grind [Restrictions.getLockedDungeons]

theorem forall_mem_playerLocks {players : List ObjectGuid} {P : PlayerLock → Prop} :
    (∀ lock ∈ env.playerLocks players, P lock) ↔
      ∀ guid ∈ players, ∀ lock ∈ env.getLockedDungeons guid, P (guid, lock) := by
  constructor
  · exact fun h guid hguid lock hlock => h (guid, lock) (mem_playerLocks.mpr ⟨hguid, hlock⟩)
  · exact fun h lock hlock => h _ (mem_playerLocks.mp hlock).1 _ (mem_playerLocks.mp hlock).2

theorem open_playerLocks {players : List ObjectGuid} :
    Open env isContinue (env.playerLocks players) d ↔ OpenToAll env isContinue players d := by
  rw [Open, OpenToAll, forall_mem_playerLocks]
  constructor
  · rintro (hnone | ⟨i, hall⟩)
    · exact Or.inl hnone
    · by_cases hlock : ∀ guid ∈ players, ∀ lock ∈ env.getLockedDungeons guid, dungeonOf lock.1 ≠ d
      · exact Or.inl hlock
      · push Not at hlock
        rw [forall_mem_playerLocks] at hall
        obtain ⟨guid, hguid, lock, hlock, hd⟩ := hlock
        refine Or.inr ⟨(hall guid hguid lock hlock hd).1, i, ?_⟩
        intro guid hguid lock hlock hd
        obtain ⟨-, hraid, hsaved⟩ := hall guid hguid lock hlock hd
        rw [hd] at hsaved
        exact ⟨hraid, hsaved⟩
  · rintro (hnone | ⟨hcontinue, i, hall⟩)
    · exact Or.inl hnone
    · right
      refine ⟨i, forall_mem_playerLocks.mpr ?_⟩
      intro guid hguid lock hlock hd
      obtain ⟨hraid, hsaved⟩ := hall guid hguid lock hlock hd
      refine ⟨hcontinue, hraid, ?_⟩
      rw [hd]
      exact hsaved

theorem openToAll_congr {env' : Restrictions} {players players' : List ObjectGuid}
    (hplayers : ∀ guid, guid ∈ players' ↔ guid ∈ players)
    (hlocks : ∀ guid, ∀ lock, lock ∈ env'.getLockedDungeons guid ↔ lock ∈ env.getLockedDungeons guid)
    (hsaved : ∀ guid, env'.savedInstance guid d = env.savedInstance guid d) :
    OpenToAll env' isContinue players' d ↔ OpenToAll env isContinue players d := by
  simp only [OpenToAll, hplayers, hlocks, hsaved]

theorem visitPlayers_spec (hknows : env.Knows isContinue input) (players : List ObjectGuid) :
    ∃ s, visitPlayers env isContinue players ⟨input, fun _ => none, []⟩ = some s ∧
      Visited env isContinue input (env.playerLocks players) s := by
  rw [visitPlayers_eq]
  exact (Visited.start env isContinue input).run hknows fun _ => connected_of_mem_playerLocks

end Filter

/-- The same players and locks in another order of the walk. -/
def Restrictions.withLocks (env : Restrictions) (locks : ObjectGuid → LfgLockMap) : Restrictions :=
  { env with locks := locks }

/-- `getCompatibleDungeons` leaves exactly the compatible dungeons. Its map of locks is empty when
some are left, and explains every removed dungeon when none is; another order of the players
and of their locks leaves the same dungeons. -/
theorem getCompatibleDungeons_filter (env : Restrictions) (isContinue : Bool)
    (dungeons : Finset DungeonId) (players : List ObjectGuid)
    (hknows : env.Knows isContinue dungeons) :
    ∃ result lockMap,
      getCompatibleDungeons env isContinue dungeons players = some (result, lockMap) ∧
      (∀ d, d ∈ result ↔ d ∈ dungeons ∧ OpenToAll env isContinue players d) ∧
      (result ≠ ∅ → lockMap = []) ∧
      (result = ∅ → ∀ d ∈ dungeons, ∃ guid ∈ players, ∃ lock ∈ env.getLockedDungeons guid,
        dungeonOf lock.1 = d ∧ lockMap.Tells guid lock.1 lock.2) ∧
      ∀ players' locks', players'.Perm players → (∀ guid, (locks' guid).Perm (env.locks guid)) →
        ∃ lockMap', getCompatibleDungeons (env.withLocks locks') isContinue dungeons players' =
          some (result, lockMap') := by
  obtain ⟨s, hvisit, h⟩ := visitPlayers_spec hknows players
  have hfilter : ∀ d, d ∈ s.dungeons ↔ d ∈ dungeons ∧ OpenToAll env isContinue players d := by
    intro d
    rw [h.stays, open_playerLocks]
  refine ⟨s.dungeons, if s.dungeons = ∅ then s.lockMap else [], ?_, hfilter,
    fun hne => if_neg hne, ?_, ?_⟩
  · simp only [getCompatibleDungeons, hvisit, Option.bind_eq_bind, Option.bind_some,
      Option.pure_def]
  · intro hempty d hd
    have hgone : d ∉ s.dungeons := hempty ▸ Finset.notMem_empty d
    obtain ⟨guid, entry, status, htells, hentry⟩ := h.explained d hd hgone
    obtain ⟨hguid, hlock⟩ := mem_playerLocks.mp (h.told _ _ _ htells)
    rw [if_pos hempty]
    exact ⟨guid, hguid, (entry, status), hlock, hentry, htells⟩
  · intro players' locks' hplayers hlocks
    obtain ⟨s', hvisit', h'⟩ := visitPlayers_spec
      (show (env.withLocks locks').Knows isContinue dungeons from hknows) players'
    have hsame : s'.dungeons = s.dungeons := by
      ext d
      rw [hfilter, h'.stays, open_playerLocks]
      apply and_congr_right
      intro _
      apply openToAll_congr
      · exact fun guid => hplayers.mem_iff
      · intro guid lock
        unfold Restrictions.getLockedDungeons Restrictions.withLocks
        split
        · exact (hlocks guid).mem_iff
        · exact Iff.rfl
      · exact fun _ => rfl
    exact ⟨_, by simp only [getCompatibleDungeons, hvisit', hsame, Option.bind_eq_bind,
      Option.bind_some, Option.pure_def]; rfl⟩

/-- Three members of a group that goes on with dungeon 7: two are bound to instance 40, the third
to no instance. -/
def Restrictions.threeBound : Restrictions where
  findConnectedPlayer _ := true
  locks guid := if guid = 3 then [(0x1000008, 2)] else [(0x1000007, LFG_LOCKSTATUS_RAID_LOCKED)]
  getLFGDungeon d := some ⟨d + 600, 1⟩
  getBoundInstance guid map _ := if guid ≠ 3 ∧ map = 607 then some (some 40) else none

theorem getCompatibleDungeons_filter_threeBound :
    Restrictions.threeBound.Knows true {7, 8} ∧
      ∃ result lockMap,
        getCompatibleDungeons Restrictions.threeBound true {7, 8} [1, 2, 3] =
          some (result, lockMap) ∧ 7 ∈ result ∧ 8 ∉ result ∧ lockMap = [] := by
  have hknows : Restrictions.threeBound.Knows true {7, 8} := fun _ d _ => ⟨_, rfl⟩
  obtain ⟨result, lockMap, hresult, hfilter, hempty, -, -⟩ :=
    getCompatibleDungeons_filter Restrictions.threeBound true {7, 8} [1, 2, 3] hknows
  have h7 : 7 ∈ result := by
    rw [hfilter]
    refine ⟨by decide, Or.inr ⟨rfl, 40, ?_⟩⟩
    have hcheck : [1, 2, 3].all (fun guid =>
        (Restrictions.threeBound.getLockedDungeons guid).all fun lock =>
          decide (dungeonOf lock.1 = 7 → lock.2 = LFG_LOCKSTATUS_RAID_LOCKED ∧
            Restrictions.threeBound.savedInstance guid 7 = some 40)) = true := by decide
    grind
  have h8 : 8 ∉ result := by
    rw [hfilter]
    rintro ⟨-, hnone | ⟨-, i, hall⟩⟩
    · exact hnone 3 (by decide) (0x1000008, 2) (by decide) rfl
    · exact absurd (hall 3 (by decide) (0x1000008, 2) (by decide) rfl).1 (by decide)
  grind

end EGServer.DungeonFinding
