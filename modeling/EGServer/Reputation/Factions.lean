import EGServer.Lib.Table
import EGServer.Lib.GuardedRun
import Mathlib.Data.UInt
import Mathlib.Tactic

/-!
# Factions and the standing of one character with them

What `ReputationMgr.cpp` reads of the faction store, the eight flags that are recorded beside
a standing, and the changes to the record of one faction that the setters make.

A standing is an `int32` and its arithmetic wraps here where it would be undefined; the sums
that are compared are clamped before they are kept.
-/

namespace EGServer.Reputation

/-! ## Flags -/

/-- `EnumFlag<ReputationFlags>`. -/
abbrev ReputationFlags := UInt8

namespace ReputationFlags

def None : ReputationFlags := 0x00
def Visible : ReputationFlags := 0x01
def AtWar : ReputationFlags := 0x02
def Hidden : ReputationFlags := 0x04
def Header : ReputationFlags := 0x08
def Peaceful : ReputationFlags := 0x10
def Inactive : ReputationFlags := 0x20
def ShowPropagated : ReputationFlags := 0x40
def HeaderShowsBar : ReputationFlags := 0x80

/-- True when any of the flags is set. -/
def hasFlag (value flag : ReputationFlags) : Bool := value &&& flag ≠ 0

theorem and_or_distrib (a b c : UInt8) : (a ||| b) &&& c = a &&& c ||| b &&& c :=
  UInt8.toBitVec_inj.mp BitVec.and_or_distrib_right

theorem hasFlag_or (value m flag : ReputationFlags) :
    hasFlag (value ||| m) flag = (hasFlag value flag || hasFlag m flag) := by
  simp only [hasFlag, and_or_distrib, ne_eq, UInt8.or_eq_zero_iff, not_and_or, Bool.decide_or]

theorem hasFlag_and (value m flag : ReputationFlags) :
    hasFlag (value &&& m) flag = hasFlag value (m &&& flag) := by
  simp only [hasFlag, UInt8.and_assoc]

/-- The flag `flag` of `value` is set to `on`. -/
def assign (value flag : ReputationFlags) (on : Bool) : ReputationFlags :=
  if on then value ||| flag else value &&& ~~~flag

/-- A single flag among others. -/
def Single (flag : ReputationFlags) : Prop :=
  flag ∈ [Visible, AtWar, Hidden, Header, Peaceful, Inactive, ShowPropagated, HeaderShowsBar]

instance (flag : ReputationFlags) : Decidable (Single flag) :=
  inferInstanceAs (Decidable (_ ∈ _))

theorem hasFlag_assign_self {flag : ReputationFlags} (h : Single flag) (value : ReputationFlags)
    (on : Bool) : hasFlag (assign value flag on) flag = on := by
  have hself : flag ≠ 0 := by
    revert h
    simp only [Single, List.mem_cons, List.not_mem_nil, or_false]
    rintro (rfl | rfl | rfl | rfl | rfl | rfl | rfl | rfl) <;> decide
  cases on
  · show hasFlag (value &&& ~~~flag) flag = false
    rw [hasFlag_and]
    simp [hasFlag]
  · show hasFlag (value ||| flag) flag = true
    rw [hasFlag_or]
    simp [hasFlag, hself]

theorem hasFlag_assign_of_disjoint {flag other : ReputationFlags} (h : flag &&& other = 0)
    (value : ReputationFlags) (on : Bool) :
    hasFlag (assign value flag on) other = hasFlag value other := by
  cases on
  · show hasFlag (value &&& ~~~flag) other = _
    have hkeep : ~~~flag &&& other = other := by
      have hsplit : ~~~flag &&& other ||| flag &&& other = other := by
        rw [← and_or_distrib]
        simp
      rwa [h, UInt8.or_zero] at hsplit
    rw [hasFlag_and, hkeep]
  · show hasFlag (value ||| flag) other = _
    rw [hasFlag_or]
    simp [hasFlag, h]

end ReputationFlags

/-! ## The faction store -/

abbrev RepListID := UInt32

/-- `FactionEntry`; of the floats `ParentFactionMod` only the comparison of the second with 0
is kept, their products with a standing are inputs of `SetReputation`. -/
structure FactionEntry where
  ID : UInt32
  reputationIndex : Int32
  reputationRaceMask : Fin 4 → UInt32 := fun _ => 0
  reputationClassMask : Fin 4 → UInt32 := fun _ => 0
  reputationBase : Fin 4 → Int32 := fun _ => 0
  reputationFlags : Fin 4 → UInt32 := fun _ => 0
  parentFactionID : UInt32 := 0
  spillsToParent : Bool := false
  parentFactionCap : UInt32 := 7

namespace FactionEntry

variable (e : FactionEntry)

def canHaveReputation : Bool := e.reputationIndex ≥ 0

/-- The index as the key of `_factions`. -/
def listID : RepListID := e.reputationIndex.toUInt32

end FactionEntry

/-- `sFactionStore`: the rows by id, counted from 1. -/
structure FactionStore where
  entries : List FactionEntry
  ordered : entries.Pairwise fun a b => a.ID < b.ID
  numbered : ∀ e ∈ entries, 0 < e.ID

namespace FactionStore

variable (store : FactionStore)

def lookupEntry (id : UInt32) : Option FactionEntry := store.entries.find? (·.ID = id)

/-- No two factions are shown at the same place of the reputation list. -/
def DistinctIndexes : Prop :=
  ∀ a ∈ store.entries, ∀ b ∈ store.entries, a.canHaveReputation →
    a.reputationIndex = b.reputationIndex → a = b

variable {store}

theorem id_inj {a b : FactionEntry} (ha : a ∈ store.entries) (hb : b ∈ store.entries)
    (h : a.ID = b.ID) : a = b := by
  have hnodup : (store.entries.map FactionEntry.ID).Nodup := by
    refine List.Pairwise.map _ ?_ store.ordered
    intro x y hlt
    exact UInt32.ne_of_lt hlt
  exact List.inj_on_of_nodup_map hnodup ha hb h

theorem lookupEntry_eq_some {id : UInt32} {e : FactionEntry} :
    store.lookupEntry id = some e ↔ e ∈ store.entries ∧ e.ID = id := by
  constructor
  · intro h
    exact ⟨List.mem_of_find?_eq_some h, by simpa using List.find?_some h⟩
  · rintro ⟨he, rfl⟩
    cases hf : store.entries.find? (·.ID = e.ID) with
    | none => simpa using List.find?_eq_none.mp hf e he
    | some b =>
      grind [id_inj, lookupEntry]

theorem lookupEntry_self {e : FactionEntry} (h : e ∈ store.entries) :
    store.lookupEntry e.ID = some e :=
  lookupEntry_eq_some.mpr ⟨h, rfl⟩

theorem listID_inj (hd : store.DistinctIndexes) {a b : FactionEntry} (ha : a ∈ store.entries)
    (hb : b ∈ store.entries) (hrep : a.canHaveReputation) (h : a.listID = b.listID) : a = b := by
  refine hd a ha b hb hrep ?_
  rw [← Int32.toInt32_toUInt32 a.reputationIndex, ← Int32.toInt32_toUInt32 b.reputationIndex]
  exact congrArg UInt32.toInt32 h

end FactionStore

/-- What the store is read with: the masks of the player. -/
structure Player where
  raceMask : UInt32
  classMask : UInt32

/-! ## Ranks -/

/-- `ReputationRank`; -1 below the first threshold. -/
abbrev ReputationRank := Int

def REP_HATED : ReputationRank := 0
def REP_HOSTILE : ReputationRank := 1
def REP_HONORED : ReputationRank := 5
def REP_REVERED : ReputationRank := 6
def REP_EXALTED : ReputationRank := 7

def reputation_Cap : Int32 := 42999
def reputation_Bottom : Int32 := -42000

def reputationRankThresholds : List Int32 :=
  [-42000, -6000, -3000, 0, 3000, 9000, 21000, 42000, 43000]

def reputationToRank (standing : Int32) : ReputationRank :=
  (reputationRankThresholds.takeWhile (· ≤ standing)).length - 1

namespace Player

variable (p : Player) (e : FactionEntry)

/-- The first of the four columns that is meant for the race and the class. -/
def getFactionDataIndexForRaceAndClass : Option (Fin 4) :=
  (List.finRange 4).find? fun i =>
    (e.reputationRaceMask i &&& p.raceMask ≠ 0 ||
      (e.reputationRaceMask i = 0 && e.reputationClassMask i ≠ 0)) &&
    (e.reputationClassMask i &&& p.classMask ≠ 0 || e.reputationClassMask i = 0)

def getBaseReputation : Int32 :=
  match p.getFactionDataIndexForRaceAndClass e with
  | none => 0
  | some i => e.reputationBase i

def getDefaultStateFlags : ReputationFlags :=
  match p.getFactionDataIndexForRaceAndClass e with
  | none => .None
  | some i => (e.reputationFlags i).toUInt8

def getBaseRank : ReputationRank := reputationToRank (p.getBaseReputation e)

end Player

/-! ## The record of one faction -/

structure FactionState where
  ID : UInt32
  reputationListID : RepListID
  standing : Int32
  flags : ReputationFlags
  needSend : Bool
  needSave : Bool

namespace FactionState

open ReputationFlags

variable (f : FactionState)

/-- The record has to be sent and saved. -/
def touch : FactionState := { f with needSend := true, needSave := true }

/-- `SetVisible` has something to do: always invisible or hidden factions can't be made visible. -/
def canShow : Bool :=
  !f.flags.hasFlag Hidden && !(f.flags.hasFlag Header && !f.flags.hasFlag HeaderShowsBar) &&
    !f.flags.hasFlag Visible

/-- A standing is written. -/
def setStanding (standing : Int32) (f : FactionState) : FactionState :=
  { f.touch with standing := standing }

/-- A standing is read from its row. -/
def loadStanding (standing : Int32) (f : FactionState) : FactionState :=
  { f with standing := standing }

/-- The record is as it has been saved and sent. -/
def settle (f : FactionState) : FactionState := { f with needSend := false, needSave := false }

def makeVisible : FactionState := { f.touch with flags := f.flags.assign Visible true }

/-- `SetAtWar(FactionState*, bool)` for a faction of this rank. -/
def setAtWar (rank : ReputationRank) (atWar : Bool) : FactionState :=
  -- do not allow to declare war to our own faction
  if atWar && f.flags.hasFlag Peaceful && rank > REP_HATED then f
  else if f.flags.hasFlag AtWar = atWar then f
  else { f.touch with flags := f.flags.assign AtWar atWar }

/-- `SetInactive(FactionState*, bool)`. -/
def setInactive (inactive : Bool) : FactionState :=
  if f.flags.hasFlag (Hidden ||| Header) || !f.flags.hasFlag Visible then f
  else if f.flags.hasFlag Inactive = inactive then f
  else { f.touch with flags := f.flags.assign Inactive inactive }

end FactionState

end EGServer.Reputation
