import EGServer.Lib.GuardedRun
import EGServer.Lib.NodeMap
import Mathlib.Data.Finset.Basic
import Mathlib.Data.UInt
import Mathlib.Tactic.Common

/-!
# Spell cooldowns

The cooldowns of a unit in `SpellHistory`: an entry for each spell, and for each category a
pointer to the entry of the spell that the category is on cooldown for. The functions that
store, change and remove either. Elements of `_spellCooldowns` have an address from their
insertion to their erasure, and `_categoryCooldowns` holds addresses.

Times are ticks of the system clock, counted from its epoch and not bounded. Packets, the
global cooldown and the lockout times of the schools, which nothing here reads, are not
modelled. `GameTime::GetSystemTime()` and what the owner answers are arguments.
-/

namespace EGServer.Spells

/-- A `Clock::time_point`, in ticks. -/
abbrev TimePoint := Int

def TICKS_PER_MILLISECOND : Int := 1000000
def TICKS_PER_SECOND : Int := 1000000000
def MINUTE : UInt32 := 60
def MONTH : Int := 30 * 24 * 60 * 60
def IN_MILLISECONDS : UInt32 := 1000

def InfinityCooldownDelay : Int := MONTH * TICKS_PER_SECOND

def SPELL_PREVENTION_TYPE_SILENCE : UInt32 := 1

/-! ## What the spells say -/

structure SpellInfo where
  id : UInt32
  category : UInt32
  recoveryTime : UInt32
  categoryRecoveryTime : UInt32
  preventionType : UInt32
  schoolMask : UInt32
  isCooldownStartedOnEvent : Bool
  isAutoRepeatRangedSpell : Bool
  /-- `SPELL_ATTR6_IGNORE_CATEGORY_COOLDOWN_MODS`. -/
  ignoreCategoryCooldownMods : Bool

structure ItemEffect where
  spellID : Int32
  coolDownMSec : Int32
  spellCategoryID : UInt32
  categoryCoolDownMSec : Int32

/-- The stores of spells and item templates; a spell is stored under its own id. -/
structure SpellMgr where
  getSpellInfo : UInt32 → Option SpellInfo
  id_eq : ∀ s info, getSpellInfo s = some info → info.id = s
  getItemEffects : UInt32 → Option (List ItemEffect)

/-- What the owner answers while a cooldown is started. -/
structure Owner where
  attackTime : UInt32
  /-- `ApplySpellMod` of the spell's cooldown, where there is a `GetSpellModOwner`. -/
  spellModCooldown : Option (Int32 → Int32)
  /-- `ApplySpellMod` of the cooldown of the category. -/
  spellModCategoryCooldown : Option (Int32 → Int32)
  /-- `GetTotalAuraModifier(SPELL_AURA_MOD_COOLDOWN)`. -/
  cooldownMod : Int32
  /-- The owner is no player, or has the spell. -/
  modsOwnSpell : Bool

/-! ## The history -/

structure CooldownEntry where
  spellId : UInt32 := 0
  cooldownEnd : TimePoint := 0
  itemId : UInt32 := 0
  categoryId : UInt32 := 0
  categoryEnd : TimePoint := 0
  onHold : Bool := false
  deriving DecidableEq

/-- An element of `_spellCooldowns`. -/
abbrev CooldownNode := Node UInt32 CooldownEntry

structure SpellHistory where
  spellCooldowns : NodeMap UInt32 CooldownEntry
  spellCooldownsBeforeDuel : Table (κ := UInt32) (α := UInt32 × CooldownEntry) Prod.fst
  /-- The address of an element for each category. -/
  categoryCooldowns : Table (κ := UInt32) (α := UInt32 × Nat) Prod.fst
  /-- The order that an insertion at an address leaves the elements in. -/
  rehash : Nat → Arrangement CooldownNode

namespace SpellHistory

def new (rehash : Nat → Arrangement CooldownNode) : SpellHistory where
  spellCooldowns := NodeMap.empty
  spellCooldownsBeforeDuel := ∅
  categoryCooldowns := ∅
  rehash := rehash

/-- `_spellCooldowns[spellId] = entry`. -/
def put (h : SpellHistory) (spellId : UInt32) (entry : CooldownEntry) : SpellHistory :=
  { h with spellCooldowns :=
      h.spellCooldowns.put (h.rehash h.spellCooldowns.next) spellId entry }

/-- `_categoryCooldowns[categoryId] = &_spellCooldowns[spellId]`. -/
def point (h : SpellHistory) (categoryId spellId : UInt32) : SpellHistory :=
  match h.spellCooldowns.find? spellId with
  | some n => { h with categoryCooldowns := h.categoryCooldowns.insertOrAssign (categoryId, n.addr) }
  | none => h

/-- What a pointer of a category refers to. Nothing can be said of an entry that was erased;
here it reads as a new one. -/
def deref (h : SpellHistory) (p : Nat) : CooldownEntry :=
  ((h.spellCooldowns.at? p).map Node.value).getD {}

/-- Storing an entry and, if it has a category, the pointer to it. -/
def store (h : SpellHistory) (spellId : UInt32) (entry : CooldownEntry) : SpellHistory :=
  let h := h.put spellId entry
  if entry.categoryId != 0 then h.point entry.categoryId spellId else h

def eraseCooldown (h : SpellHistory) (itr : CooldownNode) : SpellHistory :=
  { h with
    categoryCooldowns := h.categoryCooldowns.erase itr.value.categoryId
    spellCooldowns := h.spellCooldowns.erase itr.key }

/-- The elements that the walks of `Update` and `ResetCooldowns` erase. -/
def eraseIf (h : SpellHistory) (p : CooldownNode → Bool) : SpellHistory :=
  h.spellCooldowns.nodes.rows.foldl (fun h itr => if p itr then h.eraseCooldown itr else h) h

/-! ## Loading -/

/-- The tables of `PersistenceHelper`. -/
inductive OwnerType where
  | player
  | pet

/-- A row of `character_spell_cooldown` or `pet_spell_cooldown`, which has no item. -/
structure CooldownRow where
  spell : UInt32
  item : UInt32
  time : UInt32
  categoryId : UInt32
  categoryEnd : UInt32

def fromTimeT (t : UInt32) : TimePoint := t.toNat * TICKS_PER_SECOND

def readCooldown (mgr : SpellMgr) (type : OwnerType) (row : CooldownRow) : Option CooldownEntry :=
  if (mgr.getSpellInfo row.spell).isNone then none
  else
    some {
      spellId := row.spell
      cooldownEnd := fromTimeT row.time
      itemId := match type with
        | .player => row.item
        | .pet => 0
      categoryId := row.categoryId
      categoryEnd := fromTimeT row.categoryEnd }

/-- One round of `LoadFromDB`. -/
def loadRow (mgr : SpellMgr) (type : OwnerType) (h : SpellHistory) (row : CooldownRow) :
    SpellHistory :=
  match readCooldown mgr type row with
  | some cooldown => h.store row.spell cooldown
  | none => h

def loadFromDB (mgr : SpellMgr) (type : OwnerType) (h : SpellHistory) (rows : List CooldownRow) :
    SpellHistory :=
  rows.foldl (loadRow mgr type) h

/-! ## Storing cooldowns -/

def addCooldown (h : SpellHistory) (spellId itemId : UInt32) (cooldownEnd : TimePoint)
    (categoryId : UInt32) (categoryEnd : TimePoint) (onHold : Bool) : SpellHistory :=
  h.store spellId { spellId, cooldownEnd, itemId, categoryId, categoryEnd, onHold }

def getCooldownDurations (mgr : SpellMgr) (spellInfo : SpellInfo) (itemId : UInt32) :
    Int32 × UInt32 × Int32 :=
  let fromItem :=
    if itemId != 0 then
      match mgr.getItemEffects itemId with
      | some effects =>
        match effects.find? fun itemEffect => itemEffect.spellID.toUInt32 == spellInfo.id with
        | some itemEffect =>
          (itemEffect.coolDownMSec, itemEffect.spellCategoryID, itemEffect.categoryCoolDownMSec)
        | none => (-1, 0, -1)
      | none => (-1, 0, -1)
    else (-1, 0, -1)
  -- if no cooldown found above then base at DBC data
  if fromItem.1 < 0 && fromItem.2.2 < 0 then
    (spellInfo.recoveryTime.toInt32, spellInfo.category, spellInfo.categoryRecoveryTime.toInt32)
  else fromItem

def ms (t : Int32) : Int := t.toInt * TICKS_PER_MILLISECOND

/-- The times that `StartCooldown` comes to: `recTime` and `catrecTime`, with the category;
`none` where it returns early or the spell is not to be put on cooldown. -/
def startTimes (mgr : SpellMgr) (owner : Owner) (curTime : TimePoint) (spellInfo : SpellInfo)
    (itemId : UInt32) (onHold : Bool) : Option (TimePoint × UInt32 × TimePoint) :=
  let (cooldown, categoryId, categoryCooldown) := getCooldownDurations mgr spellInfo itemId
  if onHold then
    let catrecTime := if categoryCooldown > 0 then curTime + InfinityCooldownDelay else curTime
    let recTime := if cooldown > 0 then curTime + InfinityCooldownDelay else catrecTime
    if recTime != curTime then some (recTime, categoryId, catrecTime) else none
  else
    let cooldown :=
      if cooldown ≤ 0 && categoryCooldown ≤ 0 &&
          (categoryId == 76 || spellInfo.isAutoRepeatRangedSpell && spellInfo.id != 75) then
        owner.attackTime.toInt32
      else cooldown
    let cooldown :=
      match owner.spellModCooldown with
      | some mod => if cooldown ≥ 0 then mod cooldown else cooldown
      | none => cooldown
    let categoryCooldown :=
      match owner.spellModCategoryCooldown with
      | some mod =>
        if categoryCooldown ≥ 0 && !spellInfo.ignoreCategoryCooldownMods then mod categoryCooldown
        else categoryCooldown
      | none => categoryCooldown
    let cooldown :=
      if owner.cooldownMod != 0 && owner.modsOwnSpell then
        cooldown + owner.cooldownMod * IN_MILLISECONDS.toInt32
      else cooldown
    let cooldown := if cooldown < 0 then 0 else cooldown
    let categoryCooldown := if categoryCooldown < 0 then 0 else categoryCooldown
    if cooldown == 0 && categoryCooldown == 0 then none
    else
      let catrecTime := if categoryCooldown != 0 then curTime + ms categoryCooldown else curTime
      let recTime := if cooldown != 0 then curTime + ms cooldown else catrecTime
      if recTime != curTime then some (recTime, categoryId, catrecTime) else none

def startCooldown (mgr : SpellMgr) (h : SpellHistory) (owner : Owner) (curTime : TimePoint)
    (spellInfo : SpellInfo) (itemId : UInt32) (onHold : Bool) : SpellHistory :=
  match startTimes mgr owner curTime spellInfo itemId onHold with
  | some (recTime, categoryId, catrecTime) =>
    h.addCooldown spellInfo.id itemId recTime categoryId catrecTime onHold
  | none => h

/-! ## Changing and removing cooldowns -/

def modifyCooldown (h : SpellHistory) (now : TimePoint) (spellId : UInt32) (cooldownModMs : Int32) :
    SpellHistory :=
  match h.spellCooldowns.find? spellId with
  | none => h
  | some itr =>
    if cooldownModMs == 0 then h
    else
      let offset := ms cooldownModMs
      if itr.value.cooldownEnd + offset > now then
        h.put spellId { itr.value with cooldownEnd := itr.value.cooldownEnd + offset }
      else h.eraseCooldown itr

def resetCooldown (h : SpellHistory) (spellId : UInt32) : SpellHistory :=
  match h.spellCooldowns.find? spellId with
  | none => h
  | some itr => h.eraseCooldown itr

def resetCooldowns (h : SpellHistory) (predicate : UInt32 → CooldownEntry → Bool) : SpellHistory :=
  h.eraseIf fun itr => predicate itr.key itr.value

def resetAllCooldowns (h : SpellHistory) : SpellHistory :=
  { h with categoryCooldowns := ∅, spellCooldowns := h.spellCooldowns.clear }

/-- The first loop of `Update`, through the pointers. -/
def expireCategories (h : SpellHistory) (now : TimePoint) : SpellHistory :=
  h.categoryCooldowns.rows.foldl
    (fun h itr =>
      if (h.deref itr.2).categoryEnd < now then
        { h with categoryCooldowns := h.categoryCooldowns.erase itr.1 }
      else h) h

def update (h : SpellHistory) (now : TimePoint) : SpellHistory :=
  (h.expireCategories now).eraseIf fun itr => itr.value.cooldownEnd < now

/-! ## Asking -/

def hasCooldown (mgr : SpellMgr) (h : SpellHistory) (spellInfo : SpellInfo) (itemId : UInt32)
    (ignoreCategoryCooldown : Bool) : Bool :=
  if (h.spellCooldowns.find? spellInfo.id).isSome then true
  else if ignoreCategoryCooldown then false
  else
    let category := (getCooldownDurations mgr spellInfo itemId).2.1
    if category == 0 then false else (h.categoryCooldowns.get? category).isSome

def getRemainingCooldown (h : SpellHistory) (now : TimePoint) (spellInfo : SpellInfo) : UInt32 :=
  let remaining (cooldownEnd : TimePoint) : UInt32 :=
    if cooldownEnd < now then 0
    else UInt32.ofNat ((cooldownEnd - now) / TICKS_PER_MILLISECOND).toNat
  match h.spellCooldowns.find? spellInfo.id with
  | some itr => remaining itr.value.cooldownEnd
  | none =>
    match h.categoryCooldowns.get? spellInfo.category with
    | some catItr => remaining (h.deref catItr.2).categoryEnd
    | none => 0

/-! ## Locking schools -/

/-- `LockSpellSchool` puts the spell on cooldown. -/
def locks (mgr : SpellMgr) (h : SpellHistory) (now : TimePoint) (schoolMask lockoutTime : UInt32)
    (spellId : UInt32) : Bool :=
  match mgr.getSpellInfo spellId with
  | none => false
  | some spellInfo =>
    !spellInfo.isCooldownStartedOnEvent &&
      spellInfo.preventionType == SPELL_PREVENTION_TYPE_SILENCE &&
      schoolMask &&& spellInfo.schoolMask != 0 &&
      decide (h.getRemainingCooldown now spellInfo < lockoutTime)

/-- The spells of the owner, as the `std::set` of `LockSpellSchool` holds them. -/
abbrev KnownSpells := { l : List UInt32 // l.Nodup }

def lockSpellSchool (mgr : SpellMgr) (h : SpellHistory) (now : TimePoint)
    (knownSpells : KnownSpells) (schoolMask lockoutTime : UInt32) : SpellHistory :=
  let lockoutEnd := now + lockoutTime.toNat * TICKS_PER_MILLISECOND
  knownSpells.1.foldl
    (fun h spellId =>
      if locks mgr h now schoolMask lockoutTime spellId then
        h.addCooldown spellId 0 lockoutEnd 0 now false
      else h) h

/-! ## Duels -/

def saveCooldownStateBeforeDuel (h : SpellHistory) : SpellHistory :=
  { h with spellCooldownsBeforeDuel :=
      { rows := h.spellCooldowns.nodes.rows.map fun n => (n.key, n.value)
        nodup := by
          rw [List.map_map]
          exact h.spellCooldowns.nodes.nodup } }

/-- A cooldown of more than ten minutes, as professions have them. -/
def isProfessionCooldown (mgr : SpellMgr) (spellId : UInt32) : Bool :=
  match mgr.getSpellInfo spellId with
  | none => false
  | some spellInfo =>
    spellInfo.recoveryTime > 10 * MINUTE * IN_MILLISECONDS ||
      spellInfo.categoryRecoveryTime > 10 * MINUTE * IN_MILLISECONDS

/-- The first loop of `RestoreCooldownStateAfterDuel`: what is to be restored. -/
def stateToRestore (mgr : SpellMgr) (h : SpellHistory) :
    Table (κ := UInt32) (α := UInt32 × CooldownEntry) Prod.fst :=
  h.spellCooldowns.nodes.rows.foldl
    (fun before itr =>
      if isProfessionCooldown mgr itr.key then before.insertOrAssign (itr.key, itr.value)
      else before) h.spellCooldownsBeforeDuel

/-- The entry of a spell is on hold; a spell without an entry is not. -/
def isOnHold (h : SpellHistory) (spellId : UInt32) : Bool :=
  match h.spellCooldowns.find? spellId with
  | some itr => itr.value.onHold
  | none => false

def restoreCooldownStateAfterDuel (mgr : SpellMgr) (h : SpellHistory) (isPlayer : Bool) :
    SpellHistory :=
  if isPlayer then
    let before := h.stateToRestore mgr
    before.rows.foldl
      (fun h itr =>
        -- `_spellCooldowns[itr->first]` makes an entry only where it is then assigned
        if !itr.2.onHold && !h.isOnHold itr.1 then h.put itr.1 itr.2 else h)
      { h with spellCooldownsBeforeDuel := before }
  else h

/-! ## Runs -/

inductive Op where
  | loadRow (type : OwnerType) (row : CooldownRow)
  | addCooldown (spellId itemId : UInt32) (cooldownEnd : TimePoint) (categoryId : UInt32)
      (categoryEnd : TimePoint) (onHold : Bool)
  | startCooldown (owner : Owner) (curTime : TimePoint) (spellInfo : SpellInfo) (itemId : UInt32)
      (onHold : Bool)
  | modifyCooldown (now : TimePoint) (spellId : UInt32) (cooldownModMs : Int32)
  | resetCooldown (spellId : UInt32)
  | resetCooldowns (predicate : UInt32 → CooldownEntry → Bool)
  | resetAllCooldowns
  | update (now : TimePoint)
  | lockSpellSchool (now : TimePoint) (knownSpells : KnownSpells) (schoolMask lockoutTime : UInt32)
  | saveCooldownStateBeforeDuel
  | restoreCooldownStateAfterDuel (isPlayer : Bool)

def run (mgr : SpellMgr) (h : SpellHistory) : Op → SpellHistory
  | .loadRow type row => loadRow mgr type h row
  | .addCooldown spellId itemId cooldownEnd categoryId categoryEnd onHold =>
    h.addCooldown spellId itemId cooldownEnd categoryId categoryEnd onHold
  | .startCooldown owner curTime spellInfo itemId onHold =>
    startCooldown mgr h owner curTime spellInfo itemId onHold
  | .modifyCooldown now spellId cooldownModMs => h.modifyCooldown now spellId cooldownModMs
  | .resetCooldown spellId => h.resetCooldown spellId
  | .resetCooldowns predicate => h.resetCooldowns predicate
  | .resetAllCooldowns => h.resetAllCooldowns
  | .update now => h.update now
  | .lockSpellSchool now knownSpells schoolMask lockoutTime =>
    lockSpellSchool mgr h now knownSpells schoolMask lockoutTime
  | .saveCooldownStateBeforeDuel => h.saveCooldownStateBeforeDuel
  | .restoreCooldownStateAfterDuel isPlayer => restoreCooldownStateAfterDuel mgr h isPlayer

def Step (mgr : SpellMgr) (h : SpellHistory) (op : Op) (h' : SpellHistory) : Prop :=
  h' = run mgr h op

end SpellHistory

end EGServer.Spells
