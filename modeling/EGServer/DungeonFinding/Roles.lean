import EGServer.Lib.Assignment
import Mathlib.Data.UInt
import Mathlib.Data.Finset.Prod
import Mathlib.Tactic.Common

/-!
# Roles and the role solver of the dungeon finder

A player selects a set of roles, held as the bits of a `uint8`; `checkGroupRoles` narrows
the selection of every player of a group to one role, so that the group holds at most one
tank, one healer and three damage dealers.

The solver works in place on the role map: it takes one role away from the first player
that has several, calls itself, and puts the role back when that failed. The recursion is
unrolled on fuel; each level takes a role away, so three times the players is enough.
-/

namespace EGServer.DungeonFinding

/-! ## Guids and roles -/

/-- The raw value of an `ObjectGuid`; `ObjectGuid::Empty` is 0. -/
abbrev ObjectGuid := UInt64

/-- `HighGuid::Group`. -/
def HIGH_GUID_GROUP : UInt64 := 0x1F50

def ObjectGuid.isGroup (guid : ObjectGuid) : Bool := guid >>> 48 = HIGH_GUID_GROUP
def ObjectGuid.isEmpty (guid : ObjectGuid) : Bool := guid = 0

def MAX_GROUP_SIZE : Nat := 5

def PLAYER_ROLE_NONE : UInt8 := 0x00
def PLAYER_ROLE_LEADER : UInt8 := 0x01
def PLAYER_ROLE_TANK : UInt8 := 0x02
def PLAYER_ROLE_HEALER : UInt8 := 0x04
def PLAYER_ROLE_DAMAGE : UInt8 := 0x08
def PLAYER_ROLE_ANY : UInt8 := 0x0f

def LFG_TANKS_NEEDED : Nat := 1
def LFG_HEALERS_NEEDED : Nat := 1
def LFG_DPS_NEEDED : Nat := 3

/-- What a player does in a group; the leader flag is no such role. -/
inductive LfgRole where
  | tank
  | healer
  | damage
  deriving DecidableEq

instance : Fintype LfgRole where
  elems := {.tank, .healer, .damage}
  complete k := by cases k <;> decide

def LfgRole.flag : LfgRole → UInt8
  | .tank => PLAYER_ROLE_TANK
  | .healer => PLAYER_ROLE_HEALER
  | .damage => PLAYER_ROLE_DAMAGE

/-- How many players of a role a group has. -/
def LfgRole.needed : LfgRole → Nat
  | .tank => LFG_TANKS_NEEDED
  | .healer => LFG_HEALERS_NEEDED
  | .damage => LFG_DPS_NEEDED

/-- The roles as the solver goes through them. -/
def LfgRole.order : List LfgRole := [.damage, .healer, .tank]

/-- Did a player with these role bits select the role? -/
def selects (roles : UInt8) (k : LfgRole) : Prop := roles &&& k.flag ≠ 0

/-- The role bits without the leader flag. -/
def withoutLeader (roles : UInt8) : UInt8 := roles &&& ~~~PLAYER_ROLE_LEADER

/-- The role bits name one role, and nothing but it and the leader flag. -/
def isRole (roles : UInt8) (k : LfgRole) : Prop := withoutLeader roles = k.flag

instance (roles : UInt8) (k : LfgRole) : Decidable (selects roles k) :=
  inferInstanceAs (Decidable (_ ≠ _))

instance (roles : UInt8) (k : LfgRole) : Decidable (isRole roles k) :=
  inferInstanceAs (Decidable (_ = _))

/-- `LfgRolesMap`: the roles that each player selected, by ascending guid. -/
abbrev LfgRolesMap := Std.ExtTreeMap ObjectGuid UInt8

/-! ## `LFGMgr::CheckGroupRoles` -/

/-- The counters `tank`, `healer` and `damage`. -/
abbrev RoleCount := LfgRole → Nat

/-- One of the three blocks of the loop body; an `error` is a `return`. -/
def checkRole (self : LfgRolesMap → Bool × LfgRolesMap) (guid : ObjectGuid) (role : UInt8)
    (state : RoleCount × LfgRolesMap) (k : LfgRole) :
    Except (Bool × LfgRolesMap) (RoleCount × LfgRolesMap) :=
  let (count, groles) := state
  if ¬selects role k then .ok (count, groles)
  else if role ≠ k.flag then
    match self (groles.modify guid (· - k.flag)) with
    | (true, groles') => .error (true, groles')
    | (false, groles') => .ok (count, groles'.modify guid (· + k.flag))
  else if count k = k.needed then .error (false, groles)
  else .ok (Function.update count k (count k + 1), groles)

/-- The loop over the players, `todo` those still to come. -/
def checkPlayers (self : LfgRolesMap → Bool × LfgRolesMap) :
    List ObjectGuid → RoleCount × LfgRolesMap → Bool × LfgRolesMap
  | [], (count, groles) =>
    (count .tank + count .healer + count .damage = groles.size % 256, groles)
  | guid :: todo, (count, groles) =>
    let role := withoutLeader (groles.getD guid PLAYER_ROLE_NONE)
    if role = PLAYER_ROLE_NONE then (false, groles)
    else
      match LfgRole.order.foldlM (checkRole self guid role) (count, groles) with
      | .error result => result
      | .ok state => checkPlayers self todo state

/-- The solver, unrolled on fuel. -/
def checkGroupRolesFuel : Nat → LfgRolesMap → Bool × LfgRolesMap
  | 0, groles => (false, groles)
  | fuel + 1, groles =>
    if groles.isEmpty then (false, groles)
    else checkPlayers (checkGroupRolesFuel fuel) groles.keys (fun _ => 0, groles)

/-- Can the group be formed? On `true` the map holds one role for each player. -/
def checkGroupRoles (groles : LfgRolesMap) : Bool × LfgRolesMap :=
  checkGroupRolesFuel (3 * groles.size + 1) groles

example :
    let groles : List (ObjectGuid × UInt8) :=
      [(1, 0x0e), (2, 0x0b), (3, 0x08), (4, 0x0a), (5, 0x0c)]
    (checkGroupRoles (.ofList groles)).2.toList =
      [(1, 0x02), (2, 0x09), (3, 0x08), (4, 0x08), (5, 0x04)] := by
  decide +kernel

end EGServer.DungeonFinding

/-!
# What the role solver decides

`checkGroupRoles` answers `true` exactly when the players can be assigned to roles they
selected without exceeding what a group needs, and then narrows each of them to the role
it was assigned. On `false` the map is as it was: every role that was taken away on trial
has been put back.
-/

namespace EGServer.DungeonFinding

open Assignment

/-! ## Role bits -/

@[elab_as_elim]
theorem forall_roles {motive : UInt8 → Prop} (r : UInt8)
    (h : ∀ b : Fin 256, motive (UInt8.ofFin b)) : motive r := h r.toFin

theorem role_table (r : UInt8) :
    (∀ k, selects r k → ∀ k', selects (r - k.flag) k' ↔ k' ≠ k ∧ selects r k') ∧
    (∀ k, selects r k → (r - k.flag) &&& PLAYER_ROLE_LEADER = r &&& PLAYER_ROLE_LEADER) ∧
    (∀ k, selects r k → (r - k.flag ≤ PLAYER_ROLE_ANY ↔ r ≤ PLAYER_ROLE_ANY)) ∧
    (∀ k, isRole r k → r ≤ PLAYER_ROLE_ANY) ∧
    (∀ k, isRole r k → ∀ k', selects r k' ↔ k' = k) ∧
    (∀ k, selects (withoutLeader r) k ↔ selects r k) ∧
    (∀ k, selects r k → withoutLeader r ≠ PLAYER_ROLE_NONE) ∧
    (r ≤ PLAYER_ROLE_ANY → ∀ k, selects r k → ¬isRole r k → ∃ k', k' ≠ k ∧ selects r k') :=
  ⟨forall_roles r (by decide +kernel), forall_roles r (by decide +kernel),
    forall_roles r (by decide +kernel), forall_roles r (by decide +kernel),
    forall_roles r (by decide +kernel), forall_roles r (by decide +kernel),
    forall_roles r (by decide +kernel), forall_roles r (by decide +kernel)⟩

theorem selects_sub (r : UInt8) :
    ∀ k, selects r k → ∀ k', selects (r - k.flag) k' ↔ k' ≠ k ∧ selects r k' :=
  (role_table r).1

theorem leader_sub (r : UInt8) :
    ∀ k, selects r k → (r - k.flag) &&& PLAYER_ROLE_LEADER = r &&& PLAYER_ROLE_LEADER :=
  (role_table r).2.1

theorem any_sub (r : UInt8) :
    ∀ k, selects r k → (r - k.flag ≤ PLAYER_ROLE_ANY ↔ r ≤ PLAYER_ROLE_ANY) :=
  (role_table r).2.2.1

theorem isRole_any (r : UInt8) : ∀ k, isRole r k → r ≤ PLAYER_ROLE_ANY :=
  (role_table r).2.2.2.1

theorem selects_of_isRole (r : UInt8) : ∀ k, isRole r k → ∀ k', selects r k' ↔ k' = k :=
  (role_table r).2.2.2.2.1

theorem selects_withoutLeader (r : UInt8) : ∀ k, selects (withoutLeader r) k ↔ selects r k :=
  (role_table r).2.2.2.2.2.1

theorem withoutLeader_ne_none (r : UInt8) :
    ∀ k, selects r k → withoutLeader r ≠ PLAYER_ROLE_NONE :=
  (role_table r).2.2.2.2.2.2.1

theorem exists_other_role (r : UInt8) :
    r ≤ PLAYER_ROLE_ANY → ∀ k, selects r k → ¬isRole r k → ∃ k', k' ≠ k ∧ selects r k' :=
  (role_table r).2.2.2.2.2.2.2

@[simp] theorem flag_inj : ∀ k k' : LfgRole, k.flag = k'.flag ↔ k = k' := by decide

theorem selects_flag : ∀ k k' : LfgRole, selects k.flag k' ↔ k' = k := by decide

theorem isRole_unique {r : UInt8} {k k' : LfgRole} (h : isRole r k) (h' : isRole r k') :
    k = k' :=
  (flag_inj k k').mp (h.symm.trans h')

theorem mem_order : ∀ k : LfgRole, k ∈ LfgRole.order := by decide

theorem sum_roles (count : RoleCount) :
    ∑ k, count k = count .tank + count .healer + count .damage := by
  show ∑ k ∈ ({.tank, .healer, .damage} : Finset LfgRole), count k = _
  simp [Nat.add_assoc]

theorem sum_needed : ∑ k, LfgRole.needed k = MAX_GROUP_SIZE := by decide

/-! ## Role maps -/

namespace LfgRolesMap

/-- The players of a role map. -/
def players (m : LfgRolesMap) : Finset ObjectGuid := m.keys.toFinset

/-- `m` with one role of a player taken away. -/
def drop (m : LfgRolesMap) (guid : ObjectGuid) (k : LfgRole) : LfgRolesMap :=
  m.modify guid (· - k.flag)

/-- The player selected the role. -/
def Able (m : LfgRolesMap) (guid : ObjectGuid) (k : LfgRole) : Prop :=
  selects (m.getD guid PLAYER_ROLE_NONE) k

instance (m : LfgRolesMap) (guid : ObjectGuid) (k : LfgRole) : Decidable (m.Able guid k) :=
  inferInstanceAs (Decidable (selects _ _))

/-- No bits are set but those of `PLAYER_ROLE_ANY`. -/
def Clean (m : LfgRolesMap) : Prop :=
  ∀ (guid : ObjectGuid) (r : UInt8), m[guid]? = some r → r ≤ PLAYER_ROLE_ANY

/-- The choices that are left: each player with each role it may still take. -/
def choices (m : LfgRolesMap) : Finset (ObjectGuid × LfgRole) :=
  (m.players ×ˢ Finset.univ).filter fun x => m.Able x.1 x.2

variable {m m' : LfgRolesMap} {guid : ObjectGuid} {k : LfgRole} {r : UInt8}

@[simp] theorem mem_players : guid ∈ m.players ↔ guid ∈ m := by
  simp [players]

theorem nodup_keys (m : LfgRolesMap) : m.keys.Nodup := by
  refine m.distinct_keys.imp ?_
  intro a b hab heq
  exact hab (by simp [heq])

theorem card_players (m : LfgRolesMap) : m.players.card = m.size := by
  rw [players, List.toFinset_card_of_nodup m.nodup_keys, Std.ExtTreeMap.length_keys]

theorem getD_of_getElem? (h : m[guid]? = some r) : m.getD guid PLAYER_ROLE_NONE = r := by
  rw [Std.ExtTreeMap.getD_eq_getD_getElem?, h, Option.getD_some]

theorem mem_of_getElem? (h : m[guid]? = some r) : guid ∈ m := by
  rw [Std.ExtTreeMap.mem_iff_isSome_getElem?, h, Option.isSome_some]

theorem getElem?_of_mem (h : guid ∈ m.players) : ∃ r, m[guid]? = some r := by
  rw [mem_players, Std.ExtTreeMap.mem_iff_isSome_getElem?] at h
  exact Option.isSome_iff_exists.mp h

theorem Able.getElem? (h : m.Able guid k) :
    ∃ r, m[guid]? = some r ∧ m.getD guid PLAYER_ROLE_NONE = r ∧ selects r k := by
  unfold Able at h
  rw [Std.ExtTreeMap.getD_eq_getD_getElem?] at h ⊢
  cases hm : m[guid]? with
  | none =>
    rw [hm] at h
    exact absurd h (by cases k <;> decide)
  | some r =>
    rw [hm] at h
    exact ⟨r, rfl, rfl, h⟩

@[simp] theorem players_drop : (m.drop guid k).players = m.players := by
  ext g
  rw [mem_players, mem_players, drop, Std.ExtTreeMap.mem_modify]

theorem getElem?_drop (g : ObjectGuid) :
    (m.drop guid k)[g]? = if g = guid then (m[g]?).map (· - k.flag) else m[g]? := by
  grind [drop]

theorem drop_restore : (m.drop guid k).modify guid (· + k.flag) = m := by
  apply Std.ExtTreeMap.ext_getElem?
  intro g
  rw [Std.ExtTreeMap.getElem?_modify, getElem?_drop, getElem?_drop]
  by_cases h : g = guid
  · subst h
    cases hm : m[g]? with
    | none => simp
    | some r => simp
  · have h' : ¬guid = g := fun e => h e.symm
    simp [h, h']

theorem able_drop (h : m.Able guid k) (g : ObjectGuid) (k' : LfgRole) :
    (m.drop guid k).Able g k' ↔ (g, k') ≠ (guid, k) ∧ m.Able g k' := by
  obtain ⟨r, hr, hd, hs⟩ := h.getElem?
  unfold Able
  rw [Std.ExtTreeMap.getD_eq_getD_getElem?, getElem?_drop]
  by_cases hg : g = guid
  · subst hg
    rw [if_pos rfl, hr, hd, Option.map_some, Option.getD_some, selects_sub r k hs k']
    simp
  · rw [if_neg hg, ← Std.ExtTreeMap.getD_eq_getD_getElem?]
    simp [hg]

theorem choices_drop (h : m.Able guid k) : (m.drop guid k).choices = m.choices.erase (guid, k) := by
  ext ⟨g, k'⟩
  simp only [choices, Finset.mem_filter, Finset.mem_product, Finset.mem_univ, and_true,
    players_drop, Finset.mem_erase, able_drop h]
  tauto

theorem card_choices_drop (h : m.Able guid k) : (m.drop guid k).choices.card < m.choices.card := by
  rw [choices_drop h]
  apply Finset.card_erase_lt_of_mem
  obtain ⟨r, hr, _⟩ := h.getElem?
  simp [choices, h, mem_of_getElem? hr]

theorem clean_drop (h : m.Able guid k) : (m.drop guid k).Clean ↔ m.Clean := by
  obtain ⟨r, hr, _, hs⟩ := h.getElem?
  constructor
  · intro hc g r' hg
    by_cases hgg : g = guid
    · subst hgg
      obtain rfl : r = r' := Option.some.inj (hr.symm.trans hg)
      exact (any_sub r k hs).mp (hc g _ (by rw [getElem?_drop, if_pos rfl, hr]; rfl))
    · exact hc g r' (by rw [getElem?_drop, if_neg hgg, hg])
  · intro hc g r' hg
    rw [getElem?_drop] at hg
    by_cases hgg : g = guid
    · subst hgg
      rw [if_pos rfl, hr, Option.map_some, Option.some.injEq] at hg
      rw [← hg]
      exact (any_sub r k hs).mpr (hc g r hr)
    · rw [if_neg hgg] at hg
      exact hc g r' hg

theorem card_choices_le (m : LfgRolesMap) : m.choices.card ≤ 3 * m.size := by
  calc m.choices.card ≤ (m.players ×ˢ (Finset.univ : Finset LfgRole)).card :=
        Finset.card_filter_le ..
    _ = m.size * 3 := by rw [Finset.card_product, card_players]; rfl
    _ = 3 * m.size := Nat.mul_comm ..

end LfgRolesMap

/-! ## One player in the loop -/

section loop

variable {self : LfgRolesMap → Bool × LfgRolesMap} {m m' : LfgRolesMap} {guid : ObjectGuid}
  {count : RoleCount} {k : LfgRole} {todo done : List ObjectGuid} {f : ObjectGuid → LfgRole}

/-- A recursive call that answers `false` has put everything back. -/
def Restores (self : LfgRolesMap → Bool × LfgRolesMap) : Prop :=
  ∀ m, (self m).1 = false → (self m).2 = m

theorem checkRole_single :
    LfgRole.order.foldlM (checkRole self guid k.flag) (count, m) =
      if count k = k.needed then .error (false, m)
      else .ok (Function.update count k (count k + 1), m) := by
  by_cases hc : count k = k.needed
  · cases k <;> simp [LfgRole.order, checkRole, selects_flag, hc, bind, Except.bind]
  · cases k <;> simp [LfgRole.order, checkRole, selects_flag, hc, bind, Except.bind, pure, Except.pure]

theorem checkRole_several (hself : Restores self) {role : UInt8}
    (hrole : ∀ k : LfgRole, role ≠ k.flag) (ks : List LfgRole) :
    ks.foldlM (checkRole self guid role) (count, m) =
      match ks.find? (fun k => decide (selects role k) && (self (m.drop guid k)).1) with
      | some k => .error (true, (self (m.drop guid k)).2)
      | none => .ok (count, m) := by
  induction ks with
  | nil => rfl
  | cons k ks ih =>
    by_cases hs : selects role k
    · cases hr : self (m.drop guid k) with
      | mk answer m' =>
        have hr' : self (m.modify guid (· - k.flag)) = (answer, m') := hr
        cases answer with
        | true => simp [List.foldlM, checkRole, hs, hrole k, hr, hr', bind, Except.bind]
        | false =>
          have hm : m' = m.drop guid k := by
            have h := hself (m.drop guid k) (by rw [hr])
            rwa [hr] at h
          subst hm
          simp [List.foldlM, checkRole, hs, hrole k, hr, hr', bind, Except.bind,
            LfgRolesMap.drop_restore, ih]
    · simp [List.foldlM, checkRole, hs, bind, Except.bind, ih]

/-- **What the loop body can do** with the next player. -/
theorem checkPlayers_cons (hself : Restores self) (guid : ObjectGuid) (todo : List ObjectGuid)
    (count : RoleCount) (m : LfgRolesMap) :
    let result := checkPlayers self (guid :: todo) (count, m)
    let role := m.getD guid PLAYER_ROLE_NONE
    (withoutLeader role = PLAYER_ROLE_NONE ∧ result = (false, m)) ∨
    (∃ k, isRole role k ∧ count k = k.needed ∧ result = (false, m)) ∨
    (∃ k, isRole role k ∧ count k ≠ k.needed ∧
      result = checkPlayers self todo (Function.update count k (count k + 1), m)) ∨
    (∃ k, m.Able guid k ∧ (self (m.drop guid k)).1 = true ∧
      result = (true, (self (m.drop guid k)).2)) ∨
    ((∀ k, ¬isRole role k) ∧ (∀ k, m.Able guid k → (self (m.drop guid k)).1 = false) ∧
      result = checkPlayers self todo (count, m)) := by
  intro result role
  have hresult : result = checkPlayers self (guid :: todo) (count, m) := rfl
  rw [checkPlayers] at hresult
  by_cases hnone : withoutLeader role = PLAYER_ROLE_NONE
  · rw [if_pos hnone] at hresult
    exact .inl ⟨hnone, hresult⟩
  rw [if_neg hnone] at hresult
  right
  by_cases hsingle : ∃ k, isRole role k
  · obtain ⟨k, hk⟩ := hsingle
    rw [show withoutLeader role = k.flag from hk, checkRole_single] at hresult
    grind
  · have hseveral : ∀ k, ¬isRole role k := fun k hk => hsingle ⟨k, hk⟩
    rw [checkRole_several hself hseveral] at hresult
    right
    right
    have hable : ∀ k, m.Able guid k ↔ selects (withoutLeader role) k :=
      fun k => (selects_withoutLeader role k).symm
    cases hfind : LfgRole.order.find? fun k =>
        decide (selects (withoutLeader role) k) && (self (m.drop guid k)).1 with
    | some k =>
      grind
    | none =>
      grind [mem_order]

/-- A loop that answers `false` has put everything back. -/
theorem checkPlayers_restores (hself : Restores self) :
    ∀ (todo : List ObjectGuid) (count : RoleCount),
      (checkPlayers self todo (count, m)).1 = false → (checkPlayers self todo (count, m)).2 = m
  | [], _ => fun _ => rfl
  | guid :: todo, count => by
    intro h
    obtain ⟨_, hr⟩ | ⟨k, _, _, hr⟩ | ⟨k, _, _, hr⟩ | ⟨k, _, _, hr⟩ | ⟨_, _, hr⟩ :=
      checkPlayers_cons hself guid todo count m
    · rw [hr]
    · rw [hr]
    · rw [hr] at h ⊢
      exact checkPlayers_restores hself todo _ h
    · rw [hr] at h
      exact absurd h (by simp)
    · rw [hr] at h ⊢
      exact checkPlayers_restores hself todo count h

theorem checkRole_congr {self' : LfgRolesMap → Bool × LfgRolesMap} {role : UInt8}
    (hself : Restores self) (heq : ∀ k, selects role k → self' (m.drop guid k) = self (m.drop guid k))
    (ks : List LfgRole) (count : RoleCount) :
    ks.foldlM (checkRole self' guid role) (count, m) =
        ks.foldlM (checkRole self guid role) (count, m) ∧
      ∀ state, ks.foldlM (checkRole self guid role) (count, m) = .ok state → state.2 = m := by
  induction ks generalizing count with
  | nil =>
    refine ⟨rfl, ?_⟩
    intro state h
    cases h
    rfl
  | cons k ks ih =>
    by_cases hs : selects role k
    · have hsame : self' (m.modify guid (· - k.flag)) = self (m.modify guid (· - k.flag)) :=
        heq k hs
      by_cases hk : role = k.flag
      · subst hk
        by_cases hfull : count k = k.needed
        · simp [List.foldlM, checkRole, hs, hfull, bind, Except.bind]
        · simpa [List.foldlM, checkRole, hs, hfull, bind, Except.bind] using
            ih (Function.update count k (count k + 1))
      · cases hr : self (m.drop guid k) with
        | mk answer m' =>
          have hr' : self (m.modify guid (· - k.flag)) = (answer, m') := hr
          cases answer with
          | true =>
            simp [List.foldlM, checkRole, hs, hk, hr', hsame, bind, Except.bind]
          | false =>
            have hm : m' = m.drop guid k := by
              have h := hself (m.drop guid k) (by rw [hr])
              rwa [hr] at h
            subst hm
            simpa [List.foldlM, checkRole, hs, hk, hr', hsame, bind, Except.bind,
              LfgRolesMap.drop_restore] using ih count
    · simpa [List.foldlM, checkRole, hs, bind, Except.bind] using ih count

theorem checkPlayers_congr {self' : LfgRolesMap → Bool × LfgRolesMap} (hself : Restores self)
    (heq : ∀ g k, m.Able g k → self' (m.drop g k) = self (m.drop g k)) (todo : List ObjectGuid)
    (count : RoleCount) :
    checkPlayers self' todo (count, m) = checkPlayers self todo (count, m) := by
  induction todo generalizing count with
  | nil => rfl
  | cons guid todo ih =>
    let role := withoutLeader (m.getD guid PLAYER_ROLE_NONE)
    have hselected : ∀ k, selects role k → self' (m.drop guid k) = self (m.drop guid k) :=
      fun k hk => heq guid k ((selects_withoutLeader _ k).mp hk)
    obtain ⟨hsame, hm⟩ := checkRole_congr hself hselected LfgRole.order count
    rw [checkPlayers, checkPlayers, hsame]
    grind

/-- The role map `m'` narrows each player of `m` to one role that it selected, and keeps its
leader flag; no role is given out more often than a group needs. -/
structure Narrows (m m' : LfgRolesMap) : Prop where
  players : m'.players = m.players
  clean : m.Clean
  role : ∀ (guid : ObjectGuid) (r r' : UInt8), m[guid]? = some r → m'[guid]? = some r' →
    (∃ k, isRole r' k ∧ selects r k) ∧ r' &&& PLAYER_ROLE_LEADER = r &&& PLAYER_ROLE_LEADER
  fits : ∀ k, (m.players.filter fun g => isRole (m'.getD g PLAYER_ROLE_NONE) k).card ≤ k.needed

theorem Narrows.of_drop (h : Narrows (m.drop guid k) m') (hk : m.Able guid k) : Narrows m m' where
  players := h.players.trans LfgRolesMap.players_drop
  clean := (LfgRolesMap.clean_drop hk).mp h.clean
  fits := by
    have hf := h.fits
    rwa [LfgRolesMap.players_drop] at hf
  role g r r' hr hr' := by
    by_cases hg : g = guid
    · subst hg
      have hd : (m.drop g k)[g]? = some (r - k.flag) := by
        rw [LfgRolesMap.getElem?_drop, if_pos rfl, hr]; rfl
      have hs : selects r k := by
        unfold LfgRolesMap.Able at hk
        rwa [LfgRolesMap.getD_of_getElem? hr] at hk
      obtain ⟨⟨k', hrole, hsel⟩, hlead⟩ := h.role g (r - k.flag) r' hd hr'
      exact ⟨⟨k', hrole, ((selects_sub r k hs k').mp hsel).2⟩, hlead.trans (leader_sub r k hs)⟩
    · exact h.role g r r' (by rw [LfgRolesMap.getElem?_drop, if_neg hg, hr]) hr'

theorem narrows_self (hkeys : m.keys = done)
    (hcount : ∀ k, count k = done.countP fun g => isRole (m.getD g PLAYER_ROLE_NONE) k)
    (hle : ∀ k, count k ≤ k.needed)
    (hsum : count .tank + count .healer + count .damage = m.size) : Narrows m m := by
  subst hkeys
  have hcard : ∀ k, (m.players.filter fun g => isRole (m.getD g PLAYER_ROLE_NONE) k).card =
      count k := by
    intro k
    have hlist : m.players.filter (fun g => isRole (m.getD g PLAYER_ROLE_NONE) k) =
        (m.keys.filter fun g => isRole (m.getD g PLAYER_ROLE_NONE) k).toFinset := by
      ext g
      simp
    rw [hcount k, hlist, List.toFinset_card_of_nodup (m.nodup_keys.filter _),
      List.countP_eq_length_filter]
  have hdisjoint : ∀ k ∈ (Finset.univ : Finset LfgRole), ∀ k' ∈ Finset.univ, k ≠ k' →
      Disjoint (m.players.filter fun g => isRole (m.getD g PLAYER_ROLE_NONE) k)
        (m.players.filter fun g => isRole (m.getD g PLAYER_ROLE_NONE) k') := by
    intro k _ k' _ hne
    rw [Finset.disjoint_filter]
    exact fun g _ h h' => hne (isRole_unique h h')
  have hall : (Finset.univ.biUnion fun k =>
      m.players.filter fun g => isRole (m.getD g PLAYER_ROLE_NONE) k) = m.players := by
    apply Finset.eq_of_subset_of_card_le
    · exact Finset.biUnion_subset.mpr fun k _ => Finset.filter_subset ..
    · rw [Finset.card_biUnion hdisjoint, Finset.sum_congr rfl fun k _ => hcard k,
        LfgRolesMap.card_players, ← hsum]
      exact (sum_roles count).ge
  have hrole : ∀ g ∈ m.players, ∃ k, isRole (m.getD g PLAYER_ROLE_NONE) k := by
    grind
  have hget : ∀ (g : ObjectGuid) (r : UInt8), m[g]? = some r → ∃ k, isRole r k := by
    intro g r hr
    have hg := hrole g (LfgRolesMap.mem_players.mpr (LfgRolesMap.mem_of_getElem? hr))
    rwa [LfgRolesMap.getD_of_getElem? hr] at hg
  exact {
    players := rfl
    clean := fun g r hr => by
      obtain ⟨k, hk⟩ := hget g r hr
      exact isRole_any r k hk
    role := fun g r r' hr hr' => by
      obtain rfl : r = r' := Option.some.inj (hr.symm.trans hr')
      obtain ⟨k, hk⟩ := hget g r hr
      exact ⟨⟨k, hk, (selects_of_isRole r k hk k).mpr rfl⟩, rfl⟩
    fits := fun k => (hcard k).trans_le (hle k) }

/-- **Soundness of the loop.** `count` counts the players of `done` that have one role left. -/
theorem checkPlayers_narrows (hrestores : Restores self)
    (hself : ∀ g k, m.Able g k → (self (m.drop g k)).1 = true →
      Narrows (m.drop g k) (self (m.drop g k)).2)
    (hsize : m.size < 256) :
    ∀ (todo done : List ObjectGuid) (count : RoleCount), m.keys = done ++ todo →
      (∀ k, count k = done.countP fun g => isRole (m.getD g PLAYER_ROLE_NONE) k) →
      (∀ k, count k ≤ k.needed) → (checkPlayers self todo (count, m)).1 = true →
      Narrows m (checkPlayers self todo (count, m)).2
  | [], done, count => by
    intro hkeys hcount hle h
    rw [List.append_nil] at hkeys
    have hsum : count .tank + count .healer + count .damage = m.size := by
      grind [checkPlayers]
    exact narrows_self hkeys hcount hle hsum
  | guid :: todo, done, count => by
    intro hkeys hcount hle h
    have hkeys' : m.keys = (done ++ [guid]) ++ todo := by simpa using hkeys
    obtain ⟨_, hr⟩ | ⟨k, _, _, hr⟩ | ⟨k, hk, hlt, hr⟩ | ⟨k, hk, hok, hr⟩ | ⟨hno, _, hr⟩ :=
      checkPlayers_cons hrestores guid todo count m
    · rw [hr] at h
      exact absurd h (by simp)
    · rw [hr] at h
      exact absurd h (by simp)
    · rw [hr] at h ⊢
      apply checkPlayers_narrows hrestores hself hsize todo (done ++ [guid]) _ hkeys' _ _ h
      · intro k'
        rw [List.countP_append, ← hcount k', Function.update_apply, List.countP_singleton]
        by_cases hkk : k' = k
        · subst hkk
          simp [hk]
        · have hno : ¬isRole (m.getD guid PLAYER_ROLE_NONE) k' :=
            fun hk' => hkk (isRole_unique hk' hk)
          simp [hkk, hno]
      · intro k'
        rw [Function.update_apply]
        split
        · next hkk =>
          subst hkk
          exact Nat.lt_of_le_of_ne (hle k') hlt
        · exact hle k'
    · rw [hr] at h ⊢
      exact (hself guid k hk hok).of_drop hk
    · rw [hr] at h ⊢
      apply checkPlayers_narrows hrestores hself hsize todo (done ++ [guid]) count hkeys' _ hle h
      intro k'
      rw [List.countP_append, ← hcount k']
      simp [hno k']

theorem countP_le_card (hkeys : m.keys = done ++ todo) (k : LfgRole) :
    done.countP (f · = k) ≤ (m.players.filter (f · = k)).card := by
  have hnodup : (done ++ todo).Nodup := hkeys ▸ m.nodup_keys
  calc done.countP (f · = k) = (done.filter (f · = k)).toFinset.card := by
        grind [List.toFinset_card_of_nodup]
    _ ≤ (m.players.filter (f · = k)).card := by
        apply Finset.card_le_card
        grind [List.mem_toFinset, LfgRolesMap.players]

theorem sum_countP (f : ObjectGuid → LfgRole) (l : List ObjectGuid) :
    l.countP (f · = .tank) + l.countP (f · = .healer) + l.countP (f · = .damage) = l.length := by
  induction l with
  | nil => rfl
  | cons g l ih =>
    rw [List.countP_cons, List.countP_cons, List.countP_cons, List.length_cons, ← ih]
    cases f g <;> simp <;> omega

/-- **Completeness of the loop.** The counters follow an assignment that the players admit,
until a player with several roles comes up: one of them the assignment does not need. -/
theorem checkPlayers_complete (hrestores : Restores self)
    (hf : Assigns m.Able LfgRole.needed m.players f) (hclean : m.Clean)
    (hself : ∀ g k, m.Able g k → k ≠ f g → (self (m.drop g k)).1 = true) :
    ∀ (todo done : List ObjectGuid) (count : RoleCount), m.keys = done ++ todo →
      (∀ k, count k = done.countP (f · = k)) → (checkPlayers self todo (count, m)).1 = true
  | [], done, count => by
    intro hkeys hcount
    have hsize : m.size ≤ MAX_GROUP_SIZE := by
      rw [← LfgRolesMap.card_players, ← sum_needed]
      exact hf.card_le
    have hlength : done.length = m.size := by
      rw [← Std.ExtTreeMap.length_keys, hkeys, List.append_nil]
    have hmod : m.size % 256 = m.size := by
      unfold MAX_GROUP_SIZE at hsize
      omega
    rw [checkPlayers, hcount, hcount, hcount, sum_countP, hlength, hmod]
    exact decide_eq_true rfl
  | guid :: todo, done, count => by
    intro hkeys hcount
    have hkeys' : m.keys = (done ++ [guid]) ++ todo := by simpa using hkeys
    have hmem : guid ∈ m.players := by
      rw [LfgRolesMap.players, hkeys]
      simp
    have hable : selects (m.getD guid PLAYER_ROLE_NONE) (f guid) := hf.able guid hmem
    have hcount' : ∀ k, (done ++ [guid]).countP (f · = k) =
        count k + if f guid = k then 1 else 0 := by
      intro k
      rw [List.countP_append, ← hcount k, List.countP_singleton]
      simp
    have hrole : ∀ {k}, isRole (m.getD guid PLAYER_ROLE_NONE) k → f guid = k :=
      fun {k} hk => (selects_of_isRole _ k hk (f guid)).mp hable
    obtain ⟨hnone, hr⟩ | ⟨k, hk, hfull, hr⟩ | ⟨k, hk, _, hr⟩ | ⟨k, _, _, hr⟩ | ⟨hno, hfails, hr⟩ :=
      checkPlayers_cons hrestores guid todo count m
    · exact absurd hnone (withoutLeader_ne_none _ _ hable)
    · have hle := (countP_le_card hkeys' k).trans (hf.fits k)
      rw [hcount' k, if_pos (hrole hk), hfull] at hle
      exact absurd hle (Nat.not_succ_le_self _)
    · rw [hr]
      apply checkPlayers_complete hrestores hf hclean hself todo (done ++ [guid]) _ hkeys'
      intro k'
      rw [hcount' k', hrole hk, Function.update_apply]
      by_cases hkk : k' = k
      · subst hkk
        simp
      · have hkk' : ¬k = k' := fun e => hkk e.symm
        simp [hkk, hkk']
    · rw [hr]
    · obtain ⟨r, hget, hd, _⟩ := hf.able guid hmem |>.getElem?
      have hany : m.getD guid PLAYER_ROLE_NONE ≤ PLAYER_ROLE_ANY := hd ▸ hclean guid r hget
      obtain ⟨k, hne, hk⟩ := exists_other_role _ hany (f guid) hable (hno _)
      have hok := hself guid k hk hne
      rw [hfails k hk] at hok
      exact absurd hok (by simp)

end loop

/-! ## The solver -/

theorem checkGroupRolesFuel_restores : ∀ fuel, Restores (checkGroupRolesFuel fuel)
  | 0 => fun _ _ => rfl
  | fuel + 1 => by
    intro m h
    rw [checkGroupRolesFuel] at h ⊢
    split
    · rfl
    · next hne =>
      rw [if_neg hne] at h
      exact checkPlayers_restores (checkGroupRolesFuel_restores fuel) m.keys _ h

theorem isEmpty_iff (m : LfgRolesMap) : m.isEmpty = true ↔ ¬m.players.Nonempty := by
  rw [Finset.not_nonempty_iff_eq_empty, ← Finset.card_eq_zero, LfgRolesMap.card_players,
    Std.ExtTreeMap.isEmpty_eq_size_beq_zero]
  simp

theorem checkGroupRolesFuel_narrows : ∀ (fuel : Nat) (m : LfgRolesMap), m.size < 256 →
    (checkGroupRolesFuel fuel m).1 = true → Narrows m (checkGroupRolesFuel fuel m).2
  | 0, _ => by
    intro _ h
    exact absurd h (by simp [checkGroupRolesFuel])
  | fuel + 1, m => by
    intro hsize h
    rw [checkGroupRolesFuel] at h ⊢
    split
    · next he =>
      rw [if_pos he] at h
      exact absurd h (by simp)
    · next he =>
      rw [if_neg he] at h
      apply checkPlayers_narrows (checkGroupRolesFuel_restores fuel) _ hsize m.keys [] _ rfl _ _ h
      · intro g k _ hok
        apply checkGroupRolesFuel_narrows fuel (m.drop g k) _ hok
        rwa [LfgRolesMap.drop, Std.ExtTreeMap.size_modify]
      · intro k
        rfl
      · intro k
        exact Nat.zero_le _

theorem checkGroupRolesFuel_complete : ∀ (fuel : Nat) (m : LfgRolesMap), m.choices.card < fuel →
    m.players.Nonempty → m.Clean → Assignable m.Able LfgRole.needed m.players →
    (checkGroupRolesFuel fuel m).1 = true
  | 0, _ => by
    intro h
    exact absurd h (Nat.not_lt_zero _)
  | fuel + 1, m => by
    rintro hfuel hne hclean ⟨f, hf⟩
    rw [checkGroupRolesFuel, if_neg (by rw [isEmpty_iff]; exact fun h => h hne)]
    apply checkPlayers_complete (checkGroupRolesFuel_restores fuel) hf hclean _ m.keys [] _ rfl
    · intro k
      rfl
    · intro g k hk hkf
      apply checkGroupRolesFuel_complete fuel (m.drop g k)
      · exact Nat.lt_of_lt_of_le (LfgRolesMap.card_choices_drop hk) (Nat.lt_succ_iff.mp hfuel)
      · rwa [LfgRolesMap.players_drop]
      · exact (LfgRolesMap.clean_drop hk).mpr hclean
      · refine ⟨f, ?_⟩
        rw [LfgRolesMap.players_drop]
        apply hf.congr
        intro i _ hi
        refine (LfgRolesMap.able_drop hk i (f i)).mpr ⟨?_, hi⟩
        intro he
        rw [Prod.mk.injEq] at he
        exact hkf (he.2 ▸ he.1 ▸ rfl)

theorem checkGroupRoles_restores (m : LfgRolesMap) (h : (checkGroupRoles m).1 = false) :
    (checkGroupRoles m).2 = m :=
  checkGroupRolesFuel_restores _ m h

theorem checkGroupRoles_narrows (m : LfgRolesMap) (hsize : m.size < 256)
    (h : (checkGroupRoles m).1 = true) : Narrows m (checkGroupRoles m).2 :=
  checkGroupRolesFuel_narrows _ m hsize h

theorem Narrows.assigns {m m' : LfgRolesMap} (h : Narrows m m') :
    ∃ f, Assigns m.Able LfgRole.needed m.players f ∧
      ∀ g ∈ m.players, isRole (m'.getD g PLAYER_ROLE_NONE) (f g) := by
  have hrole : ∀ g, ∃ k, g ∈ m.players →
      isRole (m'.getD g PLAYER_ROLE_NONE) k ∧ m.Able g k := by
    intro g
    by_cases hg : g ∈ m.players
    · obtain ⟨r, hr⟩ := LfgRolesMap.getElem?_of_mem hg
      obtain ⟨r', hr'⟩ := LfgRolesMap.getElem?_of_mem (h.players.symm ▸ hg)
      obtain ⟨⟨k, hk, hs⟩, _⟩ := h.role g r r' hr hr'
      grind [EGServer.DungeonFinding.LfgRolesMap.getD_of_getElem?, LfgRolesMap.Able]
    · exact ⟨.tank, fun hg' => absurd hg' hg⟩
  choose f hf using hrole
  refine ⟨f, ⟨fun g hg => (hf g hg).2, fun k => ?_⟩, fun g hg => (hf g hg).1⟩
  apply (Finset.card_le_card _).trans (h.fits k)
  intro g hg
  rw [Finset.mem_filter] at hg ⊢
  exact ⟨hg.1, hg.2 ▸ (hf g hg.1).1⟩

theorem Narrows.fills {m m' : LfgRolesMap} (h : Narrows m m') (hsize : m.size = MAX_GROUP_SIZE)
    (k : LfgRole) :
    (m'.players.filter fun g => isRole (m'.getD g PLAYER_ROLE_NONE) k).card = k.needed := by
  obtain ⟨f, hf, hrole⟩ := h.assigns
  have hcard : m.players.card = ∑ k, LfgRole.needed k := by
    rw [LfgRolesMap.card_players, hsize, sum_needed]
  rw [← hf.fills hcard k, h.players]
  grind [isRole_unique, Finset.filter_congr]

/-- **The solver decides assignability.** -/
theorem checkGroupRoles_iff (m : LfgRolesMap) (hsize : m.size < 256) :
    (checkGroupRoles m).1 = true ↔
      m.players.Nonempty ∧ m.Clean ∧ Assignable m.Able LfgRole.needed m.players := by
  constructor
  · intro h
    have hn := checkGroupRoles_narrows m hsize h
    obtain ⟨f, hf, _⟩ := hn.assigns
    refine ⟨?_, hn.clean, f, hf⟩
    by_contra hempty
    rw [← isEmpty_iff] at hempty
    simp [checkGroupRoles, checkGroupRolesFuel, hempty] at h
  · rintro ⟨hne, hclean, hassign⟩
    have hfuel : m.choices.card < 3 * m.size + 1 := Nat.lt_succ_of_le m.card_choices_le
    exact checkGroupRolesFuel_complete _ m hfuel hne hclean hassign

theorem size_le_of_checkGroupRoles (m : LfgRolesMap) (hsize : m.size < 256)
    (h : (checkGroupRoles m).1 = true) : m.size ≤ MAX_GROUP_SIZE := by
  obtain ⟨_, _, f, hf⟩ := (checkGroupRoles_iff m hsize).mp h
  rw [← LfgRolesMap.card_players, ← sum_needed]
  exact hf.card_le

/-! ## The recursion ends -/

/-- The recursion, with `bottom` in place of every call that is deeper than the fuel. -/
def unrolled (bottom : LfgRolesMap → Bool × LfgRolesMap) : Nat → LfgRolesMap → Bool × LfgRolesMap
  | 0, groles => bottom groles
  | fuel + 1, groles =>
    if groles.isEmpty then (false, groles)
    else checkPlayers (unrolled bottom fuel) groles.keys (fun _ => 0, groles)

theorem unrolled_eq (bottom : LfgRolesMap → Bool × LfgRolesMap) (n : Nat) :
    ∀ (fuel : Nat) (m : LfgRolesMap), m.choices.card < n → m.choices.card < fuel →
      unrolled bottom fuel m = checkGroupRolesFuel n m := by
  induction n with
  | zero =>
    intro fuel m h _
    exact absurd h (Nat.not_lt_zero _)
  | succ n ih =>
    intro fuel m hn hfuel
    cases fuel with
    | zero => exact absurd hfuel (Nat.not_lt_zero _)
    | succ fuel =>
      rw [unrolled, checkGroupRolesFuel]
      split
      · rfl
      · apply checkPlayers_congr (checkGroupRolesFuel_restores n)
        intro g k hk
        have hdrop := LfgRolesMap.card_choices_drop hk
        exact ih fuel _ (by omega) (by omega)

theorem unrolled_checkGroupRoles (bottom : LfgRolesMap → Bool × LfgRolesMap) (m : LfgRolesMap)
    {fuel : Nat} (hfuel : 3 * m.size < fuel) : unrolled bottom fuel m = checkGroupRoles m := by
  have hcard := m.card_choices_le
  exact unrolled_eq bottom _ fuel m (by omega) (by omega)

theorem checkGroupRoles_eq (m : LfgRolesMap) :
    checkGroupRoles m =
      if m.isEmpty then (false, m) else checkPlayers checkGroupRoles m.keys (fun _ => 0, m) := by
  have hcard := m.card_choices_le
  rw [checkGroupRoles, checkGroupRolesFuel]
  split
  · rfl
  · symm
    apply checkPlayers_congr (checkGroupRolesFuel_restores _)
    intro g k hk
    have hsize : (m.drop g k).size = m.size := by
      rw [LfgRolesMap.drop, Std.ExtTreeMap.size_modify]
    have hdrop := LfgRolesMap.card_choices_drop hk
    rw [← unrolled_checkGroupRoles checkGroupRoles (m.drop g k) (Nat.lt_succ_self _), hsize]
    exact unrolled_eq _ _ _ _ (by omega) (by omega)

/-- **The solver is correct and puts back what it tried.** It answers `true` on a map with
players that can be given one selected role each within the needs of a group, and then leaves
such a choice in the map; it answers `false` otherwise and leaves the map as it was. Its calls
are never nested more than `3 * m.size` deep, whatever deeper calls would do. -/
theorem checkGroupRoles_solves (m : LfgRolesMap) (hsize : m.size ≤ 255) (hclean : m.Clean) :
    ((checkGroupRoles m).1 = true ↔
        m.isEmpty = false ∧ Assignable m.Able LfgRole.needed m.players) ∧
      ((checkGroupRoles m).1 = true → Narrows m (checkGroupRoles m).2) ∧
      ((checkGroupRoles m).1 = false → (checkGroupRoles m).2 = m) ∧
      (checkGroupRoles m =
        if m.isEmpty then (false, m) else checkPlayers checkGroupRoles m.keys (fun _ => 0, m)) ∧
      ∀ bottom fuel, 3 * m.size < fuel → unrolled bottom fuel m = checkGroupRoles m := by
  have hlt : m.size < 256 := Nat.lt_succ_of_le hsize
  refine ⟨?_, checkGroupRoles_narrows m hlt, checkGroupRoles_restores m, checkGroupRoles_eq m, ?_⟩
  · rw [checkGroupRoles_iff m hlt]
    have hempty : m.isEmpty = false ↔ m.players.Nonempty := by
      rw [← Bool.not_eq_true, isEmpty_iff, not_not]
    rw [hempty]
    exact ⟨fun h => ⟨h.1, h.2.2⟩, fun h => ⟨h.1, hclean, h.2⟩⟩
  · intro bottom fuel hfuel
    exact unrolled_checkGroupRoles bottom m hfuel

/-- A leader who may tank or heal, and a player who may only tank. -/
theorem checkGroupRoles_solves_pair :
    let m : LfgRolesMap := .ofList [((1 : ObjectGuid), (0x07 : UInt8)), (2, 0x02)]
    Narrows m (checkGroupRoles m).2 := by
  intro m
  have hlist : m.toList = [(1, 0x07), (2, 0x02)] := by decide +kernel
  have hclean : m.Clean := by
    intro guid r h
    have hmem : (guid, r) ∈ m.toList := Std.ExtTreeMap.mem_toList_iff_getElem?_eq_some.mpr h
    have hall : m.toList.all (fun x => decide (x.2 ≤ PLAYER_ROLE_ANY)) = true := by
      rw [hlist]
      decide
    exact of_decide_eq_true (List.all_eq_true.mp hall _ hmem)
  exact (checkGroupRoles_solves m (by decide +kernel) hclean).2.1 (by decide +kernel)

end EGServer.DungeonFinding
