import EGServer.Lib.GuardedRun
import EGServer.Lib.Table
import EGServer.Lib.Worklist
import Mathlib.Data.Finset.Lattice.Fold

/-!
# Permissions of an account

Permissions are granted to an account and denied to it, and a permission brings with it those it
is linked to. What the account holds is kept in `globalPerms`: everything that comes with the
granted permissions, less everything that comes with the denied ones. Every change of the two
lists has to compute it again.

What is written to the database is left out.
-/

namespace EGServer.Accounts

inductive RBACCommandResult where
  | RBAC_OK
  | RBAC_CANT_ADD_ALREADY_ADDED
  | RBAC_CANT_REVOKE_NOT_IN_LIST
  | RBAC_IN_GRANTED_LIST
  | RBAC_IN_DENIED_LIST
  | RBAC_ID_DOES_NOT_EXISTS
  deriving DecidableEq

open RBACCommandResult

structure RBACPermission where
  id : UInt32
  linkedPermissions : Finset UInt32 := ∅

/-- `AccountMgr`, as far as permissions are looked up in it. -/
structure AccountMgr where
  permissions : Table RBACPermission.id
  defaultPermissions : UInt8 → List UInt32

namespace AccountMgr

variable (A : AccountMgr)

def getRBACPermission (permissionId : UInt32) : Option RBACPermission :=
  A.permissions.get? permissionId

/-- The table as links between the ids in it. -/
def links : Worklist.Links UInt32 where
  of id := (A.getRBACPermission id).map RBACPermission.linkedPermissions
  nodes := (A.permissions.rows.map RBACPermission.id).toFinset
  mem_nodes := by
    intro id l h
    obtain ⟨permission, hget, -⟩ := Option.map_eq_some_iff.mp h
    obtain ⟨hmem, hid⟩ := Table.get?_eq_some.mp hget
    rw [List.mem_toFinset]
    exact List.mem_map.mpr ⟨permission, hmem, hid⟩

theorem exists_links {id : UInt32} : A.links.Exists id ↔ (A.getRBACPermission id).isSome = true := by
  rw [Option.isSome_iff_exists]
  constructor
  · intro h
    obtain ⟨l, hl⟩ := h
    obtain ⟨permission, hget, -⟩ := Option.map_eq_some_iff.mp hl
    exact ⟨permission, hget⟩
  · intro h
    obtain ⟨permission, hget⟩ := h
    exact ⟨_, Option.map_eq_some_iff.mpr ⟨permission, hget, rfl⟩⟩

/-- `*toCheck.begin()` of a `std::set`: the least id. -/
def begin : Worklist.Choice UInt32 where
  pick S h := UInt32.ofNat (S.inf' h UInt32.toNat)
  mem S h := by
    obtain ⟨id, hid, heq⟩ := Finset.exists_mem_eq_inf' h UInt32.toNat
    rw [heq, UInt32.ofNat_toNat]
    exact hid

/-- `ExpandPermissions`: the first id is taken out of `toCheck`; if there is such a permission, it
is put into the result, and those of its links that are not in the result into `toCheck`. -/
def expandPermissions (permissions : Finset UInt32) : Finset UInt32 :=
  Worklist.run A.links begin (Worklist.initial permissions)

end AccountMgr

/-! ## `RBACData` -/

structure RBACData where
  secLevel : UInt8 := 255
  grantedPerms : Finset UInt32 := ∅
  deniedPerms : Finset UInt32 := ∅
  globalPerms : Finset UInt32 := ∅

namespace RBACData

variable (A : AccountMgr) (d : RBACData)

def hasPermission (permission : UInt32) : Bool := decide (permission ∈ d.globalPerms)

def hasGrantedPermission (permissionId : UInt32) : Bool := decide (permissionId ∈ d.grantedPerms)

def hasDeniedPermission (permissionId : UInt32) : Bool := decide (permissionId ∈ d.deniedPerms)

def calculateNewPermissions : RBACData :=
  { d with
    globalPerms := A.expandPermissions d.grantedPerms \ A.expandPermissions d.deniedPerms }

/-- What follows a change, unless it is made while loading (`realmId = 0`). -/
def changed (realmId : Int32) : RBACData :=
  if realmId ≠ 0 then d.calculateNewPermissions A else d

def grantPermission (permissionId : UInt32) (realmId : Int32) : RBACData × RBACCommandResult :=
  if (A.getRBACPermission permissionId).isNone then (d, RBAC_ID_DOES_NOT_EXISTS)
  else if d.hasDeniedPermission permissionId then (d, RBAC_IN_DENIED_LIST)
  else if d.hasGrantedPermission permissionId then (d, RBAC_CANT_ADD_ALREADY_ADDED)
  else
    (changed A { d with grantedPerms := insert permissionId d.grantedPerms } realmId, RBAC_OK)

def denyPermission (permissionId : UInt32) (realmId : Int32) : RBACData × RBACCommandResult :=
  if (A.getRBACPermission permissionId).isNone then (d, RBAC_ID_DOES_NOT_EXISTS)
  else if d.hasGrantedPermission permissionId then (d, RBAC_IN_GRANTED_LIST)
  else if d.hasDeniedPermission permissionId then (d, RBAC_CANT_ADD_ALREADY_ADDED)
  else
    (changed A { d with deniedPerms := insert permissionId d.deniedPerms } realmId, RBAC_OK)

def revokePermission (permissionId : UInt32) (realmId : Int32) : RBACData × RBACCommandResult :=
  if !d.hasGrantedPermission permissionId && !d.hasDeniedPermission permissionId then
    (d, RBAC_CANT_REVOKE_NOT_IN_LIST)
  else
    (changed A
      { d with
        grantedPerms := d.grantedPerms.erase permissionId
        deniedPerms := d.deniedPerms.erase permissionId } realmId, RBAC_OK)

def clearData : RBACData :=
  { d with grantedPerms := ∅, deniedPerms := ∅, globalPerms := ∅ }

/-- One row of the result: a permission, and whether it is granted or denied. -/
def loadRow (row : UInt32 × Bool) : RBACData :=
  if row.2 then (d.grantPermission A row.1 0).1 else (d.denyPermission A row.1 0).1

def loadFromDBCallback (result : List (UInt32 × Bool)) : RBACData :=
  let loaded := result.foldl (loadRow A) d
  let withDefaults := (A.defaultPermissions d.secLevel).foldl
    (fun d permission => (d.grantPermission A permission 0).1) loaded
  withDefaults.calculateNewPermissions A

/-- `LoadFromDB`, with what the query returns. -/
def loadFromDB (result : List (UInt32 × Bool)) : RBACData := d.clearData.loadFromDBCallback A result

end RBACData

inductive PermissionCall where
  | grant (permissionId : UInt32) (realmId : Int32)
  | deny (permissionId : UInt32) (realmId : Int32)
  | revoke (permissionId : UInt32) (realmId : Int32)

namespace PermissionCall

def realmId : PermissionCall → Int32
  | grant _ realmId => realmId
  | deny _ realmId => realmId
  | revoke _ realmId => realmId

end PermissionCall

namespace RBACData

variable (A : AccountMgr)

def call (d : RBACData) : PermissionCall → RBACData × RBACCommandResult
  | .grant permissionId realmId => d.grantPermission A permissionId realmId
  | .deny permissionId realmId => d.denyPermission A permissionId realmId
  | .revoke permissionId realmId => d.revokePermission A permissionId realmId

def Step (d : RBACData) (c : PermissionCall) (d' : RBACData) : Prop := d' = (d.call A c).1

/-! ## The two lists -/

/-- No permission is both granted and denied, and all of them exist. -/
structure Lists (d : RBACData) : Prop where
  disjoint : Disjoint d.grantedPerms d.deniedPerms
  granted : ∀ id ∈ d.grantedPerms, A.links.Exists id
  denied : ∀ id ∈ d.deniedPerms, A.links.Exists id

/-- What the account holds is computed from the two lists as they are. -/
def Computed (d : RBACData) : Prop :=
  d.globalPerms = A.expandPermissions d.grantedPerms \ A.expandPermissions d.deniedPerms

variable {A} {d : RBACData} {id : UInt32} {realmId : Int32}

theorem Lists.calculateNewPermissions (h : Lists A d) : Lists A (d.calculateNewPermissions A) :=
  ⟨h.disjoint, h.granted, h.denied⟩

theorem Lists.changed (h : Lists A d) (realmId : Int32) : Lists A (d.changed A realmId) := by
  unfold RBACData.changed
  split
  · exact h.calculateNewPermissions
  · exact h

theorem computed_changed (hrealm : realmId ≠ 0) : Computed A (d.changed A realmId) := by
  rw [RBACData.changed, if_pos hrealm]
  rfl

theorem grantPermission_spec (d : RBACData) (id : UInt32) (realmId : Int32) :
    ((d.grantPermission A id realmId).2 ≠ RBAC_OK ∧ (d.grantPermission A id realmId).1 = d) ∨
    A.links.Exists id ∧ id ∉ d.deniedPerms ∧ d.grantPermission A id realmId =
      (changed A { d with grantedPerms := insert id d.grantedPerms } realmId, RBAC_OK) := by
  unfold grantPermission
  split
  · exact Or.inl ⟨nofun, rfl⟩
  · next hexists =>
    split
    · exact Or.inl ⟨nofun, rfl⟩
    · next hdenied =>
      split
      · exact Or.inl ⟨nofun, rfl⟩
      · refine Or.inr ⟨?_, by simpa [hasDeniedPermission] using hdenied, rfl⟩
        rw [A.exists_links, Option.isSome_iff_ne_none]
        simpa using hexists

theorem denyPermission_spec (d : RBACData) (id : UInt32) (realmId : Int32) :
    ((d.denyPermission A id realmId).2 ≠ RBAC_OK ∧ (d.denyPermission A id realmId).1 = d) ∨
    A.links.Exists id ∧ id ∉ d.grantedPerms ∧ d.denyPermission A id realmId =
      (changed A { d with deniedPerms := insert id d.deniedPerms } realmId, RBAC_OK) := by
  unfold denyPermission
  split
  · exact Or.inl ⟨nofun, rfl⟩
  · next hexists =>
    split
    · exact Or.inl ⟨nofun, rfl⟩
    · next hgranted =>
      split
      · exact Or.inl ⟨nofun, rfl⟩
      · refine Or.inr ⟨?_, by simpa [hasGrantedPermission] using hgranted, rfl⟩
        rw [A.exists_links, Option.isSome_iff_ne_none]
        simpa using hexists

theorem revokePermission_spec (d : RBACData) (id : UInt32) (realmId : Int32) :
    ((d.revokePermission A id realmId).2 ≠ RBAC_OK ∧ (d.revokePermission A id realmId).1 = d) ∨
    d.revokePermission A id realmId =
      (changed A { d with
        grantedPerms := d.grantedPerms.erase id
        deniedPerms := d.deniedPerms.erase id } realmId, RBAC_OK) := by
  unfold revokePermission
  split
  · exact Or.inl ⟨nofun, rfl⟩
  · exact Or.inr rfl

theorem Lists.insertGranted (h : Lists A d) (hexists : A.links.Exists id)
    (hid : id ∉ d.deniedPerms) : Lists A { d with grantedPerms := insert id d.grantedPerms } := by
  refine ⟨Finset.disjoint_insert_left.mpr ⟨hid, h.disjoint⟩, ?_, h.denied⟩
  intro a ha
  rcases Finset.mem_insert.mp ha with rfl | ha
  · exact hexists
  · exact h.granted a ha

theorem Lists.insertDenied (h : Lists A d) (hexists : A.links.Exists id)
    (hid : id ∉ d.grantedPerms) : Lists A { d with deniedPerms := insert id d.deniedPerms } := by
  refine ⟨Finset.disjoint_insert_right.mpr ⟨hid, h.disjoint⟩, h.granted, ?_⟩
  intro a ha
  rcases Finset.mem_insert.mp ha with rfl | ha
  · exact hexists
  · exact h.denied a ha

theorem Lists.erase (h : Lists A d) (id : UInt32) :
    Lists A { d with
      grantedPerms := d.grantedPerms.erase id, deniedPerms := d.deniedPerms.erase id } :=
  ⟨Finset.disjoint_of_subset_left (Finset.erase_subset _ _)
      (Finset.disjoint_of_subset_right (Finset.erase_subset _ _) h.disjoint),
    fun a ha => h.granted a (Finset.mem_of_mem_erase ha),
    fun a ha => h.denied a (Finset.mem_of_mem_erase ha)⟩

theorem Lists.grantPermission (h : Lists A d) (id : UInt32) (realmId : Int32) :
    Lists A (d.grantPermission A id realmId).1 := by
  rcases grantPermission_spec (A := A) d id realmId with ⟨-, hsame⟩ | ⟨hexists, hid, hnew⟩
  · rw [hsame]
    exact h
  · rw [hnew]
    exact (h.insertGranted hexists hid).changed realmId

theorem Lists.denyPermission (h : Lists A d) (id : UInt32) (realmId : Int32) :
    Lists A (d.denyPermission A id realmId).1 := by
  rcases denyPermission_spec (A := A) d id realmId with ⟨-, hsame⟩ | ⟨hexists, hid, hnew⟩
  · rw [hsame]
    exact h
  · rw [hnew]
    exact (h.insertDenied hexists hid).changed realmId

theorem Lists.call (h : Lists A d) (c : PermissionCall) : Lists A (d.call A c).1 := by
  cases c with
  | grant id realmId => exact h.grantPermission id realmId
  | deny id realmId => exact h.denyPermission id realmId
  | revoke id realmId =>
    show Lists A (d.revokePermission A id realmId).1
    rcases revokePermission_spec (A := A) d id realmId with ⟨-, hsame⟩ | hnew
    · rw [hsame]
      exact h
    · rw [hnew]
      exact (h.erase id).changed realmId

theorem Computed.call (h : Computed A d) {c : PermissionCall} (hrealm : c.realmId ≠ 0) :
    Computed A (d.call A c).1 := by
  cases c with
  | grant id realmId =>
    show Computed A (d.grantPermission A id realmId).1
    rcases grantPermission_spec (A := A) d id realmId with ⟨-, hsame⟩ | ⟨-, -, hnew⟩
    · rw [hsame]
      exact h
    · rw [hnew]
      exact computed_changed hrealm
  | deny id realmId =>
    show Computed A (d.denyPermission A id realmId).1
    rcases denyPermission_spec (A := A) d id realmId with ⟨-, hsame⟩ | ⟨-, -, hnew⟩
    · rw [hsame]
      exact h
    · rw [hnew]
      exact computed_changed hrealm
  | revoke id realmId =>
    show Computed A (d.revokePermission A id realmId).1
    rcases revokePermission_spec (A := A) d id realmId with ⟨-, hsame⟩ | hnew
    · rw [hsame]
      exact h
    · rw [hnew]
      exact computed_changed hrealm

theorem call_failed (d : RBACData) (c : PermissionCall) (h : (d.call A c).2 ≠ RBAC_OK) :
    (d.call A c).1 = d := by
  cases c with
  | grant id realmId =>
    rcases grantPermission_spec (A := A) d id realmId with ⟨-, hsame⟩ | ⟨-, -, hnew⟩
    · exact hsame
    · exact absurd (congrArg Prod.snd hnew) h
  | deny id realmId =>
    rcases denyPermission_spec (A := A) d id realmId with ⟨-, hsame⟩ | ⟨-, -, hnew⟩
    · exact hsame
    · exact absurd (congrArg Prod.snd hnew) h
  | revoke id realmId =>
    rcases revokePermission_spec (A := A) d id realmId with ⟨-, hsame⟩ | hnew
    · exact hsame
    · exact absurd (congrArg Prod.snd hnew) h

/-! ## Loading -/

theorem lists_clearData (d : RBACData) : Lists A d.clearData :=
  ⟨Finset.disjoint_empty_left _, fun a ha => absurd ha (Finset.notMem_empty a),
    fun a ha => absurd ha (Finset.notMem_empty a)⟩

theorem Lists.foldl {α : Type} {f : RBACData → α → RBACData}
    (hf : ∀ d a, Lists A d → Lists A (f d a)) (l : List α) (h : Lists A d) :
    Lists A (l.foldl f d) := by
  induction l generalizing d with
  | nil => exact h
  | cons a l ih => exact ih (hf d a h)

theorem lists_loadFromDB (d : RBACData) (result : List (UInt32 × Bool)) :
    Lists A (d.loadFromDB A result) := by
  apply Lists.calculateNewPermissions
  apply Lists.foldl fun d permission h => h.grantPermission permission 0
  apply Lists.foldl _ result (lists_clearData d)
  intro d row h
  unfold loadRow
  split
  · exact h.grantPermission row.1 0
  · exact h.denyPermission row.1 0

theorem computed_loadFromDB (d : RBACData) (result : List (UInt32 × Bool)) :
    Computed A (d.loadFromDB A result) := rfl

/-! ## Granted less denied -/

theorem Computed.hasPermission (h : Computed A d) (p : UInt32) : d.hasPermission p = true ↔
    Worklist.Closure A.links d.grantedPerms p ∧ ¬ Worklist.Closure A.links d.deniedPerms p := by
  unfold RBACData.hasPermission
  rw [decide_eq_true_eq, h, Finset.mem_sdiff]
  exact and_congr (Worklist.mem_run_initial _ _) (not_congr (Worklist.mem_run_initial _ _))

/-- **Granted less denied.** What `ExpandPermissions` computes is the least set that holds the
existing ids and is closed under links, whatever id is expanded next. In every state that later
calls lead to, no id is both granted and denied and all exist, a failed call changes nothing, and
a permission is held just when it comes with a granted one and with no denied one. -/
theorem granted_less_denied (A : AccountMgr) (d₀ : RBACData) (result : List (UInt32 × Bool))
    (d : RBACData) (h : Reaches (Step A) (fun _ c => c.realmId ≠ 0) (d₀.loadFromDB A result) d) :
    (∀ S : Finset UInt32,
      IsLeast {C | Worklist.Closed A.links (S : Set UInt32) C}
        (A.expandPermissions S : Set UInt32) ∧
      ∀ choice, Worklist.run A.links choice (Worklist.initial S) = A.expandPermissions S) ∧
    (Disjoint d.grantedPerms d.deniedPerms ∧
      ∀ id ∈ d.grantedPerms ∪ d.deniedPerms, (A.getRBACPermission id).isSome = true) ∧
    (∀ c, (d.call A c).2 ≠ RBAC_OK → (d.call A c).1 = d) ∧
    ∀ p, d.hasPermission p = true ↔
      Worklist.Closure A.links d.grantedPerms p ∧ ¬ Worklist.Closure A.links d.deniedPerms p := by
  have hboth : Lists A d ∧ Computed A d := by
    apply h.invariant ⟨lists_loadFromDB d₀ result, computed_loadFromDB d₀ result⟩
    intro s s' c hs hrealm hstep
    rw [hstep]
    exact ⟨hs.1.call c, hs.2.call hrealm⟩
  refine ⟨?_, ⟨hboth.1.disjoint, ?_⟩, call_failed d, hboth.2.hasPermission⟩
  · intro S
    exact ⟨Worklist.isLeast_run _ S, fun choice => Worklist.run_choice choice _ S⟩
  · intro id hid
    apply A.exists_links.mp
    rcases Finset.mem_union.mp hid with hid | hid
    · exact hboth.1.granted id hid
    · exact hboth.1.denied id hid

/-! ## Two linked permissions -/

/-- Permission 1 comes with 2 and 2 with 1; 3 comes with 2. -/
def linked : AccountMgr where
  permissions := ⟨[⟨1, {2}⟩, ⟨2, {1, 9}⟩, ⟨3, {2}⟩], by decide⟩
  defaultPermissions _ := [1]

theorem granted_less_denied_linked :
    ((({} : RBACData).loadFromDB linked []).denyPermission linked 3 1).1.hasPermission 1 = true ↔
      Worklist.Closure linked.links
        ((({} : RBACData).loadFromDB linked []).denyPermission linked 3 1).1.grantedPerms 1 ∧
      ¬ Worklist.Closure linked.links
        ((({} : RBACData).loadFromDB linked []).denyPermission linked 3 1).1.deniedPerms 1 :=
  (granted_less_denied linked {} [] _
    ((Reaches.refl _).next (a := .deny 3 1) (by decide) rfl)).2.2.2 1

end RBACData

end EGServer.Accounts
