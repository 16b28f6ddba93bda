import EGServer.Guilds.Guild
import Mathlib.Order.Basic

/-!
# What the guild operations do

One lemma for each function of the roster: which members it leaves, with which ranks, and
when a command is carried out at all. The proofs about guilds below use these and do not
open the functions again.
-/

namespace EGServer.Guilds

namespace Guild

variable {g g' : Guild} {m : Member} {guid p player : ObjectGuid} {name : String} {r : UInt8}

/-! ## Looking members up -/

theorem getMember_eq_some : g.getMember guid = some m ↔ m ∈ g.members ∧ m.guid = guid :=
  Table.get?_eq_some

theorem getMember_guid (hm : m ∈ g.members) : g.getMember m.guid = some m :=
  Table.get?_key hm

theorem mem_of_getMember (h : g.getMember guid = some m) : m ∈ g.members :=
  (getMember_eq_some.mp h).1

theorem guid_of_getMember (h : g.getMember guid = some m) : m.guid = guid :=
  (getMember_eq_some.mp h).2

theorem mem_of_getMemberByName (h : g.getMemberByName name = some m) : m ∈ g.members :=
  List.mem_of_find?_eq_some h

theorem getMember_of_getMemberByName (h : g.getMemberByName name = some m) :
    g.getMember m.guid = some m :=
  getMember_guid (mem_of_getMemberByName h)

/-! ## Changing a rank -/

@[simp] theorem leaderGuid_setRank : (g.setRank guid r).leaderGuid = g.leaderGuid := rfl
@[simp] theorem ranks_setRank : (g.setRank guid r).ranks = g.ranks := rfl
@[simp] theorem disbanded_setRank : (g.setRank guid r).disbanded = g.disbanded := rfl

theorem getMember_setRank_self :
    (g.setRank guid r).getMember guid = (g.getMember guid).map (Member.changeRank r) :=
  Table.get?_modify_self (f := Member.changeRank r) g.members guid fun _ => rfl

theorem getMember_setRank_ne (h : p ≠ guid) : (g.setRank guid r).getMember p = g.getMember p :=
  Table.get?_modify_ne (f := Member.changeRank r) g.members (fun _ => rfl) h

theorem mem_setRank (h : m ∈ (g.setRank guid r).members) : m ∈ g.members ∨ m.rankId = r := by
  have hmem : ∃ b ∈ g.members, (if b.guid = guid then b.changeRank r else b) = m :=
    List.mem_map.mp h
  obtain ⟨b, hb, rfl⟩ := hmem
  split
  · exact Or.inr rfl
  · exact Or.inl hb

@[simp] theorem leaderGuid_setLeader : (g.setLeader m).leaderGuid = m.guid := rfl
@[simp] theorem ranks_setLeader : (g.setLeader m).ranks = g.ranks := rfl
@[simp] theorem disbanded_setLeader : (g.setLeader m).disbanded = g.disbanded := rfl

theorem getMember_setLeader_self (hm : m ∈ g.members) :
    (g.setLeader m).getMember m.guid = some (m.changeRank GR_GUILDMASTER) := by
  have h : (g.setLeader m).getMember m.guid = (g.getMember m.guid).map (Member.changeRank _) :=
    getMember_setRank_self
  rw [h, getMember_guid hm]
  rfl

theorem getMember_setLeader_ne (h : p ≠ m.guid) : (g.setLeader m).getMember p = g.getMember p :=
  getMember_setRank_ne h

theorem mem_setLeader {m' : Member} (h : m' ∈ (g.setLeader m).members) :
    m' ∈ g.members ∨ m'.rankId = GR_GUILDMASTER :=
  mem_setRank h

/-! ## Deleting a member -/

@[simp] theorem getMember_disband : g.disband.getMember p = none := rfl
@[simp] theorem disbanded_disband : g.disband.disbanded = true := rfl
@[simp] theorem ranks_disband : g.disband.ranks = g.ranks := rfl

theorem eraseMember_cases (g : Guild) (guid : ObjectGuid) :
    (g.members.erase guid).rows = [] ∧
        (g.eraseMember guid).1 = { g with members := g.members.erase guid }.disband ∨
      (g.members.erase guid).rows ≠ [] ∧
        (g.eraseMember guid).1 = { g with members := g.members.erase guid } := by
  unfold eraseMember
  grind

@[simp] theorem ranks_eraseMember : (g.eraseMember guid).1.ranks = g.ranks := by
  rcases eraseMember_cases g guid with ⟨-, h⟩ | ⟨-, h⟩
  · rw [h]
    rfl
  · rw [h]

theorem getMember_eraseMember_self : (g.eraseMember guid).1.getMember guid = none := by
  rcases eraseMember_cases g guid with ⟨-, h⟩ | ⟨-, h⟩ <;> rw [h]
  · rfl
  · exact Table.get?_erase_self _ _

theorem getMember_eraseMember_ne (hp : p ≠ guid) :
    (g.eraseMember guid).1.getMember p = g.getMember p := by
  have he : (g.members.erase guid).get? p = g.members.get? p := Table.get?_erase_ne _ hp
  rcases eraseMember_cases g guid with ⟨hnil, h⟩ | ⟨-, h⟩ <;> rw [h]
  · rw [Table.get?, hnil] at he
    exact he
  · exact he

theorem leaderGuid_eraseMember (h : (g.eraseMember guid).1.disbanded = false) :
    (g.eraseMember guid).1.leaderGuid = g.leaderGuid := by
  rcases eraseMember_cases g guid with ⟨-, he⟩ | ⟨-, he⟩ <;> rw [he] at h ⊢
  cases h

theorem mem_eraseMember (h : m ∈ (g.eraseMember guid).1.members) : m ∈ g.members := by
  rcases eraseMember_cases g guid with ⟨-, he⟩ | ⟨-, he⟩ <;> rw [he] at h
  · cases h
  · exact (Table.mem_erase.mp h).1

/-! ### The new leader -/

theorem betterLeader_spec (best : Option Member) (a : Member) :
    (betterLeader best a = a ∨ best = some (betterLeader best a)) ∧
      (betterLeader best a).rankId ≤ a.rankId ∧
      ∀ b, best = some b → (betterLeader best a).rankId ≤ b.rankId := by
  cases best with
  | none => exact ⟨Or.inl rfl, UInt8.le_refl _, fun b hb => nomatch hb⟩
  | some b =>
    show (ite _ a b = a ∨ some b = some (ite _ a b)) ∧ (ite _ a b).rankId ≤ a.rankId ∧
      ∀ c, some b = some c → (ite _ a b).rankId ≤ c.rankId
    grind

theorem newLeader_eq_none {l : List Member} {best : Option Member}
    (h : newLeader guid l best = none) : best = none ∧ ∀ m ∈ l, m.guid = guid := by
  induction l generalizing best with
  | nil => exact ⟨h, fun m hm => nomatch hm⟩
  | cons a l ih =>
    grind [newLeader]

theorem newLeader_eq_some {l : List Member} {best : Option Member}
    (h : newLeader guid l best = some m) :
    (m ∈ l ∧ m.guid ≠ guid ∨ best = some m) ∧
      (∀ a ∈ l, a.guid ≠ guid → m.rankId ≤ a.rankId) ∧
      ∀ b, best = some b → m.rankId ≤ b.rankId := by
  induction l generalizing best with
  | nil =>
    refine ⟨Or.inr h, ?_, ?_⟩
    · intro a ha
      cases ha
    · intro b hb
      cases h.symm.trans hb
      exact UInt8.le_refl _
  | cons a l ih =>
    unfold newLeader at h
    split at h
    · grind
    · next ha =>
      obtain ⟨hm, hl, hb⟩ := ih h
      obtain ⟨hone, hlea, hleb⟩ := betterLeader_spec best a
      have hmc : m.rankId ≤ (betterLeader best a).rankId := hb _ rfl
      refine ⟨?_, ?_, ?_⟩
      · grind
      · exact List.forall_mem_cons.mpr ⟨fun _ => UInt8.le_trans hmc hlea, hl⟩
      · intro b hbest
        exact UInt8.le_trans hmc (hleb b hbest)

/-- **`DeleteMember`.** A member who is not the leader is erased; a leader is erased after
the best of the others was made leader, and where there is no other the guild is disbanded. -/
theorem deleteMember_cases (g : Guild) (guid : ObjectGuid) :
    g.leaderGuid ≠ guid ∧ (g.deleteMember guid).1 = (g.eraseMember guid).1 ∨
      g.leaderGuid = guid ∧ (∀ m ∈ g.members, m.guid = guid) ∧ (g.deleteMember guid).1 = g.disband ∨
      g.leaderGuid = guid ∧ ∃ leader ∈ g.members, leader.guid ≠ guid ∧
        (∀ m ∈ g.members, m.guid ≠ guid → leader.rankId ≤ m.rankId) ∧
        (g.deleteMember guid).1 = ((g.setLeader leader).eraseMember guid).1 := by
  unfold deleteMember
  split
  · next hl =>
    split
    · next hn => exact Or.inr (Or.inl ⟨hl, (newLeader_eq_none hn).2, rfl⟩)
    · next leader hs =>
      obtain ⟨hm, hmin, -⟩ := newLeader_eq_some hs
      rcases hm with ⟨hm, hne⟩ | hm
      · exact Or.inr (Or.inr ⟨hl, leader, hm, hne, hmin, rfl⟩)
      · cases hm
  · next hl => exact Or.inl ⟨hl, rfl⟩

@[simp] theorem ranks_deleteMember : (g.deleteMember guid).1.ranks = g.ranks := by
  rcases deleteMember_cases g guid with ⟨-, h⟩ | ⟨-, -, h⟩ | ⟨-, leader, -, -, -, h⟩ <;>
    rw [h] <;> simp

theorem mem_deleteMember (h : m ∈ (g.deleteMember guid).1.members) :
    m ∈ g.members ∨ m.rankId = GR_GUILDMASTER := by
  rcases deleteMember_cases g guid with ⟨-, he⟩ | ⟨-, -, he⟩ | ⟨-, leader, -, -, -, he⟩ <;>
    rw [he] at h
  · exact Or.inl (mem_eraseMember h)
  · cases h
  · exact mem_setLeader (mem_eraseMember h)

/-! ## Adding a member -/

theorem addMember_cases (g : Guild) (order : Arrangement Member) (c : Candidate) (rank : UInt8) :
    (g.addMember order c rank).1 = g ∨ g.getMember c.guid = none ∧ ∃ members : Table Member.guid,
      g.members.tryEmplace order ⟨c.guid, c.name,
        if rank = GUILD_RANK_NONE then g.getLowestRankId else rank, fun _ => 0⟩ = some members ∧
      ((g.addMember order c rank).1 = { g with members := members.erase c.guid } ∨
        (g.addMember order c rank).1 = { g with members }) := by
  unfold addMember
  split
  · exact Or.inl rfl
  · simp only
    split
    · exact Or.inl rfl
    · next members hs =>
      refine Or.inr ⟨Table.get?_of_tryEmplace hs, members, hs, ?_⟩
      split
      · exact Or.inl rfl
      · exact Or.inr rfl

theorem getMember_addMember {order : Arrangement Member} {c : Candidate} {rank : UInt8}
    (hm : g.getMember p = some m) : (g.addMember order c rank).1.getMember p = some m := by
  rcases addMember_cases g order c rank with h | ⟨hn, members, hs, h⟩
  · rw [h]
    exact hm
  · have hp : p ≠ c.guid := by
      rintro rfl
      rw [hn] at hm
      cases hm
    have hs' : members.get? p = some m := (Table.get?_tryEmplace_ne hs hp).trans hm
    rcases h with h | h <;> rw [h]
    · exact (Table.get?_erase_ne _ hp).trans hs'
    · exact hs'

theorem mem_addMember {order : Arrangement Member} {c : Candidate} {rank : UInt8}
    (h : m ∈ (g.addMember order c rank).1.members) :
    m ∈ g.members ∨ m.rankId = if rank = GUILD_RANK_NONE then g.getLowestRankId else rank := by
  rcases addMember_cases g order c rank with he | ⟨-, members, hs, he⟩
  · rw [he] at h
    exact Or.inl h
  · have hm : m ∈ members := by
      rcases he with he | he <;> rw [he] at h
      · exact (Table.mem_erase.mp h).1
      · exact h
    rcases (Table.mem_tryEmplace hs).mp hm with rfl | hm
    · exact Or.inr rfl
    · exact Or.inl hm

@[simp] theorem leaderGuid_addMember {order : Arrangement Member} {c : Candidate} {rank : UInt8} :
    (g.addMember order c rank).1.leaderGuid = g.leaderGuid := by
  rcases addMember_cases g order c rank with h | ⟨-, members, -, h | h⟩ <;> rw [h]

@[simp] theorem ranks_addMember {order : Arrangement Member} {c : Candidate} {rank : UInt8} :
    (g.addMember order c rank).1.ranks = g.ranks := by
  rcases addMember_cases g order c rank with h | ⟨-, members, -, h | h⟩ <;> rw [h]

end Guild

end EGServer.Guilds
