import EGServer.Guilds.Charges
import EGServer.Guilds.Money

/-!
# The daily limits of the guild bank

A day of a guild bank beside a ledger of what each member has withdrawn since the last `ResetTimes`.
The ledger is kept in natural numbers; the code keeps `int32` counters and compares them with limits
that are `uint32` values read back as `int32`. Money is booked for whoever withdraws it, an item only
for a member who is not guild master, as `_UpdateMemberWithdrawSlots` does.
-/

namespace EGServer.Guilds

variable {σ ρ : Type} {maxStackCount : Nat → Nat} {inv : Inventory σ ρ} {w : BankState σ}
  {g g' g'' : Guild} {player guid p : ObjectGuid} {t : UInt8} {m : Member} {op : Operation}

/-- `ResetValues` -/
def Member.resetValues (m : Member) : Member := { m with bankWithdraw := fun _ => 0 }

def Guild.resetTimes (g : Guild) : Guild :=
  { g with members := g.members.map Member.resetValues fun _ => rfl }

/-! ## The requests of a day -/

/-- Since the last `ResetTimes`, by member and tab; money is under `GUILD_BANK_MAX_TABS`. -/
abbrev Ledger := ObjectGuid → UInt8 → Nat

def Ledger.book (ledger : Ledger) (p : ObjectGuid) (t : UInt8) (n : Nat) : Ledger :=
  Function.update ledger p (Function.update (ledger p) t (ledger p t + n))

/-- One item for each of the tabs. -/
def Ledger.bookItems (ledger : Ledger) (p : ObjectGuid) (tabs : List UInt8) : Ledger :=
  tabs.foldl (fun ledger t => ledger.book p t 1) ledger

structure BankDay (σ : Type) where
  bank : BankState σ
  withdrawn : Ledger

inductive DayRequest where
  | withdrawMoney (player : ObjectGuid) (amount : UInt32) (repair canHold : Bool)
  | moveItems (player : ObjectGuid) (req : BankRequest)
  /-- A change of ranks, limits or members. -/
  | roster (op : Operation)
  | resetTimes

namespace BankRequest

/-- The tabs that a request names. -/
def tabs : BankRequest → List UInt8
  | swapItems tabId _ destTabId _ _ => [tabId, destTabId]
  | swapItemsWithInventory _ tabId _ _ _ _ => [tabId]

/-- The tabs that a request takes an item out of. -/
def taken (maxStackCount : Nat → Nat) (inv : Inventory σ ρ) (w : BankState σ)
    (player : ObjectGuid) (req : BankRequest) : List UInt8 :=
  if (req.run maxStackCount inv w player).stored.isNone then []
  else match req with
  | swapItems tabId slotId destTabId destSlotId n =>
    takenFrom maxStackCount inv w player (.bank tabId slotId) (.bank destTabId destSlotId) n
  | swapItemsWithInventory true tabId slotId playerBag playerSlotId n =>
    takenFrom maxStackCount inv w player (.bank tabId slotId) (.player playerBag playerSlotId) n
  | swapItemsWithInventory false tabId slotId playerBag playerSlotId n =>
    takenFrom maxStackCount inv w player (.player playerBag playerSlotId) (.bank tabId slotId) n

end BankRequest

namespace Guild

def isGuildMaster (g : Guild) (player : ObjectGuid) : Bool :=
  (g.getMember player).any (·.isRank GR_GUILDMASTER)

end Guild

namespace BankDay

def request (maxStackCount : Nat → Nat) (inv : Inventory σ ρ) (d : BankDay σ) :
    DayRequest → Option (BankDay σ)
  | .withdrawMoney player amount repair canHold =>
    let (guild, done) := d.bank.guild.handleMemberWithdrawMoney player amount repair canHold
    some
      { bank := { d.bank with guild }
        withdrawn := if done then
          d.withdrawn.book player GUILD_BANK_MAX_TABS (min amount MAX_MONEY_AMOUNT).toNat
          else d.withdrawn }
  | .moveItems player req =>
    some
      { bank := (req.run maxStackCount inv d.bank player).state
        withdrawn := if d.bank.guild.isGuildMaster player then d.withdrawn
          else d.withdrawn.bookItems player (req.taken maxStackCount inv d.bank player) }
  | .roster op =>
    (d.bank.guild.apply op).map fun guild =>
      { bank := { d.bank with guild }
        -- who leaves and comes back is a new member
        withdrawn := fun p => if (guild.getMember p).isSome then d.withdrawn p else fun _ => 0 }
  | .resetTimes =>
    some { bank := { d.bank with guild := d.bank.guild.resetTimes }, withdrawn := fun _ _ => 0 }

def Step (maxStackCount : Nat → Nat) (inv : Inventory σ ρ) (d : BankDay σ) (r : DayRequest)
    (d' : BankDay σ) : Prop := d.request maxStackCount inv r = some d'

/-- A guild master's withdrawal leaves the counter an `int32`, and a limit that a member has is
one. -/
def Fits (d : BankDay σ) : DayRequest → Prop
  | .withdrawMoney player amount repair canHold =>
    ∀ m, d.bank.guild.getMember player = some m →
      if m.rankId = GR_GUILDMASTER then
        (d.bank.guild.handleMemberWithdrawMoney player amount repair canHold).2 = true →
        (m.bankWithdraw GUILD_BANK_MAX_TABS).toInt + (min amount MAX_MONEY_AMOUNT).toNat < 2 ^ 31
      else 0 ≤ (d.bank.guild.getRankBankMoneyPerDay m.rankId).toInt
  | .moveItems player req => ∀ m, d.bank.guild.getMember player = some m →
      m.rankId ≠ GR_GUILDMASTER → ∀ t ∈ req.tabs,
        0 ≤ (d.bank.guild.getRankBankTabSlotsPerDay m.rankId t).toInt
  | .roster _ => True
  | .resetTimes => True

/-- The counters say what the ledger says. -/
def Exact (g : Guild) (ledger : Ledger) : Prop :=
  ∀ p m, g.getMember p = some m → ∀ t, (m.bankWithdraw t).toInt = ledger p t

/-- What is not in the guild has nothing booked. -/
def Strangers (g : Guild) (ledger : Ledger) : Prop :=
  ∀ p, g.getMember p = none → ∀ t, ledger p t = 0

end BankDay

open BankDay

/-! ## The ledger -/

variable {ledger : Ledger}

theorem book_self (n : Nat) : ledger.book p t n p t = ledger p t + n := by
  rw [Ledger.book, Function.update_self, Function.update_self]

theorem book_ne {q : ObjectGuid} {u : UInt8} (h : q ≠ p ∨ u ≠ t) (n : Nat) :
    ledger.book p t n q u = ledger q u := by
  unfold Ledger.book
  by_cases hq : q = p
  · subst hq
    rw [Function.update_self, Function.update_of_ne (h.resolve_left fun hne => hne rfl)]
  · rw [Function.update_of_ne hq]

/-! ## Counters -/

theorem toInt_add_toInt32 {c : Int32} {a : UInt32} (hc : 0 ≤ c.toInt)
    (ha : a ≤ MAX_MONEY_AMOUNT) (h : c.toInt + a.toNat < 2 ^ 31) :
    (c + a.toInt32).toInt = c.toInt + a.toNat := by
  rw [Int32.toInt_add, toInt_toInt32 ha, Int.bmod_eq_of_le]
  · omega
  · omega

theorem toInt_left {limit c : Int32} (hlimit : 0 ≤ limit.toInt) (hc : 0 ≤ c.toInt) :
    (limit - c).toInt = limit.toInt - c.toInt := by
  have hl := limit.toInt_lt
  have hcl := c.toInt_lt
  rw [Int32.toInt_sub, Int.bmod_eq_of_le]
  · omega
  · omega

theorem toNat_toUInt32 {c : Int32} (h : 0 ≤ c.toInt) : (c.toUInt32.toNat : Int) = c.toInt := by
  have hle : (0 : Int32) ≤ c := Int32.le_iff_toInt_le.mpr h
  rw [Int32.toNat_toUInt32_of_le hle]
  exact Int.toNat_of_nonneg h

theorem getBankWithdrawValue_of_ne (h : m.rankId ≠ GR_GUILDMASTER) (t : UInt8) :
    m.getBankWithdrawValue t = m.bankWithdraw t := by
  unfold Member.getBankWithdrawValue Member.isRank
  rw [if_neg]
  exact decide_eq_true_iff.not.mpr h

theorem handleMemberWithdrawMoney_cases (g : Guild) (player : ObjectGuid) (amount : UInt32)
    (repair canHold : Bool) :
    ((g.handleMemberWithdrawMoney player amount repair canHold).2 = false ∧
      (g.handleMemberWithdrawMoney player amount repair canHold).1 = g) ∨
    ((g.handleMemberWithdrawMoney player amount repair canHold).2 = true ∧
      (min amount MAX_MONEY_AMOUNT).toUInt64 ≤ g.bankMoney ∧
      ∃ m, g.getMember player = some m ∧
        min amount MAX_MONEY_AMOUNT ≤ (g.getMemberRemainingMoney m).toUInt32 ∧
        (g.handleMemberWithdrawMoney player amount repair canHold).1 =
          { g.updateMember player
              (Member.updateBankWithdrawValue GUILD_BANK_MAX_TABS (min amount MAX_MONEY_AMOUNT))
              (Member.guid_updateBankWithdrawValue _ _) with
            bankMoney := g.bankMoney - (min amount MAX_MONEY_AMOUNT).toUInt64 }) := by
  unfold Guild.handleMemberWithdrawMoney
  dsimp only
  split
  · exact Or.inl ⟨rfl, rfl⟩
  · next hbank =>
    split
    · exact Or.inl ⟨rfl, rfl⟩
    · next m hm =>
      split
      · exact Or.inl ⟨rfl, rfl⟩
      · next hleft =>
        split
        · exact Or.inl ⟨rfl, rfl⟩
        · exact Or.inr ⟨rfl, UInt64.not_lt.mp hbank, m, hm, UInt32.not_lt.mp hleft, rfl⟩

theorem withdrawn_le_limit {a : UInt32} (hrank : m.rankId ≠ GR_GUILDMASTER)
    (hlimit : 0 ≤ (g.getRankBankMoneyPerDay m.rankId).toInt)
    (hcounter : 0 ≤ (m.bankWithdraw GUILD_BANK_MAX_TABS).toInt)
    (h : a ≤ (g.getMemberRemainingMoney m).toUInt32) :
    a = 0 ∨ (m.bankWithdraw GUILD_BANK_MAX_TABS).toInt + a.toNat ≤
      (g.getRankBankMoneyPerDay m.rankId).toInt := by
  have hnothing : a ≤ (0 : Int32).toUInt32 → a = 0 := by
    intro h0
    exact UInt32.le_antisymm h0 UInt32.zero_le
  unfold Guild.getMemberRemainingMoney at h
  rw [if_neg hrank, getBankWithdrawValue_of_ne hrank] at h
  split at h
  · dsimp only at h
    split at h
    · next hpos =>
      right
      have hleft := toInt_left hlimit hcounter
      have hpos' : 0 < (g.getRankBankMoneyPerDay m.rankId -
          m.bankWithdraw GUILD_BANK_MAX_TABS).toInt := Int32.lt_iff_toInt_lt.mp hpos
      have hnat := toNat_toUInt32 hpos'.le
      have hle := UInt32.le_iff_toNat_le.mp h
      omega
    · exact Or.inl (hnothing h)
  · exact Or.inl (hnothing h)

/-! ## Keeping the books -/

theorem getMember_updateMember (g : Guild) (player p : ObjectGuid) (t : UInt8) (a : UInt32)
    (money : UInt64) :
    Guild.getMember
        { g.updateMember player (Member.updateBankWithdrawValue t a)
            (Member.guid_updateBankWithdrawValue t a) with bankMoney := money } p =
      (g.getMember p).map fun m =>
        if p = player then m.updateBankWithdrawValue t a else m := by
  unfold Guild.getMember Guild.updateMember
  dsimp only
  by_cases hp : p = player
  · subst hp
    rw [Table.get?_modify_self]
    simp
  · rw [Table.get?_modify_ne _ _ hp]
    simp only [hp, if_false]
    exact Option.map_id'.symm

theorem bankWithdraw_update_self (m : Member) (t : UInt8) (a : UInt32) :
    (m.updateBankWithdrawValue t a).bankWithdraw t = m.bankWithdraw t + a.toInt32 :=
  Function.update_self ..

theorem bankWithdraw_update_ne (m : Member) {t u : UInt8} (h : u ≠ t) (a : UInt32) :
    (m.updateBankWithdrawValue t a).bankWithdraw u = m.bankWithdraw u :=
  Function.update_of_ne h ..

theorem update_exact {a : UInt32} (ha : a ≤ MAX_MONEY_AMOUNT)
    (hexact : ∀ u, (m.bankWithdraw u).toInt = ledger p u)
    (hroom : (m.bankWithdraw t).toInt + a.toNat < 2 ^ 31) (u : UInt8) :
    ((m.updateBankWithdrawValue t a).bankWithdraw u).toInt = ledger.book p t a.toNat p u := by
  by_cases hu : u = t
  · subst hu
    have hpos : 0 ≤ (m.bankWithdraw u).toInt := by
      rw [hexact u]
      exact Int.natCast_nonneg _
    rw [bankWithdraw_update_self, toInt_add_toInt32 hpos ha hroom, book_self, hexact u]
    exact (Int.natCast_add _ _).symm
  · rw [bankWithdraw_update_ne m hu, book_ne (Or.inr hu), hexact u]

theorem exact_charge {tabs : List UInt8} (hexact : Exact g ledger) (hnodup : tabs.Nodup)
    (hm : g.getMember player = some m) (hrank : m.rankId ≠ GR_GUILDMASTER)
    (hlimit : ∀ t ∈ tabs,
      (ledger player t : Int) + 1 ≤ (g.getRankBankTabSlotsPerDay m.rankId t).toInt) :
    Exact (g.charge player tabs) (ledger.bookItems player tabs) := by
  induction tabs generalizing g ledger m with
  | nil => exact hexact
  | cons t tabs ih =>
    obtain ⟨hfresh, hnodup⟩ := List.nodup_cons.mp hnodup
    obtain ⟨hhead, hlimit⟩ := List.forall_mem_cons.mp hlimit
    obtain ⟨hranks, htabs, -, -⟩ := Guild.rest_updateMemberWithdrawSlots g player t
    have hcounter := hexact player m hm t
    have hcharged : g.isCharged m t := by
      refine ⟨hrank, ?_⟩
      rw [getBankWithdrawValue_of_ne hrank, Int32.lt_iff_toInt_lt, hcounter]
      omega
    have hroom : (m.bankWithdraw t).toInt + (1 : UInt32).toNat < 2 ^ 31 := by
      have hbound := (g.getRankBankTabSlotsPerDay m.rankId t).toInt_lt
      rw [hcounter]
      show (ledger player t : Int) + ((1 : Nat) : Int) < 2 ^ 31
      omega
    have hm' : (g.updateMemberWithdrawSlots player t).getMember player =
        some (m.updateBankWithdrawValue t 1) := by
      rw [Guild.getMember_updateMemberWithdrawSlots, hm, Option.map_some, if_pos ⟨rfl, hcharged⟩]
    show Exact ((g.updateMemberWithdrawSlots player t).charge player tabs)
      ((ledger.book player t 1).bookItems player tabs)
    refine ih ?_ hnodup hm' hrank ?_
    · intro p m' hp u
      by_cases hpp : p = player
      · subst hpp
        cases hm'.symm.trans hp
        exact update_exact (by decide) (hexact p m hm) hroom u
      · rw [Guild.getMember_updateMemberWithdrawSlots] at hp
        simp only [hpp, false_and, if_false] at hp
        rw [book_ne (Or.inl hpp)]
        exact hexact p m' ((Option.map_id' (x := g.getMember p)).symm.trans hp) u
    · intro u hu
      have hne : u ≠ t := by
        rintro rfl
        exact hfresh hu
      rw [book_ne (Or.inr hne), Guild.getRankBankTabSlotsPerDay_congr hranks
        (congrArg List.length htabs)]
      exact hlimit u hu

theorem charge_master {tabs : List UInt8}
    (hmaster : ∀ m, g.getMember player = some m → m.rankId = GR_GUILDMASTER) :
    g.charge player tabs = g := by
  induction tabs with
  | nil => rfl
  | cons t tabs ih =>
    have hsame : g.updateMemberWithdrawSlots player t = g := by
      apply Guild.updateMemberWithdrawSlots_of_not
      intro m hm hcharged
      exact hcharged.1 (hmaster m hm)
    show (g.updateMemberWithdrawSlots player t).charge player tabs = g
    rw [hsame]
    exact ih

end EGServer.Guilds
