import EGServer.Guilds.Bank

/-!
# Money in and out of the guild bank

A deposit and a withdrawal each change two balances kept by two different classes: the bank
money of the guild, a `uint64`, and the coinage of the player, a `uint32`. They are put side
by side here, so that what leaves one can be looked for in the other. The third number is the
daily counter of the member, an `int32` to which a `uint32` is added.

The hooks of the scripts change no amounts.
-/

namespace EGServer.Guilds

def GUILD_BANK_MONEY_LIMIT : UInt64 := 0x7FFFFFFFFFFFF

/-! ## The player -/

def hasEnoughMoney (money amount : UInt32) : Bool := money ≥ amount

/-- `Player::ModifyMoney` on the coinage; the answer is whether the player can hold it. -/
def modifyMoney (money : UInt32) (amount : Int32) : UInt32 × Bool :=
  if amount = 0 then (money, true)
  else if amount < 0 then
    (if money > (-amount).toUInt32 then money + amount.toUInt32 else 0, true)
  else if money < MAX_MONEY_AMOUNT - amount.toUInt32 then (money + amount.toUInt32, true)
  else (money, false)

theorem toInt_toInt32 {a : UInt32} (h : a ≤ MAX_MONEY_AMOUNT) : a.toInt32.toInt = a.toNat := by
  have hlt : a.toNat ≤ 0x7FFFFFFF := UInt32.le_iff_toNat_le.mp h
  rw [← Int32.toInt_toBitVec, UInt32.toBitVec_toInt32, BitVec.toInt_eq_toNat_of_lt]
  · rfl
  · rw [UInt32.toNat_toBitVec]
    omega

theorem modifyMoney_neg {money amount : UInt32} (hmoney : money ≤ MAX_MONEY_AMOUNT)
    (h : amount ≤ money) : modifyMoney money (-amount.toInt32) = (money - amount, true) := by
  have hint := toInt_toInt32 (UInt32.le_trans h hmoney)
  have hneg : (-amount.toInt32).toInt = -(amount.toNat : Int) := by
    have hlt : amount.toNat ≤ 0x7FFFFFFF := UInt32.le_iff_toNat_le.mp (UInt32.le_trans h hmoney)
    rw [Int32.toInt_neg, hint, Int.bmod_eq_of_le] <;> omega
  unfold modifyMoney
  by_cases hzero : amount = 0
  · subst hzero
    rw [if_pos (by decide), UInt32.sub_zero]
  · have hpos : 0 < amount.toNat := by
      rcases Nat.eq_zero_or_pos amount.toNat with h0 | h0
      · exact absurd (UInt32.toNat_inj.mp h0) hzero
      · exact h0
    rw [if_neg, if_pos]
    · rw [Int32.neg_neg, UInt32.toUInt32_toInt32, Int32.toUInt32_neg, UInt32.toUInt32_toInt32,
        UInt32.add_neg_eq_sub]
      split
      · rfl
      · next hle =>
        have heq : money = amount := UInt32.le_antisymm (UInt32.not_lt.mp hle) h
        rw [heq, UInt32.sub_self]
    · rw [Int32.lt_iff_toInt_lt, hneg, Int32.toInt_zero]
      omega
    · intro h0
      rw [← Int32.toInt_inj, hneg, Int32.toInt_zero] at h0
      omega

theorem modifyMoney_toInt32 {amount : UInt32} (money : UInt32) (h : amount ≤ MAX_MONEY_AMOUNT) :
    modifyMoney money amount.toInt32 =
      if amount = 0 then (money, true)
      else if money < MAX_MONEY_AMOUNT - amount then (money + amount, true)
      else (money, false) := by
  have hint := toInt_toInt32 h
  have hzero : amount.toInt32 = 0 ↔ amount = 0 := by
    rw [← Int32.toInt_inj, hint, Int32.toInt_zero, ← UInt32.toNat_inj]
    exact Int.natCast_eq_zero
  have hnotneg : ¬ amount.toInt32 < 0 := by
    rw [Int32.lt_iff_toInt_lt, hint, Int32.toInt_zero]
    omega
  unfold modifyMoney
  rw [if_neg hnotneg, UInt32.toUInt32_toInt32]
  simp only [hzero]

/-! ## The guild and its players -/

/-- A guild and what its players carry. -/
structure Treasury where
  guild : Guild
  money : ObjectGuid → UInt32

namespace Guild

/-- `_ModifyBankMoney`. -/
def modifyBankMoney (g : Guild) (amount : UInt64) (add : Bool) : Guild × Bool :=
  if add then ({ g with bankMoney := g.bankMoney + amount }, true)
  else if g.bankMoney < amount then (g, false)
  else ({ g with bankMoney := g.bankMoney - amount }, true)

end Guild

namespace Treasury

variable (t : Treasury)

/-- `HandleMemberDepositMoney`; what `ModifyMoney` answers is not looked at. -/
def handleMemberDepositMoney (player : ObjectGuid) (amount : UInt32) : Treasury × Bool :=
  if t.guild.bankMoney > GUILD_BANK_MONEY_LIMIT - amount.toUInt64 then (t, false)
  else
    ({ guild := (t.guild.modifyBankMoney amount.toUInt64 true).1
       money := Function.update t.money player
        (modifyMoney (t.money player) (-amount.toInt32)).1 }, true)

/-- `HandleMemberWithdrawMoney` without repair: the player is paid in the middle of it. -/
def handleMemberWithdrawMoney (player : ObjectGuid) (amount : UInt32) : Treasury × Bool :=
  let paid := modifyMoney (t.money player) (min amount MAX_MONEY_AMOUNT).toInt32
  match t.guild.handleMemberWithdrawMoney player amount false paid.2 with
  | (guild, true) => ({ guild, money := Function.update t.money player paid.1 }, true)
  | (_, false) => (t, false)

end Treasury

inductive MoneyRequest where
  | deposit (player : ObjectGuid) (amount : UInt32)
  | withdraw (player : ObjectGuid) (amount : UInt32)

namespace Treasury

def request (t : Treasury) : MoneyRequest → Treasury × Bool
  | .deposit player amount => t.handleMemberDepositMoney player amount
  | .withdraw player amount => t.handleMemberWithdrawMoney player amount

/-- What `HandleGuildBankDepositMoney` has made sure of: the guild is that of the player, and
the player has the money. -/
def Called (t : Treasury) : MoneyRequest → Prop
  | .deposit player amount =>
    (∃ m, t.guild.getMember player = some m) ∧ hasEnoughMoney (t.money player) amount = true
  | .withdraw _ _ => True

def Step (t : Treasury) (r : MoneyRequest) (t' : Treasury) : Prop := t' = (t.request r).1

/-- The daily counter of a player, as the `uint32` in which it is added to and stored. -/
def counter (t : Treasury) (player : ObjectGuid) : UInt32 :=
  match t.guild.getMember player with
  | some m => (m.bankWithdraw GUILD_BANK_MAX_TABS).toUInt32
  | none => 0

/-- What these players carry together. -/
def carried (players : List ObjectGuid) (money : ObjectGuid → UInt32) : Nat :=
  (players.map fun p => (money p).toNat).sum

/-- The money of the bank and of all members. -/
def total (t : Treasury) : Nat :=
  t.guild.bankMoney.toNat + carried (t.guild.members.rows.map Member.guid) t.money

/-- No balance is beyond its bound. -/
structure Sound (t : Treasury) : Prop where
  bank : t.guild.bankMoney ≤ GUILD_BANK_MONEY_LIMIT
  money : ∀ m ∈ t.guild.members, t.money m.guid ≤ MAX_MONEY_AMOUNT

/-! ## What a request does -/

variable {s t : Treasury} {player : ObjectGuid} {amount : UInt32}

theorem request_deposit (hs : t.Sound)
    (hc : t.Called (.deposit player amount)) :
    t.request (.deposit player amount) =
      if t.guild.bankMoney > GUILD_BANK_MONEY_LIMIT - amount.toUInt64 then (t, false)
      else
        ({ guild := { t.guild with bankMoney := t.guild.bankMoney + amount.toUInt64 }
           money := Function.update t.money player (t.money player - amount) }, true) := by
  obtain ⟨⟨m, hm⟩, henough⟩ := hc
  obtain ⟨hmem, rfl⟩ := Table.get?_eq_some.mp hm
  have hpay := modifyMoney_neg (hs.money m hmem) (of_decide_eq_true henough)
  show t.handleMemberDepositMoney m.guid amount = _
  rw [handleMemberDepositMoney, hpay]
  rfl

/-- What the code checks of a withdrawal before it changes anything. -/
def Passes (t : Treasury) (player : ObjectGuid) (amount : UInt32) : Prop :=
  let amount := min amount MAX_MONEY_AMOUNT
  amount.toUInt64 ≤ t.guild.bankMoney ∧
    (∃ m, t.guild.getMember player = some m ∧
      amount ≤ (t.guild.getMemberRemainingMoney m).toUInt32) ∧
    (amount = 0 ∨ t.money player < MAX_MONEY_AMOUNT - amount)

theorem min_le_max (amount : UInt32) : min amount MAX_MONEY_AMOUNT ≤ MAX_MONEY_AMOUNT := by
  show (if amount ≤ MAX_MONEY_AMOUNT then amount else MAX_MONEY_AMOUNT) ≤ MAX_MONEY_AMOUNT
  split
  · next h => exact h
  · exact UInt32.le_refl _

theorem modifyMoney_eq_true {money amount : UInt32} (h : amount ≤ MAX_MONEY_AMOUNT) :
    (modifyMoney money amount.toInt32).2 = true ↔
      amount = 0 ∨ money < MAX_MONEY_AMOUNT - amount := by
  rw [modifyMoney_toInt32 money h]
  split
  · next hzero => simp [hzero]
  · next hzero =>
    split
    · next hlt => simp [hlt]
    · next hge => simp [hzero, hge]

theorem request_withdraw_of_passes (h : t.Passes player amount) :
    t.request (.withdraw player amount) =
      ({ guild := { t.guild.updateMember player
            (Member.updateBankWithdrawValue GUILD_BANK_MAX_TABS (min amount MAX_MONEY_AMOUNT))
            (fun _ => rfl) with
          bankMoney := t.guild.bankMoney - (min amount MAX_MONEY_AMOUNT).toUInt64 }
         money := Function.update t.money player
          (t.money player + min amount MAX_MONEY_AMOUNT) }, true) := by
  obtain ⟨hbank, ⟨m, hm, hleft⟩, hhold⟩ := h
  have hcan := (modifyMoney_eq_true (min_le_max amount)).mpr hhold
  have hpaid : (modifyMoney (t.money player) (min amount MAX_MONEY_AMOUNT).toInt32).1 =
      t.money player + min amount MAX_MONEY_AMOUNT := by
    rw [modifyMoney_toInt32 _ (min_le_max amount)]
    split
    · next hzero => rw [hzero, UInt32.add_zero]
    · next hzero => rw [if_pos (hhold.resolve_left hzero)]
  show t.handleMemberWithdrawMoney player amount = _
  have hguild : t.guild.handleMemberWithdrawMoney player amount false true =
      ({ t.guild.updateMember player
          (Member.updateBankWithdrawValue GUILD_BANK_MAX_TABS (min amount MAX_MONEY_AMOUNT))
          (fun _ => rfl) with
        bankMoney := t.guild.bankMoney - (min amount MAX_MONEY_AMOUNT).toUInt64 }, true) := by
    unfold Guild.handleMemberWithdrawMoney
    simp only [hm]
    rw [if_neg (UInt64.not_lt.mpr hbank), if_neg (UInt32.not_lt.mpr hleft), if_neg (by simp)]
    rfl
  unfold handleMemberWithdrawMoney
  simp only [hcan, hguild, hpaid]

theorem request_withdraw_of_not_passes (h : ¬ t.Passes player amount) :
    t.request (.withdraw player amount) = (t, false) := by
  show t.handleMemberWithdrawMoney player amount = _
  have hguild : (t.guild.handleMemberWithdrawMoney player amount false
      (modifyMoney (t.money player) (min amount MAX_MONEY_AMOUNT).toInt32).2).2 = false := by
    unfold Guild.handleMemberWithdrawMoney
    dsimp only
    split
    · rfl
    · next hbank =>
      split
      · rfl
      · next m hm =>
        split
        · rfl
        · next hleft =>
          -- the bank and the rank would pay, so the player cannot hold it
          rw [if_pos]
          rw [Bool.not_false, Bool.true_and, Bool.not_eq_true']
          refine Bool.eq_false_iff.mpr fun hcan => h ?_
          exact ⟨UInt64.not_lt.mp hbank, ⟨m, hm, UInt32.not_lt.mp hleft⟩,
            (modifyMoney_eq_true (min_le_max amount)).mp hcan⟩
  grind [handleMemberWithdrawMoney]

/-! ## One balance against the other -/

theorem carried_update_of_not_mem {players : List ObjectGuid} (h : player ∉ players)
    (money : ObjectGuid → UInt32) (v : UInt32) :
    carried players (Function.update money player v) = carried players money := by
  grind [List.map_congr_left, carried]

theorem carried_update {players : List ObjectGuid} (hnodup : players.Nodup) (h : player ∈ players)
    (money : ObjectGuid → UInt32) (v : UInt32) :
    carried players (Function.update money player v) + (money player).toNat =
      carried players money + v.toNat := by
  induction players with
  | nil => cases h
  | cons p players ih =>
    obtain ⟨hp, hnodup⟩ := List.nodup_cons.mp hnodup
    have hcons : ∀ money : ObjectGuid → UInt32,
        carried (p :: players) money = (money p).toNat + carried players money := by
      intro money
      rfl
    grind [carried_update_of_not_mem]

theorem mem_guids {m : Member} (hm : t.guild.getMember player = some m) :
    player ∈ t.guild.members.rows.map Member.guid := by
  obtain ⟨hmem, rfl⟩ := Table.get?_eq_some.mp hm
  exact List.mem_map_of_mem hmem

theorem deposit_exact (hc : t.Called (.deposit player amount))
    (hroom : ¬ t.guild.bankMoney > GUILD_BANK_MONEY_LIMIT - amount.toUInt64) :
    (t.guild.bankMoney + amount.toUInt64).toNat = t.guild.bankMoney.toNat + amount.toNat ∧
      t.guild.bankMoney + amount.toUInt64 ≤ GUILD_BANK_MONEY_LIMIT ∧
      (t.money player - amount).toNat + amount.toNat = (t.money player).toNat := by
  have hlimit : GUILD_BANK_MONEY_LIMIT.toNat = 0x7FFFFFFFFFFFF := rfl
  have hamount : amount.toUInt64.toNat = amount.toNat := UInt32.toNat_toUInt64 amount
  have hlt := amount.toNat_lt
  have hle : amount.toUInt64 ≤ GUILD_BANK_MONEY_LIMIT := by
    rw [UInt64.le_iff_toNat_le, hamount, hlimit]
    omega
  have hfit := UInt64.le_iff_toNat_le.mp (UInt64.not_lt.mp hroom)
  rw [UInt64.toNat_sub_of_le _ _ hle, hamount, hlimit] at hfit
  have hsum : (t.guild.bankMoney + amount.toUInt64).toNat =
      t.guild.bankMoney.toNat + amount.toNat := by
    rw [UInt64.toNat_add, hamount, Nat.mod_eq_of_lt]
    omega
  have henough : amount ≤ t.money player := of_decide_eq_true hc.2
  refine ⟨hsum, ?_, ?_⟩
  · rw [UInt64.le_iff_toNat_le, hsum, hlimit]
    omega
  · rw [UInt32.toNat_sub_of_le _ _ henough]
    have := UInt32.le_iff_toNat_le.mp henough
    omega

theorem withdraw_exact (hm : t.money player ≤ MAX_MONEY_AMOUNT) (h : t.Passes player amount) :
    (t.guild.bankMoney - (min amount MAX_MONEY_AMOUNT).toUInt64).toNat +
        (min amount MAX_MONEY_AMOUNT).toNat = t.guild.bankMoney.toNat ∧
      (t.money player + min amount MAX_MONEY_AMOUNT).toNat =
        (t.money player).toNat + (min amount MAX_MONEY_AMOUNT).toNat ∧
      t.money player + min amount MAX_MONEY_AMOUNT ≤ MAX_MONEY_AMOUNT := by
  have hmax : MAX_MONEY_AMOUNT.toNat = 0x7FFFFFFF := rfl
  have hclamp := min_le_max amount
  obtain ⟨hbank, -, hhold⟩ := h
  generalize min amount MAX_MONEY_AMOUNT = a at *
  have ha : a.toUInt64.toNat = a.toNat := UInt32.toNat_toUInt64 a
  have hle : (t.money player).toNat + a.toNat ≤ MAX_MONEY_AMOUNT.toNat := by
    rcases hhold with hzero | hlt
    · rw [hzero]
      exact UInt32.le_iff_toNat_le.mp hm
    · rw [UInt32.lt_iff_toNat_lt, UInt32.toNat_sub_of_le _ _ hclamp] at hlt
      omega
  have hsum : (t.money player + a).toNat = (t.money player).toNat + a.toNat := by
    rw [UInt32.toNat_add, Nat.mod_eq_of_lt]
    omega
  refine ⟨?_, hsum, ?_⟩
  · rw [UInt64.toNat_sub_of_le _ _ hbank, ha]
    have := UInt64.le_iff_toNat_le.mp hbank
    omega
  · rw [UInt32.le_iff_toNat_le, hsum]
    exact hle

theorem not_passes_of_too_much (hm : t.money player ≤ MAX_MONEY_AMOUNT)
    (h : MAX_MONEY_AMOUNT.toNat < (t.money player).toNat + amount.toNat) :
    ¬ t.Passes player amount := by
  intro hpass
  obtain ⟨-, hsum, hle⟩ := withdraw_exact hm hpass
  rw [UInt32.le_iff_toNat_le, hsum] at hle
  have hmin : min amount MAX_MONEY_AMOUNT =
      if amount ≤ MAX_MONEY_AMOUNT then amount else MAX_MONEY_AMOUNT := rfl
  by_cases hclamp : amount ≤ MAX_MONEY_AMOUNT
  · rw [hmin, if_pos hclamp] at hle
    omega
  · -- clamped to the most a player can have, which `ModifyMoney` refuses to everybody
    obtain ⟨-, -, hzero | hlt⟩ := hpass
    · rw [hmin, if_neg hclamp] at hzero
      exact absurd hzero (by decide)
    · rw [hmin, if_neg hclamp, UInt32.sub_self] at hlt
      exact absurd hlt (by simp)

/-! ## The daily counter -/

theorem counter_withdraw (h : t.Passes player amount) :
    (t.request (.withdraw player amount)).1.counter player =
      t.counter player + min amount MAX_MONEY_AMOUNT := by
  have hpass := h
  obtain ⟨-, ⟨m, hm, -⟩, -⟩ := h
  have hget : t.guild.members.get? player = some m := hm
  have hnew : (t.guild.updateMember player
      (Member.updateBankWithdrawValue GUILD_BANK_MAX_TABS (min amount MAX_MONEY_AMOUNT))
      (fun _ => rfl)).getMember player = some (m.updateBankWithdrawValue GUILD_BANK_MAX_TABS
        (min amount MAX_MONEY_AMOUNT)) :=
    (Table.get?_modify_self _ _ (Member.guid_updateBankWithdrawValue _ _)).trans
      (congrArg _ hget)
  have hcounter : (m.updateBankWithdrawValue GUILD_BANK_MAX_TABS
      (min amount MAX_MONEY_AMOUNT)).bankWithdraw GUILD_BANK_MAX_TABS =
      m.bankWithdraw GUILD_BANK_MAX_TABS + (min amount MAX_MONEY_AMOUNT).toInt32 := by
    simp [Member.updateBankWithdrawValue]
  have hafter : (t.request (.withdraw player amount)).1.counter player =
      ((m.updateBankWithdrawValue GUILD_BANK_MAX_TABS
        (min amount MAX_MONEY_AMOUNT)).bankWithdraw GUILD_BANK_MAX_TABS).toUInt32 := by
    rw [request_withdraw_of_passes hpass]
    exact congrArg (fun r : Option Member => match r with
      | some m => (m.bankWithdraw GUILD_BANK_MAX_TABS).toUInt32
      | none => 0) hnew
  have hbefore : t.counter player = (m.bankWithdraw GUILD_BANK_MAX_TABS).toUInt32 := by
    unfold counter
    rw [hm]
  rw [hafter, hbefore, hcounter, Int32.toUInt32_add, UInt32.toUInt32_toInt32]

/-! ## What is promised of a request -/

/-- Both balances and the counter are what they would be if the numbers had no end. -/
def Exact (t : Treasury) (r : MoneyRequest) : Prop :=
  (t.request r).2 = true →
    let t' := (t.request r).1
    match r with
    | .deposit player amount =>
      t'.guild.bankMoney.toNat = t.guild.bankMoney.toNat + amount.toNat ∧
        (t'.money player).toNat + amount.toNat = (t.money player).toNat ∧
        t'.counter player = t.counter player
    | .withdraw player amount =>
      let amount := (min amount MAX_MONEY_AMOUNT).toNat
      t'.guild.bankMoney.toNat + amount = t.guild.bankMoney.toNat ∧
        (t'.money player).toNat = (t.money player).toNat + amount ∧
        (t'.counter player).toNat = (t.counter player).toNat + amount

/-- A withdrawal that the checks let through has room in the daily counter. -/
def CounterFits (t : Treasury) : MoneyRequest → Prop
  | .deposit _ _ => True
  | .withdraw player amount => t.Passes player amount →
      (t.counter player).toNat + (min amount MAX_MONEY_AMOUNT).toNat < UInt32.size

theorem exact_iff {r : MoneyRequest} (hs : t.Sound) (hc : t.Called r) :
    t.Exact r ↔ t.CounterFits r := by
  cases r with
  | deposit player amount =>
    refine iff_of_true ?_ trivial
    rw [Exact, request_deposit hs hc]
    split
    · intro hfailed
      cases hfailed
    · next hroom =>
      obtain ⟨hbank, -, hmoney⟩ := deposit_exact hc hroom
      intro _
      dsimp only
      rw [Function.update_self]
      exact ⟨hbank, hmoney, rfl⟩
  | withdraw player amount =>
    by_cases hpass : t.Passes player amount
    · have hmoney : t.money player ≤ MAX_MONEY_AMOUNT := by
        obtain ⟨-, ⟨m, hm, -⟩, -⟩ := hpass
        obtain ⟨hmem, rfl⟩ := Table.get?_eq_some.mp hm
        exact hs.money m hmem
      obtain ⟨hbank, hpaid, -⟩ := withdraw_exact hmoney hpass
      have hcounter : ((t.request (.withdraw player amount)).1.counter player).toNat =
          ((t.counter player).toNat + (min amount MAX_MONEY_AMOUNT).toNat) % UInt32.size := by
        rw [counter_withdraw hpass, UInt32.toNat_add]
      rw [Exact, CounterFits]
      dsimp only
      rw [hcounter, request_withdraw_of_passes hpass]
      dsimp only
      rw [Function.update_self]
      constructor
      · intro hexact _
        have hsame := (hexact rfl).2.2
        rw [← hsame]
        exact Nat.mod_lt _ (by decide)
      · intro hfits _
        exact ⟨hbank, hpaid, Nat.mod_eq_of_lt (hfits hpass)⟩
    · refine iff_of_true ?_ (fun h => absurd h hpass)
      rw [Exact, request_withdraw_of_not_passes hpass]
      intro hfailed
      cases hfailed

theorem request_failed {r : MoneyRequest} (hs : t.Sound) (hc : t.Called r)
    (h : (t.request r).2 = false) : (t.request r).1 = t := by
  cases r with
  | deposit player amount =>
    rw [request_deposit hs hc] at h ⊢
    by_cases hroom : t.guild.bankMoney > GUILD_BANK_MONEY_LIMIT - amount.toUInt64
    · rw [if_pos hroom]
    · rw [if_neg hroom] at h
      cases h
  | withdraw player amount =>
    by_cases hpass : t.Passes player amount
    · rw [request_withdraw_of_passes hpass] at h
      cases h
    · rw [request_withdraw_of_not_passes hpass]

theorem Sound.update {g : Guild} {v : UInt32} (hs : t.Sound)
    (hguids : g.members.rows.map Member.guid = t.guild.members.rows.map Member.guid)
    (hbank : g.bankMoney ≤ GUILD_BANK_MONEY_LIMIT) (hv : v ≤ MAX_MONEY_AMOUNT) :
    Sound { guild := g, money := Function.update t.money player v } := by
  refine ⟨hbank, ?_⟩
  intro m hm
  have hguid : m.guid ∈ t.guild.members.rows.map Member.guid :=
    hguids ▸ List.mem_map_of_mem (f := Member.guid) hm
  obtain ⟨m₀, hm₀, heq⟩ := List.mem_map.mp hguid
  by_cases hp : m.guid = player
  · subst hp
    dsimp only
    rw [Function.update_self]
    exact hv
  · dsimp only
    rw [Function.update_of_ne hp, ← heq]
    exact hs.money m₀ hm₀

/-- **One request** neither makes money nor loses any. -/
theorem request_conserves {r : MoneyRequest} (hs : t.Sound) (hc : t.Called r) :
    (t.request r).1.total = t.total ∧ (t.request r).1.Sound := by
  cases r with
  | deposit player amount =>
    rw [request_deposit hs hc]
    split
    · exact ⟨rfl, hs⟩
    · next hroom =>
      obtain ⟨hbank, hlimit, hmoney⟩ := deposit_exact hc hroom
      obtain ⟨⟨m, hm⟩, henough⟩ := hc
      have hmem := mem_guids hm
      have hsum := carried_update t.guild.members.nodup hmem t.money (t.money player - amount)
      refine ⟨?_, hs.update rfl hlimit ?_⟩
      · unfold total
        dsimp only
        omega
      · obtain ⟨hrow, rfl⟩ := Table.get?_eq_some.mp hm
        refine UInt32.le_trans (UInt32.le_iff_toNat_le.mpr ?_) (hs.money m hrow)
        omega
  | withdraw player amount =>
    by_cases hpass : t.Passes player amount
    · rw [request_withdraw_of_passes hpass]
      obtain ⟨m, hm, -⟩ := hpass.2.1
      have hmem := mem_guids hm
      have hcarries : t.money player ≤ MAX_MONEY_AMOUNT := by
        obtain ⟨hrow, rfl⟩ := Table.get?_eq_some.mp hm
        exact hs.money m hrow
      obtain ⟨hbank, hpaid, hmax⟩ := withdraw_exact hcarries hpass
      have hguids : ((t.guild.updateMember player
          (Member.updateBankWithdrawValue GUILD_BANK_MAX_TABS (min amount MAX_MONEY_AMOUNT))
          (fun _ => rfl)).members.rows.map Member.guid) =
          t.guild.members.rows.map Member.guid :=
        Table.map_modify _ _ (Member.guid_updateBankWithdrawValue _ _)
          (Member.guid_updateBankWithdrawValue _ _)
      have hsum := carried_update t.guild.members.nodup hmem t.money
        (t.money player + min amount MAX_MONEY_AMOUNT)
      refine ⟨?_, hs.update hguids ?_ hmax⟩
      · unfold total
        dsimp only
        rw [hguids]
        omega
      · refine UInt64.le_trans (UInt64.le_iff_toNat_le.mpr ?_) hs.bank
        dsimp only
        omega
    · rw [request_withdraw_of_not_passes hpass]
      exact ⟨rfl, hs⟩

/-- **Money is conserved** in every run of deposits and withdrawals, and no balance leaves its
bounds. A request that fails changes nothing, and one for more than the player can hold fails.
The numbers are exact as long as the daily counter has room for what is withdrawn. -/
theorem money_conserved (hs : s.Sound) (h : Reaches Step Called s t) :
    t.total = s.total ∧ t.Sound ∧ ∀ r, t.Called r →
      ((t.request r).2 = false → (t.request r).1 = t) ∧
      (∀ player amount, r = .withdraw player amount →
        MAX_MONEY_AMOUNT.toNat < (t.money player).toNat + amount.toNat →
          (t.request r).2 = false) ∧
      (t.Exact r ↔ t.CounterFits r) := by
  have hinv : t.total = s.total ∧ t.Sound := by
    refine h.invariant (I := fun t => t.total = s.total ∧ t.Sound) ⟨rfl, hs⟩ ?_
    intro t t' r ht hc hstep
    obtain ⟨htotal, hsound⟩ := ht
    obtain rfl : t' = (t.request r).1 := hstep
    obtain ⟨hnew, hnewsound⟩ := request_conserves hsound hc
    exact ⟨hnew.trans htotal, hnewsound⟩
  refine ⟨hinv.1, hinv.2, ?_⟩
  intro r hc
  refine ⟨request_failed hinv.2 hc, ?_, exact_iff hinv.2 hc⟩
  intro player amount hr hmuch
  subst hr
  by_cases hpass : t.Passes player amount
  · obtain ⟨m, hm, -⟩ := hpass.2.1
    obtain ⟨hrow, rfl⟩ := Table.get?_eq_some.mp hm
    exact absurd hpass (not_passes_of_too_much (hinv.2.money m hrow) hmuch)
  · rw [request_withdraw_of_not_passes hpass]

/-! ## A guild master who takes the same gold three times -/

/-- A guild of its master alone, with all the gold that fits into a purse. -/
def goldOfOne : Treasury where
  guild :=
    { leaderGuid := 1
      bankMoney := 0x7FFFFFFE
      ranks := [.new 0 GR_RIGHT_ALL 0]
      members := ⟨[{ guid := 1, rankId := GR_GUILDMASTER }], by decide⟩ }
  money := fun _ => 0

theorem goldOfOne_sound : goldOfOne.Sound := by
  refine ⟨by decide, ?_⟩
  intro m _
  exact UInt32.zero_le

theorem money_conserved_once :
    (goldOfOne.request (.withdraw 1 1000)).1.total = goldOfOne.total :=
  (money_conserved goldOfOne_sound
    ((Reaches.refl _).next (a := .withdraw 1 1000) trivial rfl)).1

def takeAll : MoneyRequest := .withdraw 1 0x7FFFFFFE
def giveBack : MoneyRequest := .deposit 1 0x7FFFFFFE

def goldTakenTwice : Treasury :=
  ((((goldOfOne.request takeAll).1.request giveBack).1.request takeAll).1.request giveBack).1

/-- The gold is taken and given back twice; when it is taken for the third time, the `uint32` sum
of the daily counter wraps. -/
theorem counter_wraps :
    goldOfOne.Sound ∧ Reaches Step Called goldOfOne goldTakenTwice ∧
      goldTakenTwice.Called takeAll ∧ (goldTakenTwice.request takeAll).2 = true ∧
      goldTakenTwice.counter 1 = 0xFFFFFFFC ∧
      (goldTakenTwice.request takeAll).1.counter 1 = 0x7FFFFFFA ∧
      ¬ goldTakenTwice.Exact takeAll := by
  refine ⟨goldOfOne_sound, ?_, trivial, by decide, by decide, by decide, ?_⟩
  · have hfirst := (@Reaches.refl _ _ Step Called goldOfOne).next (a := takeAll)
      trivial rfl
    have hback := hfirst.next (a := giveBack) ⟨⟨_, rfl⟩, by decide⟩ rfl
    have hsecond := hback.next (a := takeAll) trivial rfl
    exact hsecond.next (a := giveBack) ⟨⟨_, rfl⟩, by decide⟩ rfl
  · intro hexact
    have hcounter := (hexact (by decide)).2.2
    exact absurd hcounter (by decide)

end Treasury

end EGServer.Guilds
