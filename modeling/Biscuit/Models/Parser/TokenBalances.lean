import Biscuit.Models.Parser.Transaction

/-!
# The token balances around a transaction

A node lists the balances of the token accounts before and after a transaction. The two lists
are joined by the index of the account into what happened to each owner's tokens of a mint.
-/

namespace Biscuit.Parser

/-- `UiTransactionTokenBalance`, with the field that only its reader needs. -/
structure OwnedTokenBalance extends UiTransactionTokenBalance where
  owner : Option Text
  deriving DecidableEq, Repr

/-- `UiTransactionStatusMeta` as far as it is about balances. -/
structure TokenBalances where
  preTokenBalances : Option (List OwnedTokenBalance)
  postTokenBalances : Option (List OwnedTokenBalance)
  deriving DecidableEq, Repr

/-- `TokenAccountInfo` -/
structure TokenAccountInfo where
  index : UInt8
  owner : Pubkey
  mint : Pubkey
  decimals : UInt8
  preBalance : F64
  postBalance : F64
  deriving DecidableEq, Repr

namespace TokenBalances

/-- The entries before a transaction, none if they were not recorded. -/
def pre (balances : TokenBalances) : List OwnedTokenBalance :=
  balances.preTokenBalances.getD []

/-- The entries after a transaction, none if they were not recorded. -/
def post (balances : TokenBalances) : List OwnedTokenBalance :=
  balances.postTokenBalances.getD []

end TokenBalances

/-- The entries by the index of their account. -/
def byAccountIndex (entries : List OwnedTokenBalance) : Table UInt8 OwnedTokenBalance :=
  Table.collect (entries.map fun balance => (balance.accountIndex, balance))

/-- The details of an account; the balance before is taken from the entry after the transaction,
and the balance after from the entry before it. -/
def tokenAccountInfo (preTokenBalances : Table UInt8 OwnedTokenBalance)
    (entry : UInt8 × OwnedTokenBalance) : Option TokenAccountInfo := do
  let (index, balance) := entry
  let owner ← balance.owner
  let owner ← Pubkey.ofText owner
  let mint ← Pubkey.ofText balance.mint
  let decimals := balance.uiTokenAmount.decimals
  let preBalance ← balance.uiTokenAmount.uiAmount
  let postBalance ← preTokenBalances.lookup index
  let postBalance ← postBalance.uiTokenAmount.uiAmount
  pure { index, owner, mint, decimals, preBalance, postBalance }

/-- What the details of an account are kept under. -/
def TokenAccountInfo.key (info : TokenAccountInfo) : Pubkey × Pubkey := (info.owner, info.mint)

/-- `ITransaction::extract_token_balance_details` -/
def extractTokenBalanceDetails (iter : Iteration (UInt8 × OwnedTokenBalance))
    (statusMeta : Option TokenBalances) :
    Option (Table (Pubkey × Pubkey) TokenAccountInfo) := do
  let statusMeta ← statusMeta
  let postTokenBalances := byAccountIndex statusMeta.post
  let preTokenBalances := byAccountIndex statusMeta.pre
  (iter.order (Table.items postTokenBalances)).foldlM
    (fun tokenAccountMap entry => (tokenAccountInfo preTokenBalances entry).map fun info =>
      tokenAccountMap.insert info.key info) ∅

/-! ## What the details should be -/

/-- The owner and the mint of an entry. -/
def OwnedTokenBalance.key (balance : OwnedTokenBalance) : Option (Pubkey × Pubkey) := do
  let owner ← balance.owner.bind Pubkey.ofText
  let mint ← Pubkey.ofText balance.mint
  pure (owner, mint)

/-- The amount of an entry. -/
def OwnedTokenBalance.amount (balance : OwnedTokenBalance) : Option F64 :=
  balance.uiTokenAmount.uiAmount

/-- An entry that carries an owner, a mint and an amount. -/
def OwnedTokenBalance.IsComplete (balance : OwnedTokenBalance) : Prop :=
  (∃ key, balance.key = some key) ∧ ∃ amount, balance.amount = some amount

/-- The entry of an account; a later one replaces an earlier one. -/
def entryOf (entries : List OwnedTokenBalance) (index : UInt8) : Option OwnedTokenBalance :=
  Table.lastOf (·.accountIndex) entries index

/-- All entries carry what is read from them. -/
def TokenBalances.IsComplete (balances : TokenBalances) : Prop :=
  (∀ balance ∈ balances.pre, balance.IsComplete) ∧ ∀ balance ∈ balances.post, balance.IsComplete

/-- Details that tell for each owner and mint what some account of theirs held before and after,
nothing before if it did not exist. -/
structure TokenBalances.IsFaithful (balances : TokenBalances)
    (details : Table (Pubkey × Pubkey) TokenAccountInfo) : Prop where
  present : ∀ balance ∈ balances.post, ∀ key, balance.key = some key → key ∈ details
  account : ∀ key info, details.lookup key = some info → info.key = key ∧
    ∃ balance, entryOf balances.post info.index = some balance ∧ balance.key = some key ∧
      some info.postBalance = balance.amount
  preBalance : ∀ key info, details.lookup key = some info →
    some info.preBalance = (entryOf balances.pre info.index).elim (some 0) (·.amount)

/-- Every account that has an entry after a transaction had the same amount before, and no entry is
replaced by one of another owner or mint. -/
structure TokenBalances.IsUnchanged (balances : TokenBalances) : Prop where
  kept : ∀ balance ∈ balances.post, ∃ index entry, entryOf balances.post index = some entry ∧
    entry.key = balance.key
  same : ∀ index balance, entryOf balances.post index = some balance →
    ∃ before, entryOf balances.pre index = some before ∧ before.amount = balance.amount

/-! ## When they are -/

/-- The traversal that yields one item last. -/
def Iteration.endingWith {α : Type*} [DecidableEq α] (a : α) : Iteration α where
  order := fun items => if a ∈ items then items.erase a ++ [a] else items
  perm := by
    intro items
    by_cases h : a ∈ items
    · rw [if_pos h]
      exact (List.perm_append_singleton _ _).trans (List.perm_cons_erase h).symm
    · rw [if_neg h]

section

variable {balances : TokenBalances}

theorem lookup_byAccountIndex (entries : List OwnedTokenBalance) (index : UInt8) :
    (byAccountIndex entries).lookup index = entryOf entries index :=
  Table.lookup_collect_map _ entries index

theorem mem_items_byAccountIndex {entries : List OwnedTokenBalance} {index : UInt8}
    {balance : OwnedTokenBalance} :
    (index, balance) ∈ Table.items (byAccountIndex entries) ↔
      entryOf entries index = some balance := by
  rw [Table.mem_items, lookup_byAccountIndex]

theorem tokenAccountInfo_eq_some_iff {entries : List OwnedTokenBalance} {index : UInt8}
    {balance : OwnedTokenBalance} {info : TokenAccountInfo} :
    tokenAccountInfo (byAccountIndex entries) (index, balance) = some info ↔
      info.index = index ∧ info.decimals = balance.uiTokenAmount.decimals ∧
        balance.key = some info.key ∧ balance.amount = some info.preBalance ∧
        (entryOf entries index).bind (·.amount) = some info.postBalance := by
  obtain ⟨index', owner, mint, decimals, preBalance, postBalance⟩ := info
  simp only [tokenAccountInfo, TokenAccountInfo.key, OwnedTokenBalance.key,
    OwnedTokenBalance.amount, lookup_byAccountIndex, Option.bind_eq_bind, Option.pure_def,
    Option.bind_eq_some_iff, Option.some.injEq, TokenAccountInfo.mk.injEq, Prod.mk.injEq]
  constructor
  · rintro ⟨ownerText, hownerText, owner', howner, mint', hmint, amount, hamount, entry, hentry,
      amount', hamount', rfl, rfl, rfl, rfl, rfl, rfl⟩
    exact ⟨rfl, rfl, ⟨_, ⟨ownerText, hownerText, howner⟩, _, hmint, rfl, rfl⟩, hamount, entry,
      hentry, hamount'⟩
  · rintro ⟨rfl, rfl, ⟨_, ⟨ownerText, hownerText, howner⟩, _, hmint, rfl, rfl⟩, hamount, entry,
      hentry, hamount'⟩
    exact ⟨ownerText, hownerText, _, howner, _, hmint, _, hamount, entry, hentry, _, hamount',
      rfl, rfl, rfl, rfl, rfl, rfl⟩

/-- The details of the accounts that can be read, in the order in which they are. -/
def TokenBalances.read (balances : TokenBalances) (iter : Iteration (UInt8 × OwnedTokenBalance)) :
    List TokenAccountInfo :=
  (iter.order (Table.items (byAccountIndex balances.post))).filterMap
    (tokenAccountInfo (byAccountIndex balances.pre))

theorem mem_read_iff {iter : Iteration (UInt8 × OwnedTokenBalance)} {info : TokenAccountInfo} :
    info ∈ balances.read iter ↔ ∃ index balance, entryOf balances.post index = some balance ∧
      tokenAccountInfo (byAccountIndex balances.pre) (index, balance) = some info := by
  simp only [TokenBalances.read, List.mem_filterMap, iter.mem_order, Prod.exists,
    mem_items_byAccountIndex]

/-- The details that are read from the entries after a transaction. -/
theorem extractTokenBalanceDetails_eq_some_iff {iter : Iteration (UInt8 × OwnedTokenBalance)}
    {details : Table (Pubkey × Pubkey) TokenAccountInfo} :
    extractTokenBalanceDetails iter (some balances) = some details ↔
      (∀ index balance, entryOf balances.post index = some balance →
        ∃ info, tokenAccountInfo (byAccountIndex balances.pre) (index, balance) = some info) ∧
      details =
        (balances.read iter).foldl (fun details info => details.insert info.key info) ∅ := by
  change (iter.order (Table.items (byAccountIndex balances.post))).foldlM _ _ = _ ↔ _
  rw [Table.foldlM_insert_eq_some_iff]
  refine and_congr_left fun _ => ?_
  constructor
  · intro h index balance hentry
    exact h _ (iter.mem_order.mpr (mem_items_byAccountIndex.mpr hentry))
  · rintro h ⟨index, balance⟩ hmem
    exact h index balance (mem_items_byAccountIndex.mp (iter.mem_order.mp hmem))

/-- What the details tell about an owner and a mint was read last of what has their key. -/
theorem lookup_extractTokenBalanceDetails {iter : Iteration (UInt8 × OwnedTokenBalance)}
    {details : Table (Pubkey × Pubkey) TokenAccountInfo}
    (h : extractTokenBalanceDetails iter (some balances) = some details) (key : Pubkey × Pubkey) :
    details.lookup key = Table.lastOf TokenAccountInfo.key (balances.read iter) key := by
  rw [(extractTokenBalanceDetails_eq_some_iff.mp h).2, Table.lookup_foldl_insert,
    AList.lookup_empty, Option.or_none]

/-- Details are those of an account with their key, with its two amounts swapped. -/
theorem exists_of_lookup_details {iter : Iteration (UInt8 × OwnedTokenBalance)}
    {details : Table (Pubkey × Pubkey) TokenAccountInfo}
    (h : extractTokenBalanceDetails iter (some balances) = some details)
    {key : Pubkey × Pubkey} {info : TokenAccountInfo} (hinfo : details.lookup key = some info) :
    info.key = key ∧ ∃ balance, entryOf balances.post info.index = some balance ∧
      balance.key = some key ∧ balance.amount = some info.preBalance ∧
      (entryOf balances.pre info.index).bind (·.amount) = some info.postBalance := by
  rw [lookup_extractTokenBalanceDetails h] at hinfo
  obtain ⟨hmem, hkey⟩ := Table.mem_of_lastOf hinfo
  obtain ⟨index, balance, hentry, hread⟩ := mem_read_iff.mp hmem
  obtain ⟨rfl, -, hbalance, hpre, hpost⟩ := tokenAccountInfo_eq_some_iff.mp hread
  exact ⟨hkey, balance, hentry, hkey ▸ hbalance, hpre, hpost⟩

/-- The owner and the mint of every account are present. -/
theorem mem_details {iter : Iteration (UInt8 × OwnedTokenBalance)}
    {details : Table (Pubkey × Pubkey) TokenAccountInfo}
    (h : extractTokenBalanceDetails iter (some balances) = some details) {index : UInt8}
    {balance : OwnedTokenBalance} (hentry : entryOf balances.post index = some balance)
    {key : Pubkey × Pubkey} (hkey : balance.key = some key) : key ∈ details := by
  obtain ⟨info, hinfo⟩ := (extractTokenBalanceDetails_eq_some_iff.mp h).1 index balance hentry
  have hinfokey : info.key = key :=
    Option.some.inj ((tokenAccountInfo_eq_some_iff.mp hinfo).2.2.1.symm.trans hkey)
  have hmem : info ∈ balances.read iter := mem_read_iff.mpr ⟨index, balance, hentry, hinfo⟩
  obtain ⟨last, hlast⟩ := Table.exists_lastOf TokenAccountInfo.key hmem
  rw [hinfokey, ← lookup_extractTokenBalanceDetails h] at hlast
  exact Table.mem_iff_lookup.mpr ⟨last, hlast⟩

/-- Where every account had the same amount before, swapping the two amounts does no harm. -/
theorem TokenBalances.IsUnchanged.extract (hunchanged : balances.IsUnchanged)
    (h : balances.IsComplete) (iter : Iteration (UInt8 × OwnedTokenBalance)) :
    ∃ details, extractTokenBalanceDetails iter (some balances) = some details ∧
      balances.IsFaithful details := by
  have hread : ∀ index balance, entryOf balances.post index = some balance →
      ∃ info, tokenAccountInfo (byAccountIndex balances.pre) (index, balance) = some info := by
    intro index balance hentry
    obtain ⟨⟨key, hkey⟩, amount, hamount⟩ := h.2 balance (Table.mem_of_lastOf hentry).1
    obtain ⟨before, hbefore, hsame⟩ := hunchanged.same index balance hentry
    refine ⟨⟨index, key.1, key.2, balance.uiTokenAmount.decimals, amount, amount⟩,
      tokenAccountInfo_eq_some_iff.mpr ⟨rfl, rfl, hkey, hamount, ?_⟩⟩
    rw [hbefore, Option.bind_some, hsame, hamount]
  obtain ⟨details, hdetails⟩ : ∃ details, extractTokenBalanceDetails iter (some balances) =
      some details := ⟨_, extractTokenBalanceDetails_eq_some_iff.mpr ⟨hread, rfl⟩⟩
  refine ⟨details, hdetails, ?_, ?_, ?_⟩
  · intro balance hbalance key hkey
    obtain ⟨index, entry, hentry, hsame⟩ := hunchanged.kept balance hbalance
    exact mem_details hdetails hentry (hsame.trans hkey)
  · intro key info hinfo
    obtain ⟨hkey, balance, hentry, hbalance, -, hpost⟩ := exists_of_lookup_details hdetails hinfo
    obtain ⟨before, hbefore, hsame⟩ := hunchanged.same info.index balance hentry
    rw [hbefore, Option.bind_some, hsame] at hpost
    exact ⟨hkey, balance, hentry, hbalance, hpost.symm⟩
  · intro key info hinfo
    obtain ⟨-, balance, hentry, -, hpre, -⟩ := exists_of_lookup_details hdetails hinfo
    obtain ⟨before, hbefore, hsame⟩ := hunchanged.same info.index balance hentry
    rw [hbefore, Option.elim_some, hsame, hpre]

/-- What is read last is kept. -/
theorem lookup_details_endingWith {index : UInt8} {balance : OwnedTokenBalance}
    {details : Table (Pubkey × Pubkey) TokenAccountInfo}
    (h : extractTokenBalanceDetails (Iteration.endingWith (index, balance)) (some balances) =
      some details) (hentry : entryOf balances.post index = some balance)
    {info : TokenAccountInfo}
    (hinfo : tokenAccountInfo (byAccountIndex balances.pre) (index, balance) = some info) :
    details.lookup info.key = some info := by
  rw [lookup_extractTokenBalanceDetails h, TokenBalances.read, Iteration.endingWith]
  simp only [if_pos (mem_items_byAccountIndex.mpr hentry), List.filterMap_append,
    List.filterMap_cons, List.filterMap_nil, hinfo, Table.lastOf_append_singleton, if_true]

/-- The details are faithful in every traversal exactly when nothing has changed for any account. -/
theorem extractTokenBalanceDetails_isFaithful_iff (balances : TokenBalances)
    (h : balances.IsComplete) :
    (∀ iter : Iteration (UInt8 × OwnedTokenBalance), ∃ details,
        extractTokenBalanceDetails iter (some balances) = some details ∧
          balances.IsFaithful details) ↔ balances.IsUnchanged := by
  refine ⟨fun hall => ⟨?_, ?_⟩, fun hunchanged iter => hunchanged.extract h iter⟩
  · intro balance hbalance
    obtain ⟨details, -, hfaithful⟩ := hall (Iteration.stored _)
    obtain ⟨⟨key, hkey⟩, -⟩ := h.2 balance hbalance
    obtain ⟨info, hinfo⟩ := Table.mem_iff_lookup.mp (hfaithful.present balance hbalance key hkey)
    obtain ⟨-, entry, hentry, hentrykey, -⟩ := hfaithful.account key info hinfo
    exact ⟨info.index, entry, hentry, hentrykey.trans hkey.symm⟩
  · intro index balance hentry
    -- The account is read last, so that its own details are kept.
    obtain ⟨details, hdetails, hfaithful⟩ := hall (Iteration.endingWith (index, balance))
    obtain ⟨info, hinfo⟩ :=
      (extractTokenBalanceDetails_eq_some_iff.mp hdetails).1 index balance hentry
    obtain ⟨-, entry, hpost, -, hamount⟩ := hfaithful.account info.key info
      (lookup_details_endingWith hdetails hentry hinfo)
    obtain ⟨rfl, -, -, -, hpre⟩ := tokenAccountInfo_eq_some_iff.mp hinfo
    obtain ⟨before, hbefore, hbeforeAmount⟩ := Option.bind_eq_some_iff.mp hpre
    obtain rfl : entry = balance := Option.some.inj (hpost.symm.trans hentry)
    exact ⟨before, hbefore, hbeforeAmount.trans hamount⟩

/-- One account that did not exist before takes the details of all others away. -/
theorem extractTokenBalanceDetails_of_created {index : UInt8} {balance : OwnedTokenBalance}
    (hpost : entryOf balances.post index = some balance) (hpre : entryOf balances.pre index = none)
    (iter : Iteration (UInt8 × OwnedTokenBalance)) :
    extractTokenBalanceDetails iter (some balances) = none := by
  rw [Option.eq_none_iff_forall_ne_some]
  intro details h
  obtain ⟨info, hinfo⟩ := (extractTokenBalanceDetails_eq_some_iff.mp h).1 index balance hpost
  obtain ⟨-, -, -, -, hbefore⟩ := tokenAccountInfo_eq_some_iff.mp hinfo
  rw [hpre] at hbefore
  cases hbefore

/-- Where every account has one entry, none of them is replaced. -/
theorem TokenBalances.isUnchanged_iff_of_nodup
    (h : (balances.post.map (·.accountIndex)).Nodup) :
    balances.IsUnchanged ↔ ∀ index balance, entryOf balances.post index = some balance →
      ∃ before, entryOf balances.pre index = some before ∧ before.amount = balance.amount := by
  refine ⟨fun hunchanged => hunchanged.same, fun hsame => ⟨fun balance hbalance => ?_, hsame⟩⟩
  obtain ⟨last, hlast⟩ := Table.exists_lastOf (fun entry : OwnedTokenBalance => entry.accountIndex)
    hbalance
  obtain ⟨hmem, hindex⟩ := Table.mem_of_lastOf hlast
  obtain rfl : last = balance := List.inj_on_of_nodup_map h hmem hbalance hindex
  exact ⟨last.accountIndex, last, hlast, rfl⟩

end

/-- An entry of an account that holds some units of a mint. -/
def ownedBalance (accountIndex : UInt8) (owner mint : Pubkey) (amount : ℚ) : OwnedTokenBalance :=
  { accountIndex, mint := mint.toText, uiTokenAmount := ⟨some (.fin amount), 6⟩
    owner := some owner.toText }

theorem isComplete_ownedBalance (accountIndex : UInt8) (owner mint : Pubkey) (amount : ℚ) :
    (ownedBalance accountIndex owner mint amount).IsComplete := by
  refine ⟨⟨(owner, mint), ?_⟩, .fin amount, rfl⟩
  simp only [OwnedTokenBalance.key, ownedBalance, Option.bind_some, Pubkey.ofText_toText,
    Option.bind_eq_bind, Option.pure_def]

/-- An account that a transaction leaves alone. -/
def idleBalances : TokenBalances :=
  ⟨some [ownedBalance 1 USDT USDC 3], some [ownedBalance 1 USDT USDC 3]⟩

theorem extractTokenBalanceDetails_idle :
    ∃ details, extractTokenBalanceDetails (.stored _) (some idleBalances) = some details ∧
      idleBalances.IsFaithful details := by
  refine (extractTokenBalanceDetails_isFaithful_iff idleBalances ⟨?_, ?_⟩).mpr ⟨?_, ?_⟩ (.stored _)
  · exact List.forall_mem_singleton.mpr (isComplete_ownedBalance 1 USDT USDC 3)
  · exact List.forall_mem_singleton.mpr (isComplete_ownedBalance 1 USDT USDC 3)
  · exact List.forall_mem_singleton.mpr ⟨1, _, rfl, rfl⟩
  · intro index balance hentry
    exact ⟨balance, hentry, rfl⟩

/-- An account that a transaction leaves alone, and another one that it creates. -/
def createdBalances : TokenBalances :=
  ⟨some [ownedBalance 1 USDT USDC 3], some [ownedBalance 1 USDT USDC 3, ownedBalance 2 USDT SOL 5]⟩

theorem extractTokenBalanceDetails_created :
    ¬ ∀ (iter : Iteration (UInt8 × OwnedTokenBalance)) (balances : TokenBalances),
      balances.IsComplete → ∃ details,
        extractTokenBalanceDetails iter (some balances) = some details ∧
          balances.IsFaithful details := by
  intro hall
  have hold := isComplete_ownedBalance 1 USDT USDC 3
  have hnew := isComplete_ownedBalance 2 USDT SOL 5
  obtain ⟨details, hdetails, -⟩ := hall (Iteration.stored _) createdBalances
    ⟨List.forall_mem_singleton.mpr hold,
      List.forall_mem_cons.mpr ⟨hold, List.forall_mem_singleton.mpr hnew⟩⟩
  have hpost : entryOf createdBalances.post 2 = some (ownedBalance 2 USDT SOL 5) := rfl
  rw [extractTokenBalanceDetails_of_created hpost rfl] at hdetails
  cases hdetails

end Biscuit.Parser
