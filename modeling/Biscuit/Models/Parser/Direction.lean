import Biscuit.Core.Rounding
import Biscuit.Models.Parser.Swap

/-!
# The direction of a Raydium V4 swap

A swap instruction does not say which way it trades. The direction is read from the mint of
whichever balance of the user is found first; the amount that the instruction leaves open is
what the vault on that side has lost or gained.
-/

namespace Biscuit.Parser

/-- What a transaction does to a vault of a pool, in the smallest units of its mint. -/
structure Vault where
  mint : Pubkey
  pre : ℕ
  post : ℕ
  deriving DecidableEq, Repr

/-- A recorded balance stands for so many of the smallest units; an absent amount is nothing. -/
structure UiTransactionTokenBalance.Holds (balance : UiTransactionTokenBalance) (amount : ℕ) :
    Prop where
  uiAmount : balance.uiTokenAmount.uiAmount.getD (.fin 0) =
    .fin (amount / 10 ^ balance.uiTokenAmount.decimals.toNat)
  decimals_le : balance.uiTokenAmount.decimals.toNat ≤ 9
  amount_lt : amount < 2 ^ 64

/-- A recorded balance is read as so many of the smallest units. -/
def UiTransactionTokenBalance.ReadAs (r : Rounding) (balance : UiTransactionTokenBalance)
    (amount : ℕ) : Prop :=
  calcAmount r balance = amount

/-- The balances of a vault are recorded before and after a transaction, for how a balance is read
as an amount. -/
def UiTransactionStatusMeta.RecordsVault (statusMeta : UiTransactionStatusMeta)
    (reads : UiTransactionTokenBalance → ℕ → Prop) (accountKeys : List Pubkey) (account : Pubkey)
    (vault : Vault) : Prop :=
  ∃ pre post, getBalancesForTokenAccount statusMeta accountKeys account = (some pre, some post) ∧
    Pubkey.ofText pre.mint = some vault.mint ∧ Pubkey.ofText post.mint = some vault.mint ∧
    reads pre vault.pre ∧ reads post vault.post

/-- The balances of an account that are recorded are of one mint. -/
def UiTransactionStatusMeta.RecordsMint (statusMeta : UiTransactionStatusMeta)
    (accountKeys : List Pubkey) (account mint : Pubkey) : Prop :=
  let balances := getBalancesForTokenAccount statusMeta accountKeys account
  ∀ balance, balances.1 = some balance ∨ balances.2 = some balance →
    Pubkey.ofText balance.mint = some mint

/-- Some balance of an account is recorded. -/
def UiTransactionStatusMeta.RecordsSome (statusMeta : UiTransactionStatusMeta)
    (accountKeys : List Pubkey) (account : Pubkey) : Prop :=
  let balances := getBalancesForTokenAccount statusMeta accountKeys account
  balances.1.isSome ∨ balances.2.isSome

/-- What is recorded about a trade between two vaults: the user pays into the first one and is
paid out of the second one. -/
structure UiTransactionStatusMeta.RecordsTrade (statusMeta : UiTransactionStatusMeta)
    (reads : UiTransactionTokenBalance → ℕ → Prop) (accountKeys : List Pubkey)
    (accounts : SwapAccounts) (coinToPc : Bool) (input output : Vault) : Prop where
  coin : statusMeta.RecordsVault reads accountKeys accounts.ammCoinVault
    (bif coinToPc then input else output)
  pc : statusMeta.RecordsVault reads accountKeys accounts.ammPcVault
    (bif coinToPc then output else input)
  distinct : input.mint ≠ output.mint
  source : statusMeta.RecordsMint accountKeys accounts.userSourceTokenAccount input.mint
  destination : statusMeta.RecordsMint accountKeys accounts.userDestinationTokenAccount output.mint
  present : statusMeta.RecordsSome accountKeys accounts.userSourceTokenAccount ∨
    statusMeta.RecordsSome accountKeys accounts.userDestinationTokenAccount

/-- Computed exactly, a balance is read back in the smallest units. -/
theorem UiTransactionTokenBalance.Holds.readAs {balance : UiTransactionTokenBalance} {amount : ℕ}
    (h : balance.Holds amount) : balance.ReadAs .exact amount := by
  have hpow : 10 ^ balance.uiTokenAmount.decimals.toNat < 2 ^ 32 :=
    calc 10 ^ balance.uiTokenAmount.decimals.toNat
        ≤ 10 ^ 9 := Nat.pow_le_pow_right (by decide) h.decimals_le
      _ < 2 ^ 32 := by decide
  have hexact : (amount : ℚ) / 10 ^ balance.uiTokenAmount.decimals.toNat *
      ((10 ^ balance.uiTokenAmount.decimals.toNat : ℕ) : ℚ) = amount := by
    push_cast
    exact div_mul_cancel₀ _ (by positivity)
  rw [ReadAs, calcAmount, h.uiAmount, Nat.mod_eq_of_lt hpow, Rounding.exact_mul,
    Rounding.exact_ofNat, F64.ofNat, F64.fin_mul_fin, hexact,
    F64.toU64_trunc_fin (Nat.cast_nonneg amount), Nat.floor_natCast]
  exact min_eq_left (le_maxU64_iff.mpr h.amount_lt)

section

variable {statusMeta : UiTransactionStatusMeta} {accountKeys : List Pubkey}
  {accounts : SwapAccounts} {coinToPc : Bool} {input output : Vault}

/-- Some balance of the user is found, and it has the mint of its side. -/
theorem findSome?_userAccounts
    (hsource : statusMeta.RecordsMint accountKeys accounts.userSourceTokenAccount input.mint)
    (hdestination :
      statusMeta.RecordsMint accountKeys accounts.userDestinationTokenAccount output.mint)
    (hpresent : statusMeta.RecordsSome accountKeys accounts.userSourceTokenAccount ∨
      statusMeta.RecordsSome accountKeys accounts.userDestinationTokenAccount) :
    let source := getBalancesForTokenAccount statusMeta accountKeys accounts.userSourceTokenAccount
    let destination :=
      getBalancesForTokenAccount statusMeta accountKeys accounts.userDestinationTokenAccount
    ∃ balance isInput,
      ([(source.1, true), (source.2, true), (destination.1, false),
          (destination.2, false)].findSome? fun (b, isInput) =>
        b.map fun balance => (balance, isInput)) = some (balance, isInput) ∧
      Pubkey.ofText balance.mint = some (bif isInput then input.mint else output.mint) := by
  intro source destination
  set userAccounts := [(source.1, true), (source.2, true), (destination.1, false),
    (destination.2, false)] with huser
  have hsome : (userAccounts.findSome? fun (b, isInput) =>
      b.map fun balance => (balance, isInput)).isSome := by
    rw [List.findSome?_isSome_iff]
    rcases hpresent with (h | h) | (h | h)
    · exact ⟨(source.1, true), by simp [huser], by simpa using h⟩
    · exact ⟨(source.2, true), by simp [huser], by simpa using h⟩
    · exact ⟨(destination.1, false), by simp [huser], by simpa using h⟩
    · exact ⟨(destination.2, false), by simp [huser], by simpa using h⟩
  obtain ⟨⟨balance, isInput⟩, hfound⟩ := Option.isSome_iff_exists.mp hsome
  refine ⟨balance, isInput, hfound, ?_⟩
  obtain ⟨⟨b, side⟩, hmem, hb⟩ := List.exists_of_findSome?_eq_some hfound
  obtain ⟨_, rfl, hpair⟩ := Option.map_eq_some_iff.mp hb
  obtain ⟨rfl, rfl⟩ := Prod.mk.inj hpair
  -- Whichever entry it is, its account has only one mint.
  simp only [huser, List.mem_cons, Prod.mk.injEq, List.not_mem_nil, or_false] at hmem
  rcases hmem with ⟨h, rfl⟩ | ⟨h, rfl⟩ | ⟨h, rfl⟩ | ⟨h, rfl⟩
  · exact hsource _ (.inl h.symm)
  · exact hsource _ (.inr h.symm)
  · exact hdestination _ (.inl h.symm)
  · exact hdestination _ (.inr h.symm)

/-- A record of a trade is one for every weaker reading of its balances. -/
theorem UiTransactionStatusMeta.RecordsTrade.imp
    {reads reads' : UiTransactionTokenBalance → ℕ → Prop}
    (h : statusMeta.RecordsTrade reads accountKeys accounts coinToPc input output)
    (himp : ∀ balance amount, reads balance amount → reads' balance amount) :
    statusMeta.RecordsTrade reads' accountKeys accounts coinToPc input output := by
  obtain ⟨coinPre, coinPost, hcoin, hcoinPreMint, hcoinMint, hcoinPre, hcoinPost⟩ := h.coin
  obtain ⟨pcPre, pcPost, hpc, hpcPreMint, hpcMint, hpcPre, hpcPost⟩ := h.pc
  exact
    { h with
      coin := ⟨coinPre, coinPost, hcoin, hcoinPreMint, hcoinMint, himp _ _ hcoinPre,
        himp _ _ hcoinPost⟩
      pc := ⟨pcPre, pcPost, hpc, hpcPreMint, hpcMint, himp _ _ hpcPre, himp _ _ hpcPost⟩ }

/-- The direction and the mints are as they were recorded and the amounts what the balances are
read as, whichever balances of the user are present. -/
theorem resolveRaydiumAccounts_of_recordsTrade {r : Rounding}
    (h : statusMeta.RecordsTrade (UiTransactionTokenBalance.ReadAs r) accountKeys accounts coinToPc
      input output) :
    resolveRaydiumAccounts r statusMeta accountKeys accounts.userSourceTokenAccount
        accounts.userDestinationTokenAccount accounts.ammCoinVault accounts.ammPcVault =
      .ok {
        ammCoinPre := (bif coinToPc then input else output).pre
        ammCoinPost := (bif coinToPc then input else output).post
        ammCoinMint := (bif coinToPc then input else output).mint
        ammPcPre := (bif coinToPc then output else input).pre
        ammPcPost := (bif coinToPc then output else input).post
        ammPcMint := (bif coinToPc then output else input).mint
        coinToPc := coinToPc } := by
  obtain ⟨balance, isInput, hfound, hmint⟩ :=
    findSome?_userAccounts h.source h.destination h.present
  obtain ⟨coinPre, coinPost, hcoin, -, hcoinMint, hcoinPre, hcoinPost⟩ := h.coin
  obtain ⟨pcPre, pcPost, hpc, -, hpcMint, hpcPre, hpcPost⟩ := h.pc
  rw [UiTransactionTokenBalance.ReadAs] at hcoinPre hcoinPost hpcPre hpcPost
  have hdirection : (((bif coinToPc then input else output).mint ==
      bif isInput then input.mint else output.mint) == isInput) = coinToPc := by
    have hne := h.distinct
    cases coinToPc <;> cases isInput <;> simp [hne, hne.symm]
  simp only [resolveRaydiumAccounts, hfound, hcoin, hpc, parseMint, hmint, hcoinMint, hpcMint,
    Outcome.ofOption_some, Outcome.ok_bind, Outcome.pure_eq, hcoinPre, hcoinPost, hpcPre, hpcPost,
    hdirection]

end

/-- The swap that trades one mint for another. -/
def raydiumSwap (accounts : SwapAccounts) (input output : Vault) (inputAmount outputAmount : ℕ) :
    ResolvedSwap where
  provider := .raydiumV4 (some accounts.ammAccount)
  owner := some accounts.userWalletAccount
  inputAmount := inputAmount
  outputAmount := outputAmount
  inputTokenMint := input.mint
  outputTokenMint := output.mint
  tokenDecimals := none

/-- The amount that an exact input leaves open is what the output vault has lost. -/
def swapBaseInOutcome (accounts : SwapAccounts) (input output : Vault) (amountIn : ℕ) :
    Parsed (Option ResolvedSwap) :=
  if output.post ≤ output.pre then
    .ok (some (raydiumSwap accounts input output amountIn (output.pre - output.post)))
  else .err .outputVaultIncreased

/-- The amount that an exact output leaves open is what the input vault has gained. -/
def swapBaseOutOutcome (accounts : SwapAccounts) (input output : Vault) (amountOut : ℕ) :
    Parsed (Option ResolvedSwap) :=
  if input.pre ≤ input.post then
    .ok (some (raydiumSwap accounts input output (input.post - input.pre) amountOut))
  else .err .inputVaultDecreased

/-- Both swap instructions are read with the mint of the user's source as the input, the other mint
as the output, and what happened to the vault as the amount that they leave open. -/
theorem decodeRaydiumV4_of_recordsTrade {decoders : Decoders} (hexact : decoders.rounding = .exact)
    {transaction : ITransaction} {statusMeta : UiTransactionStatusMeta} {accounts : SwapAccounts}
    {coinToPc : Bool} {input output : Vault} (instruction : CompiledInstruction)
    (hmeta : transaction.statusMeta = some statusMeta)
    (h : statusMeta.RecordsTrade UiTransactionTokenBalance.Holds transaction.accountKeys accounts
      coinToPc input output) :
    (∀ amountIn minimumAmountOut,
      decodeRaydiumV4Instruction decoders instruction transaction.accountKeys =
        .ok (.swapBaseIn amountIn minimumAmountOut accounts) →
      decodeRaydiumV4 decoders transaction instruction =
        swapBaseInOutcome accounts input output amountIn) ∧
    ∀ maxAmountIn amountOut,
      decodeRaydiumV4Instruction decoders instruction transaction.accountKeys =
        .ok (.swapBaseOut maxAmountIn amountOut accounts) →
      decodeRaydiumV4 decoders transaction instruction =
        swapBaseOutOutcome accounts input output amountOut := by
  have hresolved := resolveRaydiumAccounts_of_recordsTrade (h.imp fun _ _ => (·.readAs))
  rw [← hexact] at hresolved
  constructor
  · intro amountIn minimumAmountOut hdecoded
    simp only [decodeRaydiumV4, hdecoded, hmeta, hresolved, Outcome.ofOption_some, Outcome.ok_bind,
      swapBaseInOutcome, checkedSub]
    cases coinToPc with
    | true =>
      simp only [cond_true, if_true]
      split_ifs <;> rfl
    | false =>
      simp only [cond_false, Bool.false_eq_true, if_false]
      split_ifs <;> rfl
  · intro maxAmountIn amountOut hdecoded
    simp only [decodeRaydiumV4, hdecoded, hmeta, hresolved, Outcome.ofOption_some, Outcome.ok_bind,
      swapBaseOutOutcome, checkedSub]
    cases coinToPc with
    | true =>
      simp only [cond_true, if_true]
      split_ifs <;> rfl
    | false =>
      simp only [cond_false, Bool.false_eq_true, if_false]
      split_ifs <;> rfl

/-- A balance as a node records it. -/
def recordedBalance (r : Rounding) (accountIndex : UInt8) (mint : Pubkey) (amount : ℕ) :
    UiTransactionTokenBalance :=
  ⟨accountIndex, mint.toText, ⟨some (r.div (r.ofNat amount) (r.ofNat (10 ^ 6))), 6⟩⟩

theorem holds_recordedBalance (accountIndex : UInt8) (mint : Pubkey) {amount : ℕ}
    (h : amount < 2 ^ 64) : (recordedBalance .exact accountIndex mint amount).Holds amount := by
  refine ⟨?_, (by decide : (6 : UInt8).toNat ≤ 9), h⟩
  rw [recordedBalance, Option.getD_some, Rounding.exact_div, Rounding.exact_ofNat,
    Rounding.exact_ofNat, F64.ofNat_div_ofNat amount (by decide), Nat.cast_pow]
  rfl

/-- Neither the account nor the mint of a balance matters to what it is read as. -/
theorem readAs_recordedBalance {r : Rounding} (accountIndex : UInt8) (mint : Pubkey)
    {amount read : ℕ} (h : calcAmount r (recordedBalance r 0 0 amount) = read) :
    (recordedBalance r accountIndex mint amount).ReadAs r read := h

/-- The balances around a swap before which the user held some of the output only. -/
def recordedMeta : UiTransactionStatusMeta where
  logMessages := none
  preTokenBalances := some [recordedBalance .exact 4 USDC 500, recordedBalance .exact 5 USDT 900,
    recordedBalance .exact 15 USDC 1]
  postTokenBalances := some [recordedBalance .exact 4 USDC 460, recordedBalance .exact 5 USDT 942]

/-- The transaction of that swap. -/
def recordedSwap : ITransaction where
  instructions := []
  staticAccountKeys := (List.range 18).map fun n => BitVec.ofNat 256 n
  loadedAddresses := none
  statusMeta := some recordedMeta
  innerInstructions := none

/-- Its instruction. -/
def recordedInstruction : CompiledInstruction where
  programIdIndex := 17
  accounts := (List.range 17).map UInt8.ofNat
  data := []

/-- The accounts of that instruction. -/
def recordedAccounts : SwapAccounts :=
  ⟨0, 1, 2, 3, none, 4, 5, 6, 7, 8, 9, 10, 11, 12, 13, 14, 15, 16⟩

theorem recordsTrade_recordedMeta :
    recordedMeta.RecordsTrade UiTransactionTokenBalance.Holds recordedSwap.accountKeys
      recordedAccounts false ⟨USDT, 900, 942⟩ ⟨USDC, 500, 460⟩ := by
  refine ⟨?_, ?_, by decide, ?_, ?_, ?_⟩
  · exact ⟨_, _, rfl, Pubkey.ofText_toText USDC, Pubkey.ofText_toText USDC,
      holds_recordedBalance _ _ (by decide), holds_recordedBalance _ _ (by decide)⟩
  · exact ⟨_, _, rfl, Pubkey.ofText_toText USDT, Pubkey.ofText_toText USDT,
      holds_recordedBalance _ _ (by decide), holds_recordedBalance _ _ (by decide)⟩
  · rintro balance (h | h)
    · cases h
    · cases h
  · rintro balance (h | h)
    · obtain rfl := Option.some.inj h
      exact Pubkey.ofText_toText USDC
    · cases h
  · exact .inr (.inl rfl)

theorem decodeRaydiumV4_recordedSwap :
    decodeRaydiumV4 ⟨fun _ => none, fun _ => .ok (.swapBaseIn 42 30), .exact⟩ recordedSwap
        recordedInstruction =
      swapBaseInOutcome recordedAccounts ⟨USDT, 900, 942⟩ ⟨USDC, 500, 460⟩ 42 :=
  (decodeRaydiumV4_of_recordsTrade rfl recordedInstruction rfl recordsTrade_recordedMeta).1 42 30
    (by decide)

end Biscuit.Parser
