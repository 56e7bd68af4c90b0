import Biscuit.Models.Chain.Keys
import Mathlib.Logic.Function.Basic
import Mathlib.Tactic.Common

/-!
# Programs of the chain

What a transaction does with the accounts of the chain. A token account holds lamports like every
other account; one of wrapped SOL counts what it holds above its rent as its tokens. The programs
are no part of this repository: a runtime stands for them, and its laws are what is relied on.
-/

namespace Biscuit.Chain

/-- `TokenkegQfeZyiNwAJbNbGKPFXCWuBvf9Ss623VQ5DA` -/
def splTokenId : Pubkey :=
  0x06ddf6e1d765a193d9cbe146ceeb79ac1cb485ed5f5b37913a8cf5857eff00a9#256

/-- An instruction, by the function of the SDK that makes it. -/
inductive ChainInstruction (σ : Type)
  | setComputeUnitPrice (microLamports : ℕ)
  | setComputeUnitLimit (units : ℕ)
  | transfer (sender recipient : Pubkey) (lamports : ℕ)
  | createAssociatedTokenAccountIdempotent (funder wallet mint tokenProgram : Pubkey)
  | syncNative (tokenProgram account : Pubkey)
  | closeAccount (tokenProgram account destination owner : Pubkey)
  | other (instruction : σ)
  deriving DecidableEq, Repr

/-! ## Accounts -/

/-- A token account. -/
structure TokenAccount where
  program : Pubkey
  mint : Pubkey
  owner : Pubkey
  amount : ℕ
  deriving DecidableEq, Repr

/-- The lamports of all accounts, and the token accounts among them. -/
structure Bank where
  lamports : Pubkey → ℕ
  tokens : Pubkey → Option TokenAccount

namespace Bank

/-- A token account is put at an address, or taken away from it. -/
def setToken (bank : Bank) (address : Pubkey) (account : Option TokenAccount) : Bank :=
  { bank with tokens := Function.update bank.tokens address account }

@[simp] theorem lamports_setToken (bank : Bank) (address : Pubkey)
    (account : Option TokenAccount) : (bank.setToken address account).lamports = bank.lamports :=
  rfl

@[simp] theorem tokens_setToken_self (bank : Bank) (address : Pubkey)
    (account : Option TokenAccount) : (bank.setToken address account).tokens address = account :=
  Function.update_self ..

theorem tokens_setToken_of_ne (bank : Bank) {address other : Pubkey}
    (account : Option TokenAccount) (h : other ≠ address) :
    (bank.setToken address account).tokens other = bank.tokens other :=
  Function.update_of_ne h ..

/-- The address is a token account of a wallet for a mint. -/
def HasAccount (bank : Bank) (address wallet mint program : Pubkey) : Prop :=
  ∃ amount, bank.tokens address = some ⟨program, mint, wallet, amount⟩

/-- Lamports went from one account to another, and nothing else happened. -/
structure Paid (bank bank' : Bank) (sender recipient : Pubkey) (n : ℕ) : Prop where
  tokens : bank'.tokens = bank.tokens
  lamports : ∀ key, bank'.lamports key + (if key = sender then n else 0) =
    bank.lamports key + if key = recipient then n else 0

theorem Paid.lamports_of_ne {bank bank' : Bank} {sender recipient key : Pubkey} {n : ℕ}
    (h : bank.Paid bank' sender recipient n) (hsender : key ≠ sender)
    (hrecipient : key ≠ recipient) : bank'.lamports key = bank.lamports key := by
  have hkey := h.lamports key
  rwa [if_neg hsender, if_neg hrecipient, Nat.add_zero, Nat.add_zero] at hkey

end Bank

/-! ## The runtime -/

/-- The chain: the addresses of associated accounts, the rent of an account of each mint, and what
an instruction does, if it does not fail. -/
structure Runtime (σ : Type) where
  associated : (wallet mint tokenProgram : Pubkey) → Pubkey
  rent : (mint : Pubkey) → ℕ
  execute : Bank → ChainInstruction σ → Option Bank

variable {σ : Type}

/-- The account for the wrapped SOL of a wallet. -/
def Runtime.nativeAccount (runtime : Runtime σ) (wallet : Pubkey) : Pubkey :=
  runtime.associated wallet SOL splTokenId

/-- A token account at the address holds the rent of its mint. -/
def Runtime.RentPaid (runtime : Runtime σ) (bank : Bank) (address mint : Pubkey) : Prop :=
  (bank.tokens address).isSome → runtime.rent mint ≤ bank.lamports address

/-- What the programs promise for the instructions that are made here. -/
structure Runtime.Lawful (runtime : Runtime σ) : Prop where
  setComputeUnitPrice : ∀ {bank bank' n},
    runtime.execute bank (.setComputeUnitPrice n) = some bank' → bank' = bank
  setComputeUnitLimit : ∀ {bank bank' n},
    runtime.execute bank (.setComputeUnitLimit n) = some bank' → bank' = bank
  transfer : ∀ {bank bank' sender recipient n},
    runtime.execute bank (.transfer sender recipient n) = some bank' →
      bank.Paid bank' sender recipient n
  /-- An account that is there is only checked; otherwise the funder pays what its rent lacks. -/
  create : ∀ {bank bank' funder wallet mint program},
    runtime.execute bank (.createAssociatedTokenAccountIdempotent funder wallet mint program) =
      some bank' →
      let address := runtime.associated wallet mint program
      bank'.HasAccount address wallet mint program ∧
        ((bank.tokens address).isSome ∧ bank' = bank ∨
          bank.tokens address = none ∧ ∃ paid account,
            bank.Paid paid funder address (runtime.rent mint - bank.lamports address) ∧
              bank' = paid.setToken address (some account))
  /-- The tokens become what the account holds above its rent. -/
  syncNative : ∀ {bank bank' program address},
    runtime.execute bank (.syncNative program address) = some bank' →
      ∃ account, bank.tokens address = some account ∧ bank' = bank.setToken address
        (some { account with amount := bank.lamports address - runtime.rent SOL })
  /-- All lamports of the account go to the destination. -/
  closeAccount : ∀ {bank bank' program address destination owner},
    runtime.execute bank (.closeAccount program address destination owner) = some bank' →
      ∃ paid, bank.Paid paid address destination (bank.lamports address) ∧
        bank' = paid.setToken address none

/-- A transaction: all its instructions, or none of them. -/
def Runtime.run (runtime : Runtime σ) (bank : Bank) (instructions : List (ChainInstruction σ)) :
    Option Bank :=
  instructions.foldlM runtime.execute bank

@[simp] theorem Runtime.run_nil (runtime : Runtime σ) (bank : Bank) :
    runtime.run bank [] = some bank := rfl

theorem Runtime.run_cons_eq_some {runtime : Runtime σ} {bank bank' : Bank}
    {i : ChainInstruction σ} {instructions : List (ChainInstruction σ)} :
    runtime.run bank (i :: instructions) = some bank' ↔
      ∃ next, runtime.execute bank i = some next ∧ runtime.run next instructions = some bank' :=
  Option.bind_eq_some_iff

theorem Runtime.run_singleton (runtime : Runtime σ) (bank : Bank) (i : ChainInstruction σ) :
    runtime.run bank [i] = runtime.execute bank i := by
  simp [Runtime.run]

/-- A transaction goes through a state between two parts of it. -/
theorem Runtime.run_append_eq_some {runtime : Runtime σ} {bank bank' : Bank}
    {instructions more : List (ChainInstruction σ)} :
    runtime.run bank (instructions ++ more) = some bank' ↔
      ∃ middle, runtime.run bank instructions = some middle ∧
        runtime.run middle more = some bank' := by
  rw [Runtime.run, List.foldlM_append]
  exact Option.bind_eq_some_iff

/-! ## What an instruction changes -/

/-- A change that leaves so many lamports less on two accounts together, and touches no accounts
but these. -/
structure Effect (user native : Pubkey) (cost : ℕ) (touched : List Pubkey) (bank bank' : Bank) :
    Prop where
  lamports : bank'.lamports user + bank'.lamports native + cost =
    bank.lamports user + bank.lamports native
  agrees : ∀ key, key ∉ touched →
    bank'.lamports key = bank.lamports key ∧ bank'.tokens key = bank.tokens key

namespace Effect

variable {user native : Pubkey} {cost cost' : ℕ} {touched touched' : List Pubkey}
  {bank middle bank' : Bank}

theorem refl (user native : Pubkey) (bank : Bank) : Effect user native 0 [] bank bank :=
  ⟨rfl, fun _ _ => ⟨rfl, rfl⟩⟩

theorem trans (h : Effect user native cost touched bank middle)
    (h' : Effect user native cost' touched' middle bank') :
    Effect user native (cost + cost') (touched ++ touched') bank bank' := by
  refine ⟨?_, fun key hkey => ?_⟩
  · have := h.lamports
    have := h'.lamports
    omega
  · rw [List.mem_append, not_or] at hkey
    obtain ⟨hlamports, htokens⟩ := h.agrees key hkey.1
    obtain ⟨hlamports', htokens'⟩ := h'.agrees key hkey.2
    exact ⟨hlamports'.trans hlamports, htokens'.trans htokens⟩

theorem mono (h : Effect user native cost touched bank bank') (hsubset : touched ⊆ touched') :
    Effect user native cost touched' bank bank' :=
  ⟨h.lamports, fun key hkey => h.agrees key fun hmem => hkey (hsubset hmem)⟩

/-- Lamports from one of the two accounts to the other. -/
theorem of_paid_within {sender recipient : Pubkey} {n : ℕ} (hne : native ≠ user)
    (hends : sender = user ∧ recipient = native ∨ sender = native ∧ recipient = user)
    (h : bank.Paid bank' sender recipient n) : Effect user native 0 [user, native] bank bank' := by
  have huser := h.lamports user
  have hnative := h.lamports native
  refine ⟨?_, fun key hkey => ⟨?_, congrFun h.tokens key⟩⟩
  · obtain ⟨rfl, rfl⟩ | ⟨rfl, rfl⟩ := hends
    · rw [if_pos rfl, if_neg hne.symm] at huser
      rw [if_pos rfl, if_neg hne] at hnative
      omega
    · rw [if_pos rfl, if_neg hne.symm] at huser
      rw [if_pos rfl, if_neg hne] at hnative
      omega
  · simp only [List.mem_cons, List.not_mem_nil, or_false, not_or] at hkey
    obtain ⟨rfl, rfl⟩ | ⟨rfl, rfl⟩ := hends
    · exact h.lamports_of_ne hkey.1 hkey.2
    · exact h.lamports_of_ne hkey.2 hkey.1

/-- Lamports from the first account to a third one. -/
theorem of_paid_out {recipient : Pubkey} {n : ℕ} (hne : native ≠ user)
    (hrecipient : recipient ∉ [user, native]) (h : bank.Paid bank' user recipient n) :
    Effect user native n [user, recipient] bank bank' := by
  simp only [List.mem_cons, List.not_mem_nil, or_false, not_or] at hrecipient
  refine ⟨?_, fun key hkey => ⟨?_, congrFun h.tokens key⟩⟩
  · have hpaid := h.lamports user
    have hkept := h.lamports_of_ne hne (Ne.symm hrecipient.2)
    rw [if_pos rfl, if_neg (Ne.symm hrecipient.1)] at hpaid
    omega
  · simp only [List.mem_cons, List.not_mem_nil, or_false, not_or] at hkey
    exact h.lamports_of_ne hkey.1 hkey.2

/-- Only a token account changes. -/
theorem of_setToken (user native address : Pubkey) (bank : Bank) (account : Option TokenAccount) :
    Effect user native 0 [address] bank (bank.setToken address account) := by
  refine ⟨by simp, fun key hkey => ⟨rfl, ?_⟩⟩
  apply Bank.tokens_setToken_of_ne
  exact fun heq => hkey (List.mem_singleton.mpr heq)

end Effect

/-! ## A runtime that keeps the laws -/

namespace Bank

/-- Lamports go from one account to another. -/
def pay (bank : Bank) (sender recipient : Pubkey) (n : ℕ) : Option Bank :=
  if n ≤ bank.lamports sender then
    let left := Function.update bank.lamports sender (bank.lamports sender - n)
    some { bank with lamports := Function.update left recipient (left recipient + n) }
  else none

theorem paid_of_pay {bank bank' : Bank} {sender recipient : Pubkey} {n : ℕ}
    (h : bank.pay sender recipient n = some bank') : bank.Paid bank' sender recipient n := by
  unfold pay at h
  split at h
  · rename_i hle
    obtain rfl := Option.some.inj h
    refine ⟨rfl, fun key => ?_⟩
    by_cases hrecipient : key = recipient
    · subst hrecipient
      by_cases hsender : key = sender
      · subst hsender
        simp only [Function.update_self, if_true]
        omega
      · simp only [Function.update_self, Function.update_of_ne hsender, if_neg hsender, if_true]
        omega
    · by_cases hsender : key = sender
      · subst hsender
        simp only [Function.update_of_ne hrecipient, Function.update_self, if_true,
          if_neg hrecipient]
        omega
      · simp only [Function.update_of_ne hrecipient, Function.update_of_ne hsender,
          if_neg hrecipient, if_neg hsender]
  · cases h

end Bank

/-- The programs as they are documented, beside other ones. -/
def Runtime.documented (associated : (wallet mint tokenProgram : Pubkey) → Pubkey)
    (rent : (mint : Pubkey) → ℕ) (other : σ → Bank → Option Bank) : Runtime σ where
  associated := associated
  rent := rent
  execute bank
    | .setComputeUnitPrice _ => some bank
    | .setComputeUnitLimit _ => some bank
    | .transfer sender recipient n => bank.pay sender recipient n
    | .createAssociatedTokenAccountIdempotent funder wallet mint program =>
      let address := associated wallet mint program
      match bank.tokens address with
      | some account =>
        if account = ⟨program, mint, wallet, account.amount⟩ then some bank else none
      | none => do
        let bank ← bank.pay funder address (rent mint - bank.lamports address)
        let amount := if mint = SOL then bank.lamports address - rent mint else 0
        pure (bank.setToken address (some ⟨program, mint, wallet, amount⟩))
    | .syncNative program address => do
      let account ← bank.tokens address
      if account.program = program ∧ account.mint = SOL then
        pure (bank.setToken address
          (some { account with amount := bank.lamports address - rent SOL }))
      else none
    | .closeAccount program address destination owner => do
      let account ← bank.tokens address
      if account.program = program ∧ account.owner = owner ∧ address ≠ destination ∧
          (account.mint = SOL ∨ account.amount = 0) then
        let bank ← bank.pay address destination (bank.lamports address)
        pure (bank.setToken address none)
      else none
    | .other instruction => other instruction bank

/-- What the programs document satisfies the laws. -/
theorem Runtime.documented_lawful (associated : (wallet mint tokenProgram : Pubkey) → Pubkey)
    (rent : (mint : Pubkey) → ℕ) (other : σ → Bank → Option Bank) :
    (Runtime.documented associated rent other).Lawful where
  setComputeUnitPrice h := (Option.some.inj h).symm
  setComputeUnitLimit h := (Option.some.inj h).symm
  transfer h := Bank.paid_of_pay h
  create := by
    intro bank bank' funder wallet mint program h
    simp only [documented] at h ⊢
    split at h
    · rename_i account haccount
      split at h
      · rename_i hbelongs
        obtain rfl := Option.some.inj h
        exact ⟨⟨account.amount, by rw [haccount, ← hbelongs]⟩,
          Or.inl ⟨by rw [haccount]; rfl, rfl⟩⟩
      · cases h
    · rename_i hnone
      obtain ⟨paid, hpaid, hset⟩ := Option.bind_eq_some_iff.mp h
      obtain rfl := Option.some.inj hset
      exact ⟨⟨_, Bank.tokens_setToken_self ..⟩,
        Or.inr ⟨hnone, paid, _, Bank.paid_of_pay hpaid, rfl⟩⟩
  syncNative := by
    intro bank bank' program address h
    obtain ⟨account, haccount, hset⟩ := Option.bind_eq_some_iff.mp h
    split at hset
    · exact ⟨account, haccount, (Option.some.inj hset).symm⟩
    · cases hset
  closeAccount := by
    intro bank bank' program address destination owner h
    obtain ⟨account, -, hclosed⟩ := Option.bind_eq_some_iff.mp h
    split at hclosed
    · obtain ⟨paid, hpaid, hset⟩ := Option.bind_eq_some_iff.mp hclosed
      exact ⟨paid, Bank.paid_of_pay hpaid, (Option.some.inj hset).symm⟩
    · cases hclosed

end Biscuit.Chain
