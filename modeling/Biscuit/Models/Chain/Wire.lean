import Biscuit.Models.Chain.Keys

/-!
# Transactions on the wire

What the sending service keeps of a transaction it has sent, and what it answers once the
transaction is confirmed or has expired.
-/

namespace Biscuit

/-- The unique id of one sent transaction. -/
abbrev TransactionId := ℕ

/-- The id of one subscriber to confirmations. -/
abbrev TransactionSourceId := ℕ

/-- Why a transaction failed on chain; one reason is told apart from the others. -/
inductive TransactionError
  /-- The cluster has already processed this transaction. -/
  | alreadyProcessed
  /-- Any other reason, by its code. -/
  | other (code : ℕ)
  deriving DecidableEq, Repr

/-- A transaction handed to the sending service. -/
structure SendTransactionData where
  signature : Signature
  lastValidBlockHeight : ℕ
  txnId : TransactionId
  sourceId : TransactionSourceId
  sendToJito : Bool
  deriving DecidableEq, Repr

/-- Why a transaction was not confirmed. -/
inductive NotConfirmedReason
  | expired
  | timedOut
  | rpcError (message : String)
  deriving DecidableEq, Repr

/-- The fate of a sent transaction. -/
inductive ConfirmTransactionResponse
  /-- It landed, with an error or without one. -/
  | confirmed (error : Option TransactionError) (confirmationSlot : ℕ)
  /-- It is taken not to have landed. -/
  | unconfirmed (reason : NotConfirmedReason)
  deriving DecidableEq, Repr

/-- An answer to the sender of a transaction. -/
structure ConfirmTransactionData where
  data : SendTransactionData
  response : ConfirmTransactionResponse
  deriving DecidableEq, Repr

/-- How far the cluster has got with what is asked for. -/
inductive CommitmentLevel
  | processed
  | confirmed
  | finalized
  deriving DecidableEq, Repr

/-- A request to stream the transactions of an account. -/
structure PollRequest where
  address : Pubkey
  commitment : Option CommitmentLevel
  /-- In seconds. -/
  pollTransactionsFrequency : Option ℕ
  ignoreErrorTransactions : Bool
  recentSignature : Option Signature
  orderByEarliest : Option Bool
  deriving DecidableEq, Repr

end Biscuit
