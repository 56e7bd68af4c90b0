import Biscuit.Core.Search
import Biscuit.Models.Chain.Keys
import Mathlib.Data.Int.ConditionallyCompleteOrder
import Mathlib.Data.List.Infix
import Mathlib.Data.List.TakeWhile
import Mathlib.Order.WithBot

/-!
# Searching signatures

`get_signatures_for_address` asks for page after page of the signatures of an address, newest
first, until a page is empty, enough signatures are collected, or the last entry of a page is
older than a block time. The part of that last page to keep is found by a binary search.
-/

namespace Biscuit.Wire

/-- A signature of an address with the time of its block, if that is known. -/
structure SignatureEntry where
  signature : Signature
  blockTime : Option ℤ
  deriving DecidableEq, Repr

/-- How the results are ordered. -/
inductive TransactionHistoryOrder
  | forward
  | backward
  deriving DecidableEq, Repr

/-- A limit of a search. -/
inductive TransactionHistoryLimit
  | blocktime (ts : ℤ)
  | n (count : ℕ)
  deriving DecidableEq, Repr

/-- Why a search ends. -/
inductive TerminationReason
  | blockTime
  | n
  | untilSig
  deriving DecidableEq, Repr

namespace SignatureEntry

/-- The block time in its order: an unknown time is less than any other. -/
def time (e : SignatureEntry) : WithBot ℤ := e.blockTime

/-- `block_time >= Some(ts)` -/
def isSince (ts : ℤ) (e : SignatureEntry) : Bool := e.blockTime.any fun t => decide (ts ≤ t)

/-- What the binary search tests: an unknown time does not pass. -/
def isBefore (ts : ℤ) (e : SignatureEntry) : Bool := e.blockTime.any fun t => decide (t < ts)

end SignatureEntry

/-- The signatures of an address on the chain, from newest to oldest. -/
structure SignatureHistory where
  entries : List SignatureEntry
  nodup : (entries.map SignatureEntry.signature).Nodup
  sorted : entries.Pairwise fun newer older => older.time ≤ newer.time

namespace SignatureHistory

variable (h : SignatureHistory)

/-- The position of a signature; one that is not on the chain comes after all others. -/
def position (signature : Signature) : ℕ :=
  (h.entries.map SignatureEntry.signature).idxOf signature

/-- The first position after `before`. -/
def start (before : Option Signature) : ℕ := (before.map fun s => h.position s + 1).getD 0

/-- The position of `until`, or the end. -/
def stop (until' : Option Signature) : ℕ := (until'.map h.position).getD h.entries.length

/-- The entries strictly between `until` and `before`. -/
def between (before until' : Option Signature) : List SignatureEntry :=
  (h.entries.take (h.stop until')).drop (h.start before)

end SignatureHistory

/-- A client of an RPC node that has the history: a page is a first part of the entries that
are asked for, of at most the limit, and empty only if they are. -/
structure SignatureClient (h : SignatureHistory) where
  page : Option Signature → Option Signature → Option ℕ → List SignatureEntry
  page_isPrefix : ∀ before until' limit, page before until' limit <+: h.between before until'
  page_length : ∀ before until' limit,
    (page before until' limit).length ≤ min (limit.getD 1000) 1000
  page_ne_nil : ∀ before until' limit, h.between before until' ≠ [] → limit ≠ some 0 →
    page before until' limit ≠ []

/-- A client whose pages are as long as they may be. -/
def SignatureHistory.fullPages (h : SignatureHistory) : SignatureClient h where
  page before until' limit := (h.between before until').take (min (limit.getD 1000) 1000)
  page_isPrefix _ _ _ := List.take_prefix _ _
  page_length _ _ _ := List.length_take_le _ _
  page_ne_nil before until' limit hrange hlimit := by
    rw [ne_eq, List.take_eq_nil_iff, not_or]
    refine ⟨?_, hrange⟩
    cases limit with
    | none => simp
    | some n =>
      simp only [Option.getD_some, ne_eq, Option.some.injEq] at hlimit ⊢
      omega

variable {h : SignatureHistory}

/-- The limits of a search; the last one of each kind counts. -/
def searchLimits (limits : List TransactionHistoryLimit) : Option ℕ × Option ℤ :=
  limits.foldl (fun found limit =>
    match limit with
    | .blocktime ts => (found.1, some ts)
    | .n count => (some count, found.2)) (none, none)

/-- The loop of the search; no answer means that the fuel runs out. -/
def searchLoop (client : SignatureClient h) (until' : Option Signature)
    (blocktimeLimit : Option ℤ) :
    ℕ → Option Signature → Option ℕ → List SignatureEntry →
      Option (List SignatureEntry × TerminationReason)
  | 0, _, _, _ => none
  | fuel + 1, before, limit, signatures =>
    if limit = some 0 then some (signatures, .n)
    else if before = until' ∧ before.isSome then some (signatures, .untilSig)
    else
      let results := client.page before until' (limit.map (min · 1000))
      match results.getLast? with
      | none => some (signatures, .untilSig)
      | some earliest =>
        match blocktimeLimit.filter fun ts => !earliest.isSince ts with
        | some ts =>
          let targetIdx := partitionPoint (SignatureEntry.isBefore ts) results
          some (signatures ++ results.drop targetIdx, .blockTime)
        | none =>
          searchLoop client until' blocktimeLimit fuel (some earliest.signature)
            (limit.map (· - results.length)) (signatures ++ results)

/-- Results in the order that is asked for. -/
def ordered (order : Option TransactionHistoryOrder) (signatures : List SignatureEntry) :
    List SignatureEntry :=
  match order.getD .backward with
  | .backward => signatures
  | .forward => signatures.reverse

/-- `get_signatures_for_address` -/
def getSignaturesForAddress (client : SignatureClient h) (fuel : ℕ)
    (before until' : Option Signature) (limits : List TransactionHistoryLimit)
    (order : Option TransactionHistoryOrder) :
    Option (List SignatureEntry × TerminationReason) :=
  let (limit, blocktimeLimit) := searchLimits limits
  (searchLoop client until' blocktimeLimit fuel before limit []).map fun (signatures, reason) =>
    (ordered order signatures, reason)

/-! ## What a search is for -/

/-- The longest run from the newest entry on that is not older than the block time. -/
def runSince (blocktimeLimit : Option ℤ) (entries : List SignatureEntry) : List SignatureEntry :=
  match blocktimeLimit with
  | none => entries
  | some ts => entries.takeWhile (SignatureEntry.isSince ts)

/-- A run is cut to a number of entries. -/
def cutTo (limit : Option ℕ) (entries : List SignatureEntry) : List SignatureEntry :=
  match limit with
  | none => entries
  | some n => entries.take n

/-- What a search is to answer. -/
def SignatureHistory.search (h : SignatureHistory) (before until' : Option Signature)
    (limits : List TransactionHistoryLimit) (order : Option TransactionHistoryOrder) :
    List SignatureEntry :=
  ordered order (cutTo (searchLimits limits).1
    (runSince (searchLimits limits).2 (h.between before until')))

end Biscuit.Wire
