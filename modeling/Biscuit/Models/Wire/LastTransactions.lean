import Biscuit.Models.Chain.Keys
import Mathlib.Data.List.Infix

/-!
# The last transactions of a wallet

`get_last_n_historical_transactions` asks for the signatures of a wallet page by page, behind a
cursor that moves to the last signature it has kept, until it has asked for as many as it was
told to. The transactions are then fetched one after the other.
-/

namespace Biscuit.Wire

/-- `RpcConfirmedTransactionStatusWithSignature` as far as it is read. -/
structure ConfirmedSignature where
  signature : Signature
  slot : ℕ
  /-- `err` is set. -/
  failed : Bool
  deriving DecidableEq, Repr

/-- The transactions of a wallet, newest first, and for every signature how many of them are not
older than it. -/
structure WalletHistory where
  entries : List ConfirmedSignature
  rank : Signature → ℕ
  rank_entry : ∀ i (e : ConfirmedSignature), entries[i]? = some e → rank e.signature = i + 1

/-- The transactions that are strictly older than a signature. -/
def WalletHistory.olderThan (h : WalletHistory) (before : Option Signature) :
    List ConfirmedSignature :=
  h.entries.drop ((before.map h.rank).getD 0)

/-- What a node answers to each request; a failure is no answer. -/
structure HistoryClient (h : WalletHistory) where
  getSignaturesForAddress : ℕ → Option Signature → ℕ → Option (List ConfirmedSignature)
  isPrefix : ∀ request before limit page, getSignaturesForAddress request before limit = some page →
    page <+: h.olderThan before
  length_le : ∀ request before limit page,
    getSignaturesForAddress request before limit = some page → page.length ≤ limit

/-- No request fails, and every answer is as long as it may be. -/
def HistoryClient.IsReliable {h : WalletHistory} (client : HistoryClient h) : Prop :=
  ∀ request before limit,
    client.getSignaturesForAddress request before limit = some ((h.olderThan before).take limit)

/-- A transaction that is kept. -/
def ConfirmedSignature.isEligible (ignoreErrorTransactions : Bool) (sig : ConfirmedSignature) :
    Bool :=
  !(ignoreErrorTransactions && sig.failed)

variable {h : WalletHistory}

/-- The requests for the latest signature; the later ones are sent also after an answer. -/
def initialSignature (client : HistoryClient h) (maxInitialSignatureRetries : ℕ) :
    Option Signature :=
  (List.range maxInitialSignatureRetries).foldl (fun recentSignature i =>
    match client.getSignaturesForAddress i none 1 with
    | some signatures => (signatures.head?.map (·.signature)).or recentSignature
    | none => recentSignature) none

/-- The entries of a page that are kept, none if the request failed. -/
def HistoryClient.results (client : HistoryClient h) (ignoreErrorTransactions : Bool)
    (request : ℕ) (lastSignature : Signature) (signaturesToQuery : ℕ) : List ConfirmedSignature :=
  match client.getSignaturesForAddress request (some lastSignature) signaturesToQuery with
  | some signatures => signatures.filter (·.isEligible ignoreErrorTransactions)
  | none => []

/-- The loop over pages; no answer means that the fuel runs out. -/
def pageLoop (client : HistoryClient h) (ignoreErrorTransactions : Bool) (exitSignal : ℕ → Bool) :
    ℕ → ℕ → ℕ → Signature → List ConfirmedSignature → Option (List ConfirmedSignature)
  | 0, _, _, _, _ => none
  | fuel + 1, request, signaturesLeft, lastSignature, signatures =>
    if 0 < signaturesLeft ∧ exitSignal request = false then
      let signaturesToQuery := min signaturesLeft 1000
      let results := client.results ignoreErrorTransactions request lastSignature signaturesToQuery
      pageLoop client ignoreErrorTransactions exitSignal fuel (request + 1)
        (signaturesLeft - signaturesToQuery)
        ((results.getLast?.map (·.signature)).getD lastSignature) (signatures ++ results)
    else some signatures

/-- `Failed to get initial signature for wallet={},retries={}` -/
structure InitialSignatureError where
  wallet : Pubkey
  retries : ℕ
  deriving DecidableEq, Repr

/-- `get_last_n_historical_transactions`; a transaction that cannot be fetched is left out. -/
def getLastNHistoricalTransactions {τ : Type} (client : HistoryClient h)
    (getTransaction : Signature → Option τ) (exitSignal : ℕ → Bool) (fuel : ℕ) (wallet : Pubkey)
    (recentSignature : Option Signature) (n : ℕ) (orderByEarliest : Option Bool)
    (maxInitialSignatureRetries : ℕ) (ignoreErrorTransactions : Bool) :
    Option (Except InitialSignatureError (List τ)) :=
  match recentSignature.or (initialSignature client maxInitialSignatureRetries) with
  | none => some (.error ⟨wallet, maxInitialSignatureRetries⟩)
  | some recentSignature => do
    let signatures ← pageLoop client ignoreErrorTransactions exitSignal fuel
      maxInitialSignatureRetries n recentSignature []
    let sigIterator := if orderByEarliest.getD true then signatures else signatures.reverse
    pure (.ok (sigIterator.filterMap fun sig => getTransaction sig.signature))

/-! ## What lies behind a cursor -/

section

/-- The kept transactions that are strictly older than a signature. -/
def WalletHistory.eligible (h : WalletHistory) (ignoreErrorTransactions : Bool)
    (before : Signature) : List ConfirmedSignature :=
  (h.olderThan (some before)).filter (·.isEligible ignoreErrorTransactions)

/-- Behind an entry that is older than a signature the entries after it follow. -/
theorem WalletHistory.olderThan_entry {before : Option Signature}
    {newer older : List ConfirmedSignature} {e : ConfirmedSignature}
    (he : h.olderThan before = newer ++ e :: older) :
    h.olderThan (some e.signature) = older := by
  have hget : h.entries[(before.map h.rank).getD 0 + newer.length]? = some e := by
    rw [← List.getElem?_drop, ← olderThan, he]
    simp
  have hlength : (newer ++ [e]).length = newer.length + 1 := List.length_append
  rw [olderThan, Option.map_some, Option.getD_some, h.rank_entry _ e hget, Nat.add_assoc,
    ← List.drop_drop, ← olderThan, he, List.append_cons, List.drop_left' hlength]

/-- The last kept entry of a page splits it. -/
theorem exists_of_getLast?_filter {α : Type} {p : α → Bool} {page : List α} {e : α}
    (h : (page.filter p).getLast? = some e) :
    ∃ front back, page = front ++ e :: back ∧ page.filter p = front.filter p ++ [e] ∧
      back.filter p = [] := by
  obtain ⟨init, hinit⟩ := List.getLast?_eq_some_iff.mp h
  obtain ⟨front, rest, rfl, hfront, hrest⟩ := List.filter_eq_append_iff.mp hinit
  obtain ⟨skipped, back, rfl, hskipped, he, hback⟩ := List.filter_eq_cons_iff.mp hrest
  have hnone : skipped.filter p = [] := List.filter_eq_nil_iff.mpr hskipped
  refine ⟨front ++ skipped, back, by simp, ?_, hback⟩
  rw [hinit, List.filter_append, hfront, hnone, List.append_nil]

/-- What a request keeps is followed by what lies behind the cursor that it leaves. -/
theorem HistoryClient.results_append_eligible (client : HistoryClient h)
    (ignoreErrorTransactions : Bool) (request : ℕ) (lastSignature : Signature)
    (signaturesToQuery : ℕ) :
    client.results ignoreErrorTransactions request lastSignature signaturesToQuery ++
      h.eligible ignoreErrorTransactions
        (((client.results ignoreErrorTransactions request lastSignature
          signaturesToQuery).getLast?.map (·.signature)).getD lastSignature) =
      h.eligible ignoreErrorTransactions lastSignature := by
  rw [results]
  cases hpage : client.getSignaturesForAddress request (some lastSignature) signaturesToQuery with
  | none => rfl
  | some page =>
    obtain ⟨rest, hrest⟩ := client.isPrefix _ _ _ _ hpage
    simp only
    cases hlast : (page.filter (·.isEligible ignoreErrorTransactions)).getLast? with
    | none => rw [List.getLast?_eq_none_iff.mp hlast]; rfl
    | some e =>
      obtain ⟨front, back, rfl, hfilter, hback⟩ := exists_of_getLast?_filter hlast
      have hsplit : h.olderThan (some lastSignature) = front ++ e :: (back ++ rest) := by
        rw [← hrest, List.append_assoc, List.cons_append]
      rw [Option.map_some, Option.getD_some, WalletHistory.eligible,
        WalletHistory.olderThan_entry hsplit, WalletHistory.eligible, List.filter_append back rest,
        hback, List.nil_append, ← hrest, List.filter_append (front ++ e :: back) rest]

theorem HistoryClient.length_results_le (client : HistoryClient h) (ignoreErrorTransactions : Bool)
    (request : ℕ) (lastSignature : Signature) (signaturesToQuery : ℕ) :
    (client.results ignoreErrorTransactions request lastSignature signaturesToQuery).length ≤
      signaturesToQuery := by
  rw [results]
  cases hpage : client.getSignaturesForAddress request (some lastSignature) signaturesToQuery with
  | none => exact Nat.zero_le _
  | some page => exact List.length_filter_le _ _ |>.trans (client.length_le _ _ _ _ hpage)

/-- The history has no signature twice. -/
theorem WalletHistory.nodup (h : WalletHistory) : (h.entries.map (·.signature)).Nodup := by
  have hranks : (h.entries.map (·.signature)).map h.rank = List.range' 1 h.entries.length := by
    apply List.ext_getElem
    · simp
    · intro i hi _
      have hlt : i < h.entries.length := by simpa using hi
      rw [List.getElem_map, List.getElem_map, List.getElem_range',
        h.rank_entry i _ (List.getElem?_eq_getElem hlt)]
      omega
  exact List.Nodup.of_map h.rank (hranks ▸ List.nodup_range')

/-- The loop ends with what it had, and a first part of what lies behind its cursor. -/
theorem pageLoop_eq_some (client : HistoryClient h) (ignoreErrorTransactions : Bool)
    (exitSignal : ℕ → Bool) {fuel signaturesLeft : ℕ} (hfuel : signaturesLeft < fuel)
    (request : ℕ) (lastSignature : Signature) (signatures : List ConfirmedSignature) :
    ∃ more, pageLoop client ignoreErrorTransactions exitSignal fuel request signaturesLeft
        lastSignature signatures = some (signatures ++ more) ∧
      more <+: h.eligible ignoreErrorTransactions lastSignature ∧
      more.length ≤ signaturesLeft := by
  induction fuel generalizing signaturesLeft request lastSignature signatures with
  | zero => exact (Nat.not_lt_zero _ hfuel).elim
  | succ fuel ih =>
    rw [pageLoop]
    by_cases hgo : 0 < signaturesLeft ∧ exitSignal request = false
    · have hless : signaturesLeft - min signaturesLeft 1000 < fuel := by omega
      have hlength := client.length_results_le ignoreErrorTransactions request lastSignature
        (min signaturesLeft 1000)
      have hbehind := client.results_append_eligible ignoreErrorTransactions request lastSignature
        (min signaturesLeft 1000)
      simp only [if_pos hgo]
      set results := client.results ignoreErrorTransactions request lastSignature
        (min signaturesLeft 1000)
      obtain ⟨more, hloop, hmore, hmorelength⟩ := ih hless (request + 1)
        ((results.getLast?.map (·.signature)).getD lastSignature) (signatures ++ results)
      refine ⟨results ++ more, ?_, ?_, ?_⟩
      · rw [hloop, List.append_assoc]
      · rw [← hbehind]
        exact (List.prefix_append_right_inj results).mpr hmore
      · rw [List.length_append]
        omega
    · rw [if_neg hgo]
      exact ⟨[], by rw [List.append_nil], List.nil_prefix, Nat.zero_le _⟩

theorem WalletHistory.nodup_eligible (h : WalletHistory) (ignoreErrorTransactions : Bool)
    (before : Signature) :
    ((h.eligible ignoreErrorTransactions before).map (·.signature)).Nodup :=
  h.nodup.sublist ((List.filter_sublist.trans (List.drop_sublist _ _)).map _)

/-- The loop over pages ends, and the signatures it collects are the newest kept ones that are
older than the recent signature, without a gap and without repetition. -/
theorem pageLoop_isPrefix (client : HistoryClient h) (ignoreErrorTransactions : Bool)
    (exitSignal : ℕ → Bool) (request n : ℕ) (recentSignature : Signature) (fuel : ℕ)
    (hfuel : n < fuel) :
    ∃ signatures, pageLoop client ignoreErrorTransactions exitSignal fuel request n
        recentSignature [] = some signatures ∧
      signatures.length ≤ n ∧ (signatures.map (·.signature)).Nodup ∧
      signatures <+: h.eligible ignoreErrorTransactions recentSignature := by
  obtain ⟨signatures, hloop, hfirst, hlength⟩ := pageLoop_eq_some client ignoreErrorTransactions
    exitSignal hfuel request recentSignature []
  refine ⟨signatures, hloop, hlength, ?_, hfirst⟩
  exact (h.nodup_eligible ignoreErrorTransactions recentSignature).sublist
    (hfirst.sublist.map _)

end

/-- Three transactions, the middle one of which has failed. -/
def threeEntries : WalletHistory where
  entries := [⟨3, 30, false⟩, ⟨2, 20, true⟩, ⟨1, 10, false⟩]
  rank signature := [4, 3, 2, 1].idxOf signature
  rank_entry i e he := by
    rcases i with _ | _ | _ | i
    · obtain rfl := Option.some.inj he
      decide +kernel
    · obtain rfl := Option.some.inj he
      decide +kernel
    · obtain rfl := Option.some.inj he
      decide +kernel
    · cases he

/-- A client every second request of which fails. -/
def WalletHistory.flaky (h : WalletHistory) : HistoryClient h where
  getSignaturesForAddress request before limit :=
    if request % 2 = 0 then none else some ((h.olderThan before).take limit)
  isPrefix request before limit page hpage := by
    split_ifs at hpage
    exact Option.some.inj hpage ▸ List.take_prefix _ _
  length_le request before limit page hpage := by
    split_ifs at hpage
    exact Option.some.inj hpage ▸ List.length_take_le _ _

theorem pageLoop_flaky :
    ∃ signatures, pageLoop threeEntries.flaky true (fun _ => false) 2500 0 2400 4 [] =
        some signatures ∧
      signatures.length ≤ 2400 ∧ (signatures.map (·.signature)).Nodup ∧
      signatures <+: threeEntries.eligible true 4 :=
  pageLoop_isPrefix threeEntries.flaky true (fun _ => false) 0 2400 4 2500 (by decide)

end Biscuit.Wire
