import Biscuit.Models.Wire.LastTransactions
import Mathlib.Data.List.Palindrome

/-!
# The order of the last transactions

The last transactions are documented to come earliest first unless the caller says otherwise, and
to be as many as the caller asks for. The signatures are collected newest first and reversed when
the newest are asked for first; entries that are not kept use up requests all the same. Nothing of
this is seen as long as no more than one transaction is due.
-/

namespace Biscuit.Wire

/-- A list without repetitions is its own reverse only if there is nothing to reverse. -/
theorem reverse_eq_self_iff_of_nodup {α : Type} {l : List α} (h : l.Nodup) :
    l.reverse = l ↔ l.length ≤ 1 := by
  constructor
  · intro hreverse
    cases List.Palindrome.of_reverse_eq hreverse with
    | nil => exact Nat.zero_le 1
    | singleton a => exact le_rfl
    | cons_concat a hl =>
      have hmem : a ∉ _ := (List.nodup_cons.mp h).1
      exact (hmem (List.mem_append_right _ (List.mem_singleton_self a))).elim
  · intro hlength
    match l, hlength with
    | [], _ => rfl
    | [a], _ => rfl

/-- A first part of a list without repetitions is the reverse of the list exactly when it is all of
it and there is nothing to reverse. -/
theorem eq_reverse_iff_of_isPrefix {α : Type} {front l : List α} (h : l.Nodup)
    (hfirst : front <+: l) : front = l.reverse ↔ front = l ∧ l.length ≤ 1 := by
  constructor
  · intro hfront
    have hall : front = l := hfirst.eq_of_length (by rw [hfront, List.length_reverse])
    exact ⟨hall, (reverse_eq_self_iff_of_nodup h).mp (hfront.symm.trans hall)⟩
  · rintro ⟨rfl, hlength⟩
    exact ((reverse_eq_self_iff_of_nodup h).mpr hlength).symm

/-- With keys that do not repeat, the keys of a first part are those of the list in reverse exactly
when nothing is to be reversed and nothing is missing. -/
theorem map_eq_reverse_iff {α β : Type} {f : α → β} {front l : List α} (hnodup : (l.map f).Nodup)
    (hfront : front <+: l) :
    front.map f = (l.map f).reverse ↔ l.length = 0 ∨ l.length = 1 ∧ front ≠ [] := by
  rw [eq_reverse_iff_of_isPrefix hnodup (hfront.map _), List.length_map]
  constructor
  · rintro ⟨hall, hle⟩
    rcases Nat.le_one_iff_eq_zero_or_eq_one.mp hle with hzero | hone
    · exact .inl hzero
    · refine .inr ⟨hone, ?_⟩
      rintro rfl
      rw [List.map_eq_nil_iff.mp hall.symm] at hone
      cases hone
  · rintro (hzero | ⟨hone, hsome⟩)
    · rw [List.length_eq_zero_iff.mp hzero] at hfront ⊢
      exact ⟨by rw [List.prefix_nil.mp hfront], Nat.zero_le 1⟩
    · have hall : front = l := hfront.eq_of_length_le
        (hone.le.trans (List.length_pos_iff.mpr hsome))
      exact ⟨by rw [hall], hone.le⟩

variable {h : WalletHistory} {client : HistoryClient h} {exitSignal : ℕ → Bool}
  {ignoreErrorTransactions : Bool}

/-- What the last transactions of a wallet are, in the documented order. -/
def WalletHistory.documented (h : WalletHistory) (ignoreErrorTransactions : Bool)
    (recentSignature : Signature) (n : ℕ) (orderByEarliest : Option Bool) : List Signature :=
  let newest := ((h.eligible ignoreErrorTransactions recentSignature).take n).map (·.signature)
  if orderByEarliest.getD true then newest.reverse else newest

/-! ## What a loop without failures collects -/

theorem results_of_isReliable (hreliable : client.IsReliable) (request : ℕ)
    (lastSignature : Signature) (signaturesToQuery : ℕ) :
    client.results ignoreErrorTransactions request lastSignature signaturesToQuery =
      ((h.olderThan (some lastSignature)).take signaturesToQuery).filter
        (·.isEligible ignoreErrorTransactions) := by
  rw [HistoryClient.results, hreliable]

/-- A cursor in front of a page without any kept entry stays where it is, and the pages after it are
no longer. -/
theorem pageLoop_of_none_eligible (hreliable : client.IsReliable) {fuel signaturesLeft : ℕ}
    (hfuel : signaturesLeft < fuel) (request : ℕ) {lastSignature : Signature}
    (signatures : List ConfirmedSignature)
    (hnone : ((h.olderThan (some lastSignature)).take (min signaturesLeft 1000)).filter
      (·.isEligible ignoreErrorTransactions) = []) :
    pageLoop client ignoreErrorTransactions exitSignal fuel request signaturesLeft lastSignature
      signatures = some signatures := by
  induction fuel generalizing signaturesLeft request with
  | zero => exact (Nat.not_lt_zero _ hfuel).elim
  | succ fuel ih =>
    rw [pageLoop]
    split_ifs with hgo
    · have hless : signaturesLeft - min signaturesLeft 1000 < fuel := by omega
      have hshorter : ((h.olderThan (some lastSignature)).take
          (min (signaturesLeft - min signaturesLeft 1000) 1000)).filter
            (·.isEligible ignoreErrorTransactions) = [] := by
        have htake : min (signaturesLeft - min signaturesLeft 1000) 1000 ≤
          min signaturesLeft 1000 := by omega
        exact List.sublist_nil.mp (hnone ▸ (List.take_sublist_take_left htake).filter _)
      simp only [results_of_isReliable hreliable, hnone, List.getLast?_nil, Option.map_none,
        Option.getD_none, List.append_nil]
      exact ih hless (request + 1) hshorter
    · rfl

/-- The loop collects something exactly when its first page has an entry to keep. -/
theorem pageLoop_eq_nil_iff (hreliable : client.IsReliable)
    (hexit : ∀ request, exitSignal request = false) {fuel n : ℕ} (hfuel : n < fuel) (request : ℕ)
    (recentSignature : Signature) :
    pageLoop client ignoreErrorTransactions exitSignal fuel request n recentSignature [] =
        some [] ↔
      ((h.olderThan (some recentSignature)).take (min n 1000)).filter
        (·.isEligible ignoreErrorTransactions) = [] := by
  refine ⟨fun hloop => ?_, pageLoop_of_none_eligible hreliable hfuel request []⟩
  by_contra hsome
  have hn : 0 < n := by
    rcases Nat.eq_zero_or_pos n with rfl | hn
    · exact (hsome rfl).elim
    · exact hn
  obtain ⟨fuel, rfl⟩ : ∃ k, fuel = k + 1 := ⟨fuel - 1, by omega⟩
  obtain ⟨more, hrest, -, -⟩ := pageLoop_eq_some client ignoreErrorTransactions exitSignal
    (show n - min n 1000 < fuel by omega) (request + 1)
    (((client.results ignoreErrorTransactions request recentSignature
      (min n 1000)).getLast?.map (·.signature)).getD recentSignature)
    ([] ++ client.results ignoreErrorTransactions request recentSignature (min n 1000))
  rw [pageLoop, if_pos ⟨hn, hexit request⟩, hrest, results_of_isReliable hreliable,
    Option.some.injEq, List.nil_append] at hloop
  exact hsome (List.append_eq_nil_iff.mp hloop).1

/-! ## What is returned -/

/-- What the transactions are fetched from. -/
theorem getLastNHistoricalTransactions_eq {τ : Type} (getTransaction : Signature → Option τ)
    {fuel : ℕ} {wallet : Pubkey} {recentSignature : Option Signature} {n : ℕ}
    {orderByEarliest : Option Bool} {maxInitialSignatureRetries : ℕ} {recent : Signature}
    (hrecent : recentSignature.or (initialSignature client maxInitialSignatureRetries) =
      some recent) {signatures : List ConfirmedSignature}
    (hloop : pageLoop client ignoreErrorTransactions exitSignal fuel maxInitialSignatureRetries n
      recent [] = some signatures) :
    getLastNHistoricalTransactions client getTransaction exitSignal fuel wallet recentSignature n
        orderByEarliest maxInitialSignatureRetries ignoreErrorTransactions =
      some (.ok ((if orderByEarliest.getD true then signatures else signatures.reverse).filterMap
        fun sig => getTransaction sig.signature)) := by
  rw [getLastNHistoricalTransactions, hrecent]
  simp only [hloop, Option.bind_eq_bind, Option.bind_some, Option.pure_def]

/-- Transactions that can all be fetched have the signatures they are fetched with. -/
theorem map_signature_filterMap {τ : Type} {getTransaction : Signature → Option τ}
    {signatureOf : τ → Signature}
    (hget : ∀ signature, ∃ tx, getTransaction signature = some tx ∧ signatureOf tx = signature)
    (signatures : List ConfirmedSignature) :
    (signatures.filterMap fun sig => getTransaction sig.signature).map signatureOf =
      signatures.map (·.signature) := by
  induction signatures with
  | nil => rfl
  | cons sig signatures ih =>
    obtain ⟨tx, htx, hsignature⟩ := hget sig.signature
    rw [List.filterMap_cons, htx, List.map_cons, List.map_cons, hsignature, ih]

/-- The signatures are collected in the order that is documented for the other choice. -/
theorem documented_iff_eq_reverse {τ : Type} {getTransaction : Signature → Option τ}
    {signatureOf : τ → Signature}
    (hget : ∀ signature, ∃ tx, getTransaction signature = some tx ∧ signatureOf tx = signature)
    (recent : Signature) (n : ℕ) (orderByEarliest : Option Bool)
    (signatures : List ConfirmedSignature) :
    ((if orderByEarliest.getD true then signatures else signatures.reverse).filterMap
        fun sig => getTransaction sig.signature).map signatureOf =
          h.documented ignoreErrorTransactions recent n orderByEarliest ↔
      signatures.map (·.signature) =
        (((h.eligible ignoreErrorTransactions recent).take n).map (·.signature)).reverse := by
  rw [map_signature_filterMap hget, WalletHistory.documented]
  cases orderByEarliest.getD true with
  | true => exact Iff.rfl
  | false =>
    simp only [Bool.false_eq_true, if_false, List.map_reverse]
    exact List.reverse_eq_iff

/-- Without failures, the transactions are those of the documentation in their order exactly when
none is due, or one is due and the first request reaches it. -/
theorem getLastNHistoricalTransactions_documented_iff {τ : Type} (client : HistoryClient h)
    (hreliable : client.IsReliable) (getTransaction : Signature → Option τ)
    (signatureOf : τ → Signature)
    (hget : ∀ signature, ∃ tx, getTransaction signature = some tx ∧ signatureOf tx = signature)
    (exitSignal : ℕ → Bool) (hexit : ∀ request, exitSignal request = false) (wallet : Pubkey)
    (recentSignature : Option Signature) (n : ℕ) (orderByEarliest : Option Bool)
    (maxInitialSignatureRetries : ℕ) (ignoreErrorTransactions : Bool) (fuel : ℕ) (hfuel : n < fuel)
    (recent : Signature)
    (hrecent : recentSignature.or (initialSignature client maxInitialSignatureRetries) =
      some recent) :
    (∃ transactions, getLastNHistoricalTransactions client getTransaction exitSignal fuel wallet
        recentSignature n orderByEarliest maxInitialSignatureRetries ignoreErrorTransactions =
          some (.ok transactions) ∧
      transactions.map signatureOf =
        h.documented ignoreErrorTransactions recent n orderByEarliest) ↔
      min n (h.eligible ignoreErrorTransactions recent).length = 0 ∨
      min n (h.eligible ignoreErrorTransactions recent).length = 1 ∧
        ∃ sig ∈ (h.olderThan (some recent)).take (min n 1000),
          sig.isEligible ignoreErrorTransactions = true := by
  obtain ⟨signatures, hloop, hfirst, hlength⟩ := pageLoop_eq_some client ignoreErrorTransactions
    exitSignal hfuel maxInitialSignatureRetries recent []
  rw [List.nil_append] at hloop
  have hdue : ((h.eligible ignoreErrorTransactions recent).take n).length =
    min n (h.eligible ignoreErrorTransactions recent).length := List.length_take
  have hfront : signatures <+: (h.eligible ignoreErrorTransactions recent).take n :=
    List.prefix_take_iff.mpr ⟨hfirst, hlength⟩
  have hnodup := (h.nodup_eligible ignoreErrorTransactions recent).sublist
    ((List.take_sublist n _).map _)
  have hnil : signatures = [] ↔ ((h.olderThan (some recent)).take (min n 1000)).filter
      (·.isEligible ignoreErrorTransactions) = [] := by
    rw [← pageLoop_eq_nil_iff hreliable hexit hfuel maxInitialSignatureRetries recent, hloop,
      Option.some.injEq]
  simp only [getLastNHistoricalTransactions_eq getTransaction hrecent hloop, Option.some.injEq,
    Except.ok.injEq, exists_eq_left', documented_iff_eq_reverse hget]
  rw [map_eq_reverse_iff hnodup hfront, hdue]
  refine or_congr_right (and_congr_right fun _ => ?_)
  rw [ne_eq, hnil, List.filter_eq_nil_iff]
  simp only [not_forall, exists_prop, not_not]

/-- A client that answers every request. -/
def WalletHistory.answering (h : WalletHistory) : HistoryClient h where
  getSignaturesForAddress _ before limit := some ((h.olderThan before).take limit)
  isPrefix _ _ _ _ hpage := Option.some.inj hpage ▸ List.take_prefix _ _
  length_le _ _ _ _ hpage := Option.some.inj hpage ▸ List.length_take_le _ _

theorem getLastNHistoricalTransactions_one :
    ∃ transactions, getLastNHistoricalTransactions threeEntries.answering some (fun _ => false) 2
        SOL (some 4) 1 none 3 true = some (.ok transactions) ∧
      transactions.map id = threeEntries.documented true 4 1 none :=
  (getLastNHistoricalTransactions_documented_iff threeEntries.answering (fun _ _ _ => rfl) some id
    (fun signature => ⟨signature, rfl, rfl⟩) (fun _ => false) (fun _ => rfl) SOL (some 4) 1 none 3
    true 2 (by decide) 4 rfl).mpr (.inr (by decide +kernel))

/-- Two transactions are returned newest first although the earliest should come first. -/
theorem getLastNHistoricalTransactions_two :
    ¬ ∀ (n : ℕ) (orderByEarliest : Option Bool), ∃ transactions,
      getLastNHistoricalTransactions threeEntries.answering some (fun _ => false) (n + 1) SOL
          (some 4) n orderByEarliest 3 false = some (.ok transactions) ∧
        transactions.map id = threeEntries.documented false 4 n orderByEarliest := by
  intro hall
  obtain ⟨transactions, hanswer, horder⟩ := hall 2 none
  have hreturned : getLastNHistoricalTransactions threeEntries.answering some (fun _ => false) 3
      SOL (some 4) 2 none 3 false = some (.ok [3, 2]) := by decide +kernel
  rw [hreturned] at hanswer
  obtain rfl := Except.ok.inj (Option.some.inj hanswer)
  exact absurd horder (by decide +kernel)

end Biscuit.Wire
