import Mathlib.Data.List.TakeWhile
import Biscuit.Models.Wire.Poller

/-!
# What the polling task covers

The task moves on to the newest entry of every page. What lay behind the last entry of
that page is never asked for again, so a burst loses whatever does not fit into one call;
everything else is sent, or waits in the retry map, or has failed too often.
-/

namespace Biscuit.Wire

namespace AddressHistory

/-- What is newer than a signature is newer than every signature behind it. -/
theorem newer_of_newer {h : AddressHistory} {last : Signature} {first i : SignatureInfo}
    (hfirst : first ∈ h.older last) (hi : i ∈ h.newer last) : i ∈ h.newer first.signature := by
  have hall : ∀ j ∈ h.newer last, decide (j.signature ≠ first.signature) = true := by
    intro j hj
    rw [decide_eq_true_eq]
    exact newer_ne_older hj hfirst
  have hsplit : h.newer first.signature = h.newer last ++
      (h.older last).takeWhile fun j => decide (j.signature ≠ first.signature) := by
    conv_lhs => rw [newer, ← h.newer_append_older last]
    exact List.takeWhile_append_of_pos hall
  rw [hsplit]
  exact List.mem_append_left _ hi

theorem mem_newer_or_older {h : AddressHistory} {i : SignatureInfo} (hi : i ∈ h.infos)
    (last : Signature) : i ∈ h.newer last ∨ i ∈ h.older last := by
  rw [← h.newer_append_older last] at hi
  exact List.mem_append.mp hi

/-- A signature is not newer than itself. -/
theorem self_mem_older {h : AddressHistory} {last : Signature} (hl : last ∈ h.signatures) :
    ∃ i ∈ h.older last, i.signature = last := by
  obtain ⟨i, hi, rfl⟩ := List.mem_map.mp hl
  rcases mem_newer_or_older hi i.signature with hnew | hold
  · have hne := List.mem_takeWhile_imp hnew
    rw [decide_eq_true_eq] at hne
    exact absurd rfl hne
  · exact ⟨i, hold, rfl⟩

/-- Landing adds nothing newer than a signature but the transaction that lands. -/
theorem newer_land {h : AddressHistory} {i j : SignatureInfo} {first : Signature}
    (hj : j ∈ (h.land i).newer first) : j ∈ h.newer first ∨ j.signature ∉ h.signatures := by
  unfold land at hj
  split at hj
  · exact .inl hj
  · rename_i hi
    rw [newer, List.takeWhile_cons] at hj
    split at hj
    · rcases List.mem_cons.mp hj with rfl | hj
      · exact .inr hi
      · exact .inl hj
    · exact absurd hj List.not_mem_nil

/-- The part of what is newer that one call does not return lies in no page. -/
theorem drop_ne_take {h : AddressHistory} {last : Signature} {n : ℕ} {i j : SignatureInfo}
    (hi : i ∈ (h.newer last).drop n) (hj : j ∈ (h.newer last).take n) :
    j.signature ≠ i.signature := by
  have hn : ((h.newer last).map SignatureInfo.signature).Nodup :=
    ((List.takeWhile_sublist _).map _).nodup h.nodup
  rw [← List.take_append_drop n (h.newer last), List.map_append] at hn
  exact (List.nodup_append.mp hn).2.2 _ (List.mem_map_of_mem hj) _ (List.mem_map_of_mem hi)

end AddressHistory

namespace WatchTask

/-- A signature has been sent, or is in the retry map with attempts to spare, or has
failed too often. -/
def Accounted (w : WatchTask) (sig : Signature) : Prop :=
  sig ∈ w.sent ∨
    (∃ slot n, w.retrySignatures.lookup (sig, slot) = some n ∧
      n ≤ maxRetrySignatureAttempts) ∨
    maxRetrySignatureAttempts < w.failures.count sig

/-- Every signature the RPC knew at the last successful signature fetch is accounted for. -/
def NoLoss (w : WatchTask) : Prop := ∀ sig ∈ w.known, w.Accounted sig

/-- Everything new and accepted is among the signatures that one call returns. -/
def FitsPage (cfg : WatchConfig) (w : WatchTask) : WatchEvent → Prop
  | .poll env => ∀ last, w.Polls last env →
      ∀ i ∈ (w.history.newer last).drop maxSignaturesPerCall, cfg.accepts i = false
  | _ => True

/-! ## The invariant -/

/-- What the task has seen since its start was known to the RPC. -/
structure Covered (cfg : WatchConfig) (w : WatchTask) : Prop extends w.Sound where
  initial : ∀ last, w.lastSeen = some last →
    ∃ first ∈ w.history.older last, w.initial = some first.signature
  known : ∀ first, w.initial = some first → ∀ i ∈ w.seen, i ∈ w.history.newer first →
    cfg.accepts i = true → i.signature ∈ w.known

theorem start_covered (cfg : WatchConfig) (h : AddressHistory) :
    (start cfg h).Covered cfg where
  toSound := start_sound cfg h
  initial := by rintro last ⟨⟩
  known := by rintro first ⟨⟩

theorem mem_knownNow {cfg : WatchConfig} {w : WatchTask} {first : Signature}
    (h : w.initial = some first) {sig : Signature} :
    sig ∈ knownNow cfg w ↔
      ∃ i ∈ w.history.newer first, cfg.accepts i = true ∧ i.signature = sig := by
  simp only [knownNow, h, List.mem_map, List.mem_filter, and_assoc]

theorem step_covered (cfg : WatchConfig) {w : WatchTask} (hw : w.Covered cfg)
    (e : WatchEvent) : (step cfg w e).Covered cfg := by
  have hsound := step_sound cfg hw.toSound e
  have hcase := step_cases cfg hw.toSound e
  generalize step cfg w e = w' at hcase hsound
  cases hcase with
  | land i =>
    refine ⟨hsound, ?_, ?_⟩
    · intro last hl
      obtain ⟨first, hfirst, he⟩ := hw.initial last hl
      refine ⟨first, ?_, he⟩
      rw [AddressHistory.older_land (hw.lastSeen last hl)]
      exact hfirst
    · intro first hinit j hj hnew hacc
      rw [seen_land hw.toSound] at hj
      rcases AddressHistory.newer_land hnew with hold | hfresh
      · exact hw.known first hinit j hj hold hacc
      · cases hl : w.lastSeen with
        | none =>
          rw [seen, hl] at hj
          exact absurd hj List.not_mem_nil
        | some last =>
          rw [seen_eq hl] at hj
          exact absurd (List.mem_map_of_mem (AddressHistory.mem_infos_of_mem_older hj)) hfresh
  | initial answers n last hleft hlast =>
    refine ⟨hsound, ?_, ?_⟩
    · intro last' hl
      obtain ⟨i, hi, rfl⟩ := AddressHistory.self_mem_older (hsound.lastSeen last' hl)
      exact ⟨i, hi, hl⟩
    · intro first hinit i hi hnew hacc
      rw [seen_eq (w := { w with attemptsLeft := n, lastSeen := last, initial := last })
        hinit] at hi
      exact absurd rfl (AddressHistory.newer_ne_older hnew hi)
  | exit => exact ⟨hsound, hw.initial, hw.known⟩
  | idle => exact hw
  | empty env last hpoll hpage =>
    refine ⟨hsound, hw.initial, ?_⟩
    intro first hinit i hi hnew hacc
    exact (mem_knownNow hinit).mpr ⟨i, hnew, hacc, rfl⟩
  | fetched env last newest rest keys retry hpoll hpage hkeys hnodup hretry =>
    refine ⟨hsound, ?_, ?_⟩
    · rintro last' ⟨⟩
      obtain ⟨first, hfirst, he⟩ := hw.initial last hpoll.2.1
      exact ⟨first, AddressHistory.older_of_page hpage (.inr hfirst), he⟩
    · intro first hinit i hi hnew hacc
      exact (mem_knownNow hinit).mpr ⟨i, hnew, hacc, rfl⟩

/-! ## One poll -/

/-- Whatever is accounted for has been seen. -/
theorem Accounted.seen {w : WatchTask} (hw : w.Sound) {sig : Signature}
    (h : w.Accounted sig) : ∃ i ∈ w.seen, i.signature = sig := by
  rcases h with hsent | ⟨slot, n, hlookup, -⟩ | hfailed
  · exact hw.sent sig hsent
  · obtain ⟨i, hi, he⟩ := hw.retry _ (Table.mem_iff_lookup.mpr ⟨n, hlookup⟩)
    exact ⟨i, hi, congrArg Prod.fst he⟩
  · exact hw.failures sig (List.count_pos_iff.mp (Nat.zero_lt_of_lt hfailed))

section Fetched

variable {w w' : WatchTask} {fetched : Signature × ℕ → Bool} {keys : List (Signature × ℕ)}

/-- Every key of an iteration is accounted for after it. -/
theorem accounted_of_mem_keys (hw' : w'.Sound)
    (hsent : w'.sent = w.sent ++ delivered fetched keys)
    (hretry : w.Retries fetched keys w'.retrySignatures) {key : Signature × ℕ}
    (hkey : key ∈ keys) : w'.Accounted key.1 := by
  cases hf : fetched key with
  | true =>
    left
    rw [hsent]
    exact List.mem_append_right _ (mem_delivered.mpr ⟨key, hkey, hf, rfl⟩)
  | false =>
    right
    have hlookup := hretry.failed key hkey hf
    by_cases hle : (w.retained.lookup key).elim 1 (· + 1) ≤ maxRetrySignatureAttempts
    · exact .inl ⟨key.2, _, hlookup, hle⟩
    · exact .inr ((Nat.lt_of_not_le hle).trans_le (hw'.attempts key _ hlookup))

/-- What was accounted for stays accounted for. -/
theorem Accounted.after (hw' : w'.Sound)
    (hsent : w'.sent = w.sent ++ delivered fetched keys)
    (hfailures : w'.failures = w.failures ++ missed fetched keys)
    (hretry : w.Retries fetched keys w'.retrySignatures)
    (hretained : ∀ key ∈ w.retained.keys, key ∈ keys) {sig : Signature}
    (h : w.Accounted sig) : w'.Accounted sig := by
  rcases h with hold | ⟨slot, n, hlookup, hle⟩ | hfailed
  · left
    rw [hsent]
    exact List.mem_append_left _ hold
  · exact accounted_of_mem_keys hw' hsent hretry
      (hretained (sig, slot) (mem_retained_of_le hlookup hle))
  · right
    right
    rw [hfailures, List.count_append]
    exact hfailed.trans_le (Nat.le_add_right _ _)

/-- Nothing is accounted for after an iteration but what was seen before it and what it
fetched. -/
theorem Accounted.before (hw : w.Sound)
    (hsent : w'.sent = w.sent ++ delivered fetched keys)
    (hfailures : w'.failures = w.failures ++ missed fetched keys)
    (hretry : w.Retries fetched keys w'.retrySignatures) {sig : Signature}
    (h : w'.Accounted sig) :
    (∃ i ∈ w.seen, i.signature = sig) ∨ ∃ key ∈ keys, key.1 = sig := by
  rcases h with hmem | ⟨slot, n, hlookup, -⟩ | hfailed
  · rw [hsent] at hmem
    rcases List.mem_append.mp hmem with hold | hnew
    · exact .inl (hw.sent sig hold)
    · obtain ⟨key, hkey, -, he⟩ := mem_delivered.mp hnew
      exact .inr ⟨key, hkey, he⟩
  · rcases hretry.mem (Table.mem_iff_lookup.mpr ⟨n, hlookup⟩) with hkey | hold
    · exact .inr ⟨_, hkey, rfl⟩
    · obtain ⟨i, hi, he⟩ := hw.retry _ hold
      exact .inl ⟨i, hi, congrArg Prod.fst he⟩
  · have hmem := List.count_pos_iff.mp (Nat.zero_lt_of_lt hfailed)
    rw [hfailures] at hmem
    rcases List.mem_append.mp hmem with hold | hnew
    · exact .inl (hw.failures sig hold)
    · obtain ⟨key, hkey, -, he⟩ := mem_missed.mp hnew
      exact .inr ⟨key, hkey, he⟩

end Fetched

/-- An accepted entry is in the page of a poll, unless the call does not return it. -/
theorem mem_page_of_fits {cfg : WatchConfig} {h : AddressHistory} {last : Signature}
    (hfits : ∀ i ∈ (h.newer last).drop maxSignaturesPerCall, cfg.accepts i = false)
    {i : SignatureInfo} (hi : i ∈ h.newer last) (hacc : cfg.accepts i = true) :
    i ∈ page cfg h last := by
  rw [← List.take_append_drop maxSignaturesPerCall (h.newer last)] at hi
  rcases List.mem_append.mp hi with htake | hdrop
  · exact List.mem_filter.mpr ⟨htake, hacc⟩
  · rw [hfits i hdrop] at hacc
    cases hacc

/-- An accepted entry behind the page is known from then on, and nothing that was seen has its
signature. -/
theorem unpaged_known {cfg : WatchConfig} {w : WatchTask} {first i : SignatureInfo}
    {last : Signature} (hlast : w.lastSeen = some last)
    (hfirst : first ∈ w.history.older last) (hinit : w.initial = some first.signature)
    (hi : i ∈ (w.history.newer last).drop maxSignaturesPerCall) (hacc : cfg.accepts i = true) :
    i.signature ∈ knownNow cfg w ∧ ¬ ∃ j ∈ w.seen, j.signature = i.signature := by
  have hnew := List.mem_of_mem_drop hi
  refine ⟨(mem_knownNow hinit).mpr ⟨i, AddressHistory.newer_of_newer hfirst hnew, hacc, rfl⟩, ?_⟩
  rw [seen_eq hlast]
  rintro ⟨j, hj, he⟩
  exact AddressHistory.newer_ne_older hnew hj he.symm

/-- What is known after a page that holds all that is new was known before or is on the page. -/
theorem known_or_paged {cfg : WatchConfig} {w : WatchTask} (hw : w.Covered cfg)
    {first : SignatureInfo} {last : Signature} (hlast : w.lastSeen = some last)
    (hinit : w.initial = some first.signature)
    (hfits : ∀ i ∈ (w.history.newer last).drop maxSignaturesPerCall, cfg.accepts i = false)
    {sig : Signature} (hsig : sig ∈ knownNow cfg w) :
    sig ∈ w.known ∨ ∃ i ∈ page cfg w.history last, i.signature = sig := by
  obtain ⟨i, hi, hacc, rfl⟩ := (mem_knownNow hinit).mp hsig
  rcases AddressHistory.mem_newer_or_older (AddressHistory.mem_infos_of_mem_newer hi)
    last with hnew | hold
  · exact .inr ⟨i, mem_page_of_fits hfits hnew hacc, rfl⟩
  · rw [← seen_eq hlast] at hold
    exact .inl (hw.known _ hinit i hold hi hacc)

/-- A page holds all that is new if nothing behind it is known that was not seen. -/
theorem fitsPage_poll {cfg : WatchConfig} {w : WatchTask} (hw : w.Covered cfg) {env : PollEnv}
    {last : Signature} (hpoll : w.Polls last env)
    (h : ∀ i ∈ (w.history.newer last).drop maxSignaturesPerCall, i.signature ∈ knownNow cfg w →
      ∃ j ∈ w.seen, j.signature = i.signature) :
    FitsPage cfg w (.poll env) := by
  intro last' hpoll' i hi
  obtain rfl : last = last' := Option.some.inj (hpoll.2.1.symm.trans hpoll'.2.1)
  obtain ⟨first, hfirst, hinit⟩ := hw.initial last hpoll.2.1
  by_contra hacc
  obtain ⟨hknown, hunseen⟩ :=
    unpaged_known hpoll.2.1 hfirst hinit hi (Bool.eq_true_of_not_eq_false hacc)
  exact hunseen (h i hi hknown)

/-- One step keeps everything accounted for exactly when its page holds all that is new. -/
theorem noLoss_step (cfg : WatchConfig) (w : WatchTask) (e : WatchEvent)
    (hw : w.Covered cfg) (hloss : w.NoLoss) : (step cfg w e).NoLoss ↔ FitsPage cfg w e := by
  have hsound := step_sound cfg hw.toSound e
  have hcase := step_cases cfg hw.toSound e
  generalize step cfg w e = w' at hcase hsound
  cases hcase with
  | land i => exact iff_of_true hloss trivial
  | initial => exact iff_of_true hloss trivial
  | exit => exact iff_of_true hloss trivial
  | idle e hidle =>
    apply iff_of_true hloss
    cases e with
    | poll env => exact fun last hpoll => absurd hpoll (hidle env last rfl)
    | land | fetchInitial | exit => trivial
  | empty env last hpoll hpage =>
    obtain ⟨first, -, hinit⟩ := hw.initial last hpoll.2.1
    constructor
    · intro hafter
      exact fitsPage_poll hw hpoll fun i hi hknown => Accounted.seen hsound (hafter _ hknown)
    · intro hfits sig hsig
      rcases known_or_paged hw hpoll.2.1 hinit (hfits last hpoll) hsig with hold | ⟨i, hi, rfl⟩
      · exact hloss _ hold
      · rw [hpage] at hi
        exact absurd hi List.not_mem_nil
  | fetched env last newest rest keys retry hpoll hpage hkeys hnodup hretry =>
    obtain ⟨first, -, hinit⟩ := hw.initial last hpoll.2.1
    constructor
    · intro hafter
      refine fitsPage_poll hw hpoll fun i hi hknown => ?_
      rcases Accounted.before hw.toSound rfl rfl hretry (hafter _ hknown) with
        hseen | ⟨key, hkey, he⟩
      · exact hseen
      · rcases (hkeys key).mp hkey with hmem | hmem
        · -- the page is cut off before the entry
          obtain ⟨j, hj, rfl⟩ := List.mem_map.mp hmem
          rw [← hpage] at hj
          exact absurd he (AddressHistory.drop_ne_take hi (List.mem_of_mem_filter hj))
        · obtain ⟨j, hj, hk⟩ := hw.retry key (mem_retained hmem)
          exact ⟨j, hj, (congrArg Prod.fst hk).trans he⟩
    · intro hfits sig hsig
      rcases known_or_paged hw hpoll.2.1 hinit (hfits last hpoll) hsig with hold | ⟨i, hi, rfl⟩
      · exact Accounted.after hsound rfl rfl hretry (fun key hkey => (hkeys key).mpr (.inr hkey))
          (hloss _ hold)
      · rw [hpage] at hi
        exact accounted_of_mem_keys hsound rfl hretry
          ((hkeys i.key).mpr (.inl (List.mem_map_of_mem hi)))

/-- For every history and every pattern of RPC failures: nothing the RPC knew is lost
exactly as long as everything new fits into the answer of one call at every poll. -/
theorem noLoss_iff_fitsPage (cfg : WatchConfig) (h : AddressHistory) (es : List WatchEvent) :
    Visits (step cfg) NoLoss (start cfg h) es ↔
      Along (step cfg) (FitsPage cfg) (start cfg h) es :=
  visits_iff_along (fun _ e hw => step_covered cfg hw e) (noLoss_step cfg)
    (start_covered cfg h) fun _ hsig => absurd hsig List.not_mem_nil

/-! ## A burst that does not fit into one call -/

/-- Distinct transactions that land one after the other end up in front. -/
theorem exec_land (cfg : WatchConfig) (infos : List SignatureInfo) (w : WatchTask)
    (hn : ((infos.reverse ++ w.history.infos).map SignatureInfo.signature).Nodup) :
    ∃ h : AddressHistory, h.infos = infos.reverse ++ w.history.infos ∧
      exec (step cfg) w (infos.map WatchEvent.land) = { w with history := h } := by
  induction infos generalizing w with
  | nil => exact ⟨w.history, rfl, rfl⟩
  | cons i infos ih =>
    rw [List.reverse_cons, List.append_assoc, List.singleton_append] at hn
    have hfresh : i.signature ∉ w.history.infos.map SignatureInfo.signature := by
      rw [List.map_append] at hn
      exact (List.nodup_cons.mp (List.nodup_append.mp hn).2.1).1
    have hland : (w.history.land i).infos = i :: w.history.infos := by
      rw [AddressHistory.land, dif_neg hfresh]
    obtain ⟨h, hinfos, heq⟩ := ih (step cfg w (.land i)) (by rwa [step, hland])
    refine ⟨h, ?_, heq⟩
    rw [hinfos, step, hland, List.reverse_cons, List.append_assoc, List.singleton_append]

/-- Transactions with the signatures `2, 3, …`, oldest first. -/
def sampleBurst (count : ℕ) : List SignatureInfo :=
  (List.range count).map fun n => ⟨BitVec.ofNat 512 (n + 2), n + 11, false⟩

/-- A word that is wide enough keeps a small number. -/
theorem toNat_ofNat_of_lt {width n : ℕ} (hwidth : 64 ≤ width) (h : n < 2 ^ 64) :
    (BitVec.ofNat width n).toNat = n := by
  rw [BitVec.toNat_ofNat, Nat.mod_eq_of_lt]
  exact h.trans_le (Nat.pow_le_pow_right Nat.two_pos hwidth)

theorem sampleBurst_signature {n : ℕ} (h : n + 2 < 2 ^ 64) :
    (BitVec.ofNat 512 (n + 2)).toNat = n + 2 :=
  toNat_ofNat_of_lt (by decide) h

theorem sampleBurst_nodup {count : ℕ} (h : count + 2 ≤ 2 ^ 64) :
    (((sampleBurst count).reverse ++ sampleHistory.infos).map
      SignatureInfo.signature).Nodup := by
  have hlt : ∀ n ∈ List.range count, n + 2 < 2 ^ 64 := by
    intro n hn
    rw [List.mem_range] at hn
    omega
  rw [List.map_append, List.map_reverse, sampleBurst, List.map_map]
  refine List.nodup_append.mpr ⟨List.nodup_reverse.mpr ?_, List.nodup_singleton _, ?_⟩
  · refine List.Nodup.map_on ?_ List.nodup_range
    intro n hn m hm heq
    have hval := congrArg BitVec.toNat heq
    simp only [Function.comp_apply] at hval
    rw [sampleBurst_signature (hlt n hn), sampleBurst_signature (hlt m hm)] at hval
    omega
  · intro sig hsig sig' hsig' heq
    obtain ⟨n, hn, rfl⟩ := List.mem_map.mp (List.mem_reverse.mp hsig)
    obtain rfl : sig' = 1 := List.mem_singleton.mp hsig'
    have hval := congrArg BitVec.toNat heq
    simp only [Function.comp_apply] at hval
    rw [sampleBurst_signature (hlt n hn)] at hval
    have hone : (1 : BitVec 512).toNat = 1 := toNat_ofNat_of_lt (by decide) (by decide)
    omega

/-- Three attempts at the initial signature. -/
def sampleInitial : List WatchEvent :=
  [.fetchInitial true, .fetchInitial true, .fetchInitial true]

/-- A burst of one transaction more than one call returns, between two polls. -/
def sampleOverflow : List WatchEvent :=
  (sampleBurst (maxSignaturesPerCall + 1)).map WatchEvent.land ++
    [samplePoll fun _ => true]

/-- Its oldest transaction is lost. -/
theorem not_noLoss_burst :
    ¬ (exec (step sampleWatch) (start sampleWatch sampleHistory)
      (sampleInitial ++ sampleOverflow)).NoLoss := by
  intro hloss
  obtain ⟨w, hw⟩ : ∃ w, w = exec (step sampleWatch) (start sampleWatch sampleHistory)
    sampleInitial := ⟨_, rfl⟩
  have hseen : w.history = sampleHistory ∧ w.known = [] ∧ w.Polls 1 ⟨true, fun _ => true,
      Iteration.stored _⟩ := by
    rw [hw]
    exact ⟨rfl, rfl, rfl, rfl, rfl, rfl⟩
  have hcover : w.Covered sampleWatch := by
    rw [hw]
    exact exec_preserves (I := Covered sampleWatch)
      (fun _ e hw => step_covered sampleWatch hw e) _ (start_covered sampleWatch sampleHistory)
  obtain ⟨h, hinfos, heq⟩ := exec_land sampleWatch (sampleBurst (maxSignaturesPerCall + 1)) w
    (by rw [hseen.1]; exact sampleBurst_nodup (by decide))
  have hburst : Covered sampleWatch { w with history := h } := by
    rw [← heq]
    exact exec_preserves (I := Covered sampleWatch)
      (fun _ e hw => step_covered sampleWatch hw e) _ hcover
  have hbefore : NoLoss { w with history := h } := by
    intro sig hsig
    rw [hseen.2.1] at hsig
    exact absurd hsig List.not_mem_nil
  rw [exec_append, ← hw, sampleOverflow, exec_append, heq, exec_cons, exec_nil] at hloss
  have hfits := (noLoss_step sampleWatch _ _ hburst hbefore).mp hloss
  rw [hseen.1] at hinfos
  have hnewer : h.newer 1 = (sampleBurst (maxSignaturesPerCall + 1)).reverse := by
    have hne : ∀ i ∈ (sampleBurst (maxSignaturesPerCall + 1)).reverse,
        decide (i.signature ≠ 1) = true := by
      have hn := h.nodup
      rw [hinfos, List.map_append] at hn
      intro i hi
      rw [decide_eq_true_eq]
      exact (List.nodup_append.mp hn).2.2 _ (List.mem_map_of_mem hi) 1 List.mem_cons_self
    rw [AddressHistory.newer, hinfos, List.takeWhile_append_of_pos hne, sampleHistory,
      List.takeWhile_cons_of_neg (by simp), List.append_nil]
  have hdrop : (h.newer 1).drop maxSignaturesPerCall ≠ [] := by
    rw [hnewer, ne_eq, List.drop_eq_nil_iff, List.length_reverse, sampleBurst,
      List.length_map, List.length_range]
    omega
  obtain ⟨i, hi⟩ := List.exists_mem_of_ne_nil _ hdrop
  have hrejected := hfits 1 hseen.2.2 i hi
  cases hrejected

end WatchTask

end Biscuit.Wire
