import Biscuit.Models.Wire.Poller

/-!
# How often the polling task delivers

A fresh signature is fetched once. An entry of the retry map is fetched at every poll that
finds something new until it has failed too often, and a success leaves it in the map, so
that the next success delivers its transaction again.
-/

namespace Biscuit.Wire.WatchTask

/-- No transaction went to the stream twice. -/
def SentOnce (w : WatchTask) : Prop := w.sent.Nodup

instance : DecidablePred SentOnce := fun w => inferInstanceAs (Decidable w.sent.Nodup)

/-- The fetch of every entry that the retry map still holds although its transaction has
gone to the stream fails. -/
def LeftoversFail (cfg : WatchConfig) (w : WatchTask) : WatchEvent → Prop
  | .poll env => ∀ last, w.Polls last env → page cfg w.history last ≠ [] →
      ∀ key ∈ w.retained.keys, key.1 ∈ w.sent → env.fetched key = false
  | _ => True

/-- Keys that lie in the history are told apart by their signatures. -/
theorem nodup_delivered {h : AddressHistory} {keys : List (Signature × ℕ)}
    (hkeys : ∀ key ∈ keys, ∃ i ∈ h.infos, i.key = key) (hnodup : keys.Nodup)
    (fetched : Signature × ℕ → Bool) : (delivered fetched keys).Nodup := by
  refine List.Nodup.map_on ?_ (hnodup.filter _)
  intro key hkey key' hkey' heq
  obtain ⟨i, hi, rfl⟩ := hkeys key (List.mem_of_mem_filter hkey)
  obtain ⟨j, hj, rfl⟩ := hkeys key' (List.mem_of_mem_filter hkey')
  rw [AddressHistory.eq_of_signature hi hj heq]

/-- A page holds nothing that has been sent. -/
theorem notMem_sent_of_mem_page {cfg : WatchConfig} {w : WatchTask} (hw : w.Sound)
    {last : Signature} (hl : w.lastSeen = some last) {i : SignatureInfo}
    (hi : i ∈ page cfg w.history last) : i.signature ∉ w.sent := by
  intro hsent
  obtain ⟨j, hj, he⟩ := hw.sent _ hsent
  rw [seen_eq hl] at hj
  exact AddressHistory.newer_ne_older (mem_newer_of_mem_page hi) hj he.symm

/-- One step keeps the stream free of duplicates exactly when no leftover is fetched. -/
theorem sentOnce_step (cfg : WatchConfig) (w : WatchTask) (e : WatchEvent) (hw : w.Sound)
    (honce : w.SentOnce) : (step cfg w e).SentOnce ↔ LeftoversFail cfg w e := by
  have hcase := step_cases cfg hw e
  generalize step cfg w e = w' at hcase
  cases hcase with
  | land i => exact iff_of_true honce trivial
  | initial => exact iff_of_true honce trivial
  | exit => exact iff_of_true honce trivial
  | idle e hidle =>
    apply iff_of_true honce
    cases e with
    | poll env => exact fun last hpoll => absurd hpoll (hidle env last rfl)
    | land | fetchInitial | exit => trivial
  | empty env last hpoll hpage =>
    apply iff_of_true honce
    intro last' hpoll' hne
    obtain rfl : last = last' := Option.some.inj (hpoll.2.1.symm.trans hpoll'.2.1)
    exact absurd hpage hne
  | fetched env last newest rest keys retry hpoll hpage hkeys hnodup hretry =>
    constructor
    · intro hafter last' _ _ key hkey hsent
      by_contra hfetched
      rw [Bool.not_eq_false] at hfetched
      have hmem : key.1 ∈ delivered env.fetched keys :=
        mem_delivered.mpr ⟨key, (hkeys key).mpr (.inr hkey), hfetched, rfl⟩
      exact (List.nodup_append.mp hafter).2.2 _ hsent _ hmem rfl
    · intro hleft
      have hinfos : ∀ key ∈ keys, ∃ i ∈ w.history.infos, i.key = key := by
        intro key hkey
        obtain ⟨i, hi, he⟩ := mem_older_of_mem_keys hw hpoll.2.1 hpage
          (((hkeys key).mp hkey).imp_right mem_retained)
        exact ⟨i, AddressHistory.mem_infos_of_mem_older hi, he⟩
      refine List.nodup_append.mpr ⟨honce, nodup_delivered hinfos hnodup _, ?_⟩
      rintro sig hsent sig' hmem rfl
      obtain ⟨key, hkey, hfetched, rfl⟩ := mem_delivered.mp hmem
      rcases (hkeys key).mp hkey with hnew | hold
      · obtain ⟨i, hi, rfl⟩ := List.mem_map.mp hnew
        rw [← hpage] at hi
        exact notMem_sent_of_mem_page hw hpoll.2.1 hi hsent
      · have hne : page cfg w.history last ≠ [] := by
          rw [hpage]
          exact List.cons_ne_nil _ _
        have hfail := hleft last hpoll hne key hold hsent
        rw [hfail] at hfetched
        cases hfetched

/-- For every history, every pattern of RPC failures and every number of polls: no
transaction goes to the stream twice exactly as long as the fetch of every leftover of the
retry map fails. -/
theorem sentOnce_iff_leftoversFail (cfg : WatchConfig) (h : AddressHistory)
    (es : List WatchEvent) :
    Visits (step cfg) SentOnce (start cfg h) es ↔
      Along (step cfg) (LeftoversFail cfg) (start cfg h) es :=
  visits_iff_along (fun _ e hw => step_sound cfg hw e) (sentOnce_step cfg)
    (start_sound cfg h) List.nodup_nil

/-! ## A transaction that is recovered twice -/

/-- The first fetch of a transaction fails, and the two polls that follow it find
something new and succeed. -/
def sampleRecovery : List WatchEvent :=
  [.fetchInitial true, .fetchInitial false, .fetchInitial true,
    .land ⟨2, 11, false⟩, samplePoll fun _ => false,
    .land ⟨3, 12, false⟩, samplePoll fun _ => true,
    .land ⟨4, 13, false⟩, samplePoll fun _ => true]

/-- Its transaction goes to the stream twice. -/
theorem not_sentOnce_recovery :
    ¬ (exec (step sampleWatch) (start sampleWatch sampleHistory) sampleRecovery).SentOnce := by
  decide +kernel

end Biscuit.Wire.WatchTask
