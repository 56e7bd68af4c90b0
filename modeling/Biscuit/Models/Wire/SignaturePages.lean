import Biscuit.Models.Wire.Signatures

/-!
# Pages of a search

A search collects the entries between `until` and `before` page by page. It answers what it is
to answer exactly when the page that it stops at because of its block time begins with the
first entry that is too old and has a block time for all of its entries: the binary search
expects the entries to keep at the end of the page, where they are at its beginning.
-/

namespace Biscuit.Wire

namespace SignatureHistory

variable {h : SignatureHistory} {before until' : Option Signature}

/-- An entry of the range is on the chain, at its position. -/
theorem position_of_between {i : ℕ} {e : SignatureEntry}
    (he : (h.between before until')[i]? = some e) :
    h.position e.signature = h.start before + i ∧ h.start before + i < h.stop until' := by
  unfold between at he
  rw [List.getElem?_drop, List.getElem?_take] at he
  split_ifs at he with hlt
  refine ⟨?_, hlt⟩
  obtain ⟨hlen, hget⟩ := List.getElem?_eq_some_iff.mp he
  have hmap : (h.entries.map SignatureEntry.signature)[h.start before + i]? =
      some e.signature := by
    rw [List.getElem?_map, List.getElem?_eq_getElem hlen, hget]
    rfl
  obtain ⟨hlen', hget'⟩ := List.getElem?_eq_some_iff.mp hmap
  unfold position
  rw [← hget']
  exact h.nodup.idxOf_getElem _ _

/-- Behind an entry of the range the rest of the range follows. -/
theorem between_next {i : ℕ} {e : SignatureEntry}
    (he : (h.between before until')[i]? = some e) :
    h.between (some e.signature) until' = (h.between before until').drop (i + 1) := by
  have hstart : h.start (some e.signature) = h.start before + (i + 1) := by
    have hposition := (position_of_between he).1
    simp only [start, Option.map_some, Option.getD_some, hposition]
    omega
  unfold between
  rw [hstart, List.drop_drop]

/-- The range ends above `until`. -/
theorem ne_until_of_between {i : ℕ} {e : SignatureEntry}
    (he : (h.between before until')[i]? = some e) : some e.signature ≠ until' := by
  rintro rfl
  obtain ⟨hposition, hlt⟩ := position_of_between he
  simp only [stop, Option.map_some, Option.getD_some] at hlt
  omega

/-- Nothing lies between a signature and itself. -/
theorem between_self (signature : Signature) :
    h.between (some signature) (some signature) = [] := by
  unfold between start stop
  apply List.drop_eq_nil_of_le
  simp

end SignatureHistory

variable {h : SignatureHistory}

/-- The signature that the request after a number of collected entries starts from. -/
def beforeAt (h : SignatureHistory) (before until' : Option Signature) : ℕ → Option Signature
  | 0 => before
  | i + 1 => ((h.between before until')[i]?).map SignatureEntry.signature

/-- The page that is asked for after a number of collected entries. -/
def SignatureClient.pageAt (client : SignatureClient h) (before until' : Option Signature)
    (limit : Option ℕ) (i : ℕ) : List SignatureEntry :=
  client.page (beforeAt h before until' i) until' ((limit.map (· - i)).map (min · 1000))

/-- The positions at which pages begin, from one of them on. -/
inductive SignatureClient.Asks (client : SignatureClient h) (before until' : Option Signature)
    (limit : Option ℕ) : ℕ → ℕ → Prop
  | here (i : ℕ) : client.Asks before until' limit i i
  | next {i j : ℕ}
      (hj : client.Asks before until' limit
        (i + (client.pageAt before until' limit i).length) j) :
      client.Asks before until' limit i j

/-- A page from position `i` on that is asked for and reaches entries older than the block time
begins with the first of them, and the times of all its entries are known. -/
def SignatureClient.CutsBetweenPages (client : SignatureClient h)
    (before until' : Option Signature) (limit : Option ℕ) (blocktimeLimit : Option ℤ) (i : ℕ) :
    Prop :=
  ∀ j, client.Asks before until' limit i j →
    j ≤ (runSince blocktimeLimit (h.between before until')).length →
    (∀ n, limit = some n → j < n) →
    (runSince blocktimeLimit (h.between before until')).length <
      j + (client.pageAt before until' limit j).length →
    j = (runSince blocktimeLimit (h.between before until')).length ∧
      ∀ e ∈ client.pageAt before until' limit j, e.blockTime.isSome = true

section Pages

variable {client : SignatureClient h} {before until' : Option Signature} {limit : Option ℕ}

/-- The range that is left after a number of collected entries. -/
theorem between_beforeAt {i : ℕ} (hi : i ≤ (h.between before until').length) :
    h.between (beforeAt h before until' i) until' = (h.between before until').drop i := by
  cases i with
  | zero => rfl
  | succ i =>
    have hget : (h.between before until')[i]? = some (h.between before until')[i] :=
      List.getElem?_eq_getElem hi
    simp only [beforeAt, hget, Option.map_some]
    exact SignatureHistory.between_next hget

theorem pageAt_isPrefix (client : SignatureClient h) (limit : Option ℕ) {i : ℕ}
    (hi : i ≤ (h.between before until').length) :
    client.pageAt before until' limit i <+: (h.between before until').drop i := by
  rw [← between_beforeAt hi]
  exact client.page_isPrefix ..

theorem pageAt_ne_nil {i : ℕ} (hi : i < (h.between before until').length)
    (hlimit : limit.map (· - i) ≠ some 0) : client.pageAt before until' limit i ≠ [] := by
  apply client.page_ne_nil
  · rw [between_beforeAt hi.le]
    simpa using hi
  · cases limit with
    | none => simp
    | some n =>
      simp only [Option.map_some, ne_eq, Option.some.injEq] at hlimit ⊢
      omega

/-- A page is what follows the collected entries. -/
theorem take_append_pageAt {i : ℕ} (hi : i ≤ (h.between before until').length) :
    (h.between before until').take i ++ client.pageAt before until' limit i =
      (h.between before until').take (i + (client.pageAt before until' limit i).length) := by
  obtain ⟨rest, hrest⟩ := pageAt_isPrefix client limit hi
  rw [List.take_add, ← hrest]
  simp

theorem le_of_asks {i j : ℕ} (hj : client.Asks before until' limit i j) : i ≤ j := by
  induction hj with
  | here i => exact le_rfl
  | next hj ih => omega

theorem asks_iff {i j : ℕ} :
    client.Asks before until' limit i j ↔
      j = i ∨ client.Asks before until' limit
        (i + (client.pageAt before until' limit i).length) j := by
  constructor
  · intro hj
    cases hj with
    | here => exact .inl rfl
    | next hj => exact .inr hj
  · rintro (rfl | hj)
    · exact .here _
    · exact .next hj

/-- The request after a whole page starts from its last entry. -/
theorem beforeAt_add {i : ℕ} (hi : i ≤ (h.between before until').length)
    {earliest : SignatureEntry}
    (hlast : (client.pageAt before until' limit i).getLast? = some earliest) :
    beforeAt h before until' (i + (client.pageAt before until' limit i).length) =
      some earliest.signature := by
  obtain ⟨rest, hrest⟩ := pageAt_isPrefix client limit hi
  obtain ⟨init, hinit⟩ := List.getLast?_eq_some_iff.mp hlast
  have hget : (h.between before until')[i + init.length]? = some earliest := by
    have hdrop : ((h.between before until').drop i)[init.length]? = some earliest := by
      rw [← hrest, hinit]
      simp
    rwa [List.getElem?_drop] at hdrop
  rw [hinit, List.length_append, List.length_singleton, ← add_assoc]
  simp only [beforeAt, hget, Option.map_some]

/-! ## The page at which a search stops -/

theorem isSince_iff {ts : ℤ} {e : SignatureEntry} :
    e.isSince ts = true ↔ (ts : WithBot ℤ) ≤ e.time := by
  unfold SignatureEntry.isSince SignatureEntry.time
  cases e.blockTime with
  | none =>
    simp only [Option.any_none, Bool.false_eq_true, false_iff]
    exact WithBot.not_coe_le_bot ts
  | some t =>
    simp only [Option.any_some, decide_eq_true_eq]
    exact WithBot.coe_le_coe.symm

/-- The block time of an entry is known if that of an older one is. -/
theorem isSome_of_le {newer older : SignatureEntry} (hle : older.time ≤ newer.time)
    (h : older.blockTime.isSome = true) : newer.blockTime.isSome = true := by
  obtain ⟨t, ht⟩ := Option.isSome_iff_exists.mp h
  have hsince : newer.isSince t = true := by
    apply isSince_iff.mpr (le_trans _ hle)
    apply isSince_iff.mp
    simp [SignatureEntry.isSince, ht]
  cases hn : newer.blockTime with
  | none => simp [SignatureEntry.isSince, hn] at hsince
  | some t' => rfl

/-- An entry without a block time, or with a later one, fails the test of the search. -/
theorem isBefore_iff {ts : ℤ} {e : SignatureEntry} :
    e.isBefore ts = true ↔ e.isSince ts = false ∧ e.blockTime.isSome = true := by
  unfold SignatureEntry.isBefore SignatureEntry.isSince
  cases e.blockTime with
  | none => simp
  | some t => simp

/-- The entries since a block time are those of the run. -/
theorem isSince_iff_lt (ts : ℤ) {i : ℕ} {e : SignatureEntry}
    (he : (h.between before until')[i]? = some e) :
    e.isSince ts = true ↔ i < (runSince (some ts) (h.between before until')).length := by
  apply passes_iff_lt _ he
  apply (h.sorted.take).drop.imp
  intro newer older hle hsince
  exact isSince_iff.mpr ((isSince_iff.mp hsince).trans hle)

/-- An entry of a page is one of the range. -/
theorem getElem_pageAt {i j : ℕ} (hi : i ≤ (h.between before until').length)
    {e : SignatureEntry} (he : (client.pageAt before until' limit i)[j]? = some e) :
    (h.between before until')[i + j]? = some e := by
  obtain ⟨rest, hrest⟩ := pageAt_isPrefix client limit hi
  have hdrop : ((h.between before until').drop i)[j]? = some e := by
    rw [← hrest, List.getElem?_append_left (List.getElem?_eq_some_iff.mp he).1, he]
  rwa [List.getElem?_drop] at hdrop

/-- The entries of a page are ordered as those of the chain. -/
theorem sorted_pageAt {i : ℕ} (hi : i ≤ (h.between before until').length) :
    (client.pageAt before until' limit i).Pairwise fun newer older =>
      older.time ≤ newer.time := by
  apply List.Pairwise.sublist (pageAt_isPrefix client limit hi).sublist
  exact (h.sorted.take).drop.drop

theorem nodup_pageAt {i : ℕ} (hi : i ≤ (h.between before until').length) :
    (client.pageAt before until' limit i).Nodup := by
  apply List.Nodup.sublist (pageAt_isPrefix client limit hi).sublist
  exact (((h.nodup.of_map _).sublist (List.take_sublist ..)).sublist (List.drop_sublist ..)).sublist
    (List.drop_sublist ..)

/-- The last entry of a page is the oldest. -/
theorem last_le {page : List SignatureEntry} {earliest : SignatureEntry}
    (hsorted : page.Pairwise fun newer older => older.time ≤ newer.time)
    (hlast : page.getLast? = some earliest) {e : SignatureEntry} (he : e ∈ page) :
    earliest.time ≤ e.time := by
  obtain ⟨init, rfl⟩ := List.getLast?_eq_some_iff.mp hlast
  rcases List.mem_append.mp he with hinit | hlast
  · exact (List.pairwise_append.mp hsorted).2.2 e hinit earliest (by simp)
  · rw [List.mem_singleton.mp hlast]

/-- If the last entry of a page is too old, then all that is kept by the search is what is to be
kept exactly when all of the entries are too old and have a block time. -/
theorem drop_partitionPoint_iff {ts : ℤ} {page : List SignatureEntry} {earliest : SignatureEntry}
    (hsorted : page.Pairwise fun newer older => older.time ≤ newer.time)
    (hnodup : page.Nodup) (hlast : page.getLast? = some earliest)
    (hearliest : earliest.isSince ts = false) :
    page.drop (partitionPoint (SignatureEntry.isBefore ts) page) =
        page.takeWhile (SignatureEntry.isSince ts) ↔
      ∀ e ∈ page, e.isBefore ts = true := by
  cases page with
  | nil => simp at hlast
  | cons first rest =>
    constructor
    · intro heq
      cases hfirst : first.isSince ts with
      | true =>
        -- the first entry is to be kept, so the search keeps the whole page with its last entry
        rw [List.takeWhile_cons_of_pos hfirst] at heq
        cases hidx : partitionPoint (SignatureEntry.isBefore ts) (first :: rest) with
        | zero =>
          rw [hidx, List.drop_zero, List.cons.injEq] at heq
          have hall : ∀ e ∈ first :: rest, e.isSince ts = true := by
            intro e he
            rcases List.mem_cons.mp he with rfl | he
            · exact hfirst
            · exact List.takeWhile_eq_self_iff.mp heq.2.symm e he
          rw [hall earliest (List.mem_of_getLast? hlast)] at hearliest
          contradiction
        | succ k =>
          rw [hidx, List.drop_succ_cons] at heq
          have hmem : first ∈ rest := by
            apply List.mem_of_mem_drop (i := k)
            rw [heq]
            exact List.mem_cons_self
          exact absurd hmem (List.nodup_cons.mp hnodup).1
      | false =>
        -- nothing is to be kept, so the last entry passes the test of the search
        rw [List.takeWhile_cons_of_neg (by simp [hfirst]), List.drop_eq_nil_iff] at heq
        cases hbefore : earliest.isBefore ts with
        | false =>
          have hlt := partitionPoint_lt hlast hbefore
          omega
        | true =>
          intro e he
          apply isBefore_iff.mpr
          constructor
          · by_contra hsince
            rw [Bool.not_eq_false, isSince_iff] at hsince
            have hle : e.time ≤ first.time := by
              rcases List.mem_cons.mp he with rfl | he
              · exact le_rfl
              · exact (List.pairwise_cons.mp hsorted).1 e he
            rw [isSince_iff.mpr (hsince.trans hle)] at hfirst
            contradiction
          · exact isSome_of_le (last_le hsorted hlast he) (isBefore_iff.mp hbefore).2
    · intro hall
      have hfirst : first.isSince ts = false :=
        (isBefore_iff.mp (hall first List.mem_cons_self)).1
      rw [partitionPoint_of_all hall, List.drop_length]
      simp [hfirst]

/-! ## The loop -/

theorem runSince_isPrefix (blocktimeLimit : Option ℤ) (entries : List SignatureEntry) :
    runSince blocktimeLimit entries <+: entries := by
  cases blocktimeLimit with
  | none => exact List.prefix_refl entries
  | some ts => exact List.takeWhile_prefix _

/-- Entries collected within the run are its first ones. -/
theorem take_runSince {blocktimeLimit : Option ℤ} {entries : List SignatureEntry} {i : ℕ}
    (hi : i ≤ (runSince blocktimeLimit entries).length) :
    (runSince blocktimeLimit entries).take i = entries.take i := by
  obtain ⟨rest, hrest⟩ := runSince_isPrefix blocktimeLimit entries
  nth_rewrite 2 [← hrest]
  rw [List.take_append_of_le_length hi]

/-- A limit that the run stays within does not cut it. -/
theorem cutTo_of_le {limit : Option ℕ} {entries : List SignatureEntry}
    (hlimit : ∀ n, limit = some n → entries.length ≤ n) : cutTo limit entries = entries := by
  cases limit with
  | none => rfl
  | some n => exact List.take_of_length_le (hlimit n rfl)

/-- Nothing more is asked for once the limit is reached. -/
theorem cuts_of_limit {blocktimeLimit : Option ℤ} {i : ℕ} (hlimit : limit = some i) :
    client.CutsBetweenPages before until' limit blocktimeLimit i := by
  intro j hj _ hlt
  have hle := le_of_asks hj
  have := hlt i hlimit
  omega

/-- A page that is within the run is not cut. -/
theorem cuts_iff_next {blocktimeLimit : Option ℤ} {i : ℕ}
    (hpage : i + (client.pageAt before until' limit i).length ≤
      (runSince blocktimeLimit (h.between before until')).length) :
    client.CutsBetweenPages before until' limit blocktimeLimit i ↔
      client.CutsBetweenPages before until' limit blocktimeLimit
        (i + (client.pageAt before until' limit i).length) := by
  constructor
  · intro hcuts j hj
    exact hcuts j (asks_iff.mpr (.inr hj))
  · intro hcuts j hj hle hlt hreach
    rcases asks_iff.mp hj with rfl | hj
    · omega
    · exact hcuts j hj hle hlt hreach

/-- A page that reaches beyond the run is the last one that is asked for. -/
theorem cuts_iff_last {blocktimeLimit : Option ℤ} {i : ℕ}
    (hi : i ≤ (runSince blocktimeLimit (h.between before until')).length)
    (hlimit : ∀ n, limit = some n → i < n)
    (hpage : (runSince blocktimeLimit (h.between before until')).length <
      i + (client.pageAt before until' limit i).length) :
    client.CutsBetweenPages before until' limit blocktimeLimit i ↔
      i = (runSince blocktimeLimit (h.between before until')).length ∧
        ∀ e ∈ client.pageAt before until' limit i, e.blockTime.isSome = true := by
  constructor
  · intro hcuts
    exact hcuts i (.here i) hi hlimit hpage
  · intro hcut j hj hle _ _
    rcases asks_iff.mp hj with rfl | hj
    · exact hcut
    · have := le_of_asks hj
      omega

/-- The run ends in the page whose last entry is too old. -/
theorem runSince_of_last {ts : ℤ} {i : ℕ} {earliest : SignatureEntry}
    (hi : i ≤ (runSince (some ts) (h.between before until')).length)
    (hlast : (client.pageAt before until' limit i).getLast? = some earliest)
    (hearliest : earliest.isSince ts = false) :
    runSince (some ts) (h.between before until') = (h.between before until').take i ++
      (client.pageAt before until' limit i).takeWhile (SignatureEntry.isSince ts) := by
  have hlen : i ≤ (h.between before until').length :=
    hi.trans (runSince_isPrefix _ _).length_le
  obtain ⟨rest, hrest⟩ := pageAt_isPrefix client limit hlen
  have htake : ∀ e ∈ (h.between before until').take i, e.isSince ts = true := by
    intro e he
    rw [← take_runSince hi] at he
    exact List.mem_takeWhile_imp (List.mem_of_mem_take he)
  have hpage : ((client.pageAt before until' limit i).takeWhile
      (SignatureEntry.isSince ts)).length ≠ (client.pageAt before until' limit i).length := by
    intro heq
    have hall := (List.takeWhile_prefix (SignatureEntry.isSince ts)).eq_of_length heq
    rw [List.takeWhile_eq_self_iff.mp hall earliest (List.mem_of_getLast? hlast)] at hearliest
    contradiction
  have hrun : runSince (some ts) (h.between before until') =
      ((h.between before until').take i ++ (client.pageAt before until' limit i ++ rest)).takeWhile
        (SignatureEntry.isSince ts) := by
    rw [hrest, List.take_append_drop]
    rfl
  rw [hrun, List.takeWhile_append_of_pos htake, List.takeWhile_append, if_neg hpage]

/-- The page whose last entry is too old is all too old when the run ends before it. -/
theorem all_isBefore_iff {ts : ℤ} {i : ℕ}
    (hi : i ≤ (runSince (some ts) (h.between before until')).length)
    (hpage : (runSince (some ts) (h.between before until')).length <
      i + (client.pageAt before until' limit i).length) :
    (∀ e ∈ client.pageAt before until' limit i, e.isBefore ts = true) ↔
      i = (runSince (some ts) (h.between before until')).length ∧
        ∀ e ∈ client.pageAt before until' limit i, e.blockTime.isSome = true := by
  have hlen : i ≤ (h.between before until').length :=
    hi.trans (runSince_isPrefix _ _).length_le
  constructor
  · intro hall
    refine ⟨?_, fun e he => (isBefore_iff.mp (hall e he)).2⟩
    have hpos : 0 < (client.pageAt before until' limit i).length := by omega
    have hfirst : (client.pageAt before until' limit i)[0]? =
        some (client.pageAt before until' limit i)[0] := List.getElem?_eq_getElem hpos
    have hsince := isSince_iff_lt ts (getElem_pageAt hlen hfirst)
    rw [(isBefore_iff.mp (hall _ (List.mem_of_getElem? hfirst))).1] at hsince
    simp only [Bool.false_eq_true, add_zero, false_iff, not_lt] at hsince
    omega
  · rintro ⟨heq, hknown⟩ e he
    apply isBefore_iff.mpr
    refine ⟨?_, hknown e he⟩
    obtain ⟨j, hj⟩ := List.mem_iff_getElem?.mp he
    by_contra hsince
    rw [Bool.not_eq_false, isSince_iff_lt ts (getElem_pageAt hlen hj)] at hsince
    omega

/-- A page never goes beyond the limit. -/
theorem pageAt_le_limit (client : SignatureClient h) (before until' : Option Signature)
    {i n : ℕ} (hn : limit = some n) (hi : i ≤ n) :
    i + (client.pageAt before until' limit i).length ≤ n := by
  have hle := client.page_length (beforeAt h before until' i) until'
    ((limit.map (· - i)).map (min · 1000))
  subst hn
  simp only [Option.map_some, Option.getD_some] at hle
  simp only [SignatureClient.pageAt, Option.map_some]
  omega

/-- A signature of the range is not `until`, so the two agree at most for an empty range. -/
theorem range_eq_nil_of_until {i : ℕ} (hi : i ≤ (h.between before until').length)
    (heq : beforeAt h before until' i = until') (hsome : (beforeAt h before until' i).isSome) :
    h.between before until' = [] := by
  cases i with
  | zero =>
    obtain ⟨signature, hsignature⟩ := Option.isSome_iff_exists.mp hsome
    simp only [beforeAt] at heq hsignature
    rw [← heq, hsignature]
    exact SignatureHistory.between_self signature
  | succ i =>
    have hget : (h.between before until')[i]? = some (h.between before until')[i] :=
      List.getElem?_eq_getElem hi
    simp only [beforeAt, hget, Option.map_some] at heq
    exact absurd heq (SignatureHistory.ne_until_of_between hget)

/-- Once the whole range is collected there is nothing left to cut. -/
theorem cuts_of_range {blocktimeLimit : Option ℤ} {i : ℕ}
    (hi : i = (h.between before until').length) :
    client.CutsBetweenPages before until' limit blocktimeLimit i := by
  intro j hj hle _ hreach
  have hij := le_of_asks hj
  have hrun := (runSince_isPrefix blocktimeLimit (h.between before until')).length_le
  have hpage := (pageAt_isPrefix client limit (hle.trans hrun)).length_le
  rw [List.length_drop] at hpage
  omega

/-- The position of the last entry of a page. -/
theorem getElem_of_last {i : ℕ} (hi : i ≤ (h.between before until').length)
    {earliest : SignatureEntry}
    (hlast : (client.pageAt before until' limit i).getLast? = some earliest) :
    (h.between before until')[i + ((client.pageAt before until' limit i).length - 1)]? =
      some earliest := by
  apply getElem_pageAt hi
  rw [← List.getLast?_eq_getElem?]
  exact hlast

/-- At the page whose last entry is too old the search keeps the run exactly when it cuts
between pages. -/
theorem cut_last_iff {ts : ℤ} {i : ℕ} {earliest : SignatureEntry}
    (hi : i ≤ (runSince (some ts) (h.between before until')).length)
    (hlimit : ∀ n, limit = some n → i < n)
    (hlast : (client.pageAt before until' limit i).getLast? = some earliest)
    (hearliest : earliest.isSince ts = false) :
    (h.between before until').take i ++ (client.pageAt before until' limit i).drop
          (partitionPoint (SignatureEntry.isBefore ts) (client.pageAt before until' limit i)) =
        cutTo limit (runSince (some ts) (h.between before until')) ↔
      client.CutsBetweenPages before until' limit (some ts) i := by
  have hlen : i ≤ (h.between before until').length :=
    hi.trans (runSince_isPrefix _ _).length_le
  have hreach : (runSince (some ts) (h.between before until')).length <
      i + (client.pageAt before until' limit i).length := by
    have hpos := List.length_pos_of_mem (List.mem_of_getLast? hlast)
    have hsince := isSince_iff_lt ts (getElem_of_last hlen hlast)
    rw [hearliest] at hsince
    simp only [Bool.false_eq_true, false_iff, not_lt] at hsince
    omega
  have hcut : cutTo limit (runSince (some ts) (h.between before until')) =
      runSince (some ts) (h.between before until') := by
    apply cutTo_of_le
    intro n hn
    have := pageAt_le_limit client before until' hn (hlimit n hn).le
    omega
  rw [cuts_iff_last hi hlimit hreach, ← all_isBefore_iff hi hreach,
    ← drop_partitionPoint_iff (sorted_pageAt hlen) (nodup_pageAt hlen) hlast hearliest,
    hcut, runSince_of_last hi hlast hearliest, List.append_cancel_left_eq]

/-- A page whose last entry is not too old is within the run. -/
theorem page_within {blocktimeLimit : Option ℤ} {i : ℕ} {earliest : SignatureEntry}
    (hi : i ≤ (h.between before until').length)
    (hlast : (client.pageAt before until' limit i).getLast? = some earliest)
    (hearliest : (blocktimeLimit.filter fun ts => !earliest.isSince ts) = none) :
    i + (client.pageAt before until' limit i).length ≤
      (runSince blocktimeLimit (h.between before until')).length := by
  have hget := getElem_of_last hi hlast
  cases blocktimeLimit with
  | none =>
    have hlt := (List.getElem?_eq_some_iff.mp hget).1
    simp only [runSince]
    omega
  | some ts =>
    have hsince : earliest.isSince ts = true := by simpa using hearliest
    have hlt := (isSince_iff_lt ts hget).mp hsince
    omega

/-- From any number of collected entries on the search ends, and it answers the run cut to the
limit exactly when it cuts between pages. -/
theorem searchLoop_iff (client : SignatureClient h) (limit : Option ℕ)
    (blocktimeLimit : Option ℤ) {fuel i : ℕ}
    (hi : i ≤ (runSince blocktimeLimit (h.between before until')).length)
    (hlimit : ∀ n, limit = some n → i ≤ n)
    (hfuel : (h.between before until').length < fuel + i) :
    ∃ out reason, searchLoop client until' blocktimeLimit fuel (beforeAt h before until' i)
        (limit.map (· - i)) ((h.between before until').take i) = some (out, reason) ∧
      (out = cutTo limit (runSince blocktimeLimit (h.between before until')) ↔
        client.CutsBetweenPages before until' limit blocktimeLimit i) := by
  have hlen : i ≤ (h.between before until').length :=
    hi.trans (runSince_isPrefix _ _).length_le
  induction fuel generalizing i with
  | zero => omega
  | succ fuel ih =>
    have hpageAt : client.page (beforeAt h before until' i) until'
        ((limit.map (· - i)).map (min · 1000)) = client.pageAt before until' limit i := rfl
    simp only [searchLoop, hpageAt]
    split_ifs with hzero huntil
    · -- the limit is reached
      obtain ⟨n, rfl, hn⟩ := Option.map_eq_some_iff.mp hzero
      obtain rfl : i = n := by
        have := hlimit n rfl
        omega
      refine ⟨_, _, rfl, iff_of_true ?_ (cuts_of_limit rfl)⟩
      exact (take_runSince hi).symm
    · -- there is nothing between `until` and `before`
      have hnil := range_eq_nil_of_until hlen huntil.1 huntil.2
      refine ⟨_, _, rfl, iff_of_true ?_ (cuts_of_range ?_)⟩
      · rw [hnil, List.take_nil, cutTo_of_le]
        · exact (List.prefix_nil.mp (runSince_isPrefix _ _)).symm
        · have hle := (runSince_isPrefix blocktimeLimit ([] : List SignatureEntry)).length_le
          rw [List.length_nil] at hle
          omega
      · rw [hnil] at hlen ⊢
        simpa using hlen
    · cases hlast : (client.pageAt before until' limit i).getLast? with
      | none =>
        -- an empty page: the whole range is collected
        have hlen' : i = (h.between before until').length := by
          by_contra hne
          exact pageAt_ne_nil (by omega) hzero (List.getLast?_eq_none_iff.mp hlast)
        have hrun : runSince blocktimeLimit (h.between before until') =
            h.between before until' := by
          have hle := (runSince_isPrefix blocktimeLimit (h.between before until')).length_le
          exact (runSince_isPrefix _ _).eq_of_length (by omega)
        refine ⟨_, _, rfl, iff_of_true ?_ (cuts_of_range hlen')⟩
        rw [hrun, cutTo_of_le, List.take_of_length_le hlen'.ge]
        rw [← hlen']
        exact hlimit
      | some earliest =>
        have hstrict : ∀ n, limit = some n → i < n := by
          rintro n rfl
          simp only [Option.map_some, Option.some.injEq] at hzero
          omega
        dsimp only
        cases hfilter : blocktimeLimit.filter fun ts => !earliest.isSince ts with
        | some ts =>
          -- the search stops within this page
          obtain ⟨rfl, hearliest⟩ := Option.filter_eq_some_iff.mp hfilter
          exact ⟨_, _, rfl, cut_last_iff hi hstrict hlast (by simpa using hearliest)⟩
        | none =>
          -- the page is within the run
          have hpos := List.length_pos_of_mem (List.mem_of_getLast? hlast)
          have hwithin := page_within hlen hlast hfilter
          have hmap : (limit.map (· - i)).map
              (· - (client.pageAt before until' limit i).length) =
              limit.map (· - (i + (client.pageAt before until' limit i).length)) := by
            rw [Option.map_map]
            simp only [Function.comp_def, Nat.sub_sub]
          rw [cuts_iff_next hwithin, take_append_pageAt hlen, hmap, ← beforeAt_add hlen hlast]
          apply ih hwithin
          · intro n hn
            exact pageAt_le_limit client before until' hn (hlimit n hn)
          · omega
          · exact hwithin.trans (runSince_isPrefix _ _).length_le

end Pages

/-! ## The search -/

theorem ordered_injective (order : Option TransactionHistoryOrder) :
    Function.Injective (ordered order) := by
  intro a b hab
  unfold ordered at hab
  cases ho : order.getD .backward with
  | backward => simpa only [ho] using hab
  | forward =>
    rw [ho] at hab
    exact List.reverse_injective hab

theorem ordered_isInfix {order : Option TransactionHistoryOrder} {a b : List SignatureEntry}
    (hab : a <:+: b) : ordered order a <:+: ordered order b := by
  unfold ordered
  cases order.getD .backward with
  | backward => exact hab
  | forward => exact List.reverse_infix.mpr hab

/-- The range is part of the history. -/
theorem between_isInfix (before until' : Option Signature) :
    h.between before until' <:+: h.entries :=
  (List.drop_suffix _ _).isInfix.trans (List.take_prefix _ _).isInfix

/-- What a search is to answer has no gaps. -/
theorem search_isInfix (before until' : Option Signature) (limits : List TransactionHistoryLimit)
    (order : Option TransactionHistoryOrder) :
    h.search before until' limits order <:+: ordered order h.entries := by
  apply ordered_isInfix
  have hcut : cutTo (searchLimits limits).1
      (runSince (searchLimits limits).2 (h.between before until')) <+:
      runSince (searchLimits limits).2 (h.between before until') := by
    cases (searchLimits limits).1 with
    | none => exact List.prefix_refl _
    | some n => exact List.take_prefix _ _
  exact (hcut.trans (runSince_isPrefix _ _)).isInfix.trans (between_isInfix before until')

/-- What a search is to answer has no duplicates. -/
theorem search_nodup (before until' : Option Signature) (limits : List TransactionHistoryLimit)
    (order : Option TransactionHistoryOrder) : (h.search before until' limits order).Nodup := by
  apply List.Nodup.sublist (search_isInfix before until' limits order).sublist
  have hnodup : h.entries.Nodup := h.nodup.of_map _
  unfold ordered
  cases order.getD .backward with
  | backward => exact hnodup
  | forward => exact List.nodup_reverse.mpr hnodup

/-- Every search ends, and it answers the run between `until` and `before` that is not older
than the block time, cut to the number of entries, without gaps and without duplicates, exactly
when the page at which it stops because of the block time begins with the first entry that is
too old and has a block time for all of its entries. -/
theorem getSignaturesForAddress_exact_iff (client : SignatureClient h)
    (before until' : Option Signature) (limits : List TransactionHistoryLimit)
    (order : Option TransactionHistoryOrder) (extra : ℕ) :
    ∃ out reason,
      getSignaturesForAddress client (h.entries.length + 1 + extra) before until' limits order =
        some (out, reason) ∧
      ((out = h.search before until' limits order ∧ out.Nodup ∧
          out <:+: ordered order h.entries) ↔
        client.CutsBetweenPages before until' (searchLimits limits).1 (searchLimits limits).2 0) := by
  have hfuel : (h.between before until').length < h.entries.length + 1 + extra + 0 := by
    have hle := (between_isInfix (h := h) before until').length_le
    omega
  obtain ⟨out, reason, hloop, hiff⟩ := searchLoop_iff client (searchLimits limits).1
    (searchLimits limits).2 (Nat.zero_le _) (fun n _ => Nat.zero_le n) hfuel
  rw [List.take_zero, Option.map_congr (fun n _ => Nat.sub_zero n), Option.map_id'] at hloop
  refine ⟨ordered order out, reason, ?_, ?_⟩
  · exact congrArg (Option.map fun found => (ordered order found.1, found.2)) hloop
  · rw [← hiff]
    constructor
    · intro hout
      exact ordered_injective order hout.1
    · rintro rfl
      exact ⟨rfl, search_nodup before until' limits order,
        search_isInfix before until' limits order⟩

/-- Two signatures in blocks with a time limit between them. -/
def twoBlocks : SignatureHistory where
  entries := [⟨1, some 10⟩, ⟨0, some 5⟩]
  nodup := by decide +kernel
  sorted := by
    rw [List.pairwise_pair]
    exact WithBot.coe_le_coe.mpr (by decide)

/-- A search back to a time between two blocks of one page answers nothing, however long it
runs. -/
theorem not_exact_middle_page :
    ¬ ∃ fuel reason, getSignaturesForAddress twoBlocks.fullPages fuel none none [.blocktime 7]
      none = some (twoBlocks.search none none [.blocktime 7] none, reason) := by
  rintro ⟨fuel, reason, h⟩
  cases fuel with
  | zero => simp [getSignaturesForAddress, searchLoop] at h
  | succ fuel =>
    have hempty : getSignaturesForAddress twoBlocks.fullPages (fuel + 1) none none
        [.blocktime 7] none = some ([], .blockTime) := rfl
    have hsearch : (twoBlocks.search none none [.blocktime 7] none).length = 1 := rfl
    rw [hempty, Option.some.injEq, Prod.mk.injEq] at h
    rw [← h.1] at hsearch
    contradiction

end Biscuit.Wire
