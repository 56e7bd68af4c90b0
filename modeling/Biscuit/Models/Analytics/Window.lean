import Biscuit.Models.Analytics.Dump

/-!
# The window of an answer

The answer of a dump is cut out between the positions that two binary searches report, and the
upper one is taken along. Of several swaps with the time of a bound any may be reported, and without
one the upper position is that of a later swap, or of none.
-/

namespace Biscuit.Analytics.Dump

/-- The swaps of a window, its bounds included. -/
def inWindow (targetStart targetEnd : ℤ) (swaps : List Swap) : List Swap :=
  swaps.filter fun o => targetStart ≤ o.blockTime ∧ o.blockTime ≤ targetEnd

section

variable {swaps : List Swap} {targetStart targetEnd : ℤ}

/-- The positions that are reported for the two ends of a window. -/
theorem index_bounds (search : KeySearch ℤ)
    (hsorted : (swaps.map Swap.blockTime).Pairwise (· ≤ ·)) (h : targetStart < targetEnd) :
    (swaps.map Swap.blockTime).countP (· < targetStart) ≤
        search.index (swaps.map Swap.blockTime) targetStart ∧
      search.index (swaps.map Swap.blockTime) targetStart ≤
        search.index (swaps.map Swap.blockTime) targetEnd ∧
      search.index (swaps.map Swap.blockTime) targetEnd ≤
        (swaps.map Swap.blockTime).countP (· ≤ targetEnd) ∧
      (swaps.map Swap.blockTime).countP (· ≤ targetEnd) ≤ swaps.length := by
  have hmid : (swaps.map Swap.blockTime).countP (· ≤ targetStart) ≤
      (swaps.map Swap.blockTime).countP (· < targetEnd) := by
    refine List.countP_mono_left fun t _ ht => ?_
    rw [decide_eq_true_eq] at ht ⊢
    exact ht.trans_lt h
  refine ⟨search.countP_lt_le_index hsorted targetStart, ?_,
    search.index_le_countP_le hsorted targetEnd, ?_⟩
  · exact (search.index_le_countP_le hsorted targetStart).trans
      (hmid.trans (search.countP_lt_le_index hsorted targetEnd))
  · exact List.countP_le_length.trans_eq (List.length_map _)

/-- The answer is the window exactly when the upper position is that of its last swap and the lower
one that of its first. -/
theorem answer_eq_window_iff (search : KeySearch ℤ)
    (hsorted : (swaps.map Swap.blockTime).Pairwise (· ≤ ·)) (h : targetStart < targetEnd) :
    answer search swaps targetStart targetEnd = .ok (inWindow targetStart targetEnd swaps) ↔
      search.index (swaps.map Swap.blockTime) targetEnd + 1 =
        (swaps.map Swap.blockTime).countP (· ≤ targetEnd) ∧
      search.index (swaps.map Swap.blockTime) targetStart =
        (swaps.map Swap.blockTime).countP (· < targetStart) := by
  obtain ⟨hstart, hle, hstop, hlength⟩ := index_bounds search hsorted h
  have hwindow : inWindow targetStart targetEnd swaps =
      (swaps.take ((swaps.map Swap.blockTime).countP (· ≤ targetEnd))).drop
        ((swaps.map Swap.blockTime).countP (· < targetStart)) :=
    filter_window_eq hsorted targetStart targetEnd
  simp only [answer, sliceInclusive]
  set lower := search.index (swaps.map Swap.blockTime) targetStart
  set upper := search.index (swaps.map Swap.blockTime) targetEnd
  constructor
  · intro hanswer
    split_ifs at hanswer with hin
    have hupper := hin.2
    have hslice := Outcome.ok.inj hanswer
    -- The swap at the upper position is returned, so it is not behind the window.
    have hlast : swaps[upper] ∈ inWindow targetStart targetEnd swaps := by
      rw [← hslice, List.mem_iff_getElem?]
      refine ⟨upper - lower, ?_⟩
      rw [List.getElem?_drop, List.getElem?_take, if_pos (by omega), Nat.add_sub_of_le hle,
        List.getElem?_eq_getElem]
    have htime : (swaps.map Swap.blockTime)[upper]? = some swaps[upper].blockTime := by
      rw [List.getElem?_map, List.getElem?_eq_getElem hupper, Option.map_some]
    have hbefore := (le_iff_lt_countP hsorted targetEnd htime).mp
      (of_decide_eq_true (List.mem_filter.mp hlast).2).2
    have hlengths := congrArg List.length (hslice.trans hwindow)
    rw [List.length_drop, List.length_take, List.length_drop, List.length_take] at hlengths
    omega
  · rintro ⟨hupper, hlower⟩
    rw [if_pos (by omega), hwindow, hupper, hlower]

/-- Whichever positions are reported, the answer is the window exactly when one swap is from the end
of the window, and no more than one from its start. -/
theorem answer_eq_inWindow_iff (swaps : List Swap) (targetStart targetEnd : ℤ)
    (hsorted : (swaps.map Swap.blockTime).Pairwise (· ≤ ·)) (h : targetStart < targetEnd) :
    (∀ search : KeySearch ℤ,
        answer search swaps targetStart targetEnd = .ok (inWindow targetStart targetEnd swaps)) ↔
      (swaps.map Swap.blockTime).count targetEnd = 1 ∧
        (swaps.map Swap.blockTime).count targetStart ≤ 1 := by
  simp only [answer_eq_window_iff _ hsorted h, countP_le_eq]
  constructor
  · intro hall
    have hfirst := (hall KeySearch.first).1
    rw [KeySearch.index_first] at hfirst
    refine ⟨by omega, ?_⟩
    by_cases hmem : targetStart ∈ swaps.map Swap.blockTime
    · have hlast := (hall KeySearch.last).2
      rw [KeySearch.index_last_of_mem hmem, countP_le_eq] at hlast
      have hpos := List.count_pos_iff.mpr hmem
      omega
    · rw [List.count_eq_zero.mpr hmem]
      exact Nat.zero_le 1
  · rintro ⟨hend, hstart⟩ search
    rw [search.index_eq_of_count_le_one hsorted hend.le,
      search.index_eq_of_count_le_one hsorted hstart, hend]
    exact ⟨rfl, rfl⟩

/-- The selection panics exactly when the window ends behind every swap. -/
theorem answer_eq_panic_iff (search : KeySearch ℤ)
    (hsorted : (swaps.map Swap.blockTime).Pairwise (· ≤ ·)) (h : targetStart < targetEnd) :
    answer search swaps targetStart targetEnd = .panic ↔
      ∀ t ∈ swaps.map Swap.blockTime, t < targetEnd := by
  obtain ⟨-, hle, hstop, hlength⟩ := index_bounds search hsorted h
  have hpanic : answer search swaps targetStart targetEnd = .panic ↔
      search.index (swaps.map Swap.blockTime) targetEnd = swaps.length := by
    simp only [answer, sliceInclusive]
    split_ifs with hin
    · refine iff_of_false (fun hok => by cases hok) fun heq => ?_
      exact absurd hin.2 (not_lt.mpr heq.ge)
    · refine iff_of_true rfl ?_
      by_contra hne
      exact hin ⟨by omega, by omega⟩
  rw [hpanic]
  constructor
  · intro hend t ht
    by_contra hge
    cases hs : search.search (swaps.map Swap.blockTime) targetEnd with
    | ok i =>
      have hi := (List.getElem?_eq_some_iff.mp (search.found hsorted hs)).1
      rw [search.index_of_found hs] at hend
      rw [List.length_map] at hi
      exact absurd hend hi.ne
    | error i =>
      rw [KeySearch.index, hs, (search.missing hsorted hs).2,
        ← List.length_map (f := Swap.blockTime), List.countP_eq_length] at hend
      exact hge (of_decide_eq_true (hend t ht))
  · intro hall
    have hcount : (swaps.map Swap.blockTime).countP (· < targetEnd) = swaps.length := by
      rw [← List.length_map (f := Swap.blockTime), List.countP_eq_length]
      exact fun t ht => decide_eq_true (hall t ht)
    have hlower := search.countP_lt_le_index hsorted targetEnd
    omega

end

/-- A swap at a time. -/
def swapAt (blockTime : ℤ) : Swap where
  swap :=
    { inputAmount := 2
      outputAmount := 3
      inputTokenMint := SOL
      outputTokenMint := USDC
      tokenDecimals := none
      owner := none
      provider := .jupiter }
  originSigner := USDT
  originSignature := 0
  blockTime := blockTime
  originSolBalance := none
  originInputMintBalance := none
  originOutputMintBalance := none

theorem answer_threeTimes :
    answer .first [swapAt 5, swapAt 7, swapAt 9] 6 9 =
      .ok (inWindow 6 9 [swapAt 5, swapAt 7, swapAt 9]) :=
  (answer_eq_inWindow_iff [swapAt 5, swapAt 7, swapAt 9] 6 9 (by decide) (by decide)).mpr
    (by decide) .first

/-- A swap behind the window is returned with those in it. -/
theorem answer_behind :
    ¬ ∀ (search : KeySearch ℤ) (swaps : List Swap) (targetStart targetEnd : ℤ),
      (swaps.map Swap.blockTime).Pairwise (· ≤ ·) → targetStart < targetEnd →
        answer search swaps targetStart targetEnd =
          .ok (inWindow targetStart targetEnd swaps) := by
  intro hall
  have hwindow := hall KeySearch.first [swapAt 5, swapAt 7, swapAt 9] 6 8 (by decide) (by decide)
  exact absurd hwindow (by decide +kernel)

end Biscuit.Analytics.Dump
