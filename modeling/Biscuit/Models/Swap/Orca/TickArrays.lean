import Biscuit.Core.Checked
import Biscuit.Core.Rounding
import Biscuit.Models.Chain.Keys

/-!
# The tick arrays of a swap

A whirlpool keeps its ticks in arrays of eighty-eight, at a spacing of its own. A swap is given
the addresses of up to three arrays, from the one with the current price on in the direction of
the swap. Whether an array is within the range of ticks is decided by its start.
-/

namespace Biscuit.Swap.Orca

/-- `MIN_TICK_INDEX` -/
def minTickIndex : ℤ := -443636

/-- `MAX_TICK_INDEX` -/
def maxTickIndex : ℤ := 443636

/-- `TICK_ARRAY_SIZE` -/
def tickArraySize : ℤ := 88

/-- The maximum number of tick-arrays that can traversed across in a swap -/
def maxSwapTickArrays : ℕ := 3

/-- Why a quote fails. -/
inductive OrcaError
  /-- startTickIndex is too small -/
  | startTooSmall (startTickIndex : ℤ)
  /-- startTickIndex is too large -/
  | startTooLarge (startTickIndex : ℤ)
  /-- A request to the node fails. -/
  | request
  /-- An account is not what it should be. -/
  | deserialize
  /-- Whirlpool state from RPC doesn't match specified mints -/
  | rpcMints
  /-- Whirlpool state from API doesn't match specified mints -/
  | apiMints
  /-- The clock is before the epoch. -/
  | clock
  /-- The swap itself fails. -/
  | swap (code : ℕ)
  deriving DecidableEq, Repr

/-- `%` of signed words, with the sign of the dividend. -/
def remInt {ε : Type} (x y : ℤ) : Outcome ε ℤ := if y = 0 then .panic else .ok (x.tmod y)

/-- `get_start_tick_index` -/
def getStartTickIndex (b : Build) (tickIndex tickSpacing offset : ℤ) : Outcome OrcaError ℤ := do
  let realIndex :=
    (F64.ofInt tickIndex / F64.ofInt tickSpacing / F64.ofInt tickArraySize).floor.toI32
  let index ← b.int 32 (realIndex + offset)
  let scaled ← b.int 32 (index * tickSpacing)
  let startTickIndex ← b.int 32 (scaled * tickArraySize)
  let ticksInArray ← b.int 32 (tickArraySize * tickSpacing)
  let rem ← remInt minTickIndex ticksInArray
  let below ← b.int 32 (rem + ticksInArray)
  let minStart ← b.int 32 (minTickIndex - below)
  if startTickIndex ≤ minStart then .err (.startTooSmall startTickIndex)
  else if maxTickIndex ≤ startTickIndex then .err (.startTooLarge startTickIndex)
  else .ok startTickIndex

/-- A seed of an address. -/
inductive Seed
  | text (text : String)
  | key (key : Pubkey)
  deriving DecidableEq, Repr

/-- `get_tick_array_address` -/
def getTickArrayAddress (findProgramAddress : List Seed → Pubkey → Pubkey)
    (programId whirlpool : Pubkey) (startTick : ℤ) : Pubkey :=
  findProgramAddress [.text "tick_array", .key whirlpool, .text (toString startTick)] programId

/-- The loop of `get_tick_array_keys` for so many more arrays; it ends at a start that is
refused. -/
def tickArrayKeysFrom (b : Build) (address : ℤ → Pubkey)
    (tickCurrentIndex shift tickSpacing : ℤ) (aToB : Bool) :
    ℕ → ℤ → Outcome OrcaError (List Pubkey)
  | 0, _ => .ok []
  | n + 1, offset => do
    let tickIndex ← b.int 32 (tickCurrentIndex + shift)
    match getStartTickIndex b tickIndex tickSpacing offset with
    | .ok startIndex => do
      let offset ← b.int 32 (if aToB then offset - 1 else offset + 1)
      let rest ← tickArrayKeysFrom b address tickCurrentIndex shift tickSpacing aToB n offset
      .ok (address startIndex :: rest)
    | .err _ => .ok []
    | .panic => .panic

/-- `get_tick_array_keys` -/
def getTickArrayKeys (b : Build) (findProgramAddress : List Seed → Pubkey → Pubkey)
    (tickCurrentIndex tickSpacing : ℤ) (aToB : Bool) (programId whirlpoolAddress : Pubkey) :
    Outcome OrcaError (List Pubkey) :=
  let shift := if aToB then 0 else tickSpacing
  tickArrayKeysFrom b (getTickArrayAddress findProgramAddress programId whirlpoolAddress)
    tickCurrentIndex shift tickSpacing aToB maxSwapTickArrays 0

/-! ## Starts -/

/-- The ticks that one array spans. -/
def ticksInArray (tickSpacing : ℕ) : ℤ := (tickSpacing * 88 : ℕ)

theorem ticksInArray_pos {tickSpacing : ℕ} (hpos : 0 < tickSpacing) :
    0 < ticksInArray tickSpacing := by
  unfold ticksInArray
  omega

/-- No array ends at an end of the range: the range is no multiple of eighty-eight. -/
theorem not_ticksInArray_dvd (tickSpacing : ℕ) : ¬ ticksInArray tickSpacing ∣ maxTickIndex := by
  intro h
  have h88 : (88 : ℤ) ∣ ticksInArray tickSpacing := by
    rw [ticksInArray, Nat.mul_comm]
    exact ⟨tickSpacing, Nat.cast_mul _ _⟩
  have hdvd := h88.trans h
  revert hdvd
  decide

/-- What the code subtracts leaves the start of the array with the least tick. -/
theorem minStart_eq {tickSpacing : ℕ} (hpos : 0 < tickSpacing) :
    minTickIndex - (minTickIndex.tmod (ticksInArray tickSpacing) + ticksInArray tickSpacing) =
      minTickIndex / ticksInArray tickSpacing * ticksInArray tickSpacing := by
  have hsize := ticksInArray_pos hpos
  have hdvd : ¬ ticksInArray tickSpacing ∣ minTickIndex := by
    have hneg : minTickIndex = -maxTickIndex := rfl
    rw [hneg, Int.dvd_neg]
    exact not_ticksInArray_dvd tickSpacing
  have hnonneg : ¬ 0 ≤ minTickIndex := by decide
  have hrem : minTickIndex.tmod (ticksInArray tickSpacing) =
      minTickIndex % ticksInArray tickSpacing - ticksInArray tickSpacing := by
    rw [Int.tmod_eq_emod, if_neg (not_or.mpr ⟨hnonneg, hdvd⟩), Int.natAbs_of_nonneg hsize.le]
  have hdiv := Int.mul_ediv_add_emod minTickIndex (ticksInArray tickSpacing)
  rw [hrem, Int.mul_comm (minTickIndex / _)]
  omega

/-- The arrays, by their number from zero, that the code takes to be in range. -/
def ArrayInRange (tickSpacing : ℕ) (k : ℤ) : Prop :=
  minTickIndex / ticksInArray tickSpacing < k ∧ k ≤ maxTickIndex / ticksInArray tickSpacing

instance (tickSpacing : ℕ) (k : ℤ) : Decidable (ArrayInRange tickSpacing k) :=
  inferInstanceAs (Decidable (_ ∧ _))

/-- An array starts past the largest tick exactly when it comes after the array with that tick. -/
theorem maxTickIndex_le_start_iff {tickSpacing : ℕ} (hpos : 0 < tickSpacing) (k : ℤ) :
    maxTickIndex ≤ k * ticksInArray tickSpacing ↔ maxTickIndex / ticksInArray tickSpacing < k := by
  rw [Int.ediv_lt_iff_lt_mul (ticksInArray_pos hpos), le_iff_lt_or_eq]
  refine or_iff_left fun heq => not_ticksInArray_dvd tickSpacing ?_
  rw [heq]
  exact Int.dvd_mul_left _ _

/-- A tick not far from the range, and an array not far from that of the tick. -/
structure NearRange (tickIndex offset : ℤ) : Prop where
  tick : -2 ^ 20 ≤ tickIndex ∧ tickIndex ≤ 2 ^ 20
  offset : -3 ≤ offset ∧ offset ≤ 3

/-- The number of the array of a tick is not larger than the tick. -/
theorem arrayOf_bounds {tickIndex offset : ℤ} (hnear : NearRange tickIndex offset)
    {tickSpacing : ℕ} (hpos : 0 < tickSpacing) :
    -2 ^ 20 ≤ tickIndex / ticksInArray tickSpacing ∧
      tickIndex / ticksInArray tickSpacing ≤ 2 ^ 20 := by
  have hsize := ticksInArray_pos hpos
  obtain ⟨⟨hlo, hhi⟩, -⟩ := hnear
  constructor
  · rw [Int.le_ediv_iff_mul_le hsize]
    linarith
  · rw [← Int.lt_add_one_iff, Int.ediv_lt_iff_lt_mul hsize]
    linarith

/-- Rounding the quotients down is one integer division. -/
theorem realIndex_eq {tickIndex offset : ℤ} (hnear : NearRange tickIndex offset)
    {tickSpacing : ℕ} (hpos : 0 < tickSpacing) :
    (F64.ofInt tickIndex / F64.ofInt tickSpacing / F64.ofInt tickArraySize).floor.toI32 =
      tickIndex / ticksInArray tickSpacing := by
  obtain ⟨hlow, hhigh⟩ := arrayOf_bounds hnear hpos
  have h88 : 0 < 88 := by norm_num
  exact F64.toI32_floor_div_div tickIndex hpos h88 (le_trans (by norm_num) hlow)
    (lt_of_le_of_lt hhigh (by norm_num))

/-- Near the range nothing overflows, and a start is refused unless its array is in range. -/
theorem getStartTickIndex_eq (b : Build) {tickIndex offset : ℤ} (hnear : NearRange tickIndex offset)
    {tickSpacing : ℕ} (hpos : 0 < tickSpacing) (hword : tickSpacing < 2 ^ 16) :
    getStartTickIndex b tickIndex tickSpacing offset =
      let k := tickIndex / ticksInArray tickSpacing + offset
      if k ≤ minTickIndex / ticksInArray tickSpacing then
        .err (.startTooSmall (k * ticksInArray tickSpacing))
      else if maxTickIndex / ticksInArray tickSpacing < k then
        .err (.startTooLarge (k * ticksInArray tickSpacing))
      else .ok (k * ticksInArray tickSpacing) := by
  have hsize := ticksInArray_pos hpos
  have hsize' : ticksInArray tickSpacing < 2 ^ 23 := by
    unfold ticksInArray
    omega
  obtain ⟨hlow, hhigh⟩ := arrayOf_bounds hnear hpos
  have hle := Int.ediv_mul_le tickIndex hsize.ne'
  have hlt := Int.lt_ediv_add_one_mul_self tickIndex hsize
  have hminle := Int.ediv_mul_le minTickIndex hsize.ne'
  have hminlt := Int.lt_ediv_add_one_mul_self minTickIndex hsize
  have hmintick : minTickIndex = -443636 := rfl
  rw [Int.add_mul, Int.one_mul] at hlt hminlt
  unfold getStartTickIndex
  rw [realIndex_eq hnear hpos]
  obtain ⟨⟨hlo, hhi⟩, hback, hahead⟩ := hnear
  generalize tickIndex / ticksInArray tickSpacing = real at *
  have hdown := Int.mul_le_mul_of_nonneg_right hback hsize.le
  have hup := Int.mul_le_mul_of_nonneg_right hahead hsize.le
  have hstart : (real + offset) * ticksInArray tickSpacing =
      real * ticksInArray tickSpacing + offset * ticksInArray tickSpacing := Int.add_mul _ _ _
  have hscale : (real + offset) * tickSpacing * tickArraySize =
      (real + offset) * ticksInArray tickSpacing := by
    rw [Int.mul_assoc]
    rfl
  have h88 : (real + offset) * tickSpacing * 88 = (real + offset) * ticksInArray tickSpacing :=
    hscale
  have hticks : tickArraySize * tickSpacing = ticksInArray tickSpacing := Int.mul_comm _ _
  -- each intermediate result is within a few arrays of the range
  simp only [remInt]
  rw [b.int_ok (by omega) (by omega), Outcome.ok_bind, b.int_ok (by omega) (by omega),
    Outcome.ok_bind, hscale, b.int_ok (by omega) (by omega), Outcome.ok_bind, hticks,
    b.int_ok (by omega) (by omega), Outcome.ok_bind, if_neg hsize.ne', Outcome.ok_bind]
  have hmin := minStart_eq hpos
  rw [b.int_ok (by omega) (by omega), Outcome.ok_bind, hmin, b.int_ok (by omega) (by omega),
    Outcome.ok_bind]
  simp only [Int.mul_le_mul_iff_of_pos_right hsize, maxTickIndex_le_start_iff hpos]

/-- The start of an array in range is given, and every other one is refused. -/
theorem getStartTickIndex_ok_iff (b : Build) {tickIndex offset : ℤ}
    (hnear : NearRange tickIndex offset) {tickSpacing : ℕ} (hpos : 0 < tickSpacing)
    (hword : tickSpacing < 2 ^ 16) (start : ℤ) :
    getStartTickIndex b tickIndex tickSpacing offset = .ok start ↔
      ArrayInRange tickSpacing (tickIndex / ticksInArray tickSpacing + offset) ∧
        start = (tickIndex / ticksInArray tickSpacing + offset) * ticksInArray tickSpacing := by
  rw [getStartTickIndex_eq b hnear hpos hword, ArrayInRange]
  simp only
  split_ifs with hlow hhigh
  · simp only [Int.not_lt.mpr hlow, false_and]
  · simp only [Int.not_le.mpr hhigh, and_false, false_and]
  · simp only [Outcome.ok.injEq, Int.not_le.mp hlow, Int.not_lt.mp hhigh, true_and, eq_comm]

/-- No start panics. -/
theorem getStartTickIndex_ne_panic (b : Build) {tickIndex offset : ℤ}
    (hnear : NearRange tickIndex offset) {tickSpacing : ℕ} (hpos : 0 < tickSpacing)
    (hword : tickSpacing < 2 ^ 16) :
    getStartTickIndex b tickIndex tickSpacing offset ≠ .panic := by
  rw [getStartTickIndex_eq b hnear hpos hword]
  simp only
  split_ifs <;> exact fun h => by cases h

/-! ## The array of the price -/

/-- The start of the array of a tick is found, and the array has the tick. -/
def StartCovers (b : Build) (tickIndex tickSpacing : ℤ) : Prop :=
  ∃ start, getStartTickIndex b tickIndex tickSpacing 0 = .ok start ∧
    tickSpacing * tickArraySize ∣ start ∧ start ≤ tickIndex ∧
    tickIndex < start + tickSpacing * tickArraySize

/-- The array with the least tick is refused, although it is in range; every other tick of the
range is covered. -/
theorem startCovers_iff (b : Build) {tickIndex : ℤ} (hlow : minTickIndex ≤ tickIndex)
    (hhigh : tickIndex ≤ maxTickIndex) {tickSpacing : ℕ} (hpos : 0 < tickSpacing)
    (hword : tickSpacing < 2 ^ 16) :
    StartCovers b tickIndex tickSpacing ↔
      tickIndex / ticksInArray tickSpacing ≠ minTickIndex / ticksInArray tickSpacing := by
  have hsize := ticksInArray_pos hpos
  have hrange : minTickIndex = -443636 ∧ maxTickIndex = 443636 := ⟨rfl, rfl⟩
  have hnear : NearRange tickIndex 0 := ⟨by omega, by omega⟩
  have hscale : (tickSpacing : ℤ) * tickArraySize = ticksInArray tickSpacing := rfl
  have hfirst := Int.ediv_le_ediv hsize hlow
  have hlast := Int.ediv_le_ediv hsize hhigh
  have hle := Int.ediv_mul_le tickIndex hsize.ne'
  have hlt := Int.lt_ediv_add_one_mul_self tickIndex hsize
  unfold StartCovers
  simp only [getStartTickIndex_ok_iff b hnear hpos hword, hscale, Int.add_zero]
  constructor
  · rintro ⟨start, ⟨⟨hmin, -⟩, -⟩, -⟩
    exact hmin.ne'
  · intro hne
    refine ⟨_, ⟨⟨lt_of_le_of_ne hfirst hne.symm, hlast⟩, rfl⟩, Int.dvd_mul_left _ _, hle, ?_⟩
    rwa [Int.add_mul, Int.one_mul] at hlt

/-! ## The arrays of a swap -/

/-- By how many arrays the next one is away. -/
def direction (aToB : Bool) : ℤ := if aToB then -1 else 1

/-- The addresses of so many arrays, from one of them on. -/
def addressesFrom (address : ℤ → Pubkey) (tickSpacing : ℕ) (aToB : Bool) (k : ℤ) (count : ℕ) :
    List Pubkey :=
  (List.range count).map fun i : ℕ => address ((k + direction aToB * i) * ticksInArray tickSpacing)

theorem addressesFrom_succ (address : ℤ → Pubkey) (tickSpacing : ℕ) (aToB : Bool) (k : ℤ)
    (count : ℕ) :
    addressesFrom address tickSpacing aToB k (count + 1) =
      address (k * ticksInArray tickSpacing) ::
        addressesFrom address tickSpacing aToB (k + direction aToB) count := by
  have hshift : ∀ i : ℕ, k + direction aToB * (i + 1 : ℕ) =
      k + direction aToB + direction aToB * i := by
    intro i
    push_cast
    ring
  simp only [addressesFrom, List.range_succ_eq_map, List.map_cons, List.map_map,
    Function.comp_def, Nat.succ_eq_add_one, hshift, Nat.cast_zero, Int.mul_zero, Int.add_zero]

/-- How many arrays in a row, of so many from one of them on, are in range. -/
def arraysFrom (tickSpacing : ℕ) (aToB : Bool) : ℤ → ℕ → ℕ
  | _, 0 => 0
  | k, n + 1 =>
    if ArrayInRange tickSpacing k then arraysFrom tickSpacing aToB (k + direction aToB) n + 1 else 0

theorem arraysFrom_le (tickSpacing : ℕ) (aToB : Bool) (k : ℤ) (n : ℕ) :
    arraysFrom tickSpacing aToB k n ≤ n := by
  induction n generalizing k with
  | zero => exact le_rfl
  | succ n ih =>
    rw [arraysFrom]
    split_ifs
    · exact Nat.succ_le_succ (ih _)
    · exact Nat.zero_le _

theorem arraysFrom_pos_iff (tickSpacing : ℕ) (aToB : Bool) (k : ℤ) (n : ℕ) :
    0 < arraysFrom tickSpacing aToB k (n + 1) ↔ ArrayInRange tickSpacing k := by
  rw [arraysFrom]
  split_ifs with hin
  · exact iff_of_true (Nat.succ_pos _) hin
  · exact iff_of_false (Nat.lt_irrefl 0) hin

/-- The loop gives the addresses of the arrays from its offset on, up to the first one that is not
in range. -/
theorem tickArrayKeysFrom_eq (b : Build) (address : ℤ → Pubkey) {tickCurrentIndex shift : ℤ}
    (htick : -2 ^ 20 ≤ tickCurrentIndex + shift ∧ tickCurrentIndex + shift ≤ 2 ^ 20)
    {tickSpacing : ℕ} (hpos : 0 < tickSpacing) (hword : tickSpacing < 2 ^ 16) (aToB : Bool)
    (n : ℕ) (offset : ℤ) (hback : -3 ≤ offset - n) (hahead : offset + n ≤ 3) {k : ℤ}
    (hk : (tickCurrentIndex + shift) / ticksInArray tickSpacing + offset = k) :
    tickArrayKeysFrom b address tickCurrentIndex shift tickSpacing aToB n offset =
      .ok (addressesFrom address tickSpacing aToB k (arraysFrom tickSpacing aToB k n)) := by
  induction n generalizing offset k with
  | zero => rfl
  | succ n ih =>
    have hnear : NearRange (tickCurrentIndex + shift) offset := ⟨htick, by omega⟩
    have hstarts := getStartTickIndex_ok_iff b hnear hpos hword
    have hpanic := getStartTickIndex_ne_panic b hnear hpos hword
    rw [hk] at hstarts
    rw [tickArrayKeysFrom, b.int_ok (by omega) (by omega), Outcome.ok_bind, arraysFrom]
    cases hstart : getStartTickIndex b (tickCurrentIndex + shift) tickSpacing offset with
    | panic => exact absurd hstart hpanic
    | err e =>
      have hout : ¬ ArrayInRange tickSpacing k := by
        intro hin
        cases hstart.symm.trans ((hstarts _).mpr ⟨hin, rfl⟩)
      rw [if_neg hout]
      rfl
    | ok start =>
      obtain ⟨hin, rfl⟩ := (hstarts start).mp hstart
      have hnext : (if aToB = true then offset - 1 else offset + 1) =
          offset + direction aToB := by
        cases aToB <;> rfl
      have hstep : -1 ≤ direction aToB ∧ direction aToB ≤ 1 := by cases aToB <;> decide
      have hrest := ih (offset + direction aToB) (by omega) (by omega) (k := k + direction aToB)
        (by omega)
      simp only
      rw [hnext, b.int_ok (by omega) (by omega), Outcome.ok_bind, hrest, Outcome.ok_bind,
        if_pos hin, addressesFrom_succ]

/-- By how many ticks the swap looks ahead: by the spacing in the direction of growing ticks. -/
def tickShift (tickSpacing : ℕ) (aToB : Bool) : ℤ := if aToB then 0 else tickSpacing

/-- The array with the tick that the swap starts at. -/
def startArray (tickCurrentIndex : ℤ) (tickSpacing : ℕ) (aToB : Bool) : ℤ :=
  (tickCurrentIndex + tickShift tickSpacing aToB) / ticksInArray tickSpacing

/-- The addresses of the arrays in range, up to three, from the one that the swap starts at. -/
def swapArrayKeys (findProgramAddress : List Seed → Pubkey → Pubkey) (tickCurrentIndex : ℤ)
    (tickSpacing : ℕ) (aToB : Bool) (programId whirlpool : Pubkey) : List Pubkey :=
  let k := startArray tickCurrentIndex tickSpacing aToB
  addressesFrom (getTickArrayAddress findProgramAddress programId whirlpool) tickSpacing aToB k
    (arraysFrom tickSpacing aToB k maxSwapTickArrays)

theorem getTickArrayKeys_eq (b : Build) (findProgramAddress : List Seed → Pubkey → Pubkey)
    {tickCurrentIndex : ℤ} (hlow : minTickIndex ≤ tickCurrentIndex)
    (hhigh : tickCurrentIndex ≤ maxTickIndex) {tickSpacing : ℕ} (hpos : 0 < tickSpacing)
    (hword : tickSpacing < 2 ^ 16) (aToB : Bool) (programId whirlpool : Pubkey) :
    getTickArrayKeys b findProgramAddress tickCurrentIndex tickSpacing aToB programId whirlpool =
      .ok (swapArrayKeys findProgramAddress tickCurrentIndex tickSpacing aToB programId whirlpool) := by
  have hrange : minTickIndex = -443636 ∧ maxTickIndex = 443636 := ⟨rfl, rfl⟩
  have hshift : 0 ≤ tickShift tickSpacing aToB ∧ tickShift tickSpacing aToB < 2 ^ 16 := by
    unfold tickShift
    split_ifs <;> omega
  have htick : -2 ^ 20 ≤ tickCurrentIndex + tickShift tickSpacing aToB ∧
      tickCurrentIndex + tickShift tickSpacing aToB ≤ 2 ^ 20 := by
    omega
  exact tickArrayKeysFrom_eq b (getTickArrayAddress findProgramAddress programId whirlpool) htick
    hpos hword aToB maxSwapTickArrays 0 (by decide) (by decide) (Int.add_zero _)

/-- The addresses of at least one and at most three arrays in a row, in the direction of the swap,
of which the first has the tick that the swap starts at. -/
def KeysCover (b : Build) (findProgramAddress : List Seed → Pubkey → Pubkey)
    (tickCurrentIndex : ℤ) (tickSpacing : ℕ) (aToB : Bool) (programId whirlpool : Pubkey) : Prop :=
  ∃ k count, 0 < count ∧ count ≤ maxSwapTickArrays ∧
    k * ticksInArray tickSpacing ≤ tickCurrentIndex + tickShift tickSpacing aToB ∧
    tickCurrentIndex + tickShift tickSpacing aToB < (k + 1) * ticksInArray tickSpacing ∧
    getTickArrayKeys b findProgramAddress tickCurrentIndex tickSpacing aToB programId whirlpool =
      .ok (addressesFrom (getTickArrayAddress findProgramAddress programId whirlpool) tickSpacing
        aToB k count)

/-- Keys are given exactly when the array that the swap starts at is in range. -/
theorem keysCover_iff (b : Build) (findProgramAddress : List Seed → Pubkey → Pubkey)
    {tickCurrentIndex : ℤ} (hlow : minTickIndex ≤ tickCurrentIndex)
    (hhigh : tickCurrentIndex ≤ maxTickIndex) {tickSpacing : ℕ} (hpos : 0 < tickSpacing)
    (hword : tickSpacing < 2 ^ 16) (aToB : Bool) (programId whirlpool : Pubkey) :
    KeysCover b findProgramAddress tickCurrentIndex tickSpacing aToB programId whirlpool ↔
      ArrayInRange tickSpacing (startArray tickCurrentIndex tickSpacing aToB) := by
  have hsize := ticksInArray_pos hpos
  have hfirst := arraysFrom_pos_iff tickSpacing aToB (startArray tickCurrentIndex tickSpacing aToB) 2
  unfold KeysCover
  rw [getTickArrayKeys_eq b findProgramAddress hlow hhigh hpos hword]
  constructor
  · rintro ⟨k, count, hcount, -, -, -, hok⟩
    have hlists := congrArg List.length (Outcome.ok.inj hok)
    simp only [swapArrayKeys, addressesFrom, List.length_map, List.length_range] at hlists
    exact hfirst.mp (hlists ▸ hcount)
  · intro hin
    have hle := Int.ediv_mul_le (tickCurrentIndex + tickShift tickSpacing aToB) hsize.ne'
    have hlt := Int.lt_ediv_add_one_mul_self (tickCurrentIndex + tickShift tickSpacing aToB) hsize
    exact ⟨_, _, hfirst.mpr hin, arraysFrom_le _ _ _ _, hle, hlt, rfl⟩

end Biscuit.Swap.Orca
