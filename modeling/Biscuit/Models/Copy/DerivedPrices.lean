import Biscuit.Core.Checked
import Biscuit.Core.Rounding
import Biscuit.Models.Copy.Simulator

/-!
# Derived prices

Two functions derive the price of one side of a swap from the price of the other and from the
amounts. Both scale the amounts with powers of ten of 32 bits, which take nine decimals and no
more: beyond them a debug build panics, and a release build scales with what is left of the powers.
-/

namespace Biscuit

namespace F64

/-- A price found by cross-multiplication makes both sides worth the same exactly when the
factors have the ratio of the scales. -/
theorem derived_eq_iff {a o p s t : ℚ} (ha : 0 < a) (ho : 0 < o) (hp : 0 < p) (hs : 0 < s)
    (ht : 0 < t) (f g : ℚ) :
    fin a / fin s * fin p = fin o / fin t * (fin a * fin p / fin o * (fin g / fin f)) ↔
      f ≠ 0 ∧ g * s = f * t := by
  rw [fin_div_fin a hs.ne', fin_div_fin o ht.ne', fin_mul_fin, fin_mul_fin,
    fin_div_fin _ ho.ne']
  by_cases hf : f = 0
  · refine iff_of_false (fun h => ?_) (fun h => h.1 hf)
    have hfinite := congrArg isFinite h
    rw [hf, isFinite_fin_mul, isFinite_fin_mul, isFinite_div_zero] at hfinite
    cases hfinite
  · rw [fin_div_fin g hf, fin_mul_fin, fin_mul_fin, fin.injEq, and_iff_right hf]
    constructor
    · intro h
      field_simp at h
      linarith
    · intro h
      field_simp
      linarith

end F64

namespace Copy

/-! ## The two functions, with the steps that can fail -/

/-- `get_token_prices`; no answer is an error without a text. -/
def getTokenPricesIn (b : Build) (answers : PriceAnswers) (solPriceUsd : Option F64)
    (inputMint outputMint : Pubkey)
    (inputAmount outputAmount inputTokenDecimals outputTokenDecimals : ℕ) :
    Outcome Unit Price := do
  let solPriceUsd ← Outcome.ofOption () (solPriceUsd.or answers.sol)
  let prices := askedPrices answers solPriceUsd inputMint outputMint
  let inputFactor ← b.pow 32 10 inputTokenDecimals
  let outputFactor ← b.pow 32 10 outputTokenDecimals
  let (inputPriceUsd, outputPriceUsd) ←
    match prices with
    | (some inputPrice, some outputPrice) => .ok (inputPrice, outputPrice)
    | (some inputPrice, none) =>
      .ok (inputPrice, F64.ofNat inputAmount * inputPrice / F64.ofNat outputAmount *
        (F64.ofNat outputFactor / F64.ofNat inputFactor))
    | (none, some outputPrice) =>
      .ok (F64.ofNat outputAmount * outputPrice / F64.ofNat inputAmount *
        (F64.ofNat inputFactor / F64.ofNat outputFactor), outputPrice)
    | (none, none) => .err ()
  pure
    { inputPriceUsd
      inputPriceSol := inputPriceUsd / solPriceUsd
      outputPriceUsd
      outputPriceSol := outputPriceUsd / solPriceUsd
      solPriceUsd }

/-- Cannot calculate token prices. Neither input nor output mint price is known -/
inductive TokenPricesError
  | unknown
  deriving DecidableEq, Repr

/-- `calculate_token_prices` -/
def calculateTokenPricesIn (b : Build) (inputMint outputMint : Pubkey)
    (inputAmount outputAmount inputTokenDecimals outputTokenDecimals : ℕ) (solPriceUsd : F64) :
    Outcome TokenPricesError Price := do
  let inputTokenPriceUsd := knownPrice solPriceUsd inputMint
  let outputTokenPriceUsd := knownPrice solPriceUsd outputMint
  let inputFactor ← b.pow 32 10 inputTokenDecimals
  let outputFactor ← b.pow 32 10 outputTokenDecimals
  let (inputPriceUsd, outputPriceUsd) ←
    match inputTokenPriceUsd, outputTokenPriceUsd with
    | some inputPrice, some outputPrice => .ok (inputPrice, outputPrice)
    | some inputPrice, none =>
      .ok (inputPrice, F64.ofNat inputAmount * inputPrice / F64.ofNat outputAmount *
        (F64.ofNat outputFactor / F64.ofNat inputFactor))
    | none, some outputPrice =>
      .ok (F64.ofNat outputAmount * outputPrice / F64.ofNat inputAmount *
        (F64.ofNat inputFactor / F64.ofNat outputFactor), outputPrice)
    | none, none => .err .unknown
  pure
    { inputPriceUsd
      inputPriceSol := inputPriceUsd / solPriceUsd
      outputPriceUsd
      outputPriceSol := outputPriceUsd / solPriceUsd
      solPriceUsd }

/-- A release build never panics and wraps the powers, as the service and the simulator take
the functions to do. -/
theorem getTokenPricesIn_wrapping (answers : PriceAnswers) (solPriceUsd : Option F64)
    (inputMint outputMint : Pubkey)
    (inputAmount outputAmount inputTokenDecimals outputTokenDecimals : ℕ) :
    getTokenPricesIn .wrapping answers solPriceUsd inputMint outputMint inputAmount outputAmount
        inputTokenDecimals outputTokenDecimals =
      Outcome.ofOption () (getTokenPrices answers solPriceUsd inputMint outputMint inputAmount
        outputAmount inputTokenDecimals outputTokenDecimals) := by
  unfold getTokenPricesIn getTokenPrices
  cases solPriceUsd.or answers.sol with
  | none => rfl
  | some solPriceUsd =>
    simp only [Outcome.ofOption_some, Outcome.ok_bind, Build.pow, Build.word_wrapping, pow10]
    generalize askedPrices answers solPriceUsd inputMint outputMint = prices
    obtain ⟨_ | inputPrice, _ | outputPrice⟩ := prices <;> rfl

theorem calculateTokenPricesIn_wrapping (inputMint outputMint : Pubkey)
    (inputAmount outputAmount inputTokenDecimals outputTokenDecimals : ℕ) (solPriceUsd : F64) :
    calculateTokenPricesIn .wrapping inputMint outputMint inputAmount outputAmount
        inputTokenDecimals outputTokenDecimals solPriceUsd =
      Outcome.ofOption .unknown (calculateTokenPrices inputMint outputMint inputAmount
        outputAmount inputTokenDecimals outputTokenDecimals solPriceUsd) := by
  unfold calculateTokenPricesIn calculateTokenPrices getTokenPrices
  simp only [Outcome.ok_bind, Build.pow, Build.word_wrapping, pow10, askedPrices, Option.some_or]
  cases knownPrice solPriceUsd inputMint with
  | none => cases knownPrice solPriceUsd outputMint <;> rfl
  | some inputPrice => cases knownPrice solPriceUsd outputMint <;> rfl

/-! ## Both functions derive the same price -/

/-- SOL and the stable coins have a price. -/
theorem knownPrice_static {solPriceUsd : ℚ} (hsol : 0 < solPriceUsd) {mint : Pubkey}
    (h : isStaticToken mint = true) :
    ∃ p : ℚ, 0 < p ∧ knownPrice (.fin solPriceUsd) mint = some (.fin p) := by
  unfold knownPrice
  split_ifs with hstable hmint
  · exact ⟨1, one_pos, rfl⟩
  · exact ⟨solPriceUsd, hsol, rfl⟩
  · simp only [isStaticToken, Bool.or_eq_true, beq_iff_eq] at h
    tauto

/-- No other mint has one. -/
theorem knownPrice_other (solPriceUsd : F64) {mint : Pubkey} (h : isStaticToken mint = false) :
    knownPrice solPriceUsd mint = none := by
  simp only [isStaticToken, Bool.or_eq_false_iff, beq_eq_false_iff_ne] at h
  obtain ⟨⟨hsol, husdt⟩, husdc⟩ := h
  rw [knownPrice, if_neg (by tauto), if_neg hsol]

/-- Both functions give the same price, and when one side was derived from the other, both sides
of the swap are worth the same. -/
def DerivesPrices (b : Build) (answers : PriceAnswers) (inputMint outputMint : Pubkey)
    (inputAmount outputAmount inputDecimals outputDecimals : ℕ) (solPriceUsd : ℚ) : Prop :=
  ∃ price,
    getTokenPricesIn b answers (some (.fin solPriceUsd)) inputMint outputMint inputAmount
      outputAmount inputDecimals outputDecimals = .ok price ∧
    calculateTokenPricesIn b inputMint outputMint inputAmount outputAmount inputDecimals
      outputDecimals (.fin solPriceUsd) = .ok price ∧
    (isStaticToken inputMint ≠ isStaticToken outputMint →
      F64.ofNat inputAmount / F64.ofNat (10 ^ inputDecimals) * price.inputPriceUsd =
        F64.ofNat outputAmount / F64.ofNat (10 ^ outputDecimals) * price.outputPriceUsd)

/-- The decimals that the powers of a build are right for. -/
def PowersFit (b : Build) (inputMint outputMint : Pubkey) (inputDecimals outputDecimals : ℕ) :
    Prop :=
  match b with
  | .checked => inputDecimals ≤ 9 ∧ outputDecimals ≤ 9
  | .wrapping =>
    isStaticToken inputMint = true ∧ isStaticToken outputMint = true ∨
      10 ^ inputDecimals % 2 ^ 32 ≠ 0 ∧
        10 ^ outputDecimals % 2 ^ 32 * 10 ^ inputDecimals =
          10 ^ inputDecimals % 2 ^ 32 * 10 ^ outputDecimals

/-- In the ratio of two positive scales neither factor is zero alone. -/
theorem ratio_swap {f g s t : ℕ} (hs : 0 < s) (ht : 0 < t) :
    f ≠ 0 ∧ g * s = f * t ↔ g ≠ 0 ∧ f * t = g * s := by
  constructor
  · rintro ⟨hf, h⟩
    refine ⟨fun hg => hf ?_, h.symm⟩
    rw [hg, Nat.zero_mul] at h
    exact (Nat.mul_eq_zero.mp h.symm).resolve_right ht.ne'
  · rintro ⟨hg, h⟩
    refine ⟨fun hf => hg ?_, h.symm⟩
    rw [hf, Nat.zero_mul] at h
    exact (Nat.mul_eq_zero.mp h.symm).resolve_right hs.ne'

section Powers

variable {b : Build} (answers : PriceAnswers) {inputMint outputMint : Pubkey}
  {inputAmount outputAmount inputDecimals outputDecimals : ℕ} {solPriceUsd : ℚ}

/-- Given the powers, the prices are right when none is derived or when the powers have the ratio
of the true ones. -/
theorem derivesPrices_iff_of_powers
    (hstatic : isStaticToken inputMint = true ∨ isStaticToken outputMint = true)
    (hinput : 0 < inputAmount) (houtput : 0 < outputAmount) (hsol : 0 < solPriceUsd) {f g : ℕ}
    (hf : ∀ {ε}, (b.pow 32 10 inputDecimals : Outcome ε ℕ) = .ok f)
    (hg : ∀ {ε}, (b.pow 32 10 outputDecimals : Outcome ε ℕ) = .ok g) :
    DerivesPrices b answers inputMint outputMint inputAmount outputAmount inputDecimals
        outputDecimals solPriceUsd ↔
      isStaticToken inputMint = true ∧ isStaticToken outputMint = true ∨
        f ≠ 0 ∧ g * 10 ^ inputDecimals = f * 10 ^ outputDecimals := by
  have ha : (0 : ℚ) < inputAmount := by exact_mod_cast hinput
  have ho : (0 : ℚ) < outputAmount := by exact_mod_cast houtput
  have hs : (0 : ℚ) < (10 ^ inputDecimals : ℕ) := by positivity
  have ht : (0 : ℚ) < (10 ^ outputDecimals : ℕ) := by positivity
  unfold DerivesPrices getTokenPricesIn calculateTokenPricesIn
  simp only [Option.some_or, Outcome.ofOption_some, Outcome.ok_bind, hf, hg, askedPrices]
  cases hin : isStaticToken inputMint with
  | true =>
    obtain ⟨p, hp, hknown⟩ := knownPrice_static hsol hin
    cases hout : isStaticToken outputMint with
    | true =>
      obtain ⟨q, -, hknown'⟩ := knownPrice_static hsol hout
      refine iff_of_true ?_ (.inl ⟨rfl, rfl⟩)
      simp only [hknown, hknown', Outcome.pure_eq]
      exact ⟨_, rfl, rfl, fun h => absurd rfl h⟩
    | false =>
      simp only [hknown, knownPrice_other _ hout, Outcome.pure_eq, Outcome.ok.injEq]
      have hvalue := F64.derived_eq_iff ha ho hp hs ht f g
      constructor
      · rintro ⟨price, rfl, -, hprice⟩
        exact .inr (by exact_mod_cast hvalue.mp (hprice (by decide)))
      · rintro (h | h)
        · cases h.2
        · exact ⟨_, rfl, rfl, fun _ => hvalue.mpr (by exact_mod_cast h)⟩
  | false =>
    have hout : isStaticToken outputMint = true := by simpa [hin] using hstatic
    obtain ⟨p, hp, hknown⟩ := knownPrice_static hsol hout
    simp only [hknown, knownPrice_other _ hin, Outcome.pure_eq, Outcome.ok.injEq, hout]
    have hvalue := F64.derived_eq_iff ho ha hp ht hs g f
    have hswap := ratio_swap (f := f) (g := g) (s := 10 ^ inputDecimals)
      (t := 10 ^ outputDecimals) (by positivity) (by positivity)
    constructor
    · rintro ⟨price, rfl, -, hprice⟩
      have hratio := hvalue.mp (hprice (by decide)).symm
      exact .inr (hswap.mpr (by exact_mod_cast hratio))
    · rintro (h | h)
      · cases h.1
      · refine ⟨_, rfl, rfl, fun _ => (hvalue.mpr ?_).symm⟩
        exact_mod_cast hswap.mp h

/-- Nothing is priced when a power panics. -/
theorem not_derivesPrices_of_panic
    (h : ∀ {ε}, (b.pow 32 10 inputDecimals : Outcome ε ℕ) = .panic ∨
      (b.pow 32 10 outputDecimals : Outcome ε ℕ) = .panic) :
    ¬ DerivesPrices b answers inputMint outputMint inputAmount outputAmount inputDecimals
        outputDecimals solPriceUsd := by
  rintro ⟨price, -, hcalculate, -⟩
  unfold calculateTokenPricesIn at hcalculate
  rw [Outcome.bind_eq_ok] at hcalculate
  obtain ⟨f, hf, hcalculate⟩ := hcalculate
  rw [Outcome.bind_eq_ok] at hcalculate
  obtain ⟨g, hg, -⟩ := hcalculate
  rcases h with h | h
  · cases h.symm.trans hf
  · cases h.symm.trans hg

/-- Nine decimals are the most that a power of 32 bits takes. -/
theorem pow_ten_lt_iff (n : ℕ) : 10 ^ n < 2 ^ 32 ↔ n ≤ 9 := by
  constructor
  · intro h
    by_contra hn
    have hpow : 10 ^ 10 ≤ 10 ^ n := Nat.pow_le_pow_right (by norm_num) (by omega)
    omega
  · intro h
    have hpow : 10 ^ n ≤ 10 ^ 9 := Nat.pow_le_pow_right (by norm_num) h
    omega

/-- The two functions agree and conserve value exactly for the decimals that the powers of the
build are right for. -/
theorem derivesPrices_iff
    (hstatic : isStaticToken inputMint = true ∨ isStaticToken outputMint = true)
    (hinput : 0 < inputAmount) (houtput : 0 < outputAmount) (hsol : 0 < solPriceUsd) :
    DerivesPrices b answers inputMint outputMint inputAmount outputAmount inputDecimals
        outputDecimals solPriceUsd ↔
      PowersFit b inputMint outputMint inputDecimals outputDecimals := by
  cases b with
  | wrapping =>
    exact derivesPrices_iff_of_powers answers hstatic hinput houtput hsol
      (Build.word_wrapping 32 _) (Build.word_wrapping 32 _)
  | checked =>
    by_cases hfit : inputDecimals ≤ 9 ∧ outputDecimals ≤ 9
    · refine iff_of_true ?_ hfit
      have hf := (pow_ten_lt_iff inputDecimals).mpr hfit.1
      have hg := (pow_ten_lt_iff outputDecimals).mpr hfit.2
      rw [derivesPrices_iff_of_powers answers hstatic hinput houtput hsol (Build.pow_ok _ hf)
        (Build.pow_ok _ hg)]
      exact .inr ⟨by positivity, Nat.mul_comm _ _⟩
    · refine iff_of_false (not_derivesPrices_of_panic answers ?_) hfit
      intro ε
      rw [not_and_or, ← pow_ten_lt_iff, ← pow_ten_lt_iff, Nat.not_lt, Nat.not_lt] at hfit
      exact hfit.imp Build.word_checked_eq_panic Build.word_checked_eq_panic

end Powers

/-- No price was answered. -/
def noAnswers : PriceAnswers := ⟨none, fun _ => none⟩

/-- One SOL for a million of a token with six decimals. -/
theorem derivesPrices_sixDecimals :
    DerivesPrices .checked noAnswers SOL sampleToken 1000000000 1000000000000 9 6 150 :=
  (derivesPrices_iff noAnswers (.inl (by decide)) (by decide) (by decide) (by norm_num)).mpr
    ⟨by decide, by decide⟩

/-- With twelve decimals a debug build panics, and in a release build the token is worth half a
dollar, although the SOL it was bought for is worth a hundred and fifty. -/
theorem not_derivesPrices_twelveDecimals :
    calculateTokenPricesIn .checked SOL sampleToken 1000000000 1000000000000 9 12 (.fin 150) =
        .panic ∧
      ¬ DerivesPrices .checked noAnswers SOL sampleToken 1000000000 1000000000000 9 12 150 ∧
      ¬ DerivesPrices .wrapping noAnswers SOL sampleToken 1000000000 1000000000000 9 12 150 := by
  have hpanic : calculateTokenPricesIn .checked SOL sampleToken 1000000000 1000000000000 9 12
      (.fin 150) = .panic := by
    decide +kernel
  refine ⟨hpanic, ?_, ?_⟩
  · rintro ⟨price, -, hcalculate, -⟩
    cases hpanic.symm.trans hcalculate
  · rintro ⟨price, hget, -, hvalue⟩
    have hprice : getTokenPricesIn .wrapping noAnswers (some (.fin 150)) SOL sampleToken 1000000000
        1000000000000 9 12 =
        .ok
          { inputPriceUsd := .fin 150
            inputPriceSol := .fin 1
            outputPriceUsd := .fin (5225958 / 9765625)
            outputPriceSol := .fin (870993 / 244140625)
            solPriceUsd := .fin 150 } := by
      decide +kernel
    cases hprice.symm.trans hget
    exact absurd (hvalue (by decide)) (by decide +kernel)

end Copy

end Biscuit
