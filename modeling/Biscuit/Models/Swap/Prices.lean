import Biscuit.Core.Machine
import Biscuit.Core.Run
import Biscuit.Core.Table
import Biscuit.Models.Chain.Keys

/-!
# The price feed

Tokens are subscribed for a time to live. A task is to ask for their prices at every refresh
tick and to drop those that are too old at every cleanup tick, but it selects only once.
-/

namespace Biscuit.Swap

/-- The longest duration, in nanoseconds. -/
def durationMax : ℕ := 2 ^ 64 * 10 ^ 9 - 1

/-- A span of time in nanoseconds. -/
structure Duration where
  nanos : ℕ
  le_max : nanos ≤ durationMax
  deriving DecidableEq, Repr

/-- `Duration::MAX` -/
def Duration.max : Duration := ⟨durationMax, le_rfl⟩

/-- `DEFAULT_TTL`, which is `PRICE_TTL` too. -/
def defaultTtl : Duration := ⟨150 * 10 ^ 9, by decide⟩

inductive TokenPrice
  | neverPolled
  | recentPrice (price : F64)

/-- What is known of a subscribed token. -/
structure PriceEntry where
  price : TokenPrice
  /-- When it was last subscribed. -/
  lastUpdated : ℕ
  ttl : Duration

/-- Where the task of the feed is. -/
inductive PriceTask
  | selecting
  /-- It has asked for the prices of these tokens. -/
  | updating (tokens : List Pubkey)
  | ended

/-- The cache and its task, and what the run has seen. -/
structure PriceFeed where
  cache : Table Pubkey PriceEntry
  task : PriceTask
  now : ℕ
  /-- The tokens of each run of `update_token_prices`. -/
  updates : List (List Pubkey)
  /-- The tokens that were once subscribed for ever. -/
  forever : Finset Pubkey

/-- What happens next. -/
inductive PriceEvent
  | subscribeToken (token : Pubkey) (ttl : Option Duration)
  | refreshTick
  | cleanupTick
  /-- The prices that were asked for arrive. -/
  | response (prices : Pubkey → Option F64)
  | elapse (nanos : ℕ)

namespace PriceFeed

/-- `start_jupiter_price_feed` -/
def init : PriceFeed := ⟨∅, .selecting, 0, [], ∅⟩

variable (x : PriceFeed)

/-- What the cache has of a token. -/
def entry (token : Pubkey) : Option PriceEntry := x.cache.lookup token

/-- `instant.elapsed` -/
def elapsed (entry : PriceEntry) : Duration :=
  ⟨min (x.now - entry.lastUpdated) durationMax, min_le_right _ _⟩

/-- `instant.elapsed() > ttl` -/
def expired (entry : PriceEntry) : Bool := decide (entry.ttl.nanos < (x.elapsed entry).nanos)

/-- `subscribe_token` -/
def subscribeToken (token : Pubkey) (ttl : Option Duration) : PriceFeed :=
  let ttl := ttl.getD defaultTtl
  { x with
    cache := x.cache.modifyOrInsert token
      (fun entry => { entry with lastUpdated := x.now, ttl := ttl }) ⟨.neverPolled, x.now, ttl⟩
    forever := if ttl = Duration.max then insert token x.forever else x.forever }

/-- The entries are collected, and those that are too old are removed one by one. -/
def cleanup : Table Pubkey PriceEntry :=
  (Table.items x.cache).foldl (fun m e => if x.expired e.2 then m.erase e.1 else m) x.cache

/-- The price of a token that is still in the cache. -/
def setPrice (prices : Pubkey → Option F64) (cache : Table Pubkey PriceEntry) (token : Pubkey) :
    Table Pubkey PriceEntry :=
  match prices token, cache.lookup token with
  | some price, some entry => cache.insert token { entry with price := .recentPrice price }
  | _, _ => cache

/-- The `select!` of the task: it serves one tick. -/
def onRefreshTick : PriceFeed :=
  match x.task with
  | .selecting =>
    { x with task := .updating x.cache.keys, updates := x.updates ++ [x.cache.keys] }
  | _ => x

def onCleanupTick : PriceFeed :=
  match x.task with
  | .selecting => { x with cache := x.cleanup, task := .ended }
  | _ => x

def onResponse (prices : Pubkey → Option F64) : PriceFeed :=
  match x.task with
  | .updating tokens => { x with cache := tokens.foldl (setPrice prices) x.cache, task := .ended }
  | _ => x

/-- One step. -/
def step : PriceEvent → PriceFeed
  | .subscribeToken token ttl => x.subscribeToken token ttl
  | .refreshTick => x.onRefreshTick
  | .cleanupTick => x.onCleanupTick
  | .response prices => x.onResponse prices
  | .elapse nanos => { x with now := x.now + nanos }

/-- A refresh tick updates the tokens that are subscribed, a cleanup tick removes exactly those
that are too old, and no token that was once subscribed for ever is gone. -/
def Serves (e : PriceEvent) : Prop :=
  (e = .refreshTick → ∃ tokens, (x.step e).updates = x.updates ++ [tokens] ∧
    ∀ token, token ∈ tokens ↔ token ∈ x.cache) ∧
  (e = .cleanupTick → ∀ token, (x.step e).entry token =
    (x.entry token).filter fun entry => !x.expired entry) ∧
  ∀ token ∈ (x.step e).forever, token ∈ (x.step e).cache

/-- A tick finds the task selecting, or it is one of a cleanup with nothing to remove; and a
token that was once subscribed for ever is not too old for a later time to live. -/
def ServesTick (e : PriceEvent) : Prop :=
  (e = .refreshTick → x.task = .selecting) ∧
  (e = .cleanupTick →
    (x.task = .selecting ∨
      ∀ token entry, x.entry token = some entry → x.expired entry = false) ∧
    ∀ token ∈ x.forever, ∀ entry, x.entry token = some entry →
      entry.ttl ≠ Duration.max → x.expired entry = false)

variable {x}

/-! ## What a tick does -/

/-- A time to live without end does not run out. -/
theorem not_expired_of_max {entry : PriceEntry} (h : entry.ttl = Duration.max) :
    x.expired entry = false := by
  have hle := (x.elapsed entry).le_max
  simp only [expired, h, Duration.max, decide_eq_false_iff_not]
  omega

/-- A cleanup removes exactly the entries that are too old. -/
theorem lookup_cleanup (token : Pubkey) :
    x.cleanup.lookup token = (x.entry token).filter fun entry => !x.expired entry := by
  unfold cleanup
  rw [Table.lookup_foldl_erase (p := fun e => x.expired e.2)]
  cases hentry : x.entry token with
  | none =>
    rw [show x.cache.lookup token = none from hentry, ite_self]
    rfl
  | some entry =>
    by_cases hexpired : x.expired entry = true
    · rw [if_pos ⟨(token, entry), Table.mem_items.mpr hentry, rfl, hexpired⟩,
        Option.filter_some_neg (by simp [hexpired])]
    · have hnone : ¬ ∃ e ∈ Table.items x.cache, e.1 = token ∧ x.expired e.2 = true := by
        rintro ⟨⟨token', entry'⟩, hmem, rfl, hexpired'⟩
        obtain rfl := Option.some.inj (hentry.symm.trans (Table.mem_items.mp hmem))
        contradiction
      rw [if_neg hnone, Option.filter_some_pos (by simpa using hexpired)]
      exact hentry

theorem mem_iff_entry {token : Pubkey} : token ∈ x.cache ↔ ∃ entry, x.entry token = some entry :=
  Table.mem_iff_lookup

theorem mem_setPrice {prices : Pubkey → Option F64} {cache : Table Pubkey PriceEntry}
    {token token' : Pubkey} (h : token' ∈ cache) : token' ∈ setPrice prices cache token := by
  unfold setPrice
  cases prices token with
  | none => exact h
  | some price =>
    cases cache.lookup token with
    | none => exact h
    | some entry => exact (AList.mem_insert _).mpr (.inr h)

/-- Prices that arrive remove nothing. -/
theorem mem_onResponse {prices : Pubkey → Option F64} {token : Pubkey} (h : token ∈ x.cache) :
    token ∈ (x.onResponse prices).cache := by
  unfold onResponse
  cases x.task with
  | selecting => exact h
  | ended => exact h
  | updating tokens =>
    exact exec_preserves (I := fun cache : Table Pubkey PriceEntry => token ∈ cache)
      (fun _ _ hmem => mem_setPrice hmem) tokens h

theorem onResponse_forever (prices : Pubkey → Option F64) :
    (x.onResponse prices).forever = x.forever := by
  unfold onResponse
  cases x.task with
  | selecting => rfl
  | ended => rfl
  | updating tokens => rfl

/-- A cleanup tick is as it is to be exactly when the task selects or there is nothing to
remove. -/
theorem onCleanupTick_iff :
    (∀ token, x.onCleanupTick.entry token =
        (x.entry token).filter fun entry => !x.expired entry) ↔
      x.task = .selecting ∨
        ∀ token entry, x.entry token = some entry → x.expired entry = false := by
  have hsame : (∀ token, x.entry token =
      (x.entry token).filter fun entry => !x.expired entry) ↔
      ∀ token entry, x.entry token = some entry → x.expired entry = false := by
    constructor
    · intro h token entry hentry
      have hfilter := h token
      rw [hentry, eq_comm, Option.filter_eq_some_iff] at hfilter
      simpa using hfilter.2
    · intro h token
      cases hentry : x.entry token with
      | none => rfl
      | some entry => rw [Option.filter_some_pos (by simp [h token entry hentry])]
  unfold onCleanupTick
  cases htask : x.task with
  | selecting => exact iff_of_true lookup_cleanup (.inl rfl)
  | updating tokens => simpa using hsame
  | ended => simpa using hsame

/-- A refresh tick is as it is to be exactly when the task selects. -/
theorem onRefreshTick_iff :
    (∃ tokens, x.onRefreshTick.updates = x.updates ++ [tokens] ∧
        ∀ token, token ∈ tokens ↔ token ∈ x.cache) ↔ x.task = .selecting := by
  unfold onRefreshTick
  cases htask : x.task with
  | selecting => exact iff_of_true ⟨_, rfl, fun token => AList.mem_keys.symm⟩ rfl
  | updating tokens => simp
  | ended => simp

theorem onCleanupTick_forever : x.onCleanupTick.forever = x.forever := by
  unfold onCleanupTick
  cases x.task with
  | selecting => rfl
  | updating tokens => rfl
  | ended => rfl

/-- What a cleanup tick that is as it is to be keeps. -/
theorem onCleanupTick_keeps_iff (hforever : ∀ token ∈ x.forever, token ∈ x.cache)
    (h : ∀ token, x.onCleanupTick.entry token =
      (x.entry token).filter fun entry => !x.expired entry) :
    (∀ token ∈ x.forever, token ∈ x.onCleanupTick.cache) ↔
      ∀ token ∈ x.forever, ∀ entry, x.entry token = some entry →
        entry.ttl ≠ Duration.max → x.expired entry = false := by
  constructor
  · intro hkept token htoken entry hentry _
    obtain ⟨entry', hentry'⟩ := mem_iff_entry.mp (hkept token htoken)
    rw [h token, hentry, Option.filter_eq_some_iff, Option.some.injEq] at hentry'
    obtain ⟨rfl, hexpired⟩ := hentry'
    simpa using hexpired
  · intro hkept token htoken
    obtain ⟨entry, hentry⟩ := mem_iff_entry.mp (hforever token htoken)
    have hexpired : x.expired entry = false := by
      by_cases hmax : entry.ttl = Duration.max
      · exact not_expired_of_max hmax
      · exact hkept token htoken entry hentry hmax
    apply mem_iff_entry.mpr
    refine ⟨entry, ?_⟩
    rw [h token, hentry, Option.filter_some_pos (by simp [hexpired])]

theorem forever_subscribeToken (hforever : ∀ token ∈ x.forever, token ∈ x.cache)
    (token : Pubkey) (ttl : Option Duration) :
    ∀ token' ∈ (x.subscribeToken token ttl).forever,
      token' ∈ (x.subscribeToken token ttl).cache := by
  intro token' htoken
  simp only [subscribeToken, Table.modifyOrInsert] at htoken ⊢
  apply (AList.mem_insert _).mpr
  split_ifs at htoken
  · exact (Finset.mem_insert.mp htoken).imp_right (hforever token')
  · exact .inr (hforever token' htoken)

theorem onRefreshTick_keeps (hforever : ∀ token ∈ x.forever, token ∈ x.cache) :
    ∀ token ∈ x.onRefreshTick.forever, token ∈ x.onRefreshTick.cache := by
  unfold onRefreshTick
  cases x.task with
  | selecting => exact hforever
  | updating tokens => exact hforever
  | ended => exact hforever

/-- A step serves its tick exactly when the task still selects, or there is nothing to do, and
no token that was once subscribed for ever has run out of a later time to live. -/
theorem serves_iff (hforever : ∀ token ∈ x.forever, token ∈ x.cache) (e : PriceEvent) :
    x.Serves e ↔ x.ServesTick e := by
  unfold Serves ServesTick
  cases e with
  | subscribeToken token ttl =>
    simpa [step] using forever_subscribeToken hforever token ttl
  | refreshTick =>
    simp only [step, forall_const, reduceCtorEq, false_implies, true_and, and_true]
    rw [onRefreshTick_iff, and_iff_left (onRefreshTick_keeps hforever)]
  | cleanupTick =>
    simp only [step, forall_const, reduceCtorEq, false_implies, true_and, onCleanupTick_forever]
    rw [← onCleanupTick_iff]
    exact and_congr_right (onCleanupTick_keeps_iff hforever)
  | response prices =>
    simp only [step, reduceCtorEq, false_implies, true_and, and_self, iff_true,
      onResponse_forever]
    exact fun token htoken => mem_onResponse (hforever token htoken)
  | elapse nanos => simpa [step] using hforever

/-- In every run the ticks are served and no token that was once subscribed for ever is removed
exactly when the only tick that finds something to do is the first one, and no such token has
run out of a later time to live. -/
theorem serves_along_iff (es : List PriceEvent) :
    Along step Serves init es ↔ Along step ServesTick init es := by
  apply along_iff_along (I := fun x : PriceFeed => ∀ token ∈ x.forever, token ∈ x.cache)
  · exact fun x e _ hserves => hserves.2.2
  · exact fun x e hforever => serves_iff hforever e
  · intro token htoken
    contradiction

/-- The second refresh tick is not served, and a cleanup tick removes a token that was
subscribed for ever and then for a time that has run out. -/
theorem not_serves_second_tick :
    ¬ (exec step init [.subscribeToken SOL (some Duration.max), .refreshTick,
        .response fun _ => none]).Serves .refreshTick ∧
      ¬ (exec step init [.subscribeToken SOL (some Duration.max), .subscribeToken SOL none,
        .elapse (151 * 10 ^ 9)]).Serves .cleanupTick := by
  constructor
  · rintro ⟨hrefresh, -⟩
    obtain ⟨tokens, hupdates, -⟩ := hrefresh rfl
    have hlength := congrArg List.length hupdates
    rw [List.length_append] at hlength
    change 1 = 1 + 1 at hlength
    contradiction
  · rintro ⟨-, -, hkept⟩
    exact absurd (hkept SOL (by decide)) (by decide)

end PriceFeed

end Biscuit.Swap
