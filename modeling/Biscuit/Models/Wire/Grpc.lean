import Mathlib.Data.Finset.Insert
import Mathlib.Data.Finset.Basic
import Biscuit.Core.Run
import Biscuit.Models.Chain.Keys

/-!
# The gRPC transaction stream

A supervising task keeps one inner task that streams the transactions of the watched
accounts. When the set of accounts changes it starts a second one, and aborts the first
as soon as the second has had its first message, or the second when that takes a minute.
All inner tasks broadcast into one channel.
-/

namespace Biscuit.Wire

/-- One message of a subscription. -/
inductive StreamMessage
  /-- A transaction, with whether it converts. -/
  | transaction (signature : Signature) (converts : Bool)
  /-- An update without a transaction: a ping or one that is not expected. -/
  | update
  /-- A message without an update. -/
  | empty
  deriving DecidableEq, Repr

/-- An inner streaming task. -/
structure InnerTask where
  accounts : Finset Pubkey
  /-- It has not been aborted. -/
  live : Bool
  /-- Its subscription is open. -/
  streaming : Bool
  /-- The messages it has received and not handled, oldest first. -/
  inbox : List StreamMessage
  /-- `has_started` holds a permit. -/
  hasStarted : Bool

namespace InnerTask

/-- A task without accounts returns at once, and never opens a subscription. -/
def connect (t : InnerTask) : InnerTask :=
  if t.live && decide (t.accounts ≠ ∅) && !t.streaming then
    { t with streaming := true, inbox := [] }
  else t

/-- Whether a transaction matches the subscription of a task. -/
def receives (mentions : List Pubkey) (t : InnerTask) : Bool :=
  t.streaming && mentions.any fun a => decide (a ∈ t.accounts)

/-- A message is appended to what a task has to handle. -/
def push (m : StreamMessage) (t : InnerTask) : InnerTask :=
  { t with inbox := t.inbox ++ [m] }

/-- It is aborted. It stops at its next await point; what it still handles until then comes
before the abort. -/
def abort (t : InnerTask) : InnerTask :=
  { t with live := false, streaming := false, inbox := [] }

/-- Its subscription ends; what it has not yielded is gone. -/
def disconnect (t : InnerTask) : InnerTask := { t with streaming := false, inbox := [] }

/-- A message of its subscription arrives. -/
def receive (m : StreamMessage) (t : InnerTask) : InnerTask :=
  if t.streaming then t.push m else t

/-- Its next message has been handled. -/
def pop (notified : Bool) (t : InnerTask) : InnerTask :=
  { t with inbox := t.inbox.tail, hasStarted := t.hasStarted || notified }

end InnerTask

/-- Where the supervising task is; inner tasks are numbered as they are spawned. -/
inductive Supervisor
  /-- Waiting for the first accounts. -/
  | waiting
  /-- Waiting for a change of the accounts. -/
  | idle (current : ℕ)
  /-- Asleep after a change. -/
  | resetting (current : ℕ)
  /-- Waiting for the replacement to start. -/
  | starting (current replacement : ℕ)
  deriving DecidableEq, Repr

namespace Supervisor

/-- The inner tasks that are not aborted. -/
def alive : Supervisor → List ℕ
  | waiting => []
  | idle current => [current]
  | resetting current => [current]
  | starting current replacement => [current, replacement]

/-- A replacement has been spawned and neither task has been aborted. -/
def IsStarting (p : Supervisor) : Prop := ∃ current replacement, p = starting current replacement

theorem alive_length_le (p : Supervisor) : p.alive.length ≤ 2 := by
  cases p <;> simp [alive]

theorem alive_length_le_one {p : Supervisor} (h : ¬ p.IsStarting) : p.alive.length ≤ 1 := by
  cases p with
  | waiting => exact Nat.zero_le _
  | idle current => exact le_rfl
  | resetting current => exact le_rfl
  | starting current replacement => exact absurd ⟨current, replacement, rfl⟩ h

end Supervisor

/-- A transaction on chain, and the inner tasks that received it. -/
structure Arrival where
  signature : Signature
  recipients : List ℕ
  deriving DecidableEq, Repr

/-- The handle, the two kinds of tasks, and what the run has seen. -/
structure GrpcStream where
  keys : Finset Pubkey
  /-- The accounts last sent to the supervising task. -/
  accounts : Finset Pubkey
  /-- It has not seen them yet. -/
  changed : Bool
  supervisor : Supervisor
  tasks : List InnerTask
  arrivals : List Arrival
  /-- What was broadcast, and by which inner task. -/
  broadcasts : List (ℕ × Signature)

/-- What happens next. -/
inductive StreamEvent
  | watchAccounts (requests : List Pubkey)
  | dropAccounts (requests : List Pubkey)
  /-- The supervising task goes on to where it next waits. -/
  | supervise
  /-- The minute for the replacement to start is over. -/
  | timeout
  /-- An inner task opens its subscription. -/
  | connect (i : ℕ)
  /-- The subscription of an inner task ends. -/
  | disconnect (i : ℕ)
  /-- A transaction that mentions these accounts reaches every matching subscription. -/
  | transaction (signature : Signature) (mentions : List Pubkey) (converts : Bool)
  /-- A subscription yields something else. -/
  | message (i : ℕ) (m : StreamMessage)
  /-- An inner task handles its next message. -/
  | handle (i : ℕ)

namespace GrpcStream

/-- The stream before anything is watched. -/
def init : GrpcStream := ⟨∅, ∅, false, .waiting, [], [], []⟩

/-! ## The handle -/

/-- The accounts are sent on when the set has changed. -/
def setKeys (s : GrpcStream) (r : Finset Pubkey × Bool) : GrpcStream :=
  if r.2 then { s with keys := r.1, accounts := r.1, changed := true }
  else { s with keys := r.1 }

def watchAccounts (s : GrpcStream) (requests : List Pubkey) : GrpcStream :=
  s.setKeys <| requests.foldl
    (fun r req => (insert req r.1, r.2 || decide (req ∉ r.1))) (s.keys, false)

def dropAccounts (s : GrpcStream) (requests : List Pubkey) : GrpcStream :=
  s.setKeys <| requests.foldl
    (fun r req => (r.1.erase req, r.2 || decide (req ∈ r.1))) (s.keys, false)

/-! ## The tasks -/

/-- A new inner task for the accounts last sent. -/
def spawn (s : GrpcStream) (p : Supervisor) : GrpcStream :=
  { s with
    changed := false
    supervisor := p
    tasks := s.tasks ++ [⟨s.accounts, true, false, [], false⟩] }

/-- Changing one inner task. -/
def modifyTask (s : GrpcStream) (i : ℕ) (f : InnerTask → InnerTask) : GrpcStream :=
  { s with tasks := s.tasks.modify i f }

/-- Whether the replacement has been notified. -/
def hasStarted (s : GrpcStream) (i : ℕ) : Bool :=
  match s.tasks[i]? with
  | none => false
  | some t => t.hasStarted

/-- The supervising task goes on to where it next waits. -/
def supervise (s : GrpcStream) : GrpcStream :=
  match s.supervisor with
  | .waiting => if s.changed then s.spawn (.idle s.tasks.length) else s
  | .idle current =>
    if s.changed then { s with changed := false, supervisor := .resetting current } else s
  | .resetting current => s.spawn (.starting current s.tasks.length)
  | .starting current replacement =>
    if s.hasStarted replacement then
      { s.modifyTask current InnerTask.abort with supervisor := .idle replacement }
    else s

/-- The wait for the replacement only ends without it when there is no permit. -/
def timeout (s : GrpcStream) : GrpcStream :=
  match s.supervisor with
  | .starting current replacement =>
    if s.hasStarted replacement then s
    else { s.modifyTask replacement InnerTask.abort with supervisor := .idle current }
  | _ => s

/-- The inner tasks that receive a transaction. -/
def recipients (s : GrpcStream) (mentions : List Pubkey) : List ℕ :=
  (List.range s.tasks.length).filter fun i =>
    match s.tasks[i]? with
    | none => false
    | some t => t.receives mentions

/-- A transaction lands once, and every matching subscription yields it once. -/
def transaction (s : GrpcStream) (signature : Signature) (mentions : List Pubkey)
    (converts : Bool) : GrpcStream :=
  if signature ∈ s.arrivals.map Arrival.signature then s
  else
    { s with
      arrivals := ⟨signature, s.recipients mentions⟩ :: s.arrivals
      tasks := s.tasks.map fun t =>
        if t.receives mentions then t.push (.transaction signature converts) else t }

/-- A message that is not a transaction. -/
def message (s : GrpcStream) (i : ℕ) (m : StreamMessage) : GrpcStream :=
  match m with
  | .transaction .. => s
  | _ => s.modifyTask i (InnerTask.receive m)

/-- An inner task handles its next message: an update notifies `has_started`, and a
transaction that converts is broadcast. -/
def handle (s : GrpcStream) (i : ℕ) : GrpcStream :=
  match (s.tasks[i]?).bind fun t => t.inbox.head? with
  | none => s
  | some .empty => s.modifyTask i (InnerTask.pop false)
  | some .update => s.modifyTask i (InnerTask.pop true)
  | some (.transaction signature converts) =>
    { s.modifyTask i (InnerTask.pop true) with
      broadcasts := if converts then s.broadcasts ++ [(i, signature)] else s.broadcasts }

/-- One step. -/
def step (s : GrpcStream) : StreamEvent → GrpcStream
  | .watchAccounts requests => s.watchAccounts requests
  | .dropAccounts requests => s.dropAccounts requests
  | .supervise => s.supervise
  | .timeout => s.timeout
  | .connect i => s.modifyTask i InnerTask.connect
  | .disconnect i => s.modifyTask i InnerTask.disconnect
  | .transaction signature mentions converts => s.transaction signature mentions converts
  | .message i m => s.message i m
  | .handle i => s.handle i

end GrpcStream

end Biscuit.Wire
