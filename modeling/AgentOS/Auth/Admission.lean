import AgentOS.Auth.Leases
import AgentOS.Lib.Interleave

/-!
# Admissions, revocations and erasures

Requests are admitted under a credential by `acquire_credential_principal` and leave by dropping
their lease; revocations and erasures close the leases of the credentials they cover, change the
records and wait for the leases to drain. All of them are tasks over one lease table, one
`AuthSystem` and its two locks, and each action of a task is one critical section.

`auth_mutation_lock` is held by one revocation or erasure at a time: by a revocation until its
durable commit, by an erasure until it returns. The auth lock is held for writing by a revocation
during its critical section, and for reading by a request while it resolves its principal. An
erasure reads the records, and removes its subject at the end, in one action each.

A drain is a waiter per closed entry; the waiters of a drain that timed out go on by themselves, so
they can act in every later phase of their task.
-/

namespace AgentOS

open Lib

/-! ## The shared state -/

/-- The lease table, the records and the locks. -/
structure AuthState where
  auth : AuthSystem
  now : Nat
  leases : LeaseTable
  (mutation writer : Bool)
  readers : Nat

/-- No task is running. -/
def AuthState.initial (auth : AuthSystem) (now : Nat) : AuthState where
  auth
  now
  leases := LeaseTable.empty
  mutation := false
  writer := false
  readers := 0

/-! ## Requests -/

/-- The point that a request has reached. -/
inductive RequestPhase where
  /-- About to acquire a lease. -/
  | arriving
  /-- Has a lease and waits for the auth lock. -/
  | leased (entry : Nat)
  /-- Has resolved its principal and still holds the auth lock. -/
  | resolved (entry : Nat) (principal : Principal)
  /-- `acquire_credential_principal` has returned; the request runs, or waits to run. -/
  | admitted (entry : Nat) (principal : Principal)
  /-- Drops its lease. -/
  | dropping (entry : Nat)
  /-- Was the last one on an open entry. -/
  | evicting (entry : Nat)
  | finished
  deriving DecidableEq

/-- A request under a credential. -/
structure Request where
  identity : CredentialIdentity
  phase : RequestPhase
  deriving DecidableEq

variable (sh : AuthState)

namespace Request

variable (request : Request)

/-- The entry that the request holds a lease on. -/
def lease : Option Nat :=
  match request.phase with
  | .leased entry | .resolved entry _ | .admitted entry _ | .dropping entry => some entry
  | _ => none

/-- The request holds the auth lock. -/
def holdsRead : Bool :=
  match request.phase with
  | .resolved _ _ => true
  | _ => false

/-- The request has been admitted and has not ended. -/
def isAdmitted : Bool :=
  match request.phase with
  | .admitted _ _ => true
  | _ => false

/-- One action of a request; `cancel` drops the future while it waits for the auth lock. -/
def act (request : Request) (cancel : Bool) : AuthState × Request :=
  match request.phase with
  | .arriving =>
    match sh.leases.acquire request.identity with
    | (leases, some entry) => ({ sh with leases }, { request with phase := .leased entry })
    | (leases, none) => ({ sh with leases }, { request with phase := .finished })
  | .leased entry =>
    if cancel then (sh, { request with phase := .dropping entry })
    else if sh.writer then (sh, request)
    else
      match sh.auth.authenticateIdentity sh.now request.identity with
      | none => (sh, { request with phase := .dropping entry })
      | some principal =>
        ({ sh with readers := sh.readers + 1 },
          { request with phase := .resolved entry principal })
  | .resolved entry principal =>
    match sh.leases.bindOwner entry (principal.userId, principal.tenantId) with
    | (leases, true) =>
      ({ sh with leases, readers := sh.readers - 1 },
        { request with phase := .admitted entry principal })
    | (leases, false) =>
      ({ sh with leases, readers := sh.readers - 1 },
        { request with phase := .dropping entry })
  | .admitted entry _ => (sh, { request with phase := .dropping entry })
  | .dropping entry =>
    match sh.leases.release entry with
    | (leases, true) => ({ sh with leases }, { request with phase := .evicting entry })
    | (leases, false) => ({ sh with leases }, { request with phase := .finished })
  | .evicting entry =>
    ({ sh with leases := sh.leases.evictOpen request.identity entry },
      { request with phase := .finished })
  | .finished => (sh, request)

end Request

/-! ## Revocations and erasures -/

/-- `revoke_session`, `revoke_api_key_id`, `revoke_user` and `revoke_tenant`, by their subject; and
`erase_user_data`, `erase_tenant_data` and `erase_agent_data`, the last one with the agent's
tenant. -/
inductive Operation where
  | revoke (subject : Subject)
  | eraseUser (userId : Text)
  | eraseTenant (tenantId : Text)
  | eraseAgent (tenantId : Option Text)
  deriving DecidableEq

namespace Operation

/-- Whose credentials the operation closes. -/
def subject : Operation → Option Subject
  | .revoke subject => some subject
  | .eraseUser userId => some (.user userId)
  | .eraseTenant tenantId => some (.tenant tenantId)
  | .eraseAgent tenantId => tenantId.map .tenant

/-- The operation is an erasure. -/
def isErasure : Operation → Bool
  | .revoke _ => false
  | _ => true

/-- The operation removes its subject from the records. -/
def removes : Operation → Bool
  | .eraseAgent _ => false
  | _ => true

/-- `invalid_erasure_subject` and the check of an API-key identifier. -/
def isInvalid : Operation → Bool
  | .revoke (.apiKey id) => byteLength id != 64 || !id.all fun c => (hexDigit c).isSome
  | .revoke _ => false
  | .eraseUser userId => trim userId = []
  | .eraseTenant tenantId => trim tenantId = []
  | .eraseAgent _ => false

end Operation

namespace Subject

/-- The identities that may be reopened if the operation fails. -/
def live (subject : Subject) (auth : AuthSystem) : List CredentialIdentity :=
  match subject with
  | .session id => [⟨.session, id⟩]
  | .apiKey id => [⟨.apiKey, id⟩]
  | .user id => auth.credentialIdentitiesForUser id
  | .tenant id => auth.credentialIdentitiesForTenant id

/-- The identities with an entry that was bound to the subject. -/
def tracked (subject : Subject) (leases : LeaseTable) : List CredentialIdentity :=
  match subject with
  | .session _ => []
  | .apiKey _ => []
  | .user id => leases.trackedForUser id
  | .tenant id => leases.trackedForTenant id

end Subject

/-- What became of an operation. -/
inductive OperationResult where
  | done
  | failed
  | timedOut
  deriving DecidableEq

/-- `CredentialDrain::wait`. -/
inductive WaiterPhase where
  | waiting
  | sawZero
  | done
  deriving DecidableEq

/-- A drain of one entry. -/
structure Waiter where
  identity : CredentialIdentity
  entry : Nat
  phase : WaiterPhase
  deriving DecidableEq

/-- The point that an operation has reached. -/
inductive CloserPhase where
  /-- Waits for `auth_mutation_lock`. -/
  | queued
  /-- Waits for the auth lock. -/
  | mutating
  /-- Closes the entries of the remaining identities. -/
  | closing (remaining : List CredentialIdentity)
  /-- A revocation's durable write. -/
  | committing
  /-- The waiters run. -/
  | draining
  /-- An erasure after its drain, until its records are erased. -/
  | fenced
  /-- An erasure that waits for the auth lock to remove its subject. -/
  | removing
  /-- Reopens the remaining identities, then returns. -/
  | reopening (remaining : List CredentialIdentity) (result : OperationResult)
  | finished (result : OperationResult)
  deriving DecidableEq

/-- A revocation or an erasure: its operation, the point it has reached, `live_identities` and the
drains of the entries it closed. -/
structure Closer where
  operation : Operation
  phase : CloserPhase
  live : List CredentialIdentity
  waiters : List Waiter
  deriving DecidableEq

/-- What the surroundings decide in one action: which of the remaining identities is next (they come
from a hash set), which waiter acts, whether a write or the erasure's body fails, and when a drain
times out. -/
inductive CloserChoice where
  | next (index : Nat)
  | waiter (index : Nat)
  | succeed
  | fail
  | timeout
  deriving DecidableEq

namespace Waiter

/-- One action of a waiter. -/
def act (waiter : Waiter) : AuthState × Waiter :=
  match waiter.phase with
  | .waiting =>
    if sh.leases.isIdle waiter.entry then (sh, { waiter with phase := .sawZero })
    else (sh, waiter)
  | .sawZero =>
    ({ sh with leases := sh.leases.evictClosed waiter.identity waiter.entry },
      { waiter with phase := .done })
  | .done => (sh, waiter)

end Waiter

namespace Closer

variable (closer : Closer)

/-- The operation holds `auth_mutation_lock`. -/
def holdsMutation : Bool :=
  match closer.phase with
  | .queued => false
  | .draining => closer.operation.isErasure
  | .finished _ => false
  | _ => true

/-- The operation holds the auth lock for writing. -/
def holdsWrite : Bool :=
  match closer.phase with
  | .closing _ => !closer.operation.isErasure
  | .committing => true
  | .reopening _ _ => !closer.operation.isErasure
  | _ => false

/-- The drain has been spawned. -/
def isSpawned : Bool :=
  match closer.phase with
  | .queued | .mutating | .closing _ | .committing => false
  | _ => true

/-- The identities that the operation will close: those of the records and those of the leases. -/
def identities : List CredentialIdentity :=
  match closer.operation.subject with
  | none => []
  | some subject => (subject.live sh.auth ++ subject.tracked sh.leases).dedup

/-- The identities of the records. -/
def liveIdentities : List CredentialIdentity :=
  match closer.operation.subject with
  | none => []
  | some subject => subject.live sh.auth

/-- The records without the operation's subject. -/
def removed : AuthSystem :=
  match closer.operation.subject with
  | none => sh.auth
  | some subject => subject.revoke sh.auth

/-- The records are listed and the closing begins. -/
def list : Closer :=
  { closer with
    phase := .closing (closer.identities sh)
    live := closer.liveIdentities sh }

/-- One action while the entries are closed. -/
def closeNext (remaining : List CredentialIdentity) (index : Nat) :
    AuthState × Closer :=
  match remaining[index]? with
  | none =>
    if remaining = [] then
      (sh,
        { closer with
          phase := if closer.operation.isErasure then .draining else .committing })
    else (sh, closer)
  | some identity =>
    match sh.leases.close identity with
    | (leases, entry) =>
      ({ sh with leases },
        { closer with
          phase := .closing (remaining.eraseIdx index)
          waiters := closer.waiters ++ [⟨identity, entry, .waiting⟩] })

/-- One action while identities are reopened. -/
def reopenNext (remaining : List CredentialIdentity) (result : OperationResult) (index : Nat) :
    AuthState × Closer :=
  match remaining[index]? with
  | none =>
    if remaining = [] then
      ({ sh with
          mutation := false
          writer := if closer.operation.isErasure then sh.writer else false },
        { closer with phase := .finished result })
    else (sh, closer)
  | some identity =>
    ({ sh with leases := sh.leases.reopen identity },
      { closer with phase := .reopening (remaining.eraseIdx index) result })

/-- One waiter of the drain acts. -/
def waiterActs (index : Nat) : AuthState × Closer :=
  match closer.waiters[index]? with
  | none => (sh, closer)
  | some waiter =>
    ((waiter.act sh).1,
      { closer with waiters := closer.waiters.set index (waiter.act sh).2 })

/-- Every waiter has ended. -/
def isDrained : Bool := closer.waiters.all fun waiter => waiter.phase == .done

/-- The end of the drain. -/
def drainStep (choice : CloserChoice) : AuthState × Closer :=
  match choice with
  | .timeout =>
    (sh,
      { closer with
        phase :=
          if closer.operation.isErasure then .reopening closer.live .timedOut
          else .finished .timedOut })
  | .succeed =>
    if closer.isDrained then
      (sh,
        { closer with
          phase := if closer.operation.isErasure then .fenced else .finished .done })
    else (sh, closer)
  | _ => (sh, closer)

/-- One action of an operation other than that of a waiter. -/
def advance (choice : CloserChoice) : AuthState × Closer :=
  match closer.phase with
  | .queued =>
    if sh.mutation then (sh, closer)
    else ({ sh with mutation := true }, { closer with phase := .mutating })
  | .mutating =>
    if sh.writer then (sh, closer)
    else if closer.operation.isErasure then (sh, closer.list sh)
    else if sh.readers = 0 then ({ sh with writer := true }, closer.list sh)
    else (sh, closer)
  | .closing remaining =>
    match choice with
    | .next index => closer.closeNext sh remaining index
    | _ => (sh, closer)
  | .committing =>
    match choice with
    | .succeed =>
      ({ sh with auth := closer.removed sh, mutation := false, writer := false },
        { closer with phase := .draining })
    | .fail => (sh, { closer with phase := .reopening closer.live .failed, waiters := [] })
    | _ => (sh, closer)
  | .draining => closer.drainStep sh choice
  | .fenced =>
    match choice with
    | .succeed =>
      (sh,
        { closer with
          phase :=
            if closer.operation.removes then .removing else .reopening closer.live .done })
    | .fail => (sh, { closer with phase := .reopening closer.live .failed })
    | _ => (sh, closer)
  | .removing =>
    if sh.writer = false ∧ sh.readers = 0 then
      ({ sh with auth := closer.removed sh, mutation := false },
        { closer with phase := .finished .done })
    else (sh, closer)
  | .reopening remaining result =>
    match choice with
    | .next index => closer.reopenNext sh remaining result index
    | _ => (sh, closer)
  | .finished _ => (sh, closer)

/-- One action of an operation. -/
def act (choice : CloserChoice) : AuthState × Closer :=
  match choice with
  | .waiter index => if closer.isSpawned then closer.waiterActs sh index else (sh, closer)
  | choice => closer.advance sh choice

end Closer

/-! ## The program -/

/-- A task. -/
inductive AuthTask where
  | request (request : Request)
  | closer (closer : Closer)
  deriving DecidableEq

/-- What starts. -/
inductive AuthInput where
  | request (identity : CredentialIdentity)
  | operation (operation : Operation)
  deriving DecidableEq

/-- What the surroundings decide in one action. -/
inductive AuthChoice where
  | cancel
  | closer (choice : CloserChoice)
  deriving DecidableEq

namespace AuthTask

/-- A new task. -/
def start (input : AuthInput) : AuthState × AuthTask :=
  match input with
  | .request identity => (sh, .request ⟨identity, .arriving⟩)
  | .operation operation =>
    (sh, .closer
      { operation
        phase := if operation.isInvalid then .finished .failed else .queued
        live := []
        waiters := [] })

/-- One action of a task. -/
def act (task : AuthTask) (choice : AuthChoice) : AuthState × AuthTask :=
  match task with
  | .request r => ((r.act sh (choice = .cancel)).1, .request (r.act sh (choice = .cancel)).2)
  | .closer c =>
    match choice with
    | .closer choice => ((c.act sh choice).1, .closer (c.act sh choice).2)
    | .cancel => (sh, .closer c)

/-- Requests, revocations and erasures; from outside only time passes. -/
def program : Program AuthState AuthTask AuthInput AuthChoice Nat where
  start
  act
  outside sh elapsed := { sh with now := sh.now + elapsed }

end AuthTask

end AgentOS
