import AgentOS.Base.Text

/-!
# Tenants, users and credentials

`AuthSystem` resolves a credential identity (the digest of a session token or of an API key) to the
user and tenant it acts for. Records only disappear here: the results about revocation compare the
present records with those at the start, so `owner`, the user and tenant of a credential's record,
is the function they are stated with.
-/

namespace AgentOS

open Lib

/-! ## Credential identities -/

inductive CredentialKind where
  | apiKey
  | session
  deriving DecidableEq

structure CredentialIdentity where
  kind : CredentialKind
  id : Text
  deriving DecidableEq

namespace CredentialIdentity

/-- The kind, as a number. -/
def kindIndex (ident : CredentialIdentity) : Nat :=
  match ident.kind with
  | .apiKey => 0
  | .session => 1

/-- An order for maps keyed by identities. -/
def cmp : CredentialIdentity → CredentialIdentity → Ordering :=
  compareLex (compareOn kindIndex) (compareOn CredentialIdentity.id)

instance : Ord CredentialIdentity := ⟨cmp⟩

instance : Std.TransOrd CredentialIdentity :=
  inferInstanceAs (Std.TransCmp (compareLex (compareOn kindIndex)
    (compareOn CredentialIdentity.id)))

instance : Std.LawfulEqOrd CredentialIdentity where
  eq_of_compare {a b} h := by
    have h : (compare a.kindIndex b.kindIndex).then (compare a.id b.id) = .eq := h
    rw [Ordering.then_eq_eq] at h
    simp only [Std.LawfulEqOrd.compare_eq_iff_eq] at h
    obtain ⟨hkind, hid⟩ := h
    obtain ⟨kind, id⟩ := a
    obtain ⟨kind', id'⟩ := b
    obtain rfl : id = id' := hid
    cases kind with
    | apiKey =>
      cases kind' with
      | apiKey => rfl
      | session => exact absurd hkind (by simp [kindIndex])
    | session =>
      cases kind' with
      | apiKey => exact absurd hkind (by simp [kindIndex])
      | session => rfl
  compare_self {a} := by
    show (compare a.kindIndex a.kindIndex).then (compare a.id a.id) = .eq
    simp

end CredentialIdentity

/-! ## Records -/

inductive Role where
  | admin
  | user
  | readOnly
  deriving DecidableEq

/-- `User`: the fields that resolution reads. -/
structure User where
  tenantId : Text
  role : Role
  deriving DecidableEq

/-- `ApiKey`: the fields that resolution and revocation read. -/
structure ApiKey where
  (userId tenantId : Text)
  deriving DecidableEq

structure Session where
  (userId tenantId : Text)
  expiresAt : Nat
  deriving DecidableEq

structure Principal where
  (userId tenantId : Text)
  role : Role
  credential : Option CredentialIdentity
  deriving DecidableEq

/-- `AuthSystem`: users by id, sessions and API keys by digest, and the ids of the tenants. -/
structure AuthSystem where
  tenants : List Text
  users : OrdMap Text User
  sessions : OrdMap Text Session
  apiKeys : OrdMap Text ApiKey

variable {ident : CredentialIdentity}

namespace AuthSystem

variable (auth : AuthSystem)

/-- The check of the user and the tenant behind a credential's record. -/
def resolve (ident : CredentialIdentity) (userId tenantId : Text) : Option Principal :=
  match auth.users[userId]? with
  | none => none
  | some user =>
    if user.tenantId ≠ tenantId ∨ tenantId ∉ auth.tenants then none
    else some { userId, tenantId, role := user.role, credential := some ident }

def authenticateApiKeyIdentity (ident : CredentialIdentity) : Option Principal :=
  match auth.apiKeys[ident.id]? with
  | some key => auth.resolve ident key.userId key.tenantId
  | none => none

def authenticateSessionIdentity (now : Nat) (ident : CredentialIdentity) : Option Principal :=
  match auth.sessions[ident.id]? with
  | some session =>
    if session.expiresAt < now then none
    else auth.resolve ident session.userId session.tenantId
  | none => none

def authenticateIdentity (now : Nat) (ident : CredentialIdentity) : Option Principal :=
  match ident.kind with
  | .apiKey => auth.authenticateApiKeyIdentity ident
  | .session => auth.authenticateSessionIdentity now ident

/-- The user and the tenant in a credential's record. -/
def owner (ident : CredentialIdentity) : Option (Text × Text) :=
  match ident.kind with
  | .apiKey => auth.apiKeys[ident.id]?.map fun key => (key.userId, key.tenantId)
  | .session => auth.sessions[ident.id]?.map fun session => (session.userId, session.tenantId)

theorem resolve_eq_some {userId tid : Text} {prin : Principal}
    (h : auth.resolve ident userId tid = some prin) :
    prin.userId = userId ∧ prin.tenantId = tid := by
  unfold resolve at h
  split at h
  · cases h
  · split at h
    · cases h
    · cases h
      exact ⟨rfl, rfl⟩

/-- A credential that resolves has a record, and the principal is the one of the record. -/
theorem owner_of_authenticateIdentity {now : Nat} {prin : Principal}
    (h : auth.authenticateIdentity now ident = some prin) :
    auth.owner ident = some (prin.userId, prin.tenantId) := by
  unfold authenticateIdentity at h
  unfold owner
  split at h
  · unfold authenticateApiKeyIdentity at h
    split at h
    · next key hkey =>
      obtain ⟨huser, ht⟩ := auth.resolve_eq_some h
      simp [hkey, huser, ht]
    · cases h
  · unfold authenticateSessionIdentity at h
    split at h
    · next sess hs =>
      split at h
      · cases h
      · obtain ⟨huser, ht⟩ := auth.resolve_eq_some h
        simp [hs, huser, ht]
    · cases h

/-! ## Revocation -/

/-- The identities of the sessions and API keys whose owner passes a test. -/
def credentialIdentities (test : Text × Text → Bool) : List CredentialIdentity :=
  ((auth.sessions.toList.filter fun row => test (row.2.userId, row.2.tenantId)).map
      fun row => ⟨.session, row.1⟩) ++
    (auth.apiKeys.toList.filter fun row => test (row.2.userId, row.2.tenantId)).map
      fun row => ⟨.apiKey, row.1⟩

def credentialIdentitiesForUser (userId : Text) : List CredentialIdentity :=
  auth.credentialIdentities fun owner => owner.1 == userId

def credentialIdentitiesForTenant (tenantId : Text) : List CredentialIdentity :=
  auth.credentialIdentities fun owner => owner.2 == tenantId

def revokeSessionIdentity (ident : CredentialIdentity) : AuthSystem :=
  if ident.kind = .session then { auth with sessions := auth.sessions.erase ident.id }
  else auth

def revokeApiKeyIdentity (ident : CredentialIdentity) : AuthSystem :=
  if ident.kind = .apiKey then { auth with apiKeys := auth.apiKeys.erase ident.id }
  else auth

def revokeUser (userId : Text) : AuthSystem :=
  { auth with
    users := auth.users.erase userId
    sessions := auth.sessions.filter fun _ session => session.userId != userId
    apiKeys := auth.apiKeys.filter fun _ key => key.userId != userId }

def revokeTenant (tenantId : Text) : AuthSystem where
  tenants := auth.tenants.filter fun id => id != tenantId
  users := auth.users.filter fun _ user => user.tenantId != tenantId
  sessions := auth.sessions.filter fun _ session => session.tenantId != tenantId
  apiKeys := auth.apiKeys.filter fun _ key => key.tenantId != tenantId

theorem mem_credentialIdentities {test : Text × Text → Bool} :
    ident ∈ auth.credentialIdentities test ↔
      ∃ owner, auth.owner ident = some owner ∧ test owner = true := by
  obtain ⟨kind, id⟩ := ident
  unfold credentialIdentities owner
  rw [List.mem_append, List.mem_map, List.mem_map]
  simp only [List.mem_filter]
  cases kind with
  | apiKey =>
    constructor
    · rintro (⟨row, -, heq⟩ | ⟨⟨key, rec⟩, ⟨hmem, htest⟩, heq⟩)
      · cases heq
      · cases heq
        rw [OrdMap.mem_toList_iff] at hmem
        exact ⟨_, by rw [hmem]; rfl, htest⟩
    · rintro ⟨owner, ho, htest⟩
      obtain ⟨rec, hr, rfl⟩ := Option.map_eq_some_iff.1 ho
      exact .inr ⟨(id, rec), ⟨OrdMap.mem_toList_iff.2 hr, htest⟩, rfl⟩
  | session =>
    constructor
    · rintro (⟨⟨key, rec⟩, ⟨hmem, htest⟩, heq⟩ | ⟨row, -, heq⟩)
      · cases heq
        rw [OrdMap.mem_toList_iff] at hmem
        exact ⟨_, by rw [hmem]; rfl, htest⟩
      · cases heq
    · rintro ⟨owner, ho, htest⟩
      obtain ⟨rec, hr, rfl⟩ := Option.map_eq_some_iff.1 ho
      exact .inl ⟨(id, rec), ⟨OrdMap.mem_toList_iff.2 hr, htest⟩, rfl⟩

end AuthSystem

/-- What a revocation is about. -/
inductive Subject where
  | session (id : Text)
  | apiKey (id : Text)
  | user (id : Text)
  | tenant (id : Text)
  deriving DecidableEq

namespace Subject

/-- The credential belongs to the subject, by the records that `owner` reads. -/
def Covers (subject : Subject) (owner : CredentialIdentity → Option (Text × Text))
    (ident : CredentialIdentity) : Prop :=
  match subject with
  | .session id => ident = ⟨.session, id⟩
  | .apiKey id => ident = ⟨.apiKey, id⟩
  | .user id => ∃ tenant, owner ident = some (id, tenant)
  | .tenant id => ∃ user, owner ident = some (user, id)

/-- The removal of the subject from the records. -/
def revoke (subject : Subject) (auth : AuthSystem) : AuthSystem :=
  match subject with
  | .session id => auth.revokeSessionIdentity ⟨.session, id⟩
  | .apiKey id => auth.revokeApiKeyIdentity ⟨.apiKey, id⟩
  | .user id => auth.revokeUser id
  | .tenant id => auth.revokeTenant id

/-- A record survives a removal exactly when the subject does not cover it. -/
theorem owner_revoke (subj : Subject) (auth : AuthSystem) {owner : Text × Text} :
    (subj.revoke auth).owner ident = some owner ↔
      auth.owner ident = some owner ∧ ¬ subj.Covers auth.owner ident := by
  obtain ⟨kind, id⟩ := ident
  cases subj with
  | session revoked =>
    cases kind with
    | apiKey => simp [revoke, Covers, AuthSystem.revokeSessionIdentity, AuthSystem.owner]
    | session =>
      simp only [revoke, Covers, AuthSystem.revokeSessionIdentity, AuthSystem.owner, if_true,
        OrdMap.lookup_erase, CredentialIdentity.mk.injEq, true_and, eq_comm (a := id)]
      split
      · next h => simp [h]
      · next h => simp [h]
  | apiKey revoked =>
    cases kind with
    | apiKey =>
      simp only [revoke, Covers, AuthSystem.revokeApiKeyIdentity, AuthSystem.owner, if_true,
        OrdMap.lookup_erase, CredentialIdentity.mk.injEq, true_and, eq_comm (a := id)]
      split
      · next h => simp [h]
      · next h => simp [h]
    | session => simp [revoke, Covers, AuthSystem.revokeApiKeyIdentity, AuthSystem.owner]
  | user revoked =>
    cases kind with
    | apiKey =>
      simp only [revoke, Covers, AuthSystem.revokeUser, AuthSystem.owner, OrdMap.lookup_filter]
      cases auth.apiKeys[id]? with
      | none => simp
      | some key => by_cases h : key.userId = revoked <;> simp [Option.filter, h]
    | session =>
      simp only [revoke, Covers, AuthSystem.revokeUser, AuthSystem.owner, OrdMap.lookup_filter]
      cases auth.sessions[id]? with
      | none => simp
      | some session => by_cases h : session.userId = revoked <;> simp [Option.filter, h]
  | tenant revoked =>
    cases kind with
    | apiKey =>
      simp only [revoke, Covers, AuthSystem.revokeTenant, AuthSystem.owner, OrdMap.lookup_filter]
      cases auth.apiKeys[id]? with
      | none => simp
      | some key => by_cases h : key.tenantId = revoked <;> simp [Option.filter, h]
    | session =>
      simp only [revoke, Covers, AuthSystem.revokeTenant, AuthSystem.owner, OrdMap.lookup_filter]
      cases auth.sessions[id]? with
      | none => simp
      | some session => by_cases h : session.tenantId = revoked <;> simp [Option.filter, h]

variable {owner owner' : CredentialIdentity → Option (Text × Text)}

/-- The subject covers a credential by records that still exist, if it does by later ones. -/
theorem Covers.mono {subj : Subject} (h : subj.Covers owner ident)
    (ho : ∀ o, owner ident = some o → owner' ident = some o) : subj.Covers owner' ident := by
  cases subj with
  | session id => exact h
  | apiKey id => exact h
  | user id =>
    obtain ⟨tenant, ht⟩ := h
    exact ⟨tenant, ho _ ht⟩
  | tenant id =>
    obtain ⟨user, huser⟩ := h
    exact ⟨user, ho _ huser⟩

/-- A record has one owner, so the later records decide as the earlier ones do. -/
theorem Covers.of_owner {subj : Subject} {o : Text × Text} (h : subj.Covers owner ident)
    (ho : owner ident = some o) (ho' : owner' ident = some o) : subj.Covers owner' ident := by
  apply h.mono
  intro other hot
  rw [ho', ← hot, ho]

end Subject

end AgentOS
