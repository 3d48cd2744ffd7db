import AgentOS.Base.Clock
import AgentOS.Storage.Encryption

/-!
# Backups

A backup is a directory with a database snapshot and a manifest. `verifyBackupInternal` decides
whether a directory is one, and `verified` is what it leaves of the directory: SQLite puts sidecars
beside a snapshot that it opens, also read-only. What SQLite says of a snapshot and which sidecars
it leaves, how a manifest is decoded and how a timestamp is parsed are parameters (`BackupHost`).

Names are as the operating system has them: a byte that is no UTF-8 is `none`. An entry that cannot
be inspected is `unreadable`, with the error.
-/

namespace AgentOS

open Lib

/-! ## Directories -/

/-- The bytes of a file. -/
abbrev Bytes : Type := List UInt8

/-- A file name; `none` is a byte that is no UTF-8. -/
abbrev OsName : Type := List (Option Char)

instance : LawfulBEq OsName := inferInstance

/-- The replacement character of a lossy conversion. -/
def replacementCharacter : Char := Char.ofNat 0xFFFD

def toStringLossy (name : OsName) : Text := name.map fun c => c.getD replacementCharacter

/-- A name that is UTF-8. -/
def osName (name : Text) : OsName := name.map some

/-- An entry of a backup directory. -/
inductive Inner where
  | file (bytes : Bytes)
  | irregular
  | unreadable (error : String)
  deriving DecidableEq

/-- A directory of a backup root. -/
abbrev Folder : Type := List (OsName × Inner)

/-- An entry of a backup root; `other` is a file, a symlink or anything else. -/
inductive Node where
  | folder (contents : Folder)
  | other
  | unreadable (error : String)
  deriving DecidableEq

/-- The entry of a directory with a name. -/
def Folder.find (contents : Folder) (name : Text) : Option Inner :=
  (contents.find? fun entry => entry.1 = osName name).map Prod.snd

/-- `Path::join`, as it is displayed. -/
def joinPath (path name : Text) : Text := path ++ '/' :: name

def requireRealDirectory (path : Text) (label : String) : Option Node → Except ContextError Folder
  | some (.folder contents) => .ok contents
  | some .other => .error (storageError (label ++ " " ++ String.ofList path ++
      " must be a real directory, not a symlink"))
  | some (.unreadable error) => .error (storageError ("failed to inspect " ++ label ++ " " ++
      String.ofList path ++ ": " ++ error))
  | none => .error (storageError ("failed to inspect " ++ label ++ " " ++ String.ofList path ++
      ": " ++ Lib.IoError.notFound.toString))

/-- `require_regular_file`, with the contents of the file. -/
def requireRegularFile (path : Text) (label : String) : Option Inner → Except ContextError Bytes
  | some (.file bytes) => .ok bytes
  | some .irregular => .error (storageError (label ++ " " ++ String.ofList path ++
      " must be a regular file, not a symlink"))
  | some (.unreadable error) => .error (storageError ("failed to inspect " ++ label ++ " " ++
      String.ofList path ++ ": " ++ error))
  | none => .error (storageError ("failed to inspect " ++ label ++ " " ++ String.ofList path ++
      ": " ++ Lib.IoError.notFound.toString))

/-! ## Manifests -/

structure BackupEncryption where
  formatVersion : Nat
  (algorithm keyId : Text)
  deriving DecidableEq

structure BackupAuthenticity where
  formatVersion : Nat
  (algorithm keyId publicKeySha256 signatureHex : Text)
  deriving DecidableEq

structure BackupManifest where
  formatVersion : Nat
  databaseFile : Text
  (applicationId schemaVersion : Int)
  (installationId createdAt : Text)
  byteCount : Nat
  sha256 : Text
  encryption : Option BackupEncryption
  authenticity : Option BackupAuthenticity
  deriving DecidableEq

def legacyBackupFormatVersion : Nat := 1

def backupFormatVersion : Nat := 2

def backupDatabaseFile : Text := "agent_os.db".toList

def backupDatabaseShmFile : Text := "agent_os.db-shm".toList

def backupDatabaseWalFile : Text := "agent_os.db-wal".toList

def backupManifestFile : Text := "manifest.json".toList

def maxManifestBytes : Nat := 64 * 1024

/-! ## Sidecars -/

/-- What SQLite leaves beside a database that it opened read-only: the contents of its shared-memory
index, if it keeps one, and an empty log, if there was none. -/
structure Sidecars where
  index : Option Bytes
  log : Bool
  deriving DecidableEq

/-- An entry of a directory whose shared-memory index was written; what is no regular file stays. -/
def rewriteIndex (bytes : Bytes) (entry : OsName × Inner) : OsName × Inner :=
  match entry.2 with
  | .file _ => if entry.1 = osName backupDatabaseShmFile then (entry.1, .file bytes) else entry
  | _ => entry

/-- A directory in which the shared-memory index was written. -/
def Folder.putIndex (contents : Folder) (bytes : Bytes) : Folder :=
  if osName backupDatabaseShmFile ∈ contents.map Prod.fst then contents.map (rewriteIndex bytes)
  else contents ++ [(osName backupDatabaseShmFile, .file bytes)]

/-- A directory in which a log was created, unless there was one. -/
def Folder.putLog (contents : Folder) : Folder :=
  if osName backupDatabaseWalFile ∈ contents.map Prod.fst then contents
  else contents ++ [(osName backupDatabaseWalFile, .file [])]

/-- The directory after its database was opened. -/
def Folder.leave (contents : Folder) (sidecars : Sidecars) : Folder :=
  let indexed := sidecars.index.elim contents contents.putIndex
  if sidecars.log then indexed.putLog else indexed

/-- The log beside a snapshot; an empty one says nothing. -/
def Folder.log (contents : Folder) : Option Inner :=
  (contents.find backupDatabaseWalFile).filter fun inner => inner != .file []

/-- What the components outside the backup code say. `openVerified` is `open_verified_database` on a
snapshot and the log beside it, under an optional key, and `sidecars` is what it leaves in the
directory, whether it succeeds or not. -/
structure BackupHost where
  crypto : Crypto
  parseManifest : Bytes → Except String BackupManifest
  parseTimestamp : Text → Except String DateTime
  openVerified : Option StorageEncryptionKey → Bytes → Option Inner →
    Except ContextError StorageMetadata
  sidecars : Option StorageEncryptionKey → Folder → Sidecars

def validateBackupEncryption (encryption : BackupEncryption) : Except ContextError Unit :=
  if encryption.formatVersion ≠ 1 then
    .error (storageError ("unsupported backup encryption format version " ++
      toString encryption.formatVersion))
  else if encryption.algorithm ≠ "sqlcipher-4".toList then
    .error (storageError ("unsupported backup encryption algorithm " ++
      debugString encryption.algorithm))
  else if isValidKeyId encryption.keyId = false then
    .error (storageError
      "backup encryption key id must be 1-96 ASCII letters, digits, '-', '_' or '.'")
  else .ok ()

def validateAuthenticity (authenticity : BackupAuthenticity) : Except ContextError Unit :=
  if authenticity.formatVersion ≠ 1 then
    .error (storageError ("unsupported backup authenticity format version " ++
      toString authenticity.formatVersion))
  else if authenticity.algorithm ≠ "ed25519".toList then
    .error (storageError ("unsupported backup signature algorithm " ++
      debugString authenticity.algorithm))
  else if isValidKeyId authenticity.keyId = false then
    .error (storageError
      "backup signing key id must be 1-96 ASCII letters, digits, '-', '_' or '.'")
  else if ((hexDecode authenticity.publicKeySha256).map List.length) ≠ some 32 then
    .error (storageError "backup signing-key fingerprint must be a 32-byte SHA-256 value")
  else if ((hexDecode authenticity.signatureHex).map List.length) ≠ some 64 then
    .error (storageError "backup Ed25519 signature must contain exactly 64 bytes")
  else .ok ()

namespace BackupHost

variable (H : BackupHost)

def readManifest (path : Text) (contents : Folder) : Except ContextError BackupManifest := do
  let file := joinPath path backupManifestFile
  let bytes ← requireRegularFile file "backup manifest" (contents.find backupManifestFile)
  if maxManifestBytes < bytes.length then
    .error (storageError ("backup manifest " ++ String.ofList file ++ " exceeds " ++
      toString maxManifestBytes ++ " bytes"))
  else
    (H.parseManifest bytes).mapError fun e =>
      storageError ("failed to parse backup manifest " ++ String.ofList file ++ ": " ++ e)

/-- The checks of the manifest alone. -/
def checkManifest (manifest : BackupManifest) : Except ContextError Unit :=
  if manifest.formatVersion ≠ legacyBackupFormatVersion ∧
      manifest.formatVersion ≠ backupFormatVersion then
    .error (storageError ("unsupported backup format version " ++ toString manifest.formatVersion ++
      ", expected 1 or 2"))
  else if manifest.formatVersion = legacyBackupFormatVersion ∧ manifest.encryption.isSome then
    .error (storageError "legacy backup format cannot declare storage encryption")
  else if manifest.databaseFile ≠ backupDatabaseFile then
    .error (storageError ("backup database filename " ++ debugString manifest.databaseFile ++
      " is not supported"))
  else if isUuid manifest.installationId = false then
    .error (storageError "backup installation id is not a UUID")
  else
    match H.parseTimestamp manifest.createdAt with
    | .error e => .error (storageError ("backup creation timestamp is invalid: " ++ e))
    | .ok _ =>
      match manifest.authenticity with
      | none => .ok ()
      | some authenticity => validateAuthenticity authenticity

/-- Whether the supplied key is the one that the manifest declares. -/
def checkKey : Option BackupEncryption → Option StorageEncryptionKey → Except ContextError Unit
  | some encryption, some key => do
      validateBackupEncryption encryption
      if encryption.keyId ≠ key.keyId then
        .error (storageError ("backup requires storage key " ++ debugString encryption.keyId ++
          ", not supplied key " ++ debugString key.keyId))
      else .ok ()
  | some encryption, none => do
      validateBackupEncryption encryption
      .error (storageError ("backup is encrypted with storage key " ++
        debugString encryption.keyId ++ "; supply that independently retained key"))
  | none, some _ => .error (storageError
      "backup manifest declares plaintext storage but an encryption key was supplied")
  | none, none => .ok ()

/-- The snapshot, if its size and its digest are those of the manifest. -/
def readSnapshot (path : Text) (contents : Folder) (manifest : BackupManifest) :
    Except ContextError Bytes := do
  let bytes ← requireRegularFile (joinPath path backupDatabaseFile) "backup database"
    (contents.find backupDatabaseFile)
  if bytes.length ≠ manifest.byteCount then
    .error (storageError ("backup byte count mismatch: manifest=" ++ toString manifest.byteCount ++
      ", actual=" ++ toString bytes.length))
  else if H.crypto.sha256Hex bytes ≠ manifest.sha256 then
    .error (storageError "backup SHA-256 mismatch")
  else .ok bytes

/-- The part of `verify_backup_internal` before the snapshot is opened. -/
def checkUnopened (path : Text) (contents : Folder) (key : Option StorageEncryptionKey) :
    Except ContextError (BackupManifest × Bytes) := do
  let manifest ← H.readManifest path contents
  H.checkManifest manifest
  checkKey manifest.encryption key
  let bytes ← H.readSnapshot path contents manifest
  return (manifest, bytes)

/-- The identity of the manifest is the one of the snapshot. -/
def checkIdentity (manifest : BackupManifest) (metadata : StorageMetadata) :
    Except ContextError Unit :=
  if manifest.applicationId ≠ metadata.applicationId ∨
      manifest.schemaVersion ≠ metadata.schemaVersion ∨
      manifest.installationId ≠ metadata.installationId then
    .error (storageError "backup manifest identity does not match the SQLite storage metadata")
  else .ok ()

/-- `verify_backup_internal`; `trust` is `BackupTrustRoot::verify_manifest`. -/
def verifyBackupInternal (path : Text) (node : Option Node)
    (trust : Option (BackupManifest → Except ContextError Unit))
    (key : Option StorageEncryptionKey) : Except ContextError BackupManifest := do
  let contents ← requireRealDirectory path "backup" node
  let (manifest, bytes) ← H.checkUnopened path contents key
  let metadata ← H.openVerified key bytes contents.log
  checkIdentity manifest metadata
  match trust with
  | none => .ok manifest
  | some verifyManifest => do
      verifyManifest manifest
      .ok manifest

/-- The directory after `verify_backup_internal`, which opens the snapshot once the checks before
that have passed. -/
def verified (path : Text) (key : Option StorageEncryptionKey) : Node → Node
  | .folder contents =>
    match H.checkUnopened path contents key with
    | .ok _ => .folder (contents.leave (H.sidecars key contents))
    | .error _ => .folder contents
  | node => node

end BackupHost

end AgentOS
