import AgentOS.Base.Path
import AgentOS.Lib.Files

/-!
# Offline encryption of a database

`storage_encryption.rs` replaces a plaintext database by an encrypted one through four files beside
each other: the database, a stage with the encrypted export, a rollback with the plaintext that was
moved away, and a journal that names them. `encryptExistingDatabase` is the migration and
`recoverInterruptedEncryptionMigration` finishes or undoes an interrupted one.

A file holds a database in plaintext, a database under a key, an export that SQLite has not
finished, or one of the small files of the protocol. What SQLite and the schema checks say of
database contents is a parameter (`Sqlite`). Only regular files occur; the lease file and file
permissions are calls without an effect on contents.
-/

namespace AgentOS

open Lib

/-! ## Databases and keys -/

structure StorageMetadata where
  (applicationId schemaVersion minReaderSchemaVersion : Int)
  installationId : Text
  deriving DecidableEq

/-- `APPLICATION_ID`. -/
def schemaApplicationId : Int := 0x41494f53

def currentSchemaVersion : Int := 12

def minReaderSchemaVersion : Int := 12

/-- What SQLite says of database contents `δ`. `inspect` is `schema::verify` and
`read_storage_metadata`; it accepts only the identity that `schema::verify` checks. `usesWal` is the
journal mode. -/
structure Sqlite (δ : Type) where
  inspect : δ → Except String StorageMetadata
  usesWal : δ → Bool
  identity : ∀ {d : δ} {metadata : StorageMetadata}, inspect d = .ok metadata →
    metadata.applicationId = schemaApplicationId ∧
      metadata.schemaVersion = currentSchemaVersion ∧
      metadata.minReaderSchemaVersion = minReaderSchemaVersion ∧
      isUuid metadata.installationId = true

/-- The test of `validate_key_id`. -/
def isValidKeyId (keyId : Text) : Bool :=
  !keyId.isEmpty && byteLength keyId ≤ 96 &&
    keyId.all fun c => isAsciiAlphanumeric c || c == '-' || c == '_' || c == '.'

/-- `StorageEncryptionKey`, which `from_bytes` builds from a valid identifier and 32 bytes. -/
structure StorageEncryptionKey where
  keyId : Text
  bytes : List UInt8
  validKeyId : isValidKeyId keyId = true
  length : bytes.length = 32

structure EncryptionMigrationJournal where
  formatVersion : Nat
  (databaseFile stageFile rollbackFile currentKeyId : Text)
  (applicationId schemaVersion minReaderSchemaVersion : Int)
  installationId : Text
  deriving DecidableEq

def encryptionMigrationFormatVersion : Nat := 1

def maxEncryptionMigrationFileBytes : Nat := 16 * 1024

variable (journal : EncryptionMigrationJournal)

/-- `EncryptionMigrationJournal::storage_metadata`. -/
def EncryptionMigrationJournal.storageMetadata :
    StorageMetadata where
  applicationId := journal.applicationId
  schemaVersion := journal.schemaVersion
  minReaderSchemaVersion := journal.minReaderSchemaVersion
  installationId := journal.installationId

/-- An integer of a JSON document. -/
def jsonInt : Int → Text
  | .ofNat n => decimal n
  | .negSucc n => '-' :: decimal (n + 1)

/-- The lines of the document that `serde_json::to_vec_pretty` writes for a journal. -/
def EncryptionMigrationJournal.members : List (Text × Text) :=
  [("format_version".toList, decimal journal.formatVersion),
    ("database_file".toList, jsonString journal.databaseFile),
    ("stage_file".toList, jsonString journal.stageFile),
    ("rollback_file".toList, jsonString journal.rollbackFile),
    ("current_key_id".toList, jsonString journal.currentKeyId),
    ("application_id".toList, jsonInt journal.applicationId),
    ("schema_version".toList, jsonInt journal.schemaVersion),
    ("min_reader_schema_version".toList, jsonInt journal.minReaderSchemaVersion),
    ("installation_id".toList, jsonString journal.installationId)]

/-- The members of an indented JSON object. -/
def jsonPretty : List (Text × Text) → Text
  | [] => []
  | [member] => "  ".toList ++ jsonString member.1 ++ ": ".toList ++ member.2 ++ ['\n']
  | member :: rest =>
    "  ".toList ++ jsonString member.1 ++ ": ".toList ++ member.2 ++ ",\n".toList ++
      jsonPretty rest

/-- `serde_json::to_vec_pretty`. -/
def EncryptionMigrationJournal.encoded : Text :=
  "\x7b\n".toList ++ jsonPretty journal.members ++ ['\x7d']

/-- The contents of a file. `unfinished` is an export in progress, `blank` a file that was created
and not yet written, and `wal` the write-ahead log with the database as SQLite reads it through the
log, if the log holds anything. -/
inductive Artifact (δ : Type) where
  | plaintext (database : δ)
  | encrypted (key : List UInt8) (database : δ)
  | unfinished
  | wal (committed : Option δ)
  | shm
  | blank
  | journal (document : EncryptionMigrationJournal)
  deriving DecidableEq

/-- A database file as SQLite reads it through a log. -/
def Artifact.through {δ : Type} (log : Option (Artifact δ)) : Artifact δ → Artifact δ
  | .plaintext d =>
    match log with
    | some (.wal (some committed)) => .plaintext committed
    | _ => .plaintext d
  | other => other

/-- Where the migration works: the directory as it is displayed, the database and the key. -/
structure Vault (δ : Type) where
  directory : Text
  database : FileName
  sqlite : Sqlite δ
  key : StorageEncryptionKey

namespace Vault

variable {δ : Type} (V : Vault δ)

/-- `Path::display`. -/
def display (name : Text) : String := String.ofList (V.directory ++ '/' :: name)

/-- `encryption_migration_journal_path`. -/
def journalPath : Text := V.database.text ++ ".encryption-migration.json".toList

/-- The `-wal` companion. -/
def walPath : Text := V.database.text ++ "-wal".toList

/-- The `-shm` companion. -/
def shmPath : Text := V.database.text ++ "-shm".toList

/-- The lease that `acquire_storage_lease` locks. -/
def leasePath : Text := V.database.text ++ ".lock".toList

/-- `migration_companion_path` of the stage. -/
def stagePath (id : Uuid) : Text :=
  V.database.text ++ (".encrypted-".toList ++ id.toString ++ ".staging".toList)

/-- `migration_companion_path` of the rollback. -/
def rollbackPath (id : Uuid) : Text :=
  V.database.text ++ (".plaintext-".toList ++ id.toString ++ ".rollback".toList)

/-- `EncryptionMigrationJournal::new`. -/
def newJournal (stage rollback : Text) (metadata : StorageMetadata) :
    EncryptionMigrationJournal where
  formatVersion := encryptionMigrationFormatVersion
  databaseFile := V.database.text
  stageFile := stage
  rollbackFile := rollback
  currentKeyId := V.key.keyId
  applicationId := metadata.applicationId
  schemaVersion := metadata.schemaVersion
  minReaderSchemaVersion := metadata.minReaderSchemaVersion
  installationId := metadata.installationId

/-! ## Calls -/

/-- Procedures of the migration. -/
abbrev Migrates (δ ε α : Type) : Type := FileProc Text (Artifact δ) ε α

/-- A call whose error is wrapped in a storage error. -/
def orStorageError {α : Type} (message : String → String) (m : Migrates δ Lib.IoError α) :
    Migrates δ ContextError α :=
  Proc.mapError (fun e => storageError (message e.toString)) m

variable (path : Text)

/-- A call that changes no contents. -/
def touch : Migrates δ Lib.IoError Unit :=
  FileProc.call (.update path) fun files => .ok ((), files)

def acquireStorageLease : Migrates δ ContextError Unit :=
  orStorageError (fun e => "database " ++ V.display V.database.text ++
    " is already owned by a running kernel or restore: " ++ e) (touch V.leasePath)

def regularMigrationFileExists (label : String) : Migrates δ ContextError Bool :=
  orStorageError (fun e => "failed to inspect " ++ label ++ " " ++ V.display path ++ ": " ++ e)
    (FileProc.inspect path)

def requireDatabaseFile : Migrates δ ContextError Unit := do
  let found ← orStorageError (fun e => "failed to inspect database " ++ V.display path ++ ": " ++ e)
    (FileProc.inspect path)
  if found then Proc.ret ()
  else Proc.throw (storageError ("failed to inspect database " ++ V.display path ++ ": " ++
    Lib.IoError.notFound.toString))

def rejectExistingMigrationPath : Migrates δ ContextError Unit := do
  let found ← orStorageError
    (fun e => "failed to inspect encryption migration path " ++ V.display path ++ ": " ++ e)
    (FileProc.inspect path)
  if found then
    Proc.throw (storageError ("encryption migration path already exists: " ++ V.display path))
  else Proc.ret ()

def syncParent : Migrates δ ContextError Unit :=
  orStorageError (fun e => "failed to sync storage key parent " ++ String.ofList V.directory ++
    ": " ++ e) (FileProc.sync V.directory)

/-- Open a database; only the database itself has a log beside it. -/
def openDatabase : Migrates δ Lib.IoError (Artifact δ) :=
  FileProc.call (.read path) fun files =>
    match files path with
    | some contents =>
      let log := if path = V.database.text then files V.walPath else none
      .ok (contents.through log, files)
    | none => .error .notFound

/-- The storage metadata of a database under the key. -/
def readEncrypted : Artifact δ → Except ContextError StorageMetadata
  | .encrypted key d =>
    if key = V.key.bytes then (V.sqlite.inspect d).mapError storageError
    else .error (storageError ("storage key " ++ debugString V.key.keyId ++
      " cannot authenticate this database"))
  | _ => .error (storageError ("storage key " ++ debugString V.key.keyId ++
      " cannot authenticate this database"))

/-- The storage metadata of a plaintext database. -/
def readPlaintext : Artifact δ → Except ContextError StorageMetadata
  | .plaintext d => (V.sqlite.inspect d).mapError storageError
  | _ => .error (storageError "file is not a database")

def verifyDatabaseWithKey : Migrates δ ContextError StorageMetadata := do
  let contents ← orStorageError
    (fun e => "failed to reopen database " ++ V.display path ++ ": " ++ e) (V.openDatabase path)
  Proc.lift (V.readEncrypted contents)

def verifyPlaintextDatabase : Migrates δ ContextError StorageMetadata := do
  V.requireDatabaseFile path
  let contents ← orStorageError
    (fun e => "failed to open plaintext database " ++ V.display path ++ " read-only: " ++ e)
    (V.openDatabase path)
  Proc.lift (V.readPlaintext contents)

def requireMatchingMigrationIdentity (label : String) (actual expected : StorageMetadata) :
    Migrates δ ContextError Unit :=
  if actual = expected then Proc.ret ()
  else Proc.throw (storageError (label ++
    " does not match the journaled AIagentOS installation identity"))

/-! ## The journal -/

/-- `write_encryption_migration_journal`. The file exists, empty, before its text is written. -/
def writeEncryptionMigrationJournal : Migrates δ ContextError Unit :=
  if maxEncryptionMigrationFileBytes < byteLength journal.encoded then
    Proc.throw (storageError "encryption migration journal exceeds size limit")
  else do
    orStorageError (fun e => "failed to create encryption migration journal " ++
      V.display V.journalPath ++ " without overwrite: " ++ e)
      (FileProc.createNew V.journalPath .blank)
    let written ← Proc.attempt (do
      FileProc.write V.journalPath (.journal journal)
      FileProc.sync V.journalPath : Migrates δ Lib.IoError Unit)
    match written with
    | .error e => do
        Proc.ignore (FileProc.remove V.journalPath : Migrates δ Lib.IoError Unit)
        Proc.throw (storageError ("failed to publish encryption migration journal " ++
          V.display V.journalPath ++ ": " ++ e.toString))
    | .ok () => V.syncParent

/-- The tests of `validate_encryption_migration_journal`. -/
def validateEncryptionMigrationJournal : Except ContextError Unit :=
  if journal.formatVersion ≠ encryptionMigrationFormatVersion then
    .error (storageError ("unsupported encryption migration journal version " ++
      toString journal.formatVersion))
  else if isValidKeyId journal.currentKeyId = false then
    .error (storageError "storage key id must be 1-96 ASCII letters, digits, '-', '_' or '.'")
  else if journal.databaseFile ≠ V.database.text then
    .error (storageError "encryption migration journal targets a different database")
  else
    match [("database", journal.databaseFile), ("encrypted stage", journal.stageFile),
        ("plaintext rollback", journal.rollbackFile)].find? fun file =>
          decide (512 < byteLength file.2) || !isBasename file.2 with
    | some file =>
      .error (storageError ("encryption migration journal " ++ file.1 ++ " filename is invalid"))
    | none =>
      if journal.databaseFile = journal.stageFile ∨ journal.databaseFile = journal.rollbackFile ∨
          journal.stageFile = journal.rollbackFile ∨ V.journalPath = journal.stageFile ∨
          V.journalPath = journal.rollbackFile then
        .error (storageError "encryption migration journal contains overlapping file identities")
      else if isUuid journal.installationId = false then
        .error (storageError "encryption migration journal installation id is not a UUID")
      else .ok ()

/-- What `load_encryption_migration_journal` makes of the contents of the journal file, whose text
ends with a newline. -/
def parseEncryptionMigrationJournal :
    Artifact δ → Except ContextError EncryptionMigrationJournal
  | .journal journal =>
    if maxEncryptionMigrationFileBytes < byteLength journal.encoded + 1 then
      .error (storageError "encryption migration journal has an invalid size")
    else do
      V.validateEncryptionMigrationJournal journal
      .ok journal
  | .blank => .error (storageError "encryption migration journal has an invalid size")
  | _ => .error (storageError "encryption migration journal is not valid bounded JSON")

def loadEncryptionMigrationJournal : Migrates δ ContextError EncryptionMigrationJournal := do
  let loaded ← orStorageError
    (fun e => "failed to open encryption migration journal " ++ V.display V.journalPath ++ ": " ++
      e)
    (FileProc.read V.journalPath V.parseEncryptionMigrationJournal)
  Proc.lift loaded

def removeCompletedMigrationJournal : Migrates δ ContextError Unit :=
  orStorageError (fun e => "failed to remove completed encryption migration journal " ++
    V.display V.journalPath ++ ": " ++ e) (FileProc.remove V.journalPath)

/-! ## The migration -/

/-- The database after `PRAGMA wal_checkpoint(TRUNCATE)`. -/
def checkpointed (files : Files Text (Artifact δ)) : Files Text (Artifact δ) :=
  match files V.database.text with
  | none => files
  | some contents =>
    let folded := files.put V.database.text (contents.through (files V.walPath))
    if (files V.walPath).isSome then folded.put V.walPath (.wal none) else folded

/-- `PRAGMA wal_checkpoint(TRUNCATE)`; a busy log is a failed call. -/
def checkpointLog : Migrates δ ContextError Unit :=
  orStorageError (fun e => "failed to checkpoint database WAL: " ++ e)
    (FileProc.call (.update V.walPath) fun files => .ok ((), V.checkpointed files))

/-- `PRAGMA journal_mode = DELETE`. -/
def disableLog : Migrates δ ContextError Unit :=
  orStorageError (fun e => "failed to disable WAL before rekey: " ++ e)
    (FileProc.call (.update V.walPath) fun files =>
      .ok ((), (files.drop V.walPath).drop V.shmPath))

/-- Whether a database file is in write-ahead mode. -/
def usesLog : Artifact δ → Bool
  | .plaintext d => V.sqlite.usesWal d
  | _ => false

def prepareDatabaseForRekey (contents : Artifact δ) : Migrates δ ContextError StorageMetadata := do
  let metadata ← Proc.lift (V.readPlaintext contents)
  V.checkpointLog
  if V.usesLog contents then do
    V.disableLog
    Proc.ret metadata
  else Proc.ret metadata

variable (stage : Text)

/-- The encrypted copy, finished when it is detached. -/
def finishExport (files : Files Text (Artifact δ)) :
    Except Lib.IoError (Unit × Files Text (Artifact δ)) :=
  match files V.database.text with
  | some (.plaintext d) => .ok ((), files.put stage (.encrypted V.key.bytes d))
  | _ => .error (.other "file is not a database")

/-- The key of the attached stage is set, and its schema is read under that key. -/
def applyToAttached : Migrates δ ContextError Unit := do
  orStorageError (fun e => "SQLCipher rejected storage key " ++ debugString V.key.keyId ++
    " for migration with code " ++ e) (touch stage)
  orStorageError (fun _ => "storage key " ++ debugString V.key.keyId ++
    " cannot initialize migration database") (touch stage)

/-- Attach the stage, which creates it, export into it and detach it. -/
def exportDatabase : Migrates δ ContextError Unit := do
  orStorageError (fun e => "failed to attach encrypted migration database: " ++ e)
    (FileProc.call (.update stage) fun files => .ok ((), files.put stage .blank))
  V.applyToAttached stage
  orStorageError (fun e => "SQLCipher export failed: " ++ e)
    (FileProc.call (.update stage) fun files => .ok ((), files.put stage .unfinished))
  orStorageError (fun e => "failed to preserve application id during encryption: " ++ e)
    (touch stage)
  orStorageError (fun e => "failed to preserve schema version during encryption: " ++ e)
    (touch stage)
  orStorageError (fun e => "failed to finalize encrypted migration database: " ++ e)
    (FileProc.call (.update stage) (V.finishExport stage))

def removeMigrationSidecar : Migrates δ ContextError Unit := do
  let removed ← Proc.attempt (FileProc.remove path : Migrates δ Lib.IoError Unit)
  match removed with
  | .ok () => Proc.ret ()
  | .error .notFound => Proc.ret ()
  | .error e => Proc.throw (storageError ("failed to remove checkpointed SQLite sidecar " ++
      V.display path ++ ": " ++ e.toString))

/-- An error of the migration and which of its two `MigrationFile` guards are still armed. -/
structure Abort where
  error : ContextError
  (stageArmed journalArmed : Bool)

/-- A part of the migration during which the guards are armed as given. -/
def whileArmed {α : Type} (stageArmed journalArmed : Bool) (m : Migrates δ ContextError α) :
    Migrates δ Abort α :=
  Proc.mapError (fun e => ⟨e, stageArmed, journalArmed⟩) m

/-- `Drop` of an armed `MigrationFile`. -/
def dropMigrationFile (armed : Bool) (path : Text) : Migrates δ ContextError Unit :=
  if armed then do
    Proc.ignore (FileProc.remove path : Migrates δ Lib.IoError Unit)
    Proc.ignore V.syncParent
  else Proc.ret ()

/-- The guards of a migration, which are dropped in the reverse order of their declaration. -/
def withGuards {α : Type} (stage : Text) (m : Migrates δ Abort α) : Migrates δ ContextError α := do
  let result ← Proc.attempt m
  match result with
  | .ok a => Proc.ret a
  | .error abort => do
      V.dropMigrationFile abort.stageArmed stage
      V.dropMigrationFile abort.journalArmed V.journalPath
      Proc.throw abort.error

/-- Export the database and check the export. -/
def stageDatabase (metadata : StorageMetadata) : Migrates δ ContextError Unit := do
  V.exportDatabase stage
  V.removeMigrationSidecar V.walPath
  V.removeMigrationSidecar V.shmPath
  orStorageError (fun e => "failed to protect encrypted database " ++ V.display stage ++ ": " ++ e)
    (touch stage)
  orStorageError (fun e => "failed to sync encrypted database " ++ V.display stage ++ ": " ++ e)
    (FileProc.sync stage)
  V.syncParent
  let verified ← V.verifyDatabaseWithKey stage
  if verified = metadata then Proc.ret ()
  else Proc.throw (storageError "encrypted database identity changed during migration")

/-- Move the stage to the database path and check it there. -/
def publishStage (metadata : StorageMetadata) : Migrates δ Abort Unit := do
  whileArmed true true (orStorageError
    (fun e => "failed to publish encrypted database " ++ V.display V.database.text ++ ": " ++ e)
    (FileProc.rename stage V.database.text))
  whileArmed false true (do
    V.syncParent
    let published ← V.verifyDatabaseWithKey V.database.text
    if published = metadata then Proc.ret ()
    else Proc.throw (storageError "published encrypted database identity does not match source"))

variable (rollback : Text)

/-- Put the plaintext back after a failed publication. -/
def undoPublication (failure : Abort) : Migrates δ Abort Unit := do
  Proc.ignore (FileProc.remove V.database.text : Migrates δ Lib.IoError Unit)
  let restored ← Proc.attempt
    (FileProc.rename rollback V.database.text : Migrates δ Lib.IoError Unit)
  match restored with
  | .error e =>
    Proc.throw ⟨storageError ("encryption migration failed (" ++ failure.error.toString ++
      "); plaintext rollback also failed: " ++ e.toString ++ "; recovery journal retained at " ++
      V.display V.journalPath), false, false⟩
  | .ok () => do
      whileArmed failure.stageArmed true V.syncParent
      Proc.throw ⟨failure.error, failure.stageArmed, true⟩

/-- Remove the plaintext and the journal after the publication. -/
def finishMigration : Migrates δ Abort Unit := do
  let removed ← Proc.attempt (FileProc.remove rollback : Migrates δ Lib.IoError Unit)
  match removed with
  | .error e =>
    Proc.throw ⟨storageError ("database is encrypted but obsolete plaintext rollback " ++
      V.display rollback ++ " could not be removed: " ++ e.toString ++
      "; recovery journal retained at " ++ V.display V.journalPath), false, false⟩
  | .ok () => do
      whileArmed false true V.syncParent
      whileArmed false true (orStorageError
        (fun e => "database is encrypted but completed migration journal " ++
          V.display V.journalPath ++ " could not be removed: " ++ e)
        (FileProc.remove V.journalPath))
      whileArmed false false V.syncParent
      let unkeyed ← Proc.attempt (V.openDatabase V.database.text)
      match unkeyed with
      | .ok (.plaintext _) =>
        Proc.throw ⟨storageError
          "database remained readable without a key after encryption migration", false, false⟩
      | _ => Proc.ret ()

/-- The migration from the written journal on. -/
def migrate (stage rollback : Text) (metadata : StorageMetadata) : Migrates δ Abort Unit := do
  whileArmed true true (V.stageDatabase stage metadata)
  whileArmed true true (orStorageError
    (fun e => "failed to preserve plaintext database during migration: " ++ e)
    (FileProc.rename V.database.text rollback))
  let published ← Proc.attempt (V.publishStage stage metadata)
  match published with
  | .error failure => V.undoPublication rollback failure
  | .ok () => V.finishMigration rollback

/-- `StorageEncryptionChangeReport`. -/
structure ChangeReport where
  databasePath : Text
  operation : String
  previousKeyId : Option Text
  currentKeyId : Text
  (applicationId schemaVersion : Int)
  installationId : Text
  deriving DecidableEq

def changeReport (operation : String) (previousKeyId : Option Text) (metadata : StorageMetadata) :
    ChangeReport where
  databasePath := V.database.text
  operation
  previousKeyId
  currentKeyId := V.key.keyId
  applicationId := metadata.applicationId
  schemaVersion := metadata.schemaVersion
  installationId := metadata.installationId

/-- The checks of `encrypt_existing_database` before its first change, with the metadata of the
database. -/
def beginMigration : Migrates δ ContextError StorageMetadata := do
  V.acquireStorageLease
  let interrupted ← V.regularMigrationFileExists V.journalPath "encryption migration journal"
  if interrupted then
    Proc.throw (storageError ("interrupted encryption migration journal exists at " ++
      V.display V.journalPath ++
      "; run storage-encrypt-recover while offline before retrying"))
  else do
    V.requireDatabaseFile V.database.text
    let contents ← orStorageError
      (fun e => "failed to open plaintext database " ++ V.display V.database.text ++ ": " ++ e)
      (V.openDatabase V.database.text)
    let metadata ← Proc.mapError (fun e => storageError
      ("database is not a verified plaintext AIagentOS store: " ++ e.toString))
      (V.prepareDatabaseForRekey contents)
    V.rejectExistingMigrationPath stage
    V.rejectExistingMigrationPath rollback
    Proc.mapError (fun e => storageError (e.toString ++
      "; run storage-encrypt-recover while offline before retrying"))
      (V.rejectExistingMigrationPath V.journalPath)
    Proc.ret metadata

/-- `encrypt_existing_database`, with the two identifiers that name its companion files. -/
def encryptExistingDatabase (stageId rollbackId : Uuid) : Migrates δ ContextError ChangeReport := do
  let stage := V.stagePath stageId
  let rollback := V.rollbackPath rollbackId
  let metadata ← V.beginMigration stage rollback
  V.writeEncryptionMigrationJournal (V.newJournal stage rollback metadata)
  V.withGuards stage (V.migrate stage rollback metadata)
  Proc.ret (V.changeReport "encrypt" none metadata)

/-! ## Recovery -/

/-- `StorageEncryptionRecoveryReport`. -/
structure RecoveryReport where
  databasePath : Text
  outcome : String
  currentKeyId : Text
  (applicationId schemaVersion : Int)
  installationId : Text
  plaintextRollbackRemoved : Bool
  deriving DecidableEq

def recoveryReport (outcome : String) (metadata : StorageMetadata) (removed : Bool) :
    RecoveryReport where
  databasePath := V.database.text
  outcome
  currentKeyId := V.key.keyId
  applicationId := metadata.applicationId
  schemaVersion := metadata.schemaVersion
  installationId := metadata.installationId
  plaintextRollbackRemoved := removed

/-- A file that must match the journal before it is removed. -/
def removeVerified (verify : Migrates δ ContextError StorageMetadata) (path : Text)
    (label : String) (expected : StorageMetadata) (message : String → String) :
    Migrates δ ContextError Unit := do
  let actual ← verify
  requireMatchingMigrationIdentity label actual expected
  orStorageError message (FileProc.remove path)

/-- A step that is taken only for a file that exists. -/
def whenPresent (present : Bool) (m : Migrates δ ContextError Unit) :
    Migrates δ ContextError Unit :=
  if present then m else Proc.ret ()

variable (stageExists rollbackExists : Bool)

/-- Recovery with the encrypted database in place. -/
def completePublished (metadata expected : StorageMetadata) :
    Migrates δ ContextError RecoveryReport := do
  requireMatchingMigrationIdentity "published encrypted database" metadata expected
  whenPresent stageExists
    (removeVerified (V.verifyDatabaseWithKey stage) stage "encrypted staging database" expected
      fun e =>
        "failed to remove verified obsolete encryption stage " ++ V.display stage ++ ": " ++ e)
  whenPresent rollbackExists
    (removeVerified (V.verifyPlaintextDatabase rollback) rollback "plaintext rollback database"
      expected fun e =>
        "failed to remove verified plaintext rollback " ++ V.display rollback ++ ": " ++ e)
  V.removeCompletedMigrationJournal
  V.syncParent
  Proc.ret (V.recoveryReport "completed-encryption" expected rollbackExists)

variable (expected : StorageMetadata)

/-- Recovery with the plaintext database in place. -/
def keepPlaintext :
    Migrates δ ContextError RecoveryReport := do
  let plaintext ← Proc.mapError (fun e => storageError
    ("canonical database is neither the journaled encrypted database nor a valid plaintext " ++
      "rollback: " ++ e.toString)) (V.verifyPlaintextDatabase V.database.text)
  requireMatchingMigrationIdentity "plaintext database" plaintext expected
  if rollbackExists then
    Proc.throw (storageError ("recovery found both canonical plaintext and a rollback database; " ++
      "refusing ambiguous mutation"))
  else do
    whenPresent stageExists (orStorageError
      (fun e => "failed to remove journal-owned interrupted encryption stage " ++
        V.display stage ++ ": " ++ e) (FileProc.remove stage))
    V.removeCompletedMigrationJournal
    V.syncParent
    Proc.ret (V.recoveryReport "restored-plaintext" expected false)

/-- Recovery that publishes the stage. -/
def publishInterrupted :
    Migrates δ ContextError RecoveryReport := do
  let staged ← Proc.mapError (fun e => storageError
    ("canonical database is missing and encrypted stage cannot be authenticated; leaving the " ++
      "verified plaintext rollback untouched: " ++ e.toString)) (V.verifyDatabaseWithKey stage)
  requireMatchingMigrationIdentity "encrypted staging database" staged expected
  orStorageError (fun e => "failed to publish verified interrupted encryption stage " ++
    V.display stage ++ ": " ++ e) (FileProc.rename stage V.database.text)
  V.syncParent
  let published ← V.verifyDatabaseWithKey V.database.text
  requireMatchingMigrationIdentity "published encrypted database" published expected
  orStorageError (fun e => "encrypted database recovered but verified plaintext rollback " ++
    V.display rollback ++ " could not be removed: " ++ e) (FileProc.remove rollback)
  V.removeCompletedMigrationJournal
  V.syncParent
  Proc.ret (V.recoveryReport "completed-encryption" expected true)

/-- Recovery that moves the rollback back. -/
def restoreRollback :
    Migrates δ ContextError RecoveryReport := do
  orStorageError (fun e => "failed to restore verified plaintext rollback " ++
    V.display rollback ++ ": " ++ e) (FileProc.rename rollback V.database.text)
  V.syncParent
  let restored ← V.verifyPlaintextDatabase V.database.text
  requireMatchingMigrationIdentity "restored plaintext database" restored expected
  V.removeCompletedMigrationJournal
  V.syncParent
  Proc.ret (V.recoveryReport "restored-plaintext" expected false)

/-- Recovery without a database in place. -/
def recoverMissing : Migrates δ ContextError RecoveryReport :=
  if rollbackExists then do
    let plaintext ← V.verifyPlaintextDatabase rollback
    requireMatchingMigrationIdentity "plaintext rollback database" plaintext expected
    if stageExists then V.publishInterrupted stage rollback expected
    else V.restoreRollback rollback expected
  else
    Proc.throw (storageError ("recovery journal exists but neither the canonical database nor " ++
      "plaintext rollback exists; refusing data-loss recovery"))

/-- Recovery from a journal that was loaded. -/
def recoverFrom : Migrates δ ContextError RecoveryReport :=
  if journal.currentKeyId ≠ V.key.keyId then
    Proc.throw (storageError ("encryption migration requires key id " ++
      debugString journal.currentKeyId ++ ", not " ++ debugString V.key.keyId))
  else do
    let expected := journal.storageMetadata
    let stage := journal.stageFile
    let rollback := journal.rollbackFile
    let databaseExists ← V.regularMigrationFileExists V.database.text "database"
    let stageExists ← V.regularMigrationFileExists stage "encrypted staging database"
    let rollbackExists ← V.regularMigrationFileExists rollback "plaintext rollback database"
    if databaseExists then do
      let published ← Proc.attempt (V.verifyDatabaseWithKey V.database.text)
      match published with
      | .ok metadata =>
        V.completePublished stage rollback stageExists rollbackExists metadata expected
      | .error _ => V.keepPlaintext stage stageExists rollbackExists expected
    else V.recoverMissing stage rollback stageExists rollbackExists expected

def recoverInterruptedEncryptionMigration : Migrates δ ContextError RecoveryReport := do
  V.acquireStorageLease
  let journal ← V.loadEncryptionMigrationJournal
  V.recoverFrom journal

end Vault

end AgentOS
