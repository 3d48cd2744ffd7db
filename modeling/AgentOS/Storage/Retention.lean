import AgentOS.Storage.Backup

/-!
# Backup retention

`apply_backup_retention` reads a backup root, keeps the verified backups of this installation apart
from everything else, orders them from the newest to the oldest and removes those that the policy
allows. A removal first moves the backup to a tombstone name, verifies it there once more, and then
removes its files one by one. Every verification leaves the sidecars of SQLite in the directory.

The root is the list of its entries in the order in which the operating system enumerates them.
-/

namespace AgentOS

open Lib

/-- The entries of a backup root. -/
abbrev BackupRoot : Type := List (OsName × Node)

namespace BackupRoot

/-- The entry with a name. -/
def get (root : BackupRoot) (name : OsName) : Option Node :=
  (root.find? fun entry => entry.1 = name).map Prod.snd

/-- The root with an entry under another name. -/
def rename (root : BackupRoot) (source target : OsName) : BackupRoot :=
  root.map fun entry => if entry.1 = source then (target, entry.2) else entry

/-- The root with the contents of one entry changed. -/
def modify (root : BackupRoot) (name : OsName) (change : Node → Node) : BackupRoot :=
  root.map fun entry => if entry.1 = name then (name, change entry.2) else entry

/-- The root without an entry. -/
def erase (root : BackupRoot) (name : OsName) : BackupRoot :=
  root.filter fun entry => entry.1 ≠ name

end BackupRoot

/-! ## Policies and reports -/

structure BackupRetentionPolicy where
  (keepLatest maxAgeSeconds : Nat)
  deriving DecidableEq

structure BackupRetentionEntry where
  (name createdAt : Text)
  byteCount : Nat
  deriving DecidableEq

structure BackupRetentionIssue where
  name : Text
  reason : String
  deriving DecidableEq

structure BackupRetentionReport where
  evaluatedAt : DateTime
  dryRun : Bool
  policy : BackupRetentionPolicy
  (eligible deleted retained : List BackupRetentionEntry)
  skipped : List BackupRetentionIssue
  deriving DecidableEq

/-- A backup that a run considers. -/
structure VerifiedBackup where
  createdAt : DateTime
  entry : BackupRetentionEntry
  manifest : BackupManifest
  deriving DecidableEq

def maxBackupRootEntries : Nat := 10000

def validateRetentionPolicy (policy : BackupRetentionPolicy) : Except ContextError Unit :=
  if policy.keepLatest = 0 then
    .error (storageError "backup retention must keep at least one verified backup")
  else if policy.maxAgeSeconds = 0 then
    .error (storageError "backup retention max_age_seconds must be greater than zero")
  else .ok ()

/-- The test of `validate_backup_name`. -/
def isValidBackupName (name : Text) : Bool :=
  !name.isEmpty && byteLength name ≤ 96 &&
    name.all fun c => isAsciiAlphanumeric c || c == '-' || c == '_'

def validateBackupName (name : Text) : Except ContextError Unit :=
  if isValidBackupName name then .ok ()
  else .error (storageError "backup name must be 1-96 ASCII letters, digits, '-' or '_'")

def boundedEntryName (name : OsName) : Text :=
  let text := toStringLossy name
  if byteLength text ≤ 128 then text else text.take 128 ++ ['…']

/-- The files that a removable backup may hold, as `require_removable_backup_contents` meets them
one after the other; the two flags record the snapshot and the manifest. -/
def scanBackupContents (path : Text) : Folder → Bool → Bool → Except ContextError Unit
  | [], foundDatabase, foundManifest =>
    if foundDatabase && foundManifest then .ok ()
    else .error (storageError "backup is incomplete and cannot be expired automatically")
  | (name, .file bytes) :: rest, foundDatabase, foundManifest =>
    if name = osName backupDatabaseFile then scanBackupContents path rest true foundManifest
    else if name = osName backupDatabaseShmFile then
      scanBackupContents path rest foundDatabase foundManifest
    else if name = osName backupDatabaseWalFile then
      if bytes.length = 0 then scanBackupContents path rest foundDatabase foundManifest
      else .error (storageError
        "backup has a non-empty WAL and cannot be expired automatically")
    else if name = osName backupManifestFile then
      scanBackupContents path rest foundDatabase true
    else .error (storageError ("backup contains unexpected entry " ++
      debugString (toStringLossy name) ++ " and cannot be expired automatically"))
  | (_, .irregular) :: _, _, _ =>
    .error (storageError
      "backup contains a non-regular file and cannot be expired automatically")
  | (name, .unreadable error) :: _, _, _ =>
    .error (storageError ("failed to inspect backup entry " ++
      String.ofList (joinPath path (toStringLossy name)) ++ ": " ++ error))

def requireRemovableBackupContents (path : Text) : Option Node → Except ContextError Unit
  | some (.folder contents) => scanBackupContents path contents false false
  | some .other => .error (storageError ("failed to enumerate backup " ++ String.ofList path ++
      ": Not a directory (os error 20)"))
  | some (.unreadable error) => .error (storageError ("failed to enumerate backup " ++
      String.ofList path ++ ": " ++ error))
  | none => .error (storageError ("failed to enumerate backup " ++ String.ofList path ++ ": " ++
      Lib.IoError.notFound.toString))

/-- The manager that applies a policy: its host, its backup root as it is displayed, the identity of
its installation and its storage keys, the current one first. -/
structure BackupManager where
  host : BackupHost
  (rootPath installationId : Text)
  keys : List StorageEncryptionKey

namespace BackupManager

variable (B : BackupManager)

variable (name : Text)

/-- The path of an entry of the root. -/
def pathOf : Text := joinPath B.rootPath name

def backupKeyForManifest (manifest : BackupManifest) :
    Except ContextError (Option StorageEncryptionKey) :=
  match manifest.encryption with
  | none => .ok none
  | some encryption =>
    match B.keys.find? fun key => key.keyId = encryption.keyId with
    | some key => .ok (some key)
    | none => .error (storageError ("backup requires unavailable retired storage key " ++
        debugString encryption.keyId))

/-! ## The scan -/

/-- The key of a backup, by the manifest that it declares. -/
def declaredKey (path : Text) (contents : Folder) :
    Except ContextError (Option StorageEncryptionKey) := do
  let declared ← B.host.readManifest path contents
  B.backupKeyForManifest declared

/-- The directory of a backup after it was examined. -/
def examined (name : Text) (node : Node) : Node :=
  match node with
  | .folder contents =>
    match B.declaredKey (B.pathOf name) contents with
    | .ok key => B.host.verified (B.pathOf name) key node
    | .error _ => node
  | node => node

/-- What a run makes of a directory with a valid name: a reason to skip it, or the backup. The files
are looked at after the verification. -/
def examine (now : DateTime) (name : Text) (node : Node) : Except String VerifiedBackup :=
  let path := B.pathOf name
  match node with
  | .unreadable error => .error ("could not inspect entry: " ++ error)
  | .other => .error "not a real backup directory"
  | .folder contents => do
      let key ← (B.declaredKey path contents).mapError fun e =>
        "verification failed: " ++ e.toString
      let manifest ← (B.host.verifyBackupInternal path (some node) none key).mapError fun e =>
        "verification failed: " ++ e.toString
      if manifest.installationId ≠ B.installationId then
        .error "belongs to a different installation"
      else do
        (requireRemovableBackupContents path (some (B.examined name node))).mapError
          ContextError.toString
        let createdAt ← (B.host.parseTimestamp manifest.createdAt).mapError fun e =>
          "invalid creation timestamp: " ++ e
        if now < createdAt then .error "creation timestamp is in the future"
        else .ok ⟨createdAt, ⟨name, manifest.createdAt, manifest.byteCount⟩, manifest⟩

/-- Whether the scan passes over an entry without a word. -/
def isIgnored : Bool :=
  name == ".agentos-backup.lock".toList || name.head? == some '.' || !isValidBackupName name

/-- The order of `verified.sort_by`: the newest first, among equals the greater name first. -/
def newestFirst (a b : VerifiedBackup) : Bool :=
  decide (b.createdAt < a.createdAt) ||
    (decide (a.createdAt = b.createdAt) && decide (b.entry.name ≤ a.entry.name))

/-- `verified.sort_by`. -/
def sortBackups (verified : List VerifiedBackup) : List VerifiedBackup :=
  verified.insertionSort fun a b => newestFirst a b = true

/-- `signed_duration_since(_).num_seconds()`. -/
def ageSeconds (now createdAt : DateTime) : Int :=
  (now.nanos - createdAt.nanos).tdiv nanosPerSecond

/-- Whether the policy allows the removal of the backup at an index of the sorted list. -/
def isEligible (policy : BackupRetentionPolicy) (now : DateTime) (index : Nat)
    (backup : VerifiedBackup) : Bool :=
  decide (policy.keepLatest ≤ index) &&
    decide ((min policy.maxAgeSeconds maxI64 : Nat) ≤ ageSeconds now backup.createdAt)

/-- The eligible and the retained backups of a sorted list that starts at an index. -/
def partition (policy : BackupRetentionPolicy) (now : DateTime) :
    Nat → List VerifiedBackup → List VerifiedBackup × List VerifiedBackup
  | _, [] => ([], [])
  | index, backup :: rest =>
    let (eligible, retained) := partition policy now (index + 1) rest
    if isEligible policy now index backup then (backup :: eligible, retained)
    else (eligible, backup :: retained)

/-- Procedures on the root; a path is the list of its components below the root. -/
abbrev Prunes (ε α : Type) : Type := Proc BackupRoot (FileCall (List OsName)) String ε α

/-- SQLite leaves its sidecars in an entry of the root. The code makes no call for it. -/
def leave (name : OsName) (change : Node → Node) : Prunes ContextError Unit := fun _ track =>
  let root := track.state.modify name change
  (.ok (), { track with state := root, moments := root :: track.moments })

/-- The entries of the root, examined one after the other and sorted into verified backups and
issues. -/
def scan (now : DateTime) :
    BackupRoot → Prunes ContextError (List VerifiedBackup × List BackupRetentionIssue)
  | [] => Proc.ret ([], [])
  | (name, node) :: rest =>
    let text := boundedEntryName name
    if isIgnored text then scan now rest
    else do
      leave name (B.examined text)
      let (verified, skipped) ← scan now rest
      match B.examine now text node with
      | .ok backup => Proc.ret (backup :: verified, skipped)
      | .error reason => Proc.ret (verified, ⟨text, reason⟩ :: skipped)

/-! ## Removal -/

/-- A call on the root. -/
def call {α : Type} (op : FileCall (List OsName)) (message : String → String)
    (act : BackupRoot → Except String (α × BackupRoot)) : Prunes ContextError α :=
  Proc.mapError (fun e => storageError (message e)) (Proc.call op id act)

/-- The entry with a name. -/
def look (name : OsName) (message : String → String) : Prunes ContextError (Option Node) :=
  call (.inspect [name]) message fun root => .ok (root.get name, root)

/-- `sync_directory` of the root. -/
def syncRoot : Prunes ContextError Unit :=
  call (.sync []) (fun e => "failed to sync directory " ++ String.ofList B.rootPath ++ ": " ++ e)
    fun root => .ok ((), root)

/-- A folder without the files of a name. -/
def withoutFile : Node → Node
  | .folder contents => .folder (contents.filter fun entry => entry.1 ≠ osName name)
  | node => node

/-- Whether a node is a folder with a file of a name. -/
def holdsFile : Option Node → Bool
  | some (.folder contents) => (contents.find name).isSome
  | _ => false

/-- `fs::remove_file` below an entry of the root. -/
def removeInner (folder : OsName) (name : Text) (message : String → String) :
    Prunes ContextError Unit :=
  call (.remove [folder, osName name]) message fun root =>
    if holdsFile name (root.get folder) then .ok ((), root.modify folder (withoutFile name))
    else .error Lib.IoError.notFound.toString

/-- `remove_if_exists` below an entry of the root. -/
def removeInnerIfExists (folder : OsName) (name : Text) : Prunes ContextError Unit :=
  call (.remove [folder, osName name])
    (fun e => "failed to remove stale SQLite sidecar " ++
      String.ofList (joinPath (B.pathOf (toStringLossy folder)) name) ++ ": " ++ e)
    fun root =>
      if holdsFile name (root.get folder) then .ok ((), root.modify folder (withoutFile name))
      else .ok ((), root)

/-- `fs::remove_dir`, which removes an empty directory only. -/
def removeFolder (folder : OsName) (message : String → String) : Prunes ContextError Unit :=
  call (.remove [folder]) message fun root =>
    match root.get folder with
    | some (.folder []) => .ok ((), root.erase folder)
    | some _ => .error "Directory not empty (os error 39)"
    | none => .error Lib.IoError.notFound.toString

/-- The tombstone of a backup. -/
def tombstoneName (id : Uuid) : Text :=
  '.' :: name ++ '.' :: id.toString ++ ".deleting".toList

/-- The files of a tombstone, removed one by one. -/
def deleteTombstone (tombstone : OsName) : Prunes ContextError Unit := do
  removeInner tombstone backupDatabaseFile
    fun e => "failed to remove expired backup database " ++ String.ofList name ++ ": " ++ e
  B.removeInnerIfExists tombstone backupDatabaseShmFile
  B.removeInnerIfExists tombstone backupDatabaseWalFile
  removeInner tombstone backupManifestFile
    fun e => "failed to remove expired backup manifest " ++ String.ofList name ++ ": " ++ e
  removeFolder tombstone
    fun e => "failed to remove expired backup directory " ++ String.ofList name ++ ": " ++ e
  B.syncRoot

/-- The second look at a backup, under its tombstone name. -/
def verifyTombstone (name tombstone : Text) (expected : BackupManifest)
    (key : Option StorageEncryptionKey) : Prunes ContextError Unit := do
  let path := B.pathOf tombstone
  let node ← look (osName tombstone) fun e =>
    "failed to inspect staged backup selected for expiration " ++ String.ofList path ++ ": " ++ e
  let _ ← Proc.lift (requireRealDirectory path "staged backup selected for expiration" node)
  leave (osName tombstone) (B.host.verified path key)
  let staged ← Proc.lift (B.host.verifyBackupInternal path node none key)
  if staged ≠ expected then
    Proc.throw (storageError ("backup " ++ String.ofList name ++
      " changed before expiration; deletion staging requires operator inspection at " ++
      String.ofList path))
  else
    Proc.lift (requireRemovableBackupContents path (node.map (B.host.verified path key)))

/-- `reject_existing_path`. -/
def rejectExisting (label : String) : Prunes ContextError Unit := do
  let path := B.pathOf name
  let node ← look (osName name) fun e =>
    "failed to inspect " ++ label ++ " " ++ String.ofList path ++ ": " ++ e
  if node.isSome then
    Proc.throw (storageError (label ++ " " ++ String.ofList path ++ " already exists"))
  else Proc.ret ()

/-- `fs::rename` of an entry of the root. -/
def renameEntry (source target : OsName) (message : String → String) : Prunes ContextError Unit :=
  call (.rename [source] [target]) message fun root =>
    if (root.get source).isSome then .ok ((), root.rename source target)
    else .error Lib.IoError.notFound.toString

def deleteVerifiedBackup (entry : BackupRetentionEntry) (expected : BackupManifest)
    (key : Option StorageEncryptionKey) (id : Uuid) : Prunes ContextError Unit := do
  Proc.lift (validateBackupName entry.name)
  let path := B.pathOf entry.name
  let node ← look (osName entry.name) fun e =>
    "failed to inspect backup selected for expiration " ++ String.ofList path ++ ": " ++ e
  let _ ← Proc.lift (requireRealDirectory path "backup selected for expiration" node)
  Proc.lift (requireRemovableBackupContents path node)
  let tombstone := tombstoneName entry.name id
  B.rejectExisting tombstone "backup deletion staging directory"
  renameEntry (osName entry.name) (osName tombstone) fun e =>
    "failed to stage backup " ++ String.ofList path ++ " for expiration: " ++ e
  B.syncRoot
  B.verifyTombstone entry.name tombstone expected key
  Proc.mapError (fun e => storageError (e.toString ++
    "; deletion staging may require offline operator cleanup at " ++
    String.ofList (B.pathOf tombstone))) (B.deleteTombstone entry.name (osName tombstone))

/-- The removal of the eligible backups, up to the first that fails, with the identifiers of their
tombstones. -/
def deleteEligible (ids : Nat → Uuid) :
    Nat → List VerifiedBackup → Prunes ContextError Unit
  | _, [] => Proc.ret ()
  | index, backup :: rest => do
      let key ← Proc.lift (B.backupKeyForManifest backup.manifest)
      B.deleteVerifiedBackup backup.entry backup.manifest key (ids index)
      deleteEligible ids (index + 1) rest

/-- `require_real_directory` of the root. -/
def requireRoot : Prunes ContextError Unit :=
  call (.inspect []) (fun e => "failed to inspect backup root " ++ String.ofList B.rootPath ++
    ": " ++ e) fun root => .ok ((), root)

/-- `acquire_backup_publication_lock`; the scan passes over the lock file, which is not kept among
the entries. -/
def acquireBackupPublicationLock : Prunes ContextError Unit :=
  call (.update [osName ".agentos-backup.lock".toList])
    (fun e => "failed to open backup publication lock: " ++ e) fun root => .ok ((), root)

/-- `apply_backup_retention` at an instant. -/
def applyBackupRetention (policy : BackupRetentionPolicy) (dryRun : Bool) (now : DateTime)
    (ids : Nat → Uuid) : Prunes ContextError BackupRetentionReport := do
  Proc.lift (validateRetentionPolicy policy)
  B.requireRoot
  acquireBackupPublicationLock
  let entries ← call (.read []) (fun e => "failed to enumerate backup root " ++
    String.ofList B.rootPath ++ ": " ++ e) fun root => .ok (root, root)
  if maxBackupRootEntries < entries.length then
    Proc.throw (storageError ("backup root exceeds the scan limit of " ++
      toString maxBackupRootEntries ++ " entries"))
  else do
    let found ← B.scan now entries
    let chosen := partition policy now 0 (sortBackups found.1)
    let report : BackupRetentionReport :=
      { evaluatedAt := now, dryRun, policy,
        eligible := chosen.1.map VerifiedBackup.entry, deleted := [],
        retained := chosen.2.map VerifiedBackup.entry, skipped := found.2 }
    if dryRun then Proc.ret report
    else do
      B.deleteEligible ids 0 chosen.1
      Proc.ret { report with deleted := chosen.1.map VerifiedBackup.entry }

end BackupManager

end AgentOS
