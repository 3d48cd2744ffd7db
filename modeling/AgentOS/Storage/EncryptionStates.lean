import AgentOS.Storage.Encryption

/-!
# States of an offline encryption

Every state that an interrupted migration or an interrupted recovery can leave is one of five
(`Standing`): nothing begun, the plaintext still in place, neither database in place, the encrypted
one in place, everything done. This module has the rules for the calls of the migration, the moves
between the five states, and what the checks of the program say of the original.
-/

namespace AgentOS

open Lib

namespace Vault

variable {δ : Type} {V : Vault δ}

/-! ## Rules for the calls of the migration -/

variable {metadata : StorageMetadata}

section Calls

variable {A : FileCall Text → Fate String → Prop} {I : Files Text (Artifact δ) → Prop}
variable {files : Files Text (Artifact δ)} {E : ContextError → Files Text (Artifact δ) → Prop}
variable {path : Text}

theorem meets_orStorageError {α : Type} {msg : String → String} {m : Migrates δ Lib.IoError α}
    {Q : α → Files Text (Artifact δ) → Prop}
    (h : Meets A I m files Q fun e s => E (storageError (msg e.toString)) s) :
    Meets A I (orStorageError msg m) files Q E :=
  meets_mapError h

variable {F : Lib.IoError → Files Text (Artifact δ) → Prop}
  {Q : Unit → Files Text (Artifact δ) → Prop}

section

variable (hnow : I files)
include hnow

theorem meets_touch (hok : Q () files) (hf : ∀ e, MayFail A → F e files) :
    Meets A I (touch path) files Q F := by
  refine meets_call hnow (fun a s' h => ?_) (fun e h => ?_) fun e he => hf _ ⟨_, e, he⟩
  · cases h
    exact ⟨hnow, hok⟩
  · cases h

theorem meets_acquireStorageLease (hok : Q () files)
    (hf : ∀ e, MayFail A → E e files) : Meets A I V.acquireStorageLease files Q E := by
  apply meets_orStorageError
  exact meets_touch hnow hok fun e he => hf _ he

theorem meets_applyToAttached (hok : Q () files) (hf : ∀ e, E e files) :
    Meets A I (V.applyToAttached path) files Q E := by
  apply meets_bind
  apply meets_orStorageError
  refine meets_touch hnow ?_ fun e _ => hf _
  apply meets_orStorageError
  exact meets_touch hnow hok fun e _ => hf _

theorem meets_syncParent (hok : Q () files)
    (hf : ∀ e, MayFail A → E e files) : Meets A I V.syncParent files Q E := by
  apply meets_orStorageError
  exact meets_sync hnow hok fun e he => hf _ ⟨_, e, he⟩

theorem meets_regularMigrationFileExists {label : String}
    {Q : Bool → Files Text (Artifact δ) → Prop}
    (hok : Q (files path).isSome files) (hf : ∀ e, MayFail A → E e files) :
    Meets A I (V.regularMigrationFileExists path label) files Q E := by
  apply meets_orStorageError
  exact meets_inspect hnow hok fun e he => hf _ ⟨_, e, he⟩

theorem meets_requireDatabaseFile (hok : (files path).isSome → Q () files)
    (hm : ∀ e, files path = none → E e files) (hf : ∀ e, MayFail A → E e files) :
    Meets A I (V.requireDatabaseFile path) files Q E := by
  apply meets_bind
  apply meets_orStorageError
  refine meets_inspect hnow ?_ fun e he => hf _ ⟨_, e, he⟩
  split
  · next hfo => exact meets_ret (hok hfo)
  · next hnone => exact meets_throw (hm _ (Option.not_isSome_iff_eq_none.1 hnone))

theorem meets_rejectExistingMigrationPath (hok : files path = none → Q () files)
    (he : ∀ e, E e files) : Meets A I (V.rejectExistingMigrationPath path) files Q E := by
  apply meets_bind
  apply meets_orStorageError
  refine meets_inspect hnow ?_ fun e _ => he _
  split
  · exact meets_throw (he _)
  · next hnone => exact meets_ret (hok (Option.not_isSome_iff_eq_none.1 hnone))

end

/-- What SQLite sees when it opens a path. -/
def seen (V : Vault δ) (files : Files Text (Artifact δ)) (path : Text) : Option (Artifact δ) :=
  (files path).map (Artifact.through (if path = V.database.text then files V.walPath else none))

variable {contents : Artifact δ}

section

variable (hnow : I files)
include hnow

variable (hfile : V.seen files path = some contents)
include hfile

theorem meets_openDatabase {Q : Artifact δ → Files Text (Artifact δ) → Prop}
    (hok : Q contents files)
    (hf : ∀ e, MayFail A → F e files) : Meets A I (V.openDatabase path) files Q F := by
  obtain ⟨raw, hraw, rfl⟩ := Option.map_eq_some_iff.1 hfile
  refine meets_call hnow (fun a s' h => ?_) (fun e h => ?_) fun e he => hf _ ⟨_, e, he⟩
  · rw [hraw] at h
    cases h
    exact ⟨hnow, hok⟩
  · rw [hraw] at h
    cases h

variable {Q : StorageMetadata → Files Text (Artifact δ) → Prop}

theorem meets_verifyDatabaseWithKey
    (hok : ∀ metadata, V.readEncrypted contents = .ok metadata → Q metadata files)
    (herr : ∀ e, V.readEncrypted contents = .error e → E e files)
    (hf : ∀ e, MayFail A → E e files) :
    Meets A I (V.verifyDatabaseWithKey path) files Q E := by
  apply meets_bind
  apply meets_orStorageError
  refine meets_openDatabase hnow hfile ?_ fun e he => hf _ he
  exact meets_lift hok herr

theorem meets_verifyPlaintextDatabase
    (hok : ∀ metadata, V.readPlaintext contents = .ok metadata → Q metadata files)
    (herr : ∀ e, V.readPlaintext contents = .error e → E e files)
    (hf : ∀ e, MayFail A → E e files) :
    Meets A I (V.verifyPlaintextDatabase path) files Q E := by
  apply meets_bind
  refine meets_requireDatabaseFile hnow (fun _ => ?_) (fun e hnone => ?_) hf
  · apply meets_bind
    apply meets_orStorageError
    refine meets_openDatabase hnow hfile ?_ fun e he => hf _ he
    exact meets_lift hok herr
  · -- the file is there
    rw [seen, hnone] at hfile
    cases hfile

/-- A verification that succeeds unless its calls fail. -/
theorem meets_verifyDatabaseWithKey_ok (hread : V.readEncrypted contents = .ok metadata)
    (hok : Q metadata files) (hf : ∀ e, MayFail A → E e files) :
    Meets A I (V.verifyDatabaseWithKey path) files Q E := by
  refine meets_verifyDatabaseWithKey hnow hfile (fun m hm => ?_) (fun e he => ?_) hf
  · rw [hread] at hm
    cases hm
    exact hok
  · cases hread.symm.trans he

theorem meets_verifyPlaintextDatabase_ok (hread : V.readPlaintext contents = .ok metadata)
    (hok : Q metadata files) (hf : ∀ e, MayFail A → E e files) :
    Meets A I (V.verifyPlaintextDatabase path) files Q E := by
  refine meets_verifyPlaintextDatabase hnow hfile (fun m hm => ?_) (fun e he => ?_) hf
  · rw [hread] at hm
    cases hm
    exact hok
  · cases hread.symm.trans he

end

theorem meets_requireMatchingMigrationIdentity {label : String} (hok : Q () files) :
    Meets A I (requireMatchingMigrationIdentity label metadata metadata) files Q E := by
  rw [requireMatchingMigrationIdentity, if_pos rfl]
  exact meets_ret hok

end Calls

/-! ## Copies of the original -/

/-- One of the paths holds a complete copy of the contents, in plaintext or under the key. -/
def HasCopy (V : Vault δ) (contents : δ) (paths : List Text) (files : Files Text (Artifact δ)) :
    Prop :=
  ∃ path ∈ paths, V.seen files path = some (.plaintext contents) ∨
    V.seen files path = some (.encrypted V.key.bytes contents)

/-- The contents are at the database path, none of the other files of a migration is left, and no
log lies beside an encrypted database. -/
structure Completed (V : Vault δ) (stage rollback : Text) (contents : δ)
    (files : Files Text (Artifact δ)) : Prop where
  journal : files V.journalPath = none
  stage : files stage = none
  rollback : files rollback = none
  database : V.seen files V.database.text = some (.plaintext contents) ∨
    (files V.database.text = some (.encrypted V.key.bytes contents) ∧ files V.walPath = none ∧
      files V.shmPath = none)

/-- The journal file holds a journal. -/
def JournalWritten (V : Vault δ) (files : Files Text (Artifact δ)) : Prop :=
  ∃ document, files V.journalPath = some (.journal document)

/-! ## The migration of one database -/

/-- A migration: the contents it is about, with their metadata, and the identifiers that name its
companion files. -/
structure Migration (V : Vault δ) where
  contents : δ
  metadata : StorageMetadata
  inspected : V.sqlite.inspect contents = .ok metadata
  (stageId rollbackId : Uuid)

namespace Migration

variable (M : Migration V)

/-- The path of the encrypted export. -/
def stage : Text := V.stagePath M.stageId

/-- The path of the plaintext that was moved away. -/
def rollback : Text := V.rollbackPath M.rollbackId

/-- The original in plaintext. -/
def plain : Artifact δ := .plaintext M.contents

/-- The original under the key. -/
def sealed : Artifact δ := .encrypted V.key.bytes M.contents

/-- The journal of the migration. -/
def document : EncryptionMigrationJournal := V.newJournal M.stage M.rollback M.metadata

theorem paths_distinct :
    (M.stage ≠ V.database.text ∧ M.stage ≠ V.walPath ∧ M.stage ≠ V.shmPath ∧
      M.stage ≠ V.journalPath ∧ M.stage ≠ M.rollback) ∧
    (M.rollback ≠ V.database.text ∧ M.rollback ≠ V.walPath ∧ M.rollback ≠ V.shmPath ∧
      M.rollback ≠ V.journalPath) ∧
    (V.journalPath ≠ V.database.text ∧ V.journalPath ≠ V.walPath ∧ V.journalPath ≠ V.shmPath) ∧
    (V.walPath ≠ V.database.text ∧ V.walPath ≠ V.shmPath) ∧ V.shmPath ≠ V.database.text := by
  refine ⟨⟨?_, ?_, ?_, ?_, ?_⟩, ⟨?_, ?_, ?_, ?_⟩, ⟨?_, ?_, ?_⟩, ⟨?_, ?_⟩, ?_⟩ <;>
    simp [stage, rollback, stagePath, rollbackPath, walPath, shmPath, journalPath]

theorem paths_distinct_symm :
    (V.database.text ≠ M.stage ∧ V.walPath ≠ M.stage ∧ V.shmPath ≠ M.stage ∧
      V.journalPath ≠ M.stage ∧ M.rollback ≠ M.stage) ∧
    (V.database.text ≠ M.rollback ∧ V.walPath ≠ M.rollback ∧ V.shmPath ≠ M.rollback ∧
      V.journalPath ≠ M.rollback) ∧
    (V.database.text ≠ V.journalPath ∧ V.walPath ≠ V.journalPath ∧ V.shmPath ≠ V.journalPath) ∧
    (V.database.text ≠ V.walPath ∧ V.shmPath ≠ V.walPath) ∧ V.database.text ≠ V.shmPath := by
  have h := M.paths_distinct
  simp only [ne_comm] at h ⊢
  exact h

/-! ### States of the migration -/

/-- The log beside the database adds nothing to the original. -/
def Quiet (files : Files Text (Artifact δ)) : Prop :=
  Artifact.through (files V.walPath) M.plain = M.plain

/-- No journal is written; the database reads as the original. -/
structure Untouched (files : Files Text (Artifact δ)) : Prop where
  journal : files V.journalPath = none ∨ files V.journalPath = some .blank
  database : V.seen files V.database.text = some M.plain

/-- The journal is written and the plaintext is in place. -/
structure InPlace (files : Files Text (Artifact δ)) : Prop where
  journal : files V.journalPath = some (.journal M.document)
  database : files V.database.text = some M.plain
  log : M.Quiet files
  rollback : files M.rollback = none

/-- The plaintext is moved away and the stage is not published. -/
structure Parted (files : Files Text (Artifact δ)) : Prop where
  journal : files V.journalPath = some (.journal M.document)
  database : files V.database.text = none
  stage : files M.stage = none ∨ files M.stage = some M.sealed
  rollback : files M.rollback = some M.plain
  log : files V.walPath = none
  index : files V.shmPath = none

/-- The encrypted database is in place and the journal remains. -/
structure Published (files : Files Text (Artifact δ)) : Prop where
  journal : files V.journalPath = some (.journal M.document)
  database : files V.database.text = some M.sealed
  stage : files M.stage = none
  rollback : files M.rollback = none ∨ files M.rollback = some M.plain
  log : files V.walPath = none
  index : files V.shmPath = none

/-- Only the encrypted database remains. -/
structure Finished (files : Files Text (Artifact δ)) : Prop where
  journal : files V.journalPath = none
  database : files V.database.text = some M.sealed
  stage : files M.stage = none
  rollback : files M.rollback = none
  log : files V.walPath = none
  index : files V.shmPath = none

/-- The states that a migration and its recoveries pass through. -/
inductive Standing (files : Files Text (Artifact δ)) : Prop where
  | untouched (h : M.Untouched files)
  | inPlace (h : M.InPlace files)
  | parted (h : M.Parted files)
  | published (h : M.Published files)
  | finished (h : M.Finished files)

variable {M} {files : Files Text (Artifact δ)}

theorem InPlace.seen (h : M.InPlace files) : V.seen files V.database.text = some M.plain := by
  rw [Vault.seen, h.database, if_pos rfl, Option.map_some, h.log]

theorem Published.seen (h : M.Published files) : V.seen files V.database.text = some M.sealed := by
  rw [Vault.seen, h.database]
  rfl

theorem seen_stage (h : files M.stage = some M.sealed) : V.seen files M.stage = some M.sealed := by
  rw [Vault.seen, h]
  rfl

theorem seen_rollback (h : files M.rollback = some M.plain) :
    V.seen files M.rollback = some M.plain := by
  rw [Vault.seen, h, if_neg M.paths_distinct.2.1.1]
  rfl

/-! ### How single calls move between them -/

section

variable (h : M.InPlace files)
include h

/-- The plaintext stays in place while the other paths change. -/
theorem InPlace.congr {files' : Files Text (Artifact δ)}
    (hsame : ∀ path ∈ [V.journalPath, V.database.text, V.walPath, M.rollback], files' path = files
      path) : M.InPlace files' := by
  simp only [List.forall_mem_cons] at hsame
  refine ⟨hsame.1.trans h.journal, hsame.2.1.trans h.database, ?_, hsame.2.2.2.1.trans h.rollback⟩
  rw [Quiet, hsame.2.2.1]
  exact h.log

theorem InPlace.put_stage (contents : Artifact δ) : M.InPlace (files.put M.stage contents) :=
  h.congr (by simp [Files.put_of_ne, M.paths_distinct_symm])

theorem InPlace.drop_stage : M.InPlace (files.drop M.stage) :=
  h.congr (by simp [Files.drop_of_ne, M.paths_distinct_symm])

theorem InPlace.drop_index : M.InPlace (files.drop V.shmPath) :=
  h.congr (by simp [Files.drop_of_ne, M.paths_distinct, M.paths_distinct_symm])

theorem InPlace.drop_log : M.InPlace (files.drop V.walPath) := by
  refine ⟨?_, ?_, by rw [Quiet, Files.drop_self]; rfl, ?_⟩ <;>
    simp [Files.drop_of_ne, M.paths_distinct, M.paths_distinct_symm, h.journal, h.database,
      h.rollback]

theorem InPlace.drop_journal : M.Untouched (files.drop V.journalPath) where
  journal := .inl Files.drop_self
  database := by
    simp [Vault.seen, Files.drop_of_ne, M.paths_distinct_symm, h.database, show _ = _ from h.log]

theorem InPlace.move_database (hs : files M.stage = some M.sealed) (hlog : files V.walPath = none)
    (hi : files V.shmPath = none) : M.Parted (files.move V.database.text M.rollback M.plain) := by
  constructor <;> simp [Files.move_of_ne, Files.move_source, M.paths_distinct,
    M.paths_distinct_symm, h.journal, hs, hlog, hi]

end

theorem Parted.move_stage (h : M.Parted files) :
    M.Published (files.move M.stage V.database.text M.sealed) := by
  constructor <;> simp [Files.move_of_ne, Files.move_source, M.paths_distinct,
    M.paths_distinct_symm, h.journal, h.rollback, h.log, h.index]

/-- Moving the plaintext back puts it in place, whatever lies at the database path. -/
theorem move_rollback (hj : files V.journalPath = some (.journal M.document))
    (hlog : files V.walPath = none) :
    M.InPlace (files.move M.rollback V.database.text M.plain) := by
  constructor <;> simp [Quiet, Files.move_of_ne, Files.move_source, M.paths_distinct,
    M.paths_distinct_symm, hj, hlog, Artifact.through, plain]

theorem Published.drop_database (h : M.Published files) (hr : files M.rollback = some M.plain) :
    M.Parted (files.drop V.database.text) := by
  constructor <;> simp [Files.drop_of_ne, M.paths_distinct, h.journal, h.stage, hr, h.log,
    h.index]

theorem Published.drop_rollback (h : M.Published files) : M.Published (files.drop M.rollback) := by
  constructor <;> simp [Files.drop_of_ne, M.paths_distinct, M.paths_distinct_symm, h.journal,
    h.database, h.stage, h.log, h.index]

theorem Published.drop_journal (h : M.Published files) (hr : files M.rollback = none) :
    M.Finished (files.drop V.journalPath) := by
  constructor <;> simp [Files.drop_of_ne, M.paths_distinct, M.paths_distinct_symm, h.database,
    h.stage, hr, h.log, h.index]

/-! ### What the checks say of the original -/

variable (M)

theorem readPlaintext_plain : V.readPlaintext M.plain = .ok M.metadata := by
  rw [plain, readPlaintext, M.inspected]
  rfl

theorem readEncrypted_sealed : V.readEncrypted M.sealed = .ok M.metadata := by
  rw [sealed, readEncrypted, if_pos rfl, M.inspected]
  rfl

theorem readEncrypted_plain : V.readEncrypted M.plain ≠ .ok metadata := by
  exact nofun

theorem byteLength_stage_le : byteLength M.stage ≤ 310 := by
  have hname := V.database.short
  have hid := M.stageId.byteLength_toString
  have hl : byteLength ".encrypted-".toList = 11 := by decide
  have hs : byteLength ".staging".toList = 8 := by decide
  rw [stage, stagePath, byteLength_append, byteLength_append, byteLength_append, hl, hid, hs]
  omega

theorem byteLength_rollback_le : byteLength M.rollback ≤ 311 := by
  have hname := V.database.short
  have hid := M.rollbackId.byteLength_toString
  have hl : byteLength ".plaintext-".toList = 11 := by decide
  have hs : byteLength ".rollback".toList = 9 := by decide
  rw [rollback, rollbackPath, byteLength_append, byteLength_append, byteLength_append, hl, hid, hs]
  omega

theorem isBasename_stage : isBasename M.stage = true := by
  apply V.database.isBasename_append
  · simp [M.stageId.slash_not_mem_toString]
  · simp

theorem isBasename_rollback : isBasename M.rollback = true := by
  apply V.database.isBasename_append
  · simp [M.rollbackId.slash_not_mem_toString]
  · simp

theorem length_installationId_le : M.metadata.installationId.length ≤ 45 := by
  have huuid := (V.sqlite.identity M.inspected).2.2.2
  rw [isUuid, Uuid.parseStr] at huuid
  split at huuid
  case h_5 => cases huuid
  all_goals omega

theorem length_keyId_le (V : Vault δ) : V.key.keyId.length ≤ 96 := by
  have hv := V.key.validKeyId
  simp only [isValidKeyId, Bool.and_eq_true, decide_eq_true_eq] at hv
  exact (length_le_byteLength _).trans hv.1.2

/-- The journal is far below the size limit, with the newline that ends it. -/
theorem byteLength_encoded_lt :
    byteLength M.document.encoded < maxEncryptionMigrationFileBytes := by
  obtain ⟨ha, hs, hre, -⟩ := V.sqlite.identity M.inspected
  have hd := byteLength_jsonString_le V.database.text
  have hd' := (length_le_byteLength V.database.text).trans V.database.short
  have hst := byteLength_jsonString_le M.stage
  have hst' := (length_le_byteLength M.stage).trans M.byteLength_stage_le
  have hr := byteLength_jsonString_le M.rollback
  have hr' := (length_le_byteLength M.rollback).trans M.byteLength_rollback_le
  have hkey := byteLength_jsonString_le V.key.keyId
  have hkey' := length_keyId_le V
  have hid := byteLength_jsonString_le M.metadata.installationId
  have hid' := M.length_installationId_le
  -- everything but the five strings is fixed text
  have hf : byteLength M.document.encoded =
      byteLength (jsonString V.database.text) + byteLength (jsonString M.stage) +
        byteLength (jsonString M.rollback) + byteLength (jsonString V.key.keyId) +
        byteLength (jsonString M.metadata.installationId) + 221 := by
    have hl : (["format_version", "database_file", "stage_file", "rollback_file",
        "current_key_id", "application_id", "schema_version", "min_reader_schema_version",
        "installation_id"].map fun label => byteLength (jsonString label.toList)) =
        [16, 15, 12, 15, 16, 16, 16, 27, 17] := by decide
    simp only [List.map_cons, List.map_nil, List.cons.injEq, and_true] at hl
    obtain ⟨h1, h2, h3, h4, h5, h6, h7, h8, h9⟩ := hl
    simp only [EncryptionMigrationJournal.encoded, EncryptionMigrationJournal.members, jsonPretty,
      document, newJournal, byteLength_append, ha, hs, hre, h1, h2, h3, h4, h5, h6, h7, h8, h9]
    have hsp : byteLength "  ".toList = 2 := by decide
    have hcolon : byteLength ": ".toList = 2 := by decide
    have hcm : byteLength ",\n".toList = 2 := by decide
    have hopen : byteLength "\x7b\n".toList = 2 := by decide
    have hend : byteLength ['\n'] = 1 ∧ byteLength ['\x7d'] = 1 := by decide
    have hv : byteLength (decimal encryptionMigrationFormatVersion) = 1 := by decide
    have hc : byteLength (jsonInt schemaApplicationId) = 10 ∧
        byteLength (jsonInt currentSchemaVersion) = 2 ∧
        byteLength (jsonInt minReaderSchemaVersion) = 2 := by decide
    rw [hsp, hcolon, hcm, hopen, hend.1, hend.2, hv, hc.1, hc.2.1, hc.2.2]
    omega
  rw [hf, maxEncryptionMigrationFileBytes]
  omega

/-- The journal passes the checks of its own loader. -/
theorem parse_document :
    V.parseEncryptionMigrationJournal (.journal M.document) = .ok M.document := by
  have hsize := M.byteLength_encoded_lt
  have hkey := V.key.validKeyId
  have huuid := (V.sqlite.identity M.inspected).2.2.2
  have hd := V.database.short
  have hs := M.byteLength_stage_le
  have hr := M.byteLength_rollback_le
  rw [parseEncryptionMigrationJournal, if_neg (by omega)]
  have hv : V.validateEncryptionMigrationJournal M.document = .ok () := by
    have hfi : ([("database", M.document.databaseFile), ("encrypted stage", M.document.stageFile),
        ("plaintext rollback", M.document.rollbackFile)].find? fun file =>
          decide (512 < byteLength file.2) || !isBasename file.2) = none := by
      have hn : M.document.databaseFile = V.database.text ∧ M.document.stageFile = M.stage ∧
          M.document.rollbackFile = M.rollback := ⟨rfl, rfl, rfl⟩
      simp only [hn, List.find?_eq_none, List.mem_cons, List.not_mem_nil, or_false]
      rintro file (rfl | rfl | rfl)
      · simp [V.database.basename, show byteLength V.database.text ≤ 512 by omega]
      · simp [M.isBasename_stage, show byteLength M.stage ≤ 512 by omega]
      · simp [M.isBasename_rollback, show byteLength M.rollback ≤ 512 by omega]
    have hf : ¬ M.document.formatVersion ≠ encryptionMigrationFormatVersion :=
      not_not_intro rfl
    have hkI : ¬ isValidKeyId M.document.currentKeyId = false := by
      rw [show M.document.currentKeyId = V.key.keyId from rfl, hkey]
      decide
    have ht : ¬ M.document.databaseFile ≠ V.database.text := not_not_intro rfl
    have ho : ¬ (V.database.text = M.stage ∨ V.database.text = M.rollback ∨
        M.stage = M.rollback ∨ V.journalPath = M.stage ∨ V.journalPath = M.rollback) := by
      simp [M.paths_distinct, M.paths_distinct_symm]
    have hi : ¬ isUuid M.document.installationId = false := by
      rw [show M.document.installationId = M.metadata.installationId from rfl, huuid]
      decide
    rw [validateEncryptionMigrationJournal, if_neg hf, if_neg hkI, if_neg ht, hfi]
    exact (if_neg ho).trans (if_neg hi)
  rw [hv]
  rfl

end Migration

end Vault

end AgentOS
