import AgentOS.Storage.EncryptionStates

/-!
# Recovery of an offline encryption

From every state with a written journal, `recoverInterruptedEncryptionMigration` reaches an end
unless one of its own calls fails; without one it is refused and changes nothing.
-/

namespace AgentOS

open Lib

namespace Vault

variable {δ : Type} {V : Vault δ}

/-- The last steps of a recovery. -/
abbrev closing (V : Vault δ) {α : Type} (result : α) : Migrates δ ContextError α := do
  V.removeCompletedMigrationJournal
  V.syncParent
  Proc.ret result

namespace Migration

variable (M : Migration V) {files : Files Text (Artifact δ)}

/-! ## Recovery -/

/-- What a completed recovery leaves. -/
abbrev Completed (files : Files Text (Artifact δ)) : Prop :=
  V.Completed M.stage M.rollback M.contents files

variable {M}

theorem InPlace.completed (h : M.InPlace files) (hs : files M.stage = none) :
    M.Completed (files.drop V.journalPath) where
  journal := Files.drop_self
  stage := by rw [Files.drop_of_ne (by simp [M.paths_distinct]), hs]
  rollback := by rw [Files.drop_of_ne (by simp [M.paths_distinct]), h.rollback]
  database := .inl h.drop_journal.database

theorem Finished.completed (h : M.Finished files) : M.Completed files :=
  ⟨h.journal, h.stage, h.rollback, .inr ⟨h.database, h.log, h.index⟩⟩

section Specifications

/-- The program completes the migration unless one of its calls fails. -/
abbrev Recovers (M : Migration V) (A : FileCall Text → Fate String → Prop) {α : Type}
    (program : Migrates δ ContextError α) (files : Files Text (Artifact δ)) : Prop :=
  Meets A M.Standing program files (fun _ => M.Completed) fun _ s => M.Standing s ∧ MayFail A

variable {A : FileCall Text → Fate String → Prop}

/-- The last steps of a recovery: the journal goes, and with it the migration. -/
theorem meets_closeJournal {α : Type} {r : α} (hnow : M.Standing files)
    (hj : files V.journalPath ≠ none) (hthen : M.Standing (files.drop V.journalPath))
    (hdone : M.Completed (files.drop V.journalPath)) : M.Recovers A (V.closing r) files := by
  apply meets_bind
  apply meets_orStorageError
  refine meets_remove hnow (fun _ => ⟨hthen, ?_⟩) (fun hnone => absurd hnone hj)
    fun e he => ⟨hnow, _, e, he⟩
  apply meets_bind
  exact meets_syncParent hthen (meets_ret hdone) fun e he => ⟨hthen, he⟩

theorem InPlace.meets_close (h : M.InPlace files) (hs : files M.stage = none) {α : Type}
    {r : α} : M.Recovers A (V.closing r) files :=
  meets_closeJournal (.inPlace h) (by simp [h.journal]) (.untouched h.drop_journal)
    (h.completed hs)

theorem Published.meets_close (h : M.Published files) (hr : files M.rollback = none)
    {α : Type} {r : α} : M.Recovers A (V.closing r) files :=
  meets_closeJournal (.published h) (by simp [h.journal]) (.finished (h.drop_journal hr))
    (h.drop_journal hr).completed

/-- With the plaintext in place, recovery removes the stage and keeps the plaintext. -/
theorem InPlace.meets_keepPlaintext (h : M.InPlace files) :
    M.Recovers A
      (V.keepPlaintext M.stage (files M.stage).isSome (files M.rollback).isSome M.metadata)
    files := by
  apply meets_bind
  apply meets_mapError
  refine meets_verifyPlaintextDatabase_ok (.inPlace h) h.seen M.readPlaintext_plain ?_
    fun e he => ⟨.inPlace h, he⟩
  apply meets_bind
  apply meets_requireMatchingMigrationIdentity
  rw [h.rollback, Option.isSome_none, if_neg Bool.false_ne_true]
  apply meets_bind
  cases hs : files M.stage with
  | none => exact meets_ret (h.meets_close hs)
  | some contents =>
    apply meets_orStorageError
    refine meets_remove (.inPlace h) (fun _ => ⟨.inPlace h.drop_stage, ?_⟩) (fun hnone => ?_)
      fun e he => ⟨.inPlace h, _, e, he⟩
    · exact h.drop_stage.meets_close Files.drop_self
    · rw [hs] at hnone
      cases hnone

/-- With the encrypted database in place, recovery removes the plaintext. -/
theorem Published.meets_completePublished (h : M.Published files) :
    M.Recovers A
      (V.completePublished M.stage M.rollback (files M.stage).isSome (files M.rollback).isSome
        M.metadata M.metadata) files := by
  apply meets_bind
  apply meets_requireMatchingMigrationIdentity
  apply meets_bind
  rw [h.stage]
  refine meets_ret ?_
  apply meets_bind
  rcases h.rollback with hr | hr
  · rw [hr]
    exact meets_ret (h.meets_close hr)
  · rw [hr]
    apply meets_bind
    refine meets_verifyPlaintextDatabase_ok (.published h) (seen_rollback hr)
      M.readPlaintext_plain ?_ fun e he => ⟨.published h, he⟩
    apply meets_bind
    apply meets_requireMatchingMigrationIdentity
    apply meets_orStorageError
    refine meets_remove (.published h) (fun _ => ⟨.published h.drop_rollback, ?_⟩) (fun hnone => ?_)
      fun e he => ⟨.published h, _, e, he⟩
    · exact h.drop_rollback.meets_close Files.drop_self
    · rw [hr] at hnone
      cases hnone

/-- With neither in place and a stage, recovery publishes the stage. -/
theorem Parted.meets_publishInterrupted (h : M.Parted files) (hs : files M.stage = some M.sealed) :
    M.Recovers A (V.publishInterrupted M.stage M.rollback M.metadata) files := by
  have hp := h.move_stage
  have hpl : files.move M.stage V.database.text M.sealed M.rollback = some M.plain := by
    rw [Files.move_of_ne (by simp [M.paths_distinct_symm]) (by simp [M.paths_distinct]), h.rollback]
  apply meets_bind
  apply meets_mapError
  refine meets_verifyDatabaseWithKey_ok (.parted h) (seen_stage hs) M.readEncrypted_sealed ?_
    fun e he => ⟨.parted h, he⟩
  apply meets_bind
  apply meets_requireMatchingMigrationIdentity
  apply meets_bind
  apply meets_orStorageError
  refine meets_rename (.parted h) hs (.published hp) ?_ fun e he => ⟨.parted h, _, e, he⟩
  apply meets_bind
  refine meets_syncParent (.published hp) ?_ fun e he => ⟨.published hp, he⟩
  apply meets_bind
  refine meets_verifyDatabaseWithKey_ok (.published hp) hp.seen
    M.readEncrypted_sealed ?_ fun e he => ⟨.published hp, he⟩
  apply meets_bind
  apply meets_requireMatchingMigrationIdentity
  apply meets_bind
  apply meets_orStorageError
  refine meets_remove (.published hp) (fun _ => ⟨.published hp.drop_rollback, ?_⟩)
    (fun hnone => ?_) fun e he => ⟨.published hp, _, e, he⟩
  · exact hp.drop_rollback.meets_close Files.drop_self
  · rw [hpl] at hnone
    cases hnone

/-- With neither in place and no stage, recovery moves the plaintext back. -/
theorem Parted.meets_restoreRollback (h : M.Parted files) (hs : files M.stage = none) :
    M.Recovers A (V.restoreRollback M.rollback M.metadata) files := by
  have hback : M.InPlace (files.move M.rollback V.database.text M.plain) :=
    move_rollback h.journal h.log
  have hs' : files.move M.rollback V.database.text M.plain M.stage = none := by
    rw [Files.move_of_ne (by simp [M.paths_distinct]) (by simp [M.paths_distinct]), hs]
  apply meets_bind
  apply meets_orStorageError
  refine meets_rename (.parted h) h.rollback (.inPlace hback) ?_ fun e he => ⟨.parted h, _, e, he⟩
  apply meets_bind
  refine meets_syncParent (.inPlace hback) ?_ fun e he => ⟨.inPlace hback, he⟩
  apply meets_bind
  refine meets_verifyPlaintextDatabase_ok (.inPlace hback) hback.seen M.readPlaintext_plain ?_
    fun e he => ⟨.inPlace hback, he⟩
  apply meets_bind
  apply meets_requireMatchingMigrationIdentity
  exact hback.meets_close hs'

theorem Parted.meets_recoverMissing (h : M.Parted files) :
    M.Recovers A
      (V.recoverMissing M.stage M.rollback (files M.stage).isSome (files M.rollback).isSome
        M.metadata) files := by
  rw [recoverMissing, h.rollback, Option.isSome_some, if_pos rfl]
  apply meets_bind
  refine meets_verifyPlaintextDatabase_ok (.parted h) (seen_rollback h.rollback)
    M.readPlaintext_plain ?_ fun e he => ⟨.parted h, he⟩
  apply meets_bind
  apply meets_requireMatchingMigrationIdentity
  rcases h.stage with hs | hs
  · rw [hs]
    exact h.meets_restoreRollback hs
  · rw [hs]
    exact h.meets_publishInterrupted hs

/-- The journal of the migration is on disk. -/
def Journaled (M : Migration V) (files : Files Text (Artifact δ)) : Prop :=
  files V.journalPath = some (.journal M.document)

/-- Recovery from the journal of the migration reaches an end in every state. -/
theorem Standing.meets_recoverFrom (h : M.Standing files) (hj : M.Journaled files) :
    M.Recovers A (V.recoverFrom M.document) files := by
  have hkey : ¬ M.document.currentKeyId ≠ V.key.keyId := not_not_intro rfl
  rw [recoverFrom, if_neg hkey]
  apply meets_bind
  refine meets_regularMigrationFileExists h ?_ fun e he => ⟨h, he⟩
  apply meets_bind
  refine meets_regularMigrationFileExists h ?_ fun e he => ⟨h, he⟩
  apply meets_bind
  refine meets_regularMigrationFileExists h ?_ fun e he => ⟨h, he⟩
  change Meets A M.Standing (if (files V.database.text).isSome = true then _ else
    V.recoverMissing M.stage M.rollback (files M.stage).isSome (files M.rollback).isSome M.metadata)
    files _ _
  cases h with
  | untouched h =>
    rcases h.journal with hnone | hb
    · cases hnone.symm.trans hj
    · cases hb.symm.trans hj
  | inPlace h =>
    rw [h.database, Option.isSome_some, if_pos rfl]
    apply meets_bind
    apply meets_attempt
    refine meets_verifyDatabaseWithKey (.inPlace h) h.seen (fun m hm => ?_) (fun e _ => ?_)
      fun e _ => ?_
    · exact absurd hm M.readEncrypted_plain
    · exact h.meets_keepPlaintext
    · exact h.meets_keepPlaintext
  | parted h =>
    rw [h.database, Option.isSome_none, if_neg Bool.false_ne_true]
    exact h.meets_recoverMissing
  | published h =>
    rw [h.database, Option.isSome_some, if_pos rfl]
    apply meets_bind
    apply meets_attempt
    refine meets_verifyDatabaseWithKey_ok (.published h) h.seen M.readEncrypted_sealed
      h.meets_completePublished fun e he => ?_
    -- the encrypted database could not be read: as plaintext it is refused
    apply meets_bind
    apply meets_mapError
    exact meets_verifyPlaintextDatabase (.published h) h.seen
      (fun m hm => absurd hm nofun) (fun _ _ => ⟨.published h, he⟩) fun _ _ => ⟨.published h, he⟩
  | finished h => cases h.journal.symm.trans hj

/-- Loading the journal of the migration succeeds. -/
theorem Standing.meets_recover (h : M.Standing files) (hj : M.Journaled files) :
    M.Recovers A V.recoverInterruptedEncryptionMigration files := by
  apply meets_bind
  refine meets_acquireStorageLease h ?_ fun e he => ⟨h, he⟩
  apply meets_bind
  apply meets_bind
  apply meets_orStorageError
  refine meets_read h hj ?_ fun e he => ⟨h, _, e, he⟩
  rw [M.parse_document]
  exact meets_ret (h.meets_recoverFrom hj)

/-- Without a written journal recovery is refused and changes nothing. -/
theorem meets_recover_refused {I : Files Text (Artifact δ) → Prop} (hnow : I files)
    (hj : files V.journalPath = none ∨ files V.journalPath = some .blank) :
    Meets A I V.recoverInterruptedEncryptionMigration files (fun _ _ => False)
      fun _ s => s = files := by
  apply meets_bind
  refine meets_acquireStorageLease hnow ?_ fun e _ => rfl
  apply meets_bind
  apply meets_bind
  apply meets_orStorageError
  rcases hj with hnone | hb
  · exact meets_read_missing hnow hnone rfl fun e _ => rfl
  · refine meets_read hnow hb ?_ fun e _ => rfl
    exact meets_throw rfl

theorem Standing.journal_cases (h : M.Standing files) :
    M.Journaled files ∨ files V.journalPath = none ∨ files V.journalPath = some .blank := by
  cases h with
  | untouched h => exact .inr h.journal
  | inPlace h => exact .inl h.journal
  | parted h => exact .inl h.journal
  | published h => exact .inl h.journal
  | finished h => exact .inr (.inl h.journal)

end Specifications

end Migration

end Vault

end AgentOS
