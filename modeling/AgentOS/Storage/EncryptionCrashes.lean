import AgentOS.Storage.EncryptionRecovery

/-!
# Crashes of the offline encryption

The migration keeps the files in one of the states of `Standing`, whatever its calls do, and so does
every recovery after it. The result for whole sequences of runs follows: a complete copy of the
original at every moment, and an end for every recovery that finds a written journal.
-/

namespace AgentOS

open Lib
open Files (drop_of_ne drop_self move_of_ne put_of_ne put_self)

namespace Vault

variable {δ : Type} {V : Vault δ}

namespace Migration

variable {M : Migration V} {files : Files Text (Artifact δ)}

section Specifications

variable {A : FileCall Text → Fate String → Prop}

/-! ## The migration -/

/-- The log is folded into the database and nothing of the migration exists. -/
structure Prepared (M : Migration V) (files : Files Text (Artifact δ)) : Prop where
  journal : files V.journalPath = none
  database : files V.database.text = some M.plain
  log : M.Quiet files

theorem Prepared.untouched (h : M.Prepared files) : M.Untouched files where
  journal := .inl h.journal
  database := by rw [seen, h.database, if_pos rfl, Option.map_some, h.log]

/-- A checkpoint folds what the log holds into the database. -/
theorem Untouched.checkpointed (h : M.Untouched files) (hj : files V.journalPath = none) :
    M.Prepared (V.checkpointed files) := by
  obtain ⟨raw, hraw, ht⟩ := Option.map_eq_some_iff.1 h.database
  rw [if_pos rfl] at ht
  have hf : V.checkpointed files =
      if (files V.walPath).isSome then
        (files.put V.database.text M.plain).put V.walPath (.wal none)
      else files.put V.database.text M.plain := by
    rw [Vault.checkpointed, hraw]
    simp only [ht]
  rw [hf]
  split
  · refine ⟨?_, ?_, ?_⟩
    · rw [put_of_ne (by simp [M.paths_distinct]), put_of_ne (by simp [M.paths_distinct]),
        hj]
    · rw [put_of_ne (by simp [M.paths_distinct_symm]), put_self]
    · rw [Quiet, put_self]
      rfl
  · next hlog =>
    rw [Option.not_isSome_iff_eq_none] at hlog
    refine ⟨?_, put_self, ?_⟩
    · rw [put_of_ne (by simp [M.paths_distinct]), hj]
    · rw [Quiet, put_of_ne (by simp [M.paths_distinct]), hlog]
      rfl

theorem Prepared.disabled (h : M.Prepared files) :
    M.Prepared ((files.drop V.walPath).drop V.shmPath) where
  journal := by
    rw [drop_of_ne (by simp [M.paths_distinct]), drop_of_ne (by simp [M.paths_distinct]),
      h.journal]
  database := by
    rw [drop_of_ne (by simp [M.paths_distinct_symm]),
      drop_of_ne (by simp [M.paths_distinct_symm]), h.database]
  log := by
    rw [Quiet, drop_of_ne (by simp [M.paths_distinct]), drop_self]
    rfl

theorem Untouched.meets_prepare (h : M.Untouched files) (hj : files V.journalPath = none) :
    Meets A M.Standing (V.prepareDatabaseForRekey M.plain) files
      (fun md s => md = M.metadata ∧ M.Prepared s)
      fun _ s => M.Standing s := by
  have hp := h.checkpointed hj
  have hs := Standing.untouched hp.untouched
  rw [prepareDatabaseForRekey, M.readPlaintext_plain]
  apply meets_bind
  refine meets_ret ?_
  apply meets_bind
  apply meets_orStorageError
  refine meets_call (.untouched h) (fun a s' hact => ?_) (fun e hact => ?_) fun e _ => .untouched h
  · cases hact
    refine ⟨hs, ?_⟩
    split
    · have hd := hp.disabled
      apply meets_bind
      apply meets_orStorageError
      refine meets_call hs (fun a s' hact => ?_) (fun e hact => ?_) fun e _ => hs
      · cases hact
        exact ⟨.untouched hd.untouched, meets_ret ⟨rfl, hd⟩⟩
      · cases hact
    · exact meets_ret ⟨rfl, hp⟩
  · cases hact

theorem Untouched.meets_beginMigration (h : M.Untouched files) (hj : files V.journalPath = none) :
    Meets A M.Standing (V.beginMigration M.stage M.rollback) files
      (fun md s => md = M.metadata ∧ M.Prepared s ∧ s M.rollback = none)
      fun _ s => M.Standing s := by
  have hst := Standing.untouched h
  apply meets_bind
  refine meets_acquireStorageLease hst ?_ fun e _ => hst
  apply meets_bind
  refine meets_regularMigrationFileExists hst ?_ fun e _ => hst
  rw [hj, Option.isSome_none, if_neg Bool.false_ne_true]
  apply meets_bind
  refine meets_requireDatabaseFile hst (fun _ => ?_) (fun e _ => hst) fun e _ => hst
  apply meets_bind
  apply meets_orStorageError
  refine meets_openDatabase hst h.database ?_ fun e _ => hst
  apply meets_bind
  apply meets_mapError
  refine meets_consequence (h.meets_prepare hj) ?_ fun _ _ hs => hs
  rintro md s ⟨rfl, hs⟩
  have hs' := Standing.untouched hs.untouched
  apply meets_bind
  refine meets_rejectExistingMigrationPath hs' (fun _ => ?_) fun e => hs'
  apply meets_bind
  refine meets_rejectExistingMigrationPath hs' (fun hr => ?_) fun e => hs'
  apply meets_bind
  apply meets_mapError
  exact meets_rejectExistingMigrationPath hs' (fun _ => meets_ret ⟨rfl, hs, hr⟩) fun e => hs'

theorem Prepared.put_blank (h : M.Prepared files) :
    M.Untouched (files.put V.journalPath .blank) where
  journal := .inr put_self
  database := by
    rw [seen, if_pos rfl, put_of_ne (by simp [M.paths_distinct_symm]),
      put_of_ne (by simp [M.paths_distinct_symm]), h.database, Option.map_some, h.log]

theorem Untouched.drop_journal (h : M.Untouched files) :
    M.Untouched (files.drop V.journalPath) where
  journal := .inl drop_self
  database := by
    have hd := h.database
    rw [seen, if_pos rfl] at hd ⊢
    rw [drop_of_ne (by simp [M.paths_distinct_symm]),
      drop_of_ne (by simp [M.paths_distinct_symm]), hd]

theorem Prepared.put_document (h : M.Prepared files) (hr : files M.rollback = none) :
    M.InPlace ((files.put V.journalPath .blank).put V.journalPath (.journal M.document)) where
  journal := put_self
  database := by
    rw [put_of_ne (by simp [M.paths_distinct_symm]),
      put_of_ne (by simp [M.paths_distinct_symm]), h.database]
  log := by
    rw [Quiet, put_of_ne (by simp [M.paths_distinct_symm]),
      put_of_ne (by simp [M.paths_distinct_symm])]
    exact h.log
  rollback := by
    rw [put_of_ne (by simp [M.paths_distinct]), put_of_ne (by simp [M.paths_distinct]),
      hr]

theorem Prepared.meets_writeJournal (h : M.Prepared files) (hr : files M.rollback = none) :
    Meets A M.Standing (V.writeEncryptionMigrationJournal M.document) files
      (fun _ s => M.InPlace s) fun _ s => M.Standing s := by
  have hsize := M.byteLength_encoded_lt
  have hnow := Standing.untouched h.untouched
  have hb := Standing.untouched h.put_blank
  have hp := h.put_document hr
  rw [writeEncryptionMigrationJournal, if_neg (by omega)]
  apply meets_bind
  apply meets_orStorageError
  refine meets_createNew hnow (fun _ => ⟨hb, ?_⟩) hnow fun e _ => hnow
  apply meets_bind
  apply meets_attempt
  apply meets_bind
  refine meets_write hb (.inPlace hp) ?_ fun e _ => ?_
  · refine meets_sync (.inPlace hp) ?_ fun e _ => ?_
    · exact meets_syncParent (.inPlace hp) hp fun e _ => .inPlace hp
    · -- the text is written but not known to be on disk: the file is removed again
      apply meets_bind
      apply meets_ignore
      have hgone := Standing.untouched hp.drop_journal
      refine meets_remove (.inPlace hp) (fun _ => ⟨hgone, ?_⟩) (fun _ => ?_) fun e _ => ?_
      · exact meets_throw hgone
      · exact meets_throw (.inPlace hp)
      · exact meets_throw (.inPlace hp)
  · apply meets_bind
    apply meets_ignore
    have hgone := Standing.untouched h.put_blank.drop_journal
    refine meets_remove hb (fun _ => ⟨hgone, ?_⟩) (fun _ => ?_) fun e _ => ?_
    · exact meets_throw hgone
    · exact meets_throw hb
    · exact meets_throw hb

/-- The export ends with the encrypted original in the stage. -/
theorem InPlace.meets_exportDatabase (h : M.InPlace files) :
    Meets A M.Standing (V.exportDatabase M.stage) files
      (fun _ s => M.InPlace s ∧ s M.stage = some M.sealed) fun _ s => M.InPlace s := by
  have hb := h.put_stage .blank
  have he := hb.put_stage .unfinished
  apply meets_bind
  apply meets_orStorageError
  refine meets_call (.inPlace h) (fun a s' hact => ?_) (fun e hact => ?_) fun e _ => h
  on_goal 2 => cases hact
  cases hact
  refine ⟨.inPlace hb, ?_⟩
  apply meets_bind
  refine meets_applyToAttached (.inPlace hb) ?_ fun _ => hb
  apply meets_bind
  apply meets_orStorageError
  refine meets_call (.inPlace hb) (fun a s' hact => ?_) (fun e hact => ?_) fun e _ => hb
  · cases hact
    refine ⟨.inPlace he, ?_⟩
    apply meets_bind
    apply meets_orStorageError
    refine meets_touch (.inPlace he) ?_ fun e _ => he
    apply meets_bind
    apply meets_orStorageError
    refine meets_touch (.inPlace he) ?_ fun e _ => he
    apply meets_orStorageError
    have hf : V.finishExport M.stage ((files.put M.stage .blank).put M.stage .unfinished) =
        .ok ((), ((files.put M.stage .blank).put M.stage .unfinished).put M.stage M.sealed) := by
      rw [finishExport, he.database]
      rfl
    refine meets_call (.inPlace he) (fun a s' hact => ?_) (fun e hact => ?_) fun e _ => he
    · cases hf.symm.trans hact
      exact ⟨.inPlace (he.put_stage _), he.put_stage _, put_self⟩
    · cases hf.symm.trans hact
  · cases hact

/-- A sidecar is gone after its removal, also when it was not there. -/
theorem meets_removeMigrationSidecar {I : Files Text (Artifact δ) → Prop} {path : Text}
    {Q : Unit → Files Text (Artifact δ) → Prop} {E : ContextError → Files Text (Artifact δ) → Prop}
    (hnow : I files) (hthen : I (files.drop path)) (hok : Q () (files.drop path))
    (ha : files path = none → Q () files) (hf : ∀ e, E e files) :
    Meets A I (V.removeMigrationSidecar path) files Q E := by
  apply meets_bind
  apply meets_attempt
  refine meets_remove hnow (fun _ => ⟨hthen, ?_⟩) (fun hnone => ?_) fun e _ => ?_
  · exact meets_ret hok
  · exact meets_ret (ha hnone)
  · exact meets_throw (hf _)

/-- The stage is checked and no log is left beside the plaintext. -/
theorem InPlace.meets_stageDatabase (h : M.InPlace files) :
    Meets A M.Standing (V.stageDatabase M.stage M.metadata) files
      (fun _ s => M.InPlace s ∧ s M.stage = some M.sealed ∧ s V.walPath = none ∧
        s V.shmPath = none) fun _ s => M.InPlace s := by
  apply meets_bind
  refine meets_consequence h.meets_exportDatabase ?_ fun _ _ hs => hs
  rintro - s ⟨hs, hst⟩
  -- both sidecars go, one after the other
  have hlog : Meets A M.Standing (V.removeMigrationSidecar V.walPath) s
      (fun _ s' => M.InPlace s' ∧ s' M.stage = some M.sealed ∧ s' V.walPath = none)
      fun _ s' => M.InPlace s' := by
    refine meets_removeMigrationSidecar (.inPlace hs) (.inPlace hs.drop_log)
      ⟨hs.drop_log, ?_, drop_self⟩ (fun hnone => ⟨hs, hst, hnone⟩) fun _ => hs
    rw [drop_of_ne (by simp [M.paths_distinct]), hst]
  apply meets_bind
  refine meets_consequence hlog ?_ fun _ _ hs => hs
  rintro - s ⟨hs, hst, hwal⟩
  have hi : Meets A M.Standing (V.removeMigrationSidecar V.shmPath) s
      (fun _ s' => M.InPlace s' ∧ s' M.stage = some M.sealed ∧ s' V.walPath = none ∧
        s' V.shmPath = none) fun _ s' => M.InPlace s' := by
    refine meets_removeMigrationSidecar (.inPlace hs) (.inPlace hs.drop_index)
      ⟨hs.drop_index, ?_, ?_, drop_self⟩ (fun hnone => ⟨hs, hst, hwal, hnone⟩) fun _ => hs
    · rw [drop_of_ne (by simp [M.paths_distinct]), hst]
    · rw [drop_of_ne (by simp [M.paths_distinct]), hwal]
  apply meets_bind
  refine meets_consequence hi ?_ fun _ _ hs => hs
  rintro - s ⟨hs, hst, hwal, hshm⟩
  apply meets_bind
  apply meets_orStorageError
  refine meets_touch (.inPlace hs) ?_ fun e _ => hs
  apply meets_bind
  apply meets_orStorageError
  refine meets_sync (.inPlace hs) ?_ fun e _ => hs
  apply meets_bind
  refine meets_syncParent (.inPlace hs) ?_ fun e _ => hs
  apply meets_bind
  refine meets_verifyDatabaseWithKey_ok (.inPlace hs) (seen_stage hst) M.readEncrypted_sealed ?_
    fun e _ => hs
  rw [if_pos rfl]
  exact meets_ret ⟨hs, hst, hwal, hshm⟩

/-- How a failed publication leaves the files: the stage not moved, or moved and not confirmed. -/
def Unpublished (M : Migration V) (files : Files Text (Artifact δ)) : Prop :=
  M.Parted files ∨ (M.Published files ∧ files M.rollback = some M.plain)

theorem Parted.meets_publishStage (h : M.Parted files) (hs : files M.stage = some M.sealed) :
    Meets A M.Standing (V.publishStage M.stage M.metadata) files
      (fun _ s => M.Published s ∧ s M.rollback = some M.plain) fun _ s => M.Unpublished s := by
  have hp := h.move_stage
  have hpl : files.move M.stage V.database.text M.sealed M.rollback = some M.plain := by
    rw [move_of_ne (by simp [M.paths_distinct_symm]) (by simp [M.paths_distinct]), h.rollback]
  apply meets_bind
  apply meets_mapError
  apply meets_orStorageError
  refine meets_rename (.parted h) hs (.published hp) ?_ fun e _ => .inl h
  apply meets_mapError
  apply meets_bind
  refine meets_syncParent (.published hp) ?_ fun e _ => .inr ⟨hp, hpl⟩
  apply meets_bind
  refine meets_verifyDatabaseWithKey_ok (.published hp) hp.seen
    M.readEncrypted_sealed ?_ fun e _ => .inr ⟨hp, hpl⟩
  rw [if_pos rfl]
  exact meets_ret ⟨hp, hpl⟩

/-- How an aborted migration leaves the files: a guard that is still armed removes nothing that is
needed. -/
structure Abandoned (M : Migration V) (abort : Abort) (files : Files Text (Artifact δ)) : Prop where
  standing : M.Standing files
  stage : abort.stageArmed = true → M.InPlace files
  journal : abort.journalArmed = true →
    M.InPlace files ∨ (M.Published files ∧ files M.rollback = none)

theorem Abandoned.disarmed {abort : Abort} (h : M.Standing files) (hs : abort.stageArmed = false)
    (hj : abort.journalArmed = false) : M.Abandoned abort files := by
  refine ⟨h, fun ha => ?_, fun ha => ?_⟩
  · cases ha.symm.trans hs
  · cases ha.symm.trans hj

theorem InPlace.abandoned {abort : Abort} (h : M.InPlace files) : M.Abandoned abort files :=
  ⟨.inPlace h, fun _ => h, fun _ => .inl h⟩

/-- The plaintext moves back, from either way a publication can have failed. -/
theorem meets_moveBack (fail : Abort) (hnow : M.Standing files)
    (hj : files V.journalPath = some (.journal M.document))
    (hlog : files V.walPath = none) (hr : files M.rollback = some M.plain) :
    Meets A M.Standing
      (do
        let restored ← Proc.attempt
          (FileProc.rename M.rollback V.database.text : Migrates δ Lib.IoError Unit)
        match restored with
        | .error e =>
          Proc.throw ⟨storageError ("encryption migration failed (" ++ fail.error.toString ++
            "); plaintext rollback also failed: " ++ e.toString ++
            "; recovery journal retained at " ++ V.display V.journalPath), false, false⟩
        | .ok () => do
            whileArmed fail.stageArmed true V.syncParent
            Proc.throw ⟨fail.error, fail.stageArmed, true⟩ : Migrates δ Abort Unit) files
      (fun _ _ => False) fun abort s => M.Abandoned abort s := by
  have hback : M.InPlace (files.move M.rollback V.database.text M.plain) :=
    move_rollback hj hlog
  apply meets_bind
  apply meets_attempt
  refine meets_rename hnow hr (.inPlace hback) ?_ fun e _ => ?_
  · apply meets_bind
    apply meets_mapError
    refine meets_syncParent (.inPlace hback) ?_ fun e _ => hback.abandoned
    exact meets_throw hback.abandoned
  · exact meets_throw (.disarmed hnow rfl rfl)

theorem Unpublished.meets_undoPublication (h : M.Unpublished files) (fail : Abort) :
    Meets A M.Standing (V.undoPublication M.rollback fail) files
      (fun _ _ => False) fun abort s => M.Abandoned abort s := by
  apply meets_bind
  apply meets_ignore
  rcases h with h | ⟨h, hr⟩
  · -- nothing lies at the database path
    have hm := meets_moveBack (A := A) fail (.parted h) h.journal h.log h.rollback
    refine meets_remove (.parted h) (fun hsome => absurd h.database hsome) (fun _ => hm)
      fun e _ => hm
  · have hp := h.drop_database hr
    refine meets_remove (.published h) (fun _ => ⟨.parted hp, ?_⟩) (fun _ => ?_) fun e _ => ?_
    · exact meets_moveBack fail (.parted hp) hp.journal hp.log hp.rollback
    · exact meets_moveBack fail (.published h) h.journal h.log hr
    · exact meets_moveBack fail (.published h) h.journal h.log hr

theorem Published.meets_finishMigration (h : M.Published files)
    (hro : files M.rollback = some M.plain) :
    Meets A M.Standing (V.finishMigration M.rollback) files
      (fun _ s => M.Finished s) fun abort s => M.Abandoned abort s := by
  have hr := h.drop_rollback
  have hgone : files.drop M.rollback M.rollback = none := drop_self
  have hf := hr.drop_journal hgone
  apply meets_bind
  apply meets_attempt
  refine meets_remove (.published h) (fun _ => ⟨.published hr, ?_⟩) (fun hnone => ?_) fun e _ => ?_
  · apply meets_bind
    apply meets_mapError
    refine meets_syncParent (.published hr) ?_
      fun e _ => ⟨.published hr, nofun, fun _ => .inr ⟨hr, hgone⟩⟩
    apply meets_bind
    apply meets_mapError
    apply meets_orStorageError
    refine meets_remove (.published hr) (fun _ => ⟨.finished hf, ?_⟩)
      (fun hnone => absurd (hr.journal.symm.trans hnone) nofun)
      fun e _ => ⟨.published hr, nofun, fun _ => .inr ⟨hr, hgone⟩⟩
    apply meets_bind
    apply meets_mapError
    refine meets_syncParent (.finished hf) ?_ fun e _ => .disarmed (.finished hf) rfl rfl
    apply meets_bind
    apply meets_attempt
    have hseen : V.seen ((files.drop M.rollback).drop V.journalPath) V.database.text =
        some M.sealed := by
      rw [Vault.seen, hf.database]
      rfl
    exact meets_openDatabase (.finished hf) hseen (meets_ret hf) fun e _ => meets_ret hf
  · cases hro.symm.trans hnone
  · exact meets_throw (.disarmed (.published h) rfl rfl)

theorem InPlace.meets_migrate (h : M.InPlace files) :
    Meets A M.Standing (V.migrate M.stage M.rollback M.metadata) files
      (fun _ s => M.Finished s) fun abort s => M.Abandoned abort s := by
  apply meets_bind
  apply meets_mapError
  refine meets_consequence h.meets_stageDatabase ?_ fun _ _ hs => hs.abandoned
  rintro - s ⟨hs, hst, hlog, hi⟩
  have hp := hs.move_database hst hlog hi
  have hsta : s.move V.database.text M.rollback M.plain M.stage = some M.sealed := by
    rw [move_of_ne (by simp [M.paths_distinct]) (by simp [M.paths_distinct]), hst]
  apply meets_bind
  apply meets_mapError
  apply meets_orStorageError
  refine meets_rename (.inPlace hs) hs.database (.parted hp) ?_ fun e _ => hs.abandoned
  apply meets_bind
  apply meets_attempt
  refine meets_consequence (hp.meets_publishStage hsta) ?_ ?_
  · rintro - s' ⟨hs', hr⟩
    exact hs'.meets_finishMigration hr
  · intro fail s' hs'
    exact meets_consequence (hs'.meets_undoPublication fail) (fun _ _ hno => hno.elim)
      fun _ _ ha => ha

/-- The guards keep the files in one of the states of the migration. -/
theorem meets_withGuards {m : Migrates δ Abort Unit}
    (h : Meets A M.Standing m files (fun _ s => M.Finished s) fun abort s => M.Abandoned abort s) :
    Meets A M.Standing (V.withGuards M.stage m) files
      (fun _ s => M.Finished s) fun _ s => M.Standing s := by
  apply meets_bind
  apply meets_attempt
  refine meets_consequence h (fun _ s hs => meets_ret hs) fun abort s hs => ?_
  -- the journal guard, in the state that the stage guard leaves
  have hj : ∀ s', M.Abandoned { abort with stageArmed := false } s' →
      Meets A M.Standing
        (do
          V.dropMigrationFile abort.journalArmed V.journalPath
          Proc.throw abort.error : Migrates δ ContextError Unit) s'
        (fun _ s => M.Finished s) fun _ s => M.Standing s := by
    intro s' hs'
    apply meets_bind
    rcases Bool.eq_false_or_eq_true abort.journalArmed with ha | ha
    · rw [ha, dropMigrationFile, if_pos rfl]
      have hthen : M.Standing (s'.drop V.journalPath) := by
        rcases hs'.journal ha with hp | ⟨hpu, hnone⟩
        · exact .untouched hp.drop_journal
        · exact .finished (hpu.drop_journal hnone)
      have hsync : ∀ {s''}, M.Standing s'' →
          Meets A M.Standing (Proc.ignore V.syncParent : Migrates δ ContextError Unit) s''
            (fun _ s => Meets A M.Standing
              (Proc.throw abort.error : Migrates δ ContextError Unit) s
              (fun _ s => M.Finished s) fun _ s => M.Standing s) fun _ s => M.Standing s := by
        intro s'' hs''
        apply meets_ignore
        exact meets_syncParent hs'' (meets_throw hs'') fun _ _ => meets_throw hs''
      apply meets_bind
      apply meets_ignore
      exact meets_remove hs'.standing (fun _ => ⟨hthen, hsync hthen⟩)
        (fun _ => hsync hs'.standing) fun _ _ => hsync hs'.standing
    · rw [ha, dropMigrationFile, if_neg Bool.false_ne_true]
      exact meets_ret (meets_throw hs'.standing)
  apply meets_bind
  rcases Bool.eq_false_or_eq_true abort.stageArmed with ha | ha
  · rw [ha, dropMigrationFile, if_pos rfl]
    have hp := hs.stage ha
    apply meets_bind
    apply meets_ignore
    have hsync : ∀ {s'}, M.InPlace s' →
        Meets A M.Standing (Proc.ignore V.syncParent : Migrates δ ContextError Unit) s'
          (fun _ s => Meets A M.Standing
            (do
              V.dropMigrationFile abort.journalArmed V.journalPath
              Proc.throw abort.error : Migrates δ ContextError Unit) s
            (fun _ s => M.Finished s) fun _ s => M.Standing s) fun _ s => M.Standing s := by
      intro s' hs'
      apply meets_ignore
      exact meets_syncParent (.inPlace hs') (hj s' hs'.abandoned) fun _ _ => hj s' hs'.abandoned
    exact meets_remove (.inPlace hp) (fun _ => ⟨.inPlace hp.drop_stage, hsync hp.drop_stage⟩)
      (fun _ => hsync hp) fun _ _ => hsync hp
  · rw [ha, dropMigrationFile, if_neg Bool.false_ne_true]
    exact meets_ret (hj s ⟨hs.standing, nofun, hs.journal⟩)

/-- The whole migration, from a database that no migration is under way for. -/
theorem Untouched.meets_encrypt (h : M.Untouched files) (hj : files V.journalPath = none) :
    Meets A M.Standing (V.encryptExistingDatabase M.stageId M.rollbackId) files
      (fun _ s => M.Finished s) fun _ s => M.Standing s := by
  apply meets_bind
  refine meets_consequence (h.meets_beginMigration hj) ?_ fun _ _ hs => hs
  rintro md s ⟨rfl, hs, hr⟩
  apply meets_bind
  refine meets_consequence (hs.meets_writeJournal hr) ?_ fun _ _ hs => hs
  rintro - s hs
  apply meets_bind
  refine meets_consequence (meets_withGuards hs.meets_migrate) ?_ fun _ _ hs => hs
  rintro - s hs
  exact meets_ret hs

/-- A database that is not a valid store is refused without a change. -/
theorem meets_encrypt_refused {contents : δ} {stageId rbId : Uuid} {err : String}
    (hi : V.sqlite.inspect contents = .error err)
    (hseen : V.seen files V.database.text = some (.plaintext contents)) :
    Meets A (fun s => s = files) (V.encryptExistingDatabase stageId rbId) files
      (fun _ _ => False) fun _ s => s = files := by
  apply meets_bind
  apply meets_bind
  refine meets_acquireStorageLease rfl ?_ fun e _ => rfl
  apply meets_bind
  refine meets_regularMigrationFileExists (I := (· = files)) rfl ?_ fun e _ => rfl
  split
  · exact meets_throw rfl
  · apply meets_bind
    refine meets_requireDatabaseFile rfl (fun _ => ?_) (fun e _ => rfl) fun e _ => rfl
    apply meets_bind
    apply meets_orStorageError
    refine meets_openDatabase (I := (· = files)) rfl hseen ?_ fun e _ => rfl
    apply meets_bind
    apply meets_mapError
    rw [prepareDatabaseForRekey, readPlaintext, hi]
    apply meets_bind
    exact meets_throw rfl

end Specifications

/-! ## Sequences of runs -/

theorem Standing.hasCopy (h : M.Standing files) :
    V.HasCopy M.contents [V.database.text, M.stage, M.rollback] files := by
  cases h with
  | untouched h => exact ⟨_, by simp, .inl h.database⟩
  | inPlace h => exact ⟨_, by simp, .inl h.seen⟩
  | parted h => exact ⟨_, by simp, .inl (seen_rollback h.rollback)⟩
  | published h => exact ⟨_, by simp, .inr h.seen⟩
  | finished h =>
    refine ⟨_, List.mem_cons_self, .inr ?_⟩
    rw [Vault.seen, h.database]
    rfl

theorem Completed.standing (h : M.Completed files) : M.Standing files := by
  rcases h.database with hp | ⟨hs, hlog, hi⟩
  · exact .untouched ⟨.inl h.journal, hp⟩
  · exact .finished ⟨h.journal, hs, h.stage, h.rollback, hlog, hi⟩

/-- Every recovery, interrupted or not, keeps the files in a state of the migration. -/
theorem Standing.meets_again {A : FileCall Text → Fate String → Prop} (h : M.Standing files) :
    Meets A M.Standing V.recoverInterruptedEncryptionMigration files
      (fun _ s => M.Standing s) fun _ s => M.Standing s := by
  rcases h.journal_cases with hj | hj
  · exact meets_consequence (h.meets_recover hj) (fun _ _ hs => hs.standing) fun _ _ hs => hs.1
  · refine meets_consequence (meets_recover_refused h hj) (fun _ _ hno => hno.elim) ?_
    rintro _ _ rfl
    exact h

theorem runs_within (plan : Plan (FileCall Text) String)
    (plans : List (Plan (FileCall Text) String))
    (hseen : V.seen files V.database.text = some M.plain) (hf : files V.journalPath = none) :
    (runs V.recoverInterruptedEncryptionMigration
      (V.encryptExistingDatabase M.stageId M.rollbackId plan (Track.start files)).2
      plans).Within M.Standing := by
  have hu : M.Untouched files := ⟨.inl hf, hseen⟩
  have hme := hu.meets_encrypt (A := fun _ _ => True) hf
  have hm : (V.encryptExistingDatabase M.stageId M.rollbackId plan
      (Track.start files)).2.Within M.Standing :=
    Meets.within hme (fun _ _ => trivial) (Track.within_start (.untouched hu))
      (fun _ _ hs => .finished hs) fun _ _ hs => hs
  exact Lib.runs_within (A := fun _ _ => True) (fun s hs => hs.meets_again)
    (fun _ _ _ _ => trivial) hm

end Migration

theorem refused_within {contents : δ} {err : String} {files : Files Text (Artifact δ)}
    (stageId rbId : Uuid) (plan : Plan (FileCall Text) String)
    (plans : List (Plan (FileCall Text) String)) (hi : V.sqlite.inspect contents = .error err)
    (hseen : V.seen files V.database.text = some (.plaintext contents))
    (hf : files V.journalPath = none) :
    (runs V.recoverInterruptedEncryptionMigration
      (V.encryptExistingDatabase stageId rbId plan (Track.start files)).2
      plans).Within fun s => s = files := by
  have hme : Meets (fun _ _ => True) (fun s => s = files)
      (V.encryptExistingDatabase stageId rbId) files (fun _ _ => False) fun _ s => s = files :=
    Migration.meets_encrypt_refused hi hseen
  have hm : (V.encryptExistingDatabase stageId rbId plan
      (Track.start files)).2.Within fun s => s = files :=
    Meets.within hme (fun _ _ => trivial) (Track.within_start rfl) (fun _ _ hno => hno.elim)
      fun _ _ hs => hs
  refine Lib.runs_within (A := fun _ _ => True) (fun s hs => ?_) (fun _ _ _ _ => trivial) hm
  subst hs
  exact meets_consequence (Migration.meets_recover_refused rfl (.inl hf))
    (fun _ _ hno => hno.elim) fun _ _ hs => hs

/-- **Offline encryption survives crashes and failed calls.** Whatever the fate of each call of the
migration and of each call of any number of recoveries, every state passed through holds a complete
copy of the original. A recovery that returns leaves the original at the database path and no other
file of the migration; and one that starts with a written journal returns an error only if one of
its own calls fails. -/
theorem encryption_survives_crashes (V : Vault δ) (contents : δ) (stageId rollbackId : Uuid)
    (files : Files Text (Artifact δ)) (plan : Plan (FileCall Text) String)
    (plans : List (Plan (FileCall Text) String))
    (hseen : V.seen files V.database.text = some (.plaintext contents))
    (hfresh : files V.journalPath = none) :
    let migrated := (V.encryptExistingDatabase stageId rollbackId plan (Track.start files)).2
    let after := runs V.recoverInterruptedEncryptionMigration migrated plans
    (∀ x ∈ after.moments,
      V.HasCopy contents [V.database.text, V.stagePath stageId, V.rollbackPath rollbackId] x) ∧
    ∀ next : Plan (FileCall Text) String,
      let run := V.recoverInterruptedEncryptionMigration next after
      (∀ report, run.1 = .ok report →
        V.Completed (V.stagePath stageId) (V.rollbackPath rollbackId) contents run.2.state) ∧
      (V.JournalWritten after.state → (∀ n op e, next n op ≠ .failed e) →
        ∀ e, run.1 ≠ .error e) := by
  intro migrated after
  cases hinspect : V.sqlite.inspect contents with
  | error error =>
    -- the migration is refused, and so is every recovery
    have hafter : after.Within fun s => s = files :=
      refused_within stageId rollbackId plan plans hinspect hseen hfresh
    refine ⟨fun x hx => ?_, fun next => ⟨fun report hreport => ?_, ?_⟩⟩
    · rw [hafter.2 x hx]
      exact ⟨_, List.mem_cons_self, .inl hseen⟩
    · have hrefused := Migration.meets_recover_refused (A := fun _ _ => True)
        (I := fun s => s = files) hafter.1 (.inl (hafter.1 ▸ hfresh))
      exact (hrefused.of_ok (fun _ _ => trivial) hafter.2 hreport).elim
    · rintro ⟨document, hdocument⟩
      rw [hafter.1, hfresh] at hdocument
      cases hdocument
  | ok metadata =>
    let M : Migration V := ⟨contents, metadata, hinspect, stageId, rollbackId⟩
    have hafter : after.Within M.Standing := M.runs_within plan plans hseen hfresh
    refine ⟨fun x hx => (hafter.2 x hx).hasCopy, fun next => ⟨fun report hreport => ?_, ?_⟩⟩
    · rcases hafter.1.journal_cases with hjournal | hjournal
      · have hmeets := hafter.1.meets_recover (A := fun _ _ => True) hjournal
        exact hmeets.of_ok (fun _ _ => trivial) hafter.2 hreport
      · have hmeets := Migration.meets_recover_refused (A := fun _ _ => True) hafter.1 hjournal
        exact (hmeets.of_ok (fun _ _ => trivial) hafter.2 hreport).elim
    · rintro ⟨document, hdocument⟩ hnext e herror
      have hjournal : M.Journaled after.state := by
        rcases hafter.1.journal_cases with hjournal | hnone | hblank
        · exact hjournal
        · cases hnone.symm.trans hdocument
        · cases hblank.symm.trans hdocument
      -- a plan without failures leaves no way to an error
      have hmeets := hafter.1.meets_recover (A := fun _ fate => ∀ e, fate ≠ .failed e) hjournal
      obtain ⟨-, op, e, hfailed⟩ := hmeets.of_error hnext hafter.2 herror
      exact hfailed e rfl

/-! ## Samples -/

/-- A store whose only valid contents are `0`. -/
def Sample.sqlite : Sqlite Nat where
  inspect
    | 0 => .ok ⟨schemaApplicationId, currentSchemaVersion, minReaderSchemaVersion,
        AgentOS.Sample.uuid 'a'⟩
    | _ => .error "SQLite schema version is 0, expected 12"
  usesWal _ := true
  identity {d _} h := by
    cases d with
    | zero =>
      cases h
      decide +kernel
    | succ _ => cases h

/-- A database under a key of zeros. -/
def Sample.vault : Vault Nat where
  directory := "/data".toList
  database := ⟨"agent_os.db".toList, by decide, by decide⟩
  sqlite := Sample.sqlite
  key := ⟨"primary".toList, List.replicate 32 0, by decide, by decide⟩

/-- A database in use, with a log that was not folded in yet. -/
def Sample.files : Files Text (Artifact Nat) :=
  Files.put (Files.put (fun _ => none) Sample.vault.database.text (.plaintext 1))
    Sample.vault.walPath (.wal (some 0))

/-- An identifier with one digit. -/
def Sample.uuid (digit : Fin 16) : Uuid := ⟨List.replicate 32 digit, List.length_replicate⟩

/-- Everything is carried out up to the given call, which never happens. -/
def Sample.crashAt (last : FileCall Text) : Plan (FileCall Text) String := fun _ op =>
  if op = last then .crash else .done

/-- Everything is carried out. -/
def Sample.undisturbed : Plan (FileCall Text) String := fun _ _ => .done

/-- A crash between the creation of the journal and the writing of its text leaves an empty
journal, which recovery refuses. -/
theorem torn_journal_blocks_recovery :
    Sample.vault.seen Sample.files Sample.vault.database.text = some (.plaintext 0) ∧
      Sample.files Sample.vault.journalPath = none ∧
      (Sample.vault.recoverInterruptedEncryptionMigration Sample.undisturbed
        (Sample.vault.encryptExistingDatabase (Sample.uuid 1) (Sample.uuid 2)
          (Sample.crashAt (.write Sample.vault.journalPath)) (Track.start Sample.files)).2).1 =
        .error (storageError "encryption migration journal has an invalid size") := by
  decide +kernel

/-- A crash after the plaintext was moved away, then a recovery that crashes in turn: the next
recovery finds the journal and does not fail. -/
theorem crash_between_renames_recovers :
    let migrated := (Sample.vault.encryptExistingDatabase (Sample.uuid 1) (Sample.uuid 2)
      (Sample.crashAt (.rename (Sample.vault.stagePath (Sample.uuid 1)) Sample.vault.database.text))
      (Track.start Sample.files)).2
    let after := runs Sample.vault.recoverInterruptedEncryptionMigration migrated
      [Sample.crashAt (.remove (Sample.vault.rollbackPath (Sample.uuid 2)))]
    Sample.vault.JournalWritten after.state ∧
      ∀ e, (Sample.vault.recoverInterruptedEncryptionMigration Sample.undisturbed after).1 ≠
        .error e := by
  intro migrated after
  have hwritten : Sample.vault.JournalWritten after.state :=
    ⟨Sample.vault.newJournal (Sample.vault.stagePath (Sample.uuid 1))
      (Sample.vault.rollbackPath (Sample.uuid 2))
      ⟨schemaApplicationId, currentSchemaVersion, minReaderSchemaVersion,
        AgentOS.Sample.uuid 'a'⟩, by decide +kernel⟩
  have hseen : Sample.vault.seen Sample.files Sample.vault.database.text =
      some (.plaintext 0) := by decide +kernel
  have hfresh : Sample.files Sample.vault.journalPath = none := by decide +kernel
  have hsafe := encryption_survives_crashes Sample.vault 0 (Sample.uuid 1) (Sample.uuid 2)
    Sample.files
    (Sample.crashAt (.rename (Sample.vault.stagePath (Sample.uuid 1)) Sample.vault.database.text))
    [Sample.crashAt (.remove (Sample.vault.rollbackPath (Sample.uuid 2)))] hseen hfresh
  exact ⟨hwritten, (hsafe.2 Sample.undisturbed).2 hwritten nofun⟩

end Vault

end AgentOS
