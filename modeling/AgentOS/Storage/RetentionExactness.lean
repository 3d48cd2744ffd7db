import AgentOS.Lib.Ranking
import AgentOS.Storage.Retention

/-!
# What retention removes

An entry of the root is a managed backup at an instant when a run at that instant verifies it
(`backupOf`). The policy allows its removal when enough managed backups are newer and it is old
enough (`Expired`). A run that returns removes exactly the expired entries, whatever the order of
the root; a run that stops early leaves every entry that is not expired, so the newest backups
survive any sequence of runs. Verifying a backup opens its snapshot, and the files that this leaves
beside it (`Sidecars`) are the one difference in what a run leaves (`SameUpToSidecars`).
-/

namespace AgentOS

open Lib

open scoped List

/-! ## Sidecars -/

namespace Folder

variable {contents : Folder} {name : Text}

theorem find_append {entry : OsName × Inner} (h : osName name ≠ entry.1) :
    find (contents ++ [entry]) name = contents.find name := by
  have hnone : [entry].find? (fun entry => decide (entry.1 = osName name)) = none := by
    simp [Ne.symm h]
  rw [find, find, List.find?_append, hnone, Option.or_none]

theorem rewriteIndex_fst (bytes : Bytes) (entry : OsName × Inner) :
    (rewriteIndex bytes entry).1 = entry.1 := by
  unfold rewriteIndex
  split
  · split
    · rfl
    · rfl
  · rfl

theorem rewriteIndex_of_ne {entry : OsName × Inner} (bytes : Bytes)
    (h : entry.1 ≠ osName backupDatabaseShmFile) : rewriteIndex bytes entry = entry := by
  unfold rewriteIndex
  split
  · exact if_neg h
  · rfl

theorem find_putIndex (bytes : Bytes) (h : osName name ≠ osName backupDatabaseShmFile) :
    (contents.putIndex bytes).find name = contents.find name := by
  unfold putIndex
  split
  · rw [find, find, List.find?_map, Option.map_map]
    simp only [Function.comp_def, rewriteIndex_fst]
    refine Option.map_congr fun entry hfound => ?_
    have hname := List.find?_some hfound
    rw [decide_eq_true_eq] at hname
    rw [rewriteIndex_of_ne bytes (hname ▸ h)]
  · exact find_append h

theorem find_putLog (h : osName name ≠ osName backupDatabaseWalFile) :
    contents.putLog.find name = contents.find name := by
  unfold putLog
  split
  · rfl
  · exact find_append h

/-- What each sidecar keeps, the verification keeps. -/
theorem leave_induction {P : Folder → Prop} (sidecars : Sidecars) (h : P contents)
    (hindex : ∀ folder bytes, P folder → P (putIndex folder bytes))
    (hlog : ∀ folder, P folder → P (putLog folder)) : P (contents.leave sidecars) := by
  obtain ⟨index, log⟩ := sidecars
  have hopened : P (index.elim contents contents.putIndex) := by
    cases index with
    | none => exact h
    | some bytes => exact hindex contents bytes h
  cases log with
  | false => exact hopened
  | true => exact hlog _ hopened

/-- The sidecars are not the files that the verification reads. -/
theorem find_leave (sidecars : Sidecars) (hshm : osName name ≠ osName backupDatabaseShmFile)
    (hwal : osName name ≠ osName backupDatabaseWalFile) :
    (contents.leave sidecars).find name = contents.find name :=
  leave_induction (P := fun folder => folder.find name = contents.find name) sidecars rfl
    (fun _ bytes h => (find_putIndex bytes hshm).trans h) fun _ h => (find_putLog hwal).trans h

theorem log_putLog : contents.putLog.log = contents.log := by
  unfold putLog
  split
  · rfl
  · next hnone =>
    have hfind : contents.find? (fun entry => entry.1 = osName backupDatabaseWalFile) = none := by
      refine List.find?_eq_none.2 fun entry hentry hname => hnone ?_
      exact List.mem_map.2 ⟨entry, hentry, of_decide_eq_true hname⟩
    simp [log, find, List.find?_append, hfind]

/-- The log that counts stays. -/
theorem log_leave (sidecars : Sidecars) : (contents.leave sidecars).log = contents.log := by
  refine leave_induction (P := fun folder => folder.log = contents.log) sidecars rfl
    (fun folder bytes h => ?_) fun _ h => log_putLog.trans h
  rw [log, find_putIndex bytes (by decide), ← log, h]

/-- The files that a removable backup may hold. -/
def Removable (entry : OsName × Inner) : Prop :=
  ∃ bytes, entry.2 = .file bytes ∧
    (entry.1 = osName backupDatabaseFile ∨ entry.1 = osName backupDatabaseShmFile ∨
      entry.1 = osName backupDatabaseWalFile ∧ bytes = [] ∨
      entry.1 = osName backupManifestFile)

theorem scanBackupContents_eq_ok {path : Text} {foundDatabase foundManifest : Bool} :
    scanBackupContents path contents foundDatabase foundManifest = .ok () ↔
      (∀ entry ∈ contents, Removable entry) ∧
        (foundDatabase = true ∨ osName backupDatabaseFile ∈ contents.map Prod.fst) ∧
        (foundManifest = true ∨ osName backupManifestFile ∈ contents.map Prod.fst) := by
  induction contents generalizing foundDatabase foundManifest with
  | nil => simp [scanBackupContents]
  | cons entry rest ih =>
    obtain ⟨name, inner⟩ := entry
    cases inner with
    | irregular | unreadable => simp [scanBackupContents, Removable]
    | file bytes =>
      rw [scanBackupContents, List.forall_mem_cons, List.map_cons]
      by_cases hdatabase : name = osName backupDatabaseFile
      · subst hdatabase
        simp [ih, Removable, show osName backupManifestFile ≠ osName backupDatabaseFile by decide]
      by_cases hshm : name = osName backupDatabaseShmFile
      · subst hshm
        simp [ih, Removable, hdatabase, Ne.symm hdatabase,
          show osName backupManifestFile ≠ osName backupDatabaseShmFile by decide]
      by_cases hwal : name = osName backupDatabaseWalFile
      · subst hwal
        rw [if_neg hdatabase, if_neg hshm, if_pos rfl]
        cases bytes with
        | nil =>
          simp [ih, Removable, Ne.symm hdatabase,
            show osName backupManifestFile ≠ osName backupDatabaseWalFile by decide]
        | cons =>
          simp [Removable, hdatabase, hshm,
            show osName backupDatabaseWalFile ≠ osName backupManifestFile by decide]
      by_cases hmanifest : name = osName backupManifestFile
      · subst hmanifest
        simp [ih, Removable, hdatabase, hshm, hwal, Ne.symm hdatabase]
      · simp [Removable, hdatabase, hshm, hwal, hmanifest]

theorem scan_append {path : Text} {entry : OsName × Inner} (hremovable : Removable entry)
    (hdatabase : osName backupDatabaseFile ≠ entry.1)
    (hmanifest : osName backupManifestFile ≠ entry.1) :
    scanBackupContents path (contents ++ [entry]) false false = .ok () ↔
      scanBackupContents path contents false false = .ok () := by
  simp [scanBackupContents_eq_ok, or_imp, forall_and, hremovable, hdatabase, hmanifest]

theorem scan_putIndex {path : Text} (bytes : Bytes) :
    scanBackupContents path (contents.putIndex bytes) false false = .ok () ↔
      scanBackupContents path contents false false = .ok () := by
  unfold putIndex
  split
  · rw [scanBackupContents_eq_ok, scanBackupContents_eq_ok, List.map_map]
    refine and_congr ?_ ?_
    · rw [List.forall_mem_map]
      refine forall₂_congr fun entry _ => ?_
      obtain ⟨name, inner⟩ := entry
      by_cases hname : name = osName backupDatabaseShmFile
      · cases inner with
        | file | irregular | unreadable => simp [Removable, rewriteIndex, hname]
      · rw [rewriteIndex_of_ne bytes hname]
    · rw [show Prod.fst ∘ rewriteIndex bytes = Prod.fst from funext (rewriteIndex_fst bytes)]
  · have hdatabase : osName backupDatabaseFile ≠ osName backupDatabaseShmFile := by decide
    have hmanifest : osName backupManifestFile ≠ osName backupDatabaseShmFile := by decide
    exact scan_append ⟨bytes, rfl, .inr (.inl rfl)⟩ hdatabase hmanifest

/-- A backup is removable with its sidecars exactly when it is without. -/
theorem scan_leave {path : Text} (sidecars : Sidecars) :
    scanBackupContents path (contents.leave sidecars) false false = .ok () ↔
      scanBackupContents path contents false false = .ok () := by
  refine leave_induction (P := fun folder => scanBackupContents path folder false false = .ok () ↔
    scanBackupContents path contents false false = .ok ()) sidecars Iff.rfl
    (fun _ bytes h => (scan_putIndex bytes).trans h) fun folder h => Iff.trans ?_ h
  unfold putLog
  split
  · rfl
  · exact scan_append ⟨[], rfl, .inr (.inr (.inl ⟨rfl, rfl⟩))⟩ (by decide) (by decide)

end Folder

/-- The second entry is the first one, apart from the sidecars of any number of verifications. -/
def SameUpToSidecars : OsName × Node → OsName × Node → Prop
  | (name, .folder contents), entry =>
    ∃ opens : List Sidecars, entry = (name, .folder (opens.foldl Folder.leave contents))
  | entry, entry' => entry' = entry

theorem SameUpToSidecars.refl (entry : OsName × Node) : SameUpToSidecars entry entry := by
  obtain ⟨name, node⟩ := entry
  cases node with
  | folder contents => exact ⟨[], rfl⟩
  | other | unreadable => rfl

theorem SameUpToSidecars.trans {entry entry' entry'' : OsName × Node}
    (h : SameUpToSidecars entry entry') (h' : SameUpToSidecars entry' entry'') :
    SameUpToSidecars entry entry'' := by
  obtain ⟨name, node⟩ := entry
  cases node with
  | folder contents =>
    obtain ⟨opens, rfl⟩ := h
    obtain ⟨opens', rfl⟩ := h'
    exact ⟨opens ++ opens', by rw [List.foldl_append]⟩
  | other | unreadable =>
    obtain rfl := h
    exact h'

instance : Std.Refl SameUpToSidecars := ⟨.refl⟩

instance : IsTrans (OsName × Node) SameUpToSidecars := ⟨fun _ _ _ => .trans⟩

theorem SameUpToSidecars.name_eq {entry entry' : OsName × Node}
    (h : SameUpToSidecars entry entry') : entry'.1 = entry.1 := by
  obtain ⟨name, node⟩ := entry
  cases node with
  | folder contents =>
    obtain ⟨opens, rfl⟩ := h
    rfl
  | other | unreadable => exact congrArg Prod.fst h

namespace BackupHost

variable {H : BackupHost} {path : Text} {contents : Folder} {key : Option StorageEncryptionKey}

theorem readManifest_leave (sidecars : Sidecars) :
    H.readManifest path (contents.leave sidecars) = H.readManifest path contents := by
  rw [readManifest, readManifest, Folder.find_leave sidecars (by decide) (by decide)]

/-- The verification does not read the sidecars. -/
theorem verifyBackupInternal_leave (sidecars : Sidecars) :
    H.verifyBackupInternal path (some (.folder (contents.leave sidecars))) none key =
      H.verifyBackupInternal path (some (.folder contents)) none key := by
  have hdatabase : (contents.leave sidecars).find backupDatabaseFile =
      contents.find backupDatabaseFile := Folder.find_leave sidecars (by decide) (by decide)
  simp only [verifyBackupInternal, requireRealDirectory, ok_bind, checkUnopened, readSnapshot,
    readManifest_leave, Folder.log_leave, hdatabase]

theorem verified_same (name : OsName) (node : Node) :
    SameUpToSidecars (name, node) (name, H.verified path key node) := by
  unfold verified
  split
  · split
    · exact ⟨[_], rfl⟩
    · exact .refl _
  · exact .refl _

end BackupHost

namespace BackupManager

variable (B : BackupManager)

theorem examined_same (text : Text) (name : OsName) (node : Node) :
    SameUpToSidecars (name, node) (name, B.examined text node) := by
  unfold examined
  split
  · split
    · exact BackupHost.verified_same name _
    · exact .refl _
  · exact .refl _

/-! ## Managed backups -/

/-- The backup that a run at an instant sees in an entry. -/
def backupOf (now : DateTime) (entry : OsName × Node) : Option VerifiedBackup :=
  let text := boundedEntryName entry.1
  if isIgnored text then none else (B.examine now text entry.2).toOption

/-- The order of backups: by creation time, then by name. -/
def backupKey (backup : VerifiedBackup) : DateTime ×ₗ Text :=
  toLex (backup.createdAt, backup.entry.name)

/-- The policy allows the removal of an entry: it is a managed backup, at least `keep_latest`
managed backups of the root are newer, and it is `max_age_seconds` old. -/
def Expired (policy : BackupRetentionPolicy) (now : DateTime) (root : BackupRoot)
    (entry : OsName × Node) : Prop :=
  ∃ backup, B.backupOf now entry = some backup ∧
    policy.keepLatest ≤ rank backupKey (root.filterMap (B.backupOf now)) backup ∧
    policy.maxAgeSeconds * nanosPerSecond ≤ now.nanos - backup.createdAt.nanos

variable {B}

/-- The backup is removable after its examination exactly when it is so before. -/
theorem removable_examined {path name : Text} {contents : Folder} :
    requireRemovableBackupContents path (some (B.examined name (.folder contents))) = .ok () ↔
      scanBackupContents path contents false false = .ok () := by
  unfold examined
  split
  · next same heq =>
    cases heq
    split
    · unfold BackupHost.verified
      simp only
      split
      · exact Folder.scan_leave _
      · rfl
    · rfl
  · next hnot => exact absurd rfl (hnot contents)

/-- What makes a directory a managed backup. -/
theorem examine_folder_eq_ok {now : DateTime} {name : Text} {contents : Folder}
    {backup : VerifiedBackup} :
    B.examine now name (.folder contents) = .ok backup ↔
      ∃ key manifest createdAt, B.declaredKey (B.pathOf name) contents = .ok key ∧
        B.host.verifyBackupInternal (B.pathOf name) (some (.folder contents)) none key =
          .ok manifest ∧
        manifest.installationId = B.installationId ∧
        scanBackupContents (B.pathOf name) contents false false = .ok () ∧
        B.host.parseTimestamp manifest.createdAt = .ok createdAt ∧ createdAt ≤ now ∧
        backup = ⟨createdAt, ⟨name, manifest.createdAt, manifest.byteCount⟩, manifest⟩ := by
  simp only [examine, bind_eq_ok, mapError_eq_ok]
  constructor
  · rintro ⟨key, hkey, manifest, hmanifest, h⟩
    split at h
    · cases h
    · next hown =>
      simp only [bind_eq_ok, mapError_eq_ok] at h
      obtain ⟨_, hremovable, createdAt, hcreated, h⟩ := h
      split at h
      · cases h
      · next hpast =>
        cases h
        exact ⟨key, manifest, createdAt, hkey, hmanifest, not_not.1 hown,
          removable_examined.1 hremovable, hcreated, not_lt.1 hpast, rfl⟩
  · rintro ⟨key, manifest, createdAt, hkey, hmanifest, hown, hremovable, hcreated, hpast, rfl⟩
    refine ⟨key, hkey, manifest, hmanifest, ?_⟩
    rw [if_neg (not_not.2 hown)]
    simp only [bind_eq_ok, mapError_eq_ok]
    refine ⟨(), removable_examined.2 hremovable, createdAt, hcreated, ?_⟩
    rw [if_neg (not_lt.2 hpast)]

theorem examine_eq_ok {now : DateTime} {name : Text} {node : Node} {backup : VerifiedBackup}
    (h : B.examine now name node = .ok backup) :
    backup.entry.name = name ∧ backup.createdAt ≤ now ∧
      ∀ later, now ≤ later → B.examine later name node = .ok backup := by
  cases node with
  | unreadable | other => cases h
  | folder contents =>
    obtain ⟨key, manifest, createdAt, hkey, hmanifest, hown, hremovable, hcreated, hpast, rfl⟩ :=
      examine_folder_eq_ok.1 h
    exact ⟨rfl, hpast, fun later hlater => examine_folder_eq_ok.2 ⟨key, manifest, createdAt, hkey,
      hmanifest, hown, hremovable, hcreated, hpast.trans hlater, rfl⟩⟩

/-- Sidecars do not hide a backup. -/
theorem examine_leave {now : DateTime} {name : Text} {contents : Folder} {backup : VerifiedBackup}
    (h : B.examine now name (.folder contents) = .ok backup) (opens : List Sidecars) :
    B.examine now name (.folder (opens.foldl Folder.leave contents)) = .ok backup := by
  induction opens generalizing contents with
  | nil => exact h
  | cons sidecars opens ih =>
    refine ih ?_
    obtain ⟨key, manifest, createdAt, hkey, hmanifest, hown, hremovable, hrest⟩ :=
      examine_folder_eq_ok.1 h
    refine examine_folder_eq_ok.2 ⟨key, manifest, createdAt, ?_, ?_, hown,
      (Folder.scan_leave sidecars).2 hremovable, hrest⟩
    · rw [declaredKey, BackupHost.readManifest_leave]
      exact hkey
    · rw [BackupHost.verifyBackupInternal_leave]
      exact hmanifest

variable {entry : OsName × Node}

theorem backupOf_eq_some {now : DateTime} {backup : VerifiedBackup}
    (h : B.backupOf now entry = some backup) :
    isIgnored (boundedEntryName entry.1) = false ∧
      B.examine now (boundedEntryName entry.1) entry.2 = .ok backup := by
  unfold backupOf at h
  simp only at h
  split at h
  · cases h
  · next hv =>
    refine ⟨Bool.eq_false_iff.2 hv, ?_⟩
    cases he : B.examine now (boundedEntryName entry.1) entry.2 with
    | ok fd =>
      rw [he] at h
      cases h
      rfl
    | error reason =>
      rw [he] at h
      cases h

/-- A backup stays managed when sidecars are left in it. -/
theorem backupOf_same {now : DateTime} {entry' : OsName × Node} {backup : VerifiedBackup}
    (h : B.backupOf now entry = some backup) (hsame : SameUpToSidecars entry entry') :
    B.backupOf now entry' = some backup := by
  obtain ⟨name, node⟩ := entry
  cases node with
  | other | unreadable =>
    obtain rfl := hsame
    exact h
  | folder contents =>
    obtain ⟨opens, rfl⟩ := hsame
    obtain ⟨hnamed, hexamined⟩ := backupOf_eq_some h
    have hstill := examine_leave hexamined opens
    unfold backupOf
    simp only at hnamed hstill ⊢
    simp only [hnamed, Bool.false_eq_true, if_false, hstill]
    rfl

/-- Once a backup is managed it stays so. -/
theorem backupOf_later {now later : DateTime} {backup : VerifiedBackup}
    (h : B.backupOf now entry = some backup) (hl : now ≤ later) :
    B.backupOf later entry = some backup := by
  obtain ⟨hv, he⟩ := backupOf_eq_some h
  have ha := (examine_eq_ok he).2.2 later hl
  unfold backupOf
  simp only [hv, Bool.false_eq_true, if_false, ha]
  rfl

/-! ## Names -/

theorem mem_validBackupName {name : Text} (h : isValidBackupName name = true) {c : Char}
    (hc : c ∈ name) : (isAsciiAlphanumeric c || c == '-' || c == '_') = true := by
  simp only [isValidBackupName, Bool.and_eq_true, List.all_eq_true] at h
  exact h.2 c hc

/-- A valid backup name is the name of its entry: nothing was cut off and nothing replaced. -/
theorem osName_boundedEntryName {name : OsName}
    (h : isValidBackupName (boundedEntryName name) = true) :
    name = osName (boundedEntryName name) := by
  have hw : boundedEntryName name = toStringLossy name := by
    unfold boundedEntryName at h ⊢
    simp only at h ⊢
    split
    · rfl
    · next hlong =>
      rw [if_neg hlong] at h
      have hdots := mem_validBackupName h (c := '…') (by simp)
      exact absurd hdots (by decide)
  rw [hw] at h ⊢
  rw [osName, toStringLossy, List.map_map]
  conv_lhs => rw [← List.map_id name]
  refine List.map_congr_left fun c hc => ?_
  cases c with
  | some c => rfl
  | none =>
    -- a byte that is no UTF-8 becomes a character that no backup name has
    have hmem : replacementCharacter ∈ toStringLossy name :=
      List.mem_map.2 ⟨none, hc, rfl⟩
    exact absurd (mem_validBackupName h hmem) (by decide)

/-- The name of a managed backup is the name of its entry. -/
theorem name_of_backupOf {now : DateTime} {backup : VerifiedBackup}
    (h : B.backupOf now entry = some backup) : entry.1 = osName backup.entry.name := by
  obtain ⟨hv, he⟩ := backupOf_eq_some h
  rw [(examine_eq_ok he).1]
  apply osName_boundedEntryName
  simp only [isIgnored, Bool.or_eq_false_iff, Bool.not_eq_false'] at hv
  exact hv.2

theorem osName_injective : Function.Injective osName :=
  Option.some_injective _ |>.list_map

/-! ## The chosen backups -/

theorem newestFirst_iff {a b : VerifiedBackup} :
    newestFirst a b = true ↔ backupKey b ≤ backupKey a := by
  simp only [newestFirst, backupKey, Bool.or_eq_true, Bool.and_eq_true, decide_eq_true_eq,
    Prod.Lex.toLex_le_toLex]
  refine or_congr_right (and_congr_left fun _ => ?_)
  exact eq_comm

theorem sortBackups_perm (backups : List VerifiedBackup) : (sortBackups backups).Perm backups :=
  List.perm_insertionSort ..

/-- The sorted list descends strictly when the names differ. -/
theorem pairwise_sorted {backups : List VerifiedBackup}
    (hn : (backups.map fun backup => backup.entry.name).Nodup) :
    (sortBackups backups).Pairwise fun a b => backupKey b < backupKey a := by
  have htr : IsTrans VerifiedBackup fun a b => newestFirst a b = true := by
    refine ⟨fun a b c hab hbc => ?_⟩
    rw [newestFirst_iff] at hab hbc ⊢
    exact hbc.trans hab
  have ht : Std.Total fun a b : VerifiedBackup => newestFirst a b = true := by
    refine ⟨fun a b => ?_⟩
    rw [newestFirst_iff, newestFirst_iff]
    exact le_total _ _
  have hle : (sortBackups backups).Pairwise fun a b => newestFirst a b = true :=
    List.pairwise_insertionSort _ backups
  have hno : ((sortBackups backups).map fun backup => backup.entry.name).Nodup :=
    ((sortBackups_perm backups).map _).nodup_iff.2 hn
  have hne : (sortBackups backups).Pairwise fun a b => a.entry.name ≠ b.entry.name :=
    List.pairwise_map.1 hno
  refine (hle.and hne).imp fun {a b} h => ?_
  refine lt_of_le_of_ne (newestFirst_iff.1 h.1) fun heq => h.2 ?_
  exact (congrArg (fun key => (ofLex key).2) heq).symm

variable {policy : BackupRetentionPolicy}

/-- The age test of the policy, in whole seconds, is the test of the policy's duration. -/
theorem age_iff {now made : DateTime} (hpast : made ≤ now) :
    ((min policy.maxAgeSeconds maxI64 : Nat) : Int) ≤ ageSeconds now made ↔
      policy.maxAgeSeconds * nanosPerSecond ≤ now.nanos - made.nanos := by
  have hnow := now.inRange
  have hc := made.inRange
  have hpast' : made.nanos ≤ now.nanos := hpast
  have hage : ageSeconds now made = (now.nanos - made.nanos) / nanosPerSecond :=
    Int.tdiv_eq_ediv_of_nonneg (by omega)
  rw [hage]
  unfold minUtc maxUtc at hnow hc
  unfold nanosPerSecond at *
  unfold maxI64
  omega

/-- The eligible backups of a strictly descending list are those with enough newer ones that are
old enough. -/
theorem partition_eligible {now : DateTime} {sorted : List VerifiedBackup}
    (h : sorted.Pairwise fun a b => backupKey b < backupKey a) :
    (partition policy now 0 sorted).1 =
      sorted.filter fun backup => isEligible policy now (rank backupKey sorted backup) backup := by
  -- along the list, with what was passed so far in front
  suffices hall : ∀ pre post : List VerifiedBackup, pre ++ post = sorted →
      (partition policy now pre.length post).1 =
        post.filter fun backup => isEligible policy now (rank backupKey sorted backup) backup from
    hall [] sorted rfl
  intro pre post
  induction post generalizing pre with
  | nil => exact fun _ => rfl
  | cons backup post ih =>
    rintro rfl
    have hrank : rank backupKey (pre ++ backup :: post) backup = pre.length := rank_append_cons h
    have hrest := ih (pre ++ [backup]) (by simp)
    rw [List.length_append, List.length_singleton] at hrest
    rw [List.filter_cons, hrank, partition]
    simp only [← hrest]
    split <;> rfl

variable (B)

/-- The backups that a run over a root removes. -/
def chosen (policy : BackupRetentionPolicy) (now : DateTime) (root : BackupRoot) :
    List VerifiedBackup :=
  (partition policy now 0 (sortBackups (root.filterMap (B.backupOf now)))).1

variable {B}

theorem nodup_names {now : DateTime} {root : BackupRoot} (hroot : (root.map Prod.fst).Nodup) :
    ((root.filterMap (B.backupOf now)).map fun backup => backup.entry.name).Nodup := by
  have hd : root.Pairwise fun a b => a.1 ≠ b.1 := List.pairwise_map.1 hroot
  refine List.pairwise_map.2 (hd.filterMap _ fun a a' hne b hb b' hb' heq => hne ?_)
  rw [name_of_backupOf hb, name_of_backupOf hb', heq]

/-- The chosen backups are those of the expired entries. -/
theorem mem_chosen {now : DateTime} {root : BackupRoot} (hroot : (root.map Prod.fst).Nodup)
    {backup : VerifiedBackup} :
    backup ∈ B.chosen policy now root ↔ backup ∈ root.filterMap (B.backupOf now) ∧
        policy.keepLatest ≤ rank backupKey (root.filterMap (B.backupOf now)) backup ∧
        policy.maxAgeSeconds * nanosPerSecond ≤ now.nanos - backup.createdAt.nanos := by
  have hperm := sortBackups_perm (root.filterMap (B.backupOf now))
  rw [chosen, partition_eligible (pairwise_sorted (nodup_names hroot)),
    List.mem_filter, hperm.mem_iff, rank_perm backupKey hperm, isEligible, Bool.and_eq_true,
    decide_eq_true_eq, decide_eq_true_eq]
  refine and_congr_right fun hmem => and_congr_right fun _ => ?_
  obtain ⟨entry, -, he⟩ := List.mem_filterMap.1 hmem
  exact age_iff (examine_eq_ok (backupOf_eq_some he).2).2.1

/-! ## Removal of one backup -/

section Removal

variable {A : FileCall (List OsName) → Fate String → Prop} {I : BackupRoot → Prop}
variable {root : BackupRoot} {E : ContextError → BackupRoot → Prop}

variable {msg : String → String}

theorem meets_prune {α : Type} {op : FileCall (List OsName)}
    {act : BackupRoot → Except String (α × BackupRoot)} {Q : α → BackupRoot → Prop} (hnow : I root)
    (hok : ∀ a root', act root = .ok (a, root') → I root' ∧ Q a root') (he : ∀ e, E e root) :
    Meets A I (call op msg act) root Q E := by
  apply meets_mapError
  exact meets_call hnow hok (fun e _ => he _) fun e _ => he _

theorem meets_look {name : OsName} {Q : Option Node → BackupRoot → Prop} (hnow : I root)
    (hok : Q (root.get name) root) (he : ∀ e, E e root) : Meets A I (look name msg) root Q E := by
  refine meets_prune hnow (fun a root' h => ?_) he
  cases h
  exact ⟨hnow, hok⟩

variable {Q : Unit → BackupRoot → Prop}

theorem meets_syncRoot (hnow : I root) (hok : Q () root) (he : ∀ e, E e root) :
    Meets A I B.syncRoot root Q E := by
  refine meets_prune hnow (fun a root' h => ?_) he
  cases h
  exact ⟨hnow, hok⟩

/-- A test that only stops the procedure. -/
theorem meets_check {ε α : Type} {r : Except ε α} {Q : α → BackupRoot → Prop}
    {F : ε → BackupRoot → Prop} (hok : ∀ a, Q a root) (he : ∀ e, F e root) :
    Meets A I (Proc.lift r : Prunes ε α) root Q F :=
  meets_lift (fun a _ => hok a) fun e _ => he e

theorem get_eq_none {name : OsName} : root.get name = none ↔ name ∉ root.map Prod.fst := by
  rw [BackupRoot.get, Option.map_eq_none_iff, List.find?_eq_none]
  simp only [decide_eq_true_eq, List.mem_map, not_exists, not_and]

/-- Everything but the tombstone is as it was, without the backup that was moved to it. -/
structure Staged (before : BackupRoot) (name tombstone : OsName) (root : BackupRoot) : Prop where
  others : root.erase tombstone = before.erase name
  names : (root.map Prod.fst).Nodup

variable {before : BackupRoot} {name tombstone : OsName}

theorem staged_rename (hn : (before.map Prod.fst).Nodup)
    (hf : tombstone ∉ before.map Prod.fst) :
    Staged before name tombstone (before.rename name tombstone) where
  others := by
    have hkeep : ∀ l : BackupRoot, tombstone ∉ l.map Prod.fst →
        (BackupRoot.rename l name tombstone).erase tombstone = BackupRoot.erase l name := by
      intro l
      induction l with
      | nil => exact fun _ => rfl
      | cons entry rest ih =>
        intro hf
        rw [List.map_cons, List.mem_cons, not_or] at hf
        have hrest := ih hf.2
        simp only [BackupRoot.rename, BackupRoot.erase, List.map_cons, List.filter_cons] at hrest ⊢
        by_cases hname : entry.1 = name
        · rw [if_pos hname]
          simpa [hname] using hrest
        · rw [if_neg hname, if_pos (decide_eq_true (Ne.symm hf.1)),
            if_pos (decide_eq_true hname), hrest]
    exact hkeep before hf
  names := by
    have hmap : (before.rename name tombstone).map Prod.fst =
        (before.map Prod.fst).map fun o => if o = name then tombstone else o := by
      rw [BackupRoot.rename, List.map_map, List.map_map]
      refine List.map_congr_left fun entry _ => ?_
      simp only [Function.comp_apply]
      split <;> rfl
    rw [hmap]
    refine List.Nodup.map_on (fun a ha b hb heq => ?_) hn
    -- the tombstone name is not among the names, so no two of them meet
    split at heq
    · next hna =>
      split at heq
      · next hnb => rw [hna, hnb]
      · exact absurd (heq ▸ hb) hf
    · split at heq
      · exact absurd (heq ▸ ha) hf
      · exact heq

theorem Staged.modify (h : Staged before name tombstone root) (change : Node → Node) :
    Staged before name tombstone (root.modify tombstone change) where
  others := by
    rw [← h.others, BackupRoot.erase, BackupRoot.erase, BackupRoot.modify, List.filter_map]
    have hcond : ((fun entry : OsName × Node => decide (entry.1 ≠ tombstone)) ∘ fun entry =>
        if entry.1 = tombstone then (tombstone, change entry.2) else entry) =
        fun entry => decide (entry.1 ≠ tombstone) := by
      funext entry
      simp only [Function.comp_apply]
      split
      · next heq => simp [heq]
      · rfl
    rw [hcond]
    conv_rhs => rw [← List.map_id (root.filter _)]
    refine List.map_congr_left fun entry he => ?_
    have hne := of_decide_eq_true (List.mem_filter.1 he).2
    exact if_neg hne
  names := by
    have hmap : (root.modify tombstone change).map Prod.fst = root.map Prod.fst := by
      rw [BackupRoot.modify, List.map_map]
      refine List.map_congr_left fun entry _ => ?_
      simp only [Function.comp_apply]
      split
      · next heq => exact heq.symm
      · rfl
    rw [hmap]
    exact h.names

/-- The entries that must survive are there, up to sidecars. -/
def Kept (kept root : BackupRoot) : Prop := List.SublistForall₂ SameUpToSidecars kept root

variable {kept : BackupRoot}

theorem Kept.sublist {root' : BackupRoot} (h : Kept kept root) (hsub : root <+ root') :
    Kept kept root' := by
  obtain ⟨same, hsame, hsublist⟩ := List.sublistForall₂_iff.1 h
  exact List.sublistForall₂_iff.2 ⟨same, hsame, hsublist.trans hsub⟩

/-- They are there, and no two entries share a name. -/
def Keeps (kept root : BackupRoot) : Prop := Kept kept root ∧ (root.map Prod.fst).Nodup

section

variable (h : Staged before name tombstone root)
include h

variable (hkept : Kept kept (before.erase name))
include hkept

theorem Staged.keeps : Keeps kept root :=
  ⟨hkept.sublist (h.others ▸ List.filter_sublist), h.names⟩

theorem Staged.meets_removeInner {file : Text}
    (hok : ∀ root', Staged before name tombstone root' → Q () root') (he : ∀ e, E e root) :
    Meets A (Keeps kept) (removeInner tombstone file msg) root Q E := by
  refine meets_prune (h.keeps hkept) (fun a root' hact => ?_) he
  split at hact
  · cases hact
    exact ⟨(h.modify _).keeps hkept, hok _ (h.modify _)⟩
  · cases hact

theorem Staged.meets_removeInnerIfExists {file : Text}
    (hok : ∀ root', Staged before name tombstone root' → Q () root') (he : ∀ e, E e root) :
    Meets A (Keeps kept) (B.removeInnerIfExists tombstone file) root Q E := by
  refine meets_prune (h.keeps hkept) (fun a root' hact => ?_) he
  split at hact
  · cases hact
    exact ⟨(h.modify _).keeps hkept, hok _ (h.modify _)⟩
  · cases hact
    exact ⟨h.keeps hkept, hok _ h⟩

theorem Staged.meets_deleteTombstone {text : Text} :
    Meets A (Keeps kept) (B.deleteTombstone text tombstone) root
      (fun _ root' => root' = before.erase name) fun _ root' => Keeps kept root' := by
  apply meets_bind
  refine h.meets_removeInner hkept (fun root h => ?_) fun _ => h.keeps hkept
  apply meets_bind
  refine h.meets_removeInnerIfExists hkept (fun root h => ?_) fun _ => h.keeps hkept
  apply meets_bind
  refine h.meets_removeInnerIfExists hkept (fun root h => ?_) fun _ => h.keeps hkept
  apply meets_bind
  refine h.meets_removeInner hkept (fun root h => ?_) fun _ => h.keeps hkept
  apply meets_bind
  have hgone : Keeps kept (before.erase name) :=
    ⟨hkept, h.others ▸ h.names.sublist (List.filter_sublist.map _)⟩
  refine meets_prune (h.keeps hkept) (fun a root' hact => ?_) fun _ => h.keeps hkept
  split at hact
  · cases hact
    rw [h.others]
    exact ⟨hgone, meets_syncRoot hgone rfl fun _ => hgone⟩
  · cases hact
  · cases hact

end

variable {key : Option StorageEncryptionKey}

theorem meets_leave {change : Node → Node} (hthen : I (root.modify name change))
    (hok : Q () (root.modify name change)) : Meets A I (leave name change) root Q E := by
  rintro plan - track rfl hmoments
  refine ⟨fun moment hmoment => ?_, hok⟩
  rcases List.mem_cons.1 hmoment with rfl | hmoment
  · exact hthen
  · exact hmoments moment hmoment

theorem Staged.meets_verifyTombstone {text text' : Text} {want : BackupManifest}
    (h : Staged before name (osName text') root) (hkept : Kept kept (before.erase name))
    (hok : ∀ root', Staged before name (osName text') root' → Q () root') :
    Meets A (Keeps kept) (B.verifyTombstone text text' want key) root Q
      fun _ root' => Keeps kept root' := by
  have hk := h.keeps hkept
  apply meets_bind
  refine meets_look hk ?_ fun _ => hk
  apply meets_bind
  refine meets_check (fun _ => ?_) fun _ => hk
  apply meets_bind
  have hopened := h.modify (B.host.verified (B.pathOf text') key)
  have hkeeps := hopened.keeps hkept
  refine meets_leave hkeeps ?_
  apply meets_bind
  refine meets_check (fun staged => ?_) fun _ => hkeeps
  split
  · exact meets_throw hkeeps
  · exact meets_check (fun _ => hok _ hopened) fun _ => hkeeps

/-- The removal of a backup: when it returns, the root is without the backup and otherwise as it
was; at every moment and on every error, all other entries are there. -/
theorem meets_deleteVerifiedBackup {entry : BackupRetentionEntry} {want : BackupManifest}
    {id : Uuid} (hkept : Kept kept (root.erase (osName entry.name)))
    (hn : (root.map Prod.fst).Nodup) :
    Meets A (Keeps kept) (B.deleteVerifiedBackup entry want key id) root
      (fun _ root' => root' = root.erase (osName entry.name)) fun _ root' => Keeps kept root' := by
  have hk : Keeps kept root := ⟨hkept.sublist List.filter_sublist, hn⟩
  apply meets_bind
  refine meets_check (fun _ => ?_) fun _ => hk
  apply meets_bind
  refine meets_look hk ?_ fun _ => hk
  apply meets_bind
  refine meets_check (fun _ => ?_) fun _ => hk
  apply meets_bind
  refine meets_check (fun _ => ?_) fun _ => hk
  apply meets_bind
  apply meets_bind
  refine meets_look hk ?_ fun _ => hk
  split
  · exact meets_throw hk
  · next hfree =>
    have hf := get_eq_none.1 (Option.not_isSome_iff_eq_none.1 hfree)
    refine meets_ret ?_
    apply meets_bind
    have hs : Staged root (osName entry.name) (osName (tombstoneName entry.name id))
        (root.rename (osName entry.name) (osName (tombstoneName entry.name id))) :=
      staged_rename hn hf
    refine meets_prune hk (fun a root' hact => ?_) fun _ => hk
    split at hact
    · cases hact
      refine ⟨hs.keeps hkept, ?_⟩
      apply meets_bind
      refine meets_syncRoot (hs.keeps hkept) ?_ fun _ => hs.keeps hkept
      apply meets_bind
      refine hs.meets_verifyTombstone hkept fun root' hs => ?_
      apply meets_mapError
      exact hs.meets_deleteTombstone hkept
    · cases hact

/-- The removal of a list of backups. -/
theorem meets_deleteEligible {ids : Nat → Uuid} {i : Nat} {backups : List VerifiedBackup}
    (hkept : Kept kept (root.filter fun entry =>
      decide (entry.1 ∉ backups.map fun backup => osName backup.entry.name)))
    (hn : (root.map Prod.fst).Nodup) :
    Meets A (Keeps kept) (B.deleteEligible ids i backups) root
      (fun _ root' => root' = root.filter fun entry =>
        decide (entry.1 ∉ backups.map fun backup => osName backup.entry.name))
      fun _ root' => Keeps kept root' := by
  induction backups generalizing root i with
  | nil =>
    refine meets_ret ?_
    simp
  | cons backup rest ih =>
    have hs : (root.filter fun entry =>
        decide (entry.1 ∉ (backup :: rest).map fun backup => osName backup.entry.name)) =
        (root.erase (osName backup.entry.name)).filter fun entry =>
          decide (entry.1 ∉ rest.map fun backup => osName backup.entry.name) := by
      rw [BackupRoot.erase, List.filter_filter]
      refine List.filter_congr fun entry _ => ?_
      simp only [List.map_cons, List.mem_cons, not_or, Bool.decide_and, Bool.and_comm, ne_eq]
    rw [hs] at hkept ⊢
    have hk : Keeps kept root :=
      ⟨hkept.sublist (List.filter_sublist.trans List.filter_sublist), hn⟩
    apply meets_bind
    refine meets_check (fun key => ?_) fun _ => hk
    apply meets_bind
    refine meets_consequence
      (meets_deleteVerifiedBackup (hkept.sublist List.filter_sublist) hn) ?_ fun _ _ h => h
    rintro - root' rfl
    exact ih hkept (hn.sublist (List.filter_sublist.map _))

end Removal

/-! ## Runs -/

section Runs

variable (B)

/-- The entries that a run over a root may not remove. -/
def survivors (policy : BackupRetentionPolicy) (now : DateTime) (root : BackupRoot) : BackupRoot :=
  root.filter fun entry =>
    decide (entry.1 ∉ (B.chosen policy now root).map fun backup => osName backup.entry.name)

/-- The number of managed backups. -/
def count (now : DateTime) (root : BackupRoot) : Nat := (root.filterMap (B.backupOf now)).length

variable {B} {A : FileCall (List OsName) → Fate String → Prop} {root : BackupRoot}
variable {policy : BackupRetentionPolicy} {now : DateTime} {ids : Nat → Uuid}

section

variable (hroot : (root.map Prod.fst).Nodup)
include hroot

/-- In a root with distinct names, the names of the chosen backups are those of the expired
entries. -/
theorem expired_iff (he : entry ∈ root) :
    B.Expired policy now root entry ↔
      entry.1 ∈ (B.chosen policy now root).map fun backup => osName backup.entry.name := by
  constructor
  · rintro ⟨backup, hb, hrank, hage⟩
    have hmem : backup ∈ root.filterMap (B.backupOf now) :=
      List.mem_filterMap.2 ⟨entry, he, hb⟩
    exact List.mem_map.2
      ⟨backup, (mem_chosen hroot).2 ⟨hmem, hrank, hage⟩, (name_of_backupOf hb).symm⟩
  · intro hname
    obtain ⟨backup, hc, hname⟩ := List.mem_map.1 hname
    obtain ⟨hmem, hrank, hage⟩ := (mem_chosen hroot).1 hc
    obtain ⟨e', he', hb⟩ := List.mem_filterMap.1 hmem
    have hsame : e' = entry :=
      List.inj_on_of_nodup_map hroot he' he ((name_of_backupOf hb).trans hname)
    exact ⟨backup, hsame ▸ hb, hrank, hage⟩

theorem mem_survivors :
    entry ∈ B.survivors policy now root ↔ entry ∈ root ∧ ¬ B.Expired policy now root entry := by
  rw [survivors, List.mem_filter, decide_eq_true_eq]
  exact and_congr_right fun he => not_congr (expired_iff hroot he).symm

/-- The newest `keep_latest` managed backups survive. -/
theorem count_survivors :
    min policy.keepLatest (B.count now root) ≤ B.count now (B.survivors policy now root) := by
  have hn : ((root.filterMap (B.backupOf now)).map fun backup => backup.entry.name).Nodup :=
    nodup_names hroot
  have hf : (B.survivors policy now root).filterMap (B.backupOf now) =
      (root.filterMap (B.backupOf now)).filter fun backup =>
        decide (osName backup.entry.name ∉
          (B.chosen policy now root).map fun backup => osName backup.entry.name) := by
    rw [survivors, List.filterMap_filter, List.filter_filterMap]
    refine List.filterMap_congr fun entry _ => ?_
    cases hb : B.backupOf now entry with
    | none => simp
    | some backup => rw [name_of_backupOf hb, Option.filter_some]
  have hr := countP_rank_lt policy.keepLatest (sortBackups_perm _) (pairwise_sorted hn)
  rw [count, count, hf, ← hr, ← List.countP_eq_length_filter]
  refine List.countP_mono_left fun backup hmem hlow => decide_eq_true fun hname => ?_
  -- a chosen backup of the same name is the same backup
  obtain ⟨o, hc, hsame⟩ := List.mem_map.1 hname
  obtain ⟨hmem', hrank, -⟩ := (mem_chosen hroot).1 hc
  have heq : o = backup :=
    List.inj_on_of_nodup_map hn hmem' hmem (osName_injective hsame)
  exact absurd (of_decide_eq_true hlow) (not_lt.2 (heq ▸ hrank))

end

/-- Sidecars hide no backup, and more entries mean more backups. -/
theorem count_kept {kept : BackupRoot} (h : Kept kept root) :
    B.count now kept ≤ B.count now root := by
  obtain ⟨same, hsame, hsublist⟩ := List.sublistForall₂_iff.1 h
  refine le_trans ?_ (hsublist.filterMap _).length_le
  rw [count, List.length_filterMap_eq_countP, List.length_filterMap_eq_countP]
  clear h hsublist
  induction hsame with
  | nil => exact le_rfl
  | @cons entry entry' rest rest' hentry _ ih =>
    rw [List.countP_cons, List.countP_cons]
    refine Nat.add_le_add ih ?_
    cases hbackup : B.backupOf now entry with
    | none => exact Nat.zero_le _
    | some backup => rw [backupOf_same hbackup hentry]

theorem count_later {later : DateTime} (h : now ≤ later) :
    B.count now root ≤ B.count later root := by
  rw [count, count, List.length_filterMap_eq_countP, List.length_filterMap_eq_countP]
  refine List.countP_mono_left fun entry _ hsome => ?_
  obtain ⟨backup, hb⟩ := Option.isSome_iff_exists.1 hsome
  rw [backupOf_later hb h]
  rfl

theorem exists_of_forall₂ {α β : Type} {R : α → β → Prop} {as : List α} {bs : List β}
    (h : List.Forall₂ R as bs) : ∀ a ∈ as, ∃ b ∈ bs, R a b := by
  induction h with
  | nil => simp
  | cons hr _ ih =>
    rintro a (_ | ⟨_, ha⟩)
    · exact ⟨_, List.mem_cons_self, hr⟩
    · obtain ⟨b, hb, hab⟩ := ih a ha
      exact ⟨b, List.mem_cons_of_mem _ hb, hab⟩

theorem names_eq {root' : BackupRoot} (h : List.Forall₂ SameUpToSidecars root root') :
    root'.map Prod.fst = root.map Prod.fst := by
  induction h with
  | nil => rfl
  | cons hentry _ ih => rw [List.map_cons, List.map_cons, hentry.name_eq, ih]

/-- A choice by name is the same with and without sidecars. -/
theorem forall₂_filter {root' : BackupRoot} (h : List.Forall₂ SameUpToSidecars root root')
    (keep : OsName → Bool) :
    List.Forall₂ SameUpToSidecars (root.filter fun entry => keep entry.1)
      (root'.filter fun entry => keep entry.1) := by
  induction h with
  | nil => exact .nil
  | cons hentry _ ih =>
    rw [List.filter_cons, List.filter_cons, hentry.name_eq]
    split
    · exact .cons hentry ih
    · exact ih

theorem forall₂_modify {root' : BackupRoot} (h : List.Forall₂ SameUpToSidecars root root')
    {name : OsName} {change : Node → Node}
    (hchange : ∀ node, SameUpToSidecars (name, node) (name, change node)) :
    List.Forall₂ SameUpToSidecars root (root'.modify name change) := by
  refine List.forall₂_map_right_iff.2 (h.imp fun {entry entry'} hsame => ?_)
  split
  · next hname =>
    subst hname
    exact hsame.trans (hchange entry'.2)
  · exact hsame

/-- The scan finds the managed backups, and leaves the root as it is up to sidecars. -/
theorem meets_scan {I : BackupRoot → Prop} {E : ContextError → BackupRoot → Prop}
    (hI : ∀ root', List.Forall₂ SameUpToSidecars root root' → I root') (entries : BackupRoot)
    {root' : BackupRoot} (h : List.Forall₂ SameUpToSidecars root root') :
    Meets A I (B.scan now entries) root'
      (fun found root'' => found.1 = entries.filterMap (B.backupOf now) ∧
        List.Forall₂ SameUpToSidecars root root'') E := by
  induction entries generalizing root' with
  | nil => exact meets_ret ⟨rfl, h⟩
  | cons entry rest ih =>
    obtain ⟨name, node⟩ := entry
    rw [scan, List.filterMap_cons, backupOf]
    simp only
    split
    · exact ih h
    · have hexamined := forall₂_modify h (B.examined_same (boundedEntryName name) name)
      apply meets_bind
      refine meets_leave (hI _ hexamined) ?_
      apply meets_bind
      refine meets_consequence (ih hexamined) ?_ fun _ _ hE => hE
      rintro ⟨verified, skipped⟩ root'' ⟨hfound, hleft⟩
      obtain rfl : verified = rest.filterMap (B.backupOf now) := hfound
      cases B.examine now (boundedEntryName name) node with
      | ok backup => exact meets_ret ⟨rfl, hleft⟩
      | error reason => exact meets_ret ⟨rfl, hleft⟩

/-- The steps of a run before its removals change nothing but sidecars. -/
theorem meets_applyBackupRetention {I : BackupRoot → Prop} {dryRun : Bool}
    {Q : BackupRetentionReport → BackupRoot → Prop} {E : ContextError → BackupRoot → Prop}
    (hI : ∀ root', List.Forall₂ SameUpToSidecars root root' → I root') (he : ∀ e, E e root)
    (hok : ∀ (report : BackupRetentionReport) (root' : BackupRoot),
      List.Forall₂ SameUpToSidecars root root' →
      report.eligible = (B.chosen policy now root).map VerifiedBackup.entry →
      Meets A I
        (if dryRun then Proc.ret report
        else do
          B.deleteEligible ids 0 (B.chosen policy now root)
          Proc.ret { report with
            deleted := (B.chosen policy now root).map VerifiedBackup.entry } :
          Prunes ContextError BackupRetentionReport) root' Q E) :
    Meets A I (B.applyBackupRetention policy dryRun now ids) root Q E := by
  have hsame : List.Forall₂ SameUpToSidecars root root := List.forall₂_refl root
  have hnow := hI root hsame
  have hidle : ∀ {op : FileCall (List OsName)} {msg : String → String}
      {Q' : Unit → BackupRoot → Prop}, Q' () root →
      Meets A I (call op msg fun root => .ok ((), root)) root Q' E := by
    intro op msg Q' hQ
    refine meets_prune hnow (fun a root' h => ?_) he
    cases h
    exact ⟨hnow, hQ⟩
  apply meets_bind
  refine meets_check (fun _ => ?_) he
  apply meets_bind
  refine hidle ?_
  apply meets_bind
  refine hidle ?_
  apply meets_bind
  refine meets_prune hnow (fun entries root' h => ?_) he
  cases h
  refine ⟨hnow, ?_⟩
  split
  · exact meets_throw (he _)
  · apply meets_bind
    refine meets_consequence (meets_scan hI root hsame) ?_ fun _ _ hE => hE
    rintro ⟨verified, skipped⟩ root' ⟨hfound, hleft⟩
    obtain rfl : verified = root.filterMap (B.backupOf now) := hfound
    exact hok _ root' hleft rfl

theorem keeps_of_same {root' kept : BackupRoot} (hroot : (root.map Prod.fst).Nodup)
    (h : List.Forall₂ SameUpToSidecars root root') (hkept : kept <+ root) : Keeps kept root' := by
  have hsub : List.SublistForall₂ SameUpToSidecars kept root := hkept.sublistForall₂
  have hsame : List.SublistForall₂ SameUpToSidecars root root' :=
    List.sublistForall₂_iff.2 ⟨root', h, .refl _⟩
  have htrans : List.SublistForall₂ SameUpToSidecars kept root' := IsTrans.trans _ _ _ hsub hsame
  exact ⟨htrans, names_eq h ▸ hroot⟩

/-- A run that removes. -/
theorem meets_retention (hroot : (root.map Prod.fst).Nodup) :
    Meets A (Keeps (B.survivors policy now root)) (B.applyBackupRetention policy false now ids) root
      (fun report root' => List.Forall₂ SameUpToSidecars (B.survivors policy now root) root' ∧
        report.eligible = (B.chosen policy now root).map VerifiedBackup.entry)
      fun _ root' => Keeps (B.survivors policy now root) root' := by
  have hk : ∀ root', List.Forall₂ SameUpToSidecars root root' →
      Keeps (B.survivors policy now root) root' :=
    fun root' h => keeps_of_same hroot h List.filter_sublist
  refine meets_applyBackupRetention hk (fun _ => hk root (List.forall₂_refl root))
    fun report root' h hr => ?_
  rw [if_neg Bool.false_ne_true]
  apply meets_bind
  have hleft : List.Forall₂ SameUpToSidecars (B.survivors policy now root)
      (root'.filter fun entry => decide (entry.1 ∉
        (B.chosen policy now root).map fun backup => osName backup.entry.name)) :=
    forall₂_filter h fun name => decide (name ∉
      (B.chosen policy now root).map fun backup : VerifiedBackup => osName backup.entry.name)
  refine meets_consequence
    (meets_deleteEligible (List.sublistForall₂_iff.2 ⟨_, hleft, .refl _⟩) (names_eq h ▸ hroot)) ?_
    fun _ _ h => h
  rintro - root'' rfl
  exact meets_ret ⟨hleft, hr⟩

/-- A dry run. -/
theorem meets_dryRun :
    Meets A (List.Forall₂ SameUpToSidecars root) (B.applyBackupRetention policy true now ids) root
      (fun report root' => List.Forall₂ SameUpToSidecars root root' ∧
        report.eligible = (B.chosen policy now root).map VerifiedBackup.entry)
      fun _ root' => List.Forall₂ SameUpToSidecars root root' := by
  refine meets_applyBackupRetention (fun _ h => h) (fun _ => List.forall₂_refl root)
    fun report root' h hr => ?_
  rw [if_pos rfl]
  exact meets_ret ⟨h, hr⟩

/-- One run of a sequence. -/
structure RetentionRun where
  plan : Plan (FileCall (List OsName)) String
  policy : BackupRetentionPolicy
  dryRun : Bool
  now : DateTime
  ids : Nat → Uuid

/-- The root that a run leaves, however it ends. -/
def RetentionRun.after (B : BackupManager) (root : BackupRoot) (run : RetentionRun) : BackupRoot :=
  (B.applyBackupRetention run.policy run.dryRun run.now run.ids run.plan (Track.start root)).2.state

theorem dryRun_within (plan : Plan (FileCall (List OsName)) String) :
    (B.applyBackupRetention policy true now ids plan (Track.start root)).2.Within
      (List.Forall₂ SameUpToSidecars root) := by
  have hm : Meets (fun _ _ => True) (List.Forall₂ SameUpToSidecars root)
      (B.applyBackupRetention policy true now ids) root _ _ := meets_dryRun
  exact hm.within (fun _ _ => trivial) (Track.within_start (List.forall₂_refl root))
    (fun _ _ h => h.1) fun _ _ h => h

/-- What a run leaves holds every entry that is not expired. -/
theorem RetentionRun.keeps (hroot : (root.map Prod.fst).Nodup) (run : RetentionRun) :
    Keeps (B.survivors run.policy run.now root) (run.after B root) := by
  have hk : Keeps (B.survivors run.policy run.now root) root :=
    keeps_of_same hroot (List.forall₂_refl root) List.filter_sublist
  unfold RetentionRun.after
  cases run.dryRun with
  | true => exact keeps_of_same hroot (dryRun_within run.plan).1 List.filter_sublist
  | false =>
    have hm : Meets (fun _ _ => True) (Keeps (B.survivors run.policy run.now root))
        (B.applyBackupRetention run.policy false run.now run.ids) root _ _ :=
      meets_retention hroot
    refine (hm.within (fun _ _ => trivial) (Track.within_start hk) ?_ fun _ _ h => h).1
    rintro report root' ⟨hleft, -⟩
    exact keeps_of_same (hroot.sublist (List.filter_sublist.map _)) hleft (.refl _)

/-- Any number of managed backups up to the smallest `keep_latest` survives a sequence of runs. -/
theorem count_runs {k : Nat} {runs : List RetentionRun} {start finish : DateTime}
    (hroot : (root.map Prod.fst).Nodup)
    (ht : (start :: (runs.map RetentionRun.now ++ [finish])).Pairwise (· ≤ ·))
    (hk : ∀ run ∈ runs, k ≤ run.policy.keepLatest) :
    min k (B.count start root) ≤ B.count finish (runs.foldl (RetentionRun.after B) root) := by
  induction runs generalizing root start with
  | nil =>
    have hle : start ≤ finish := (List.pairwise_cons.1 ht).1 finish (by simp)
    exact (min_le_right _ _).trans (count_later hle)
  | cons run rest ih =>
    obtain ⟨hs, ht⟩ := List.pairwise_cons.1 ht
    have hle : start ≤ run.now := hs run.now (by simp)
    have hke := run.keeps (B := B) hroot
    -- what is counted at the start is still there after the first run
    have hf : min k (B.count start root) ≤ B.count run.now (run.after B root) := by
      calc min k (B.count start root)
          ≤ min run.policy.keepLatest (B.count run.now root) :=
            min_le_min (hk run List.mem_cons_self) (count_later hle)
        _ ≤ B.count run.now (B.survivors run.policy run.now root) := count_survivors hroot
        _ ≤ B.count run.now (run.after B root) := count_kept hke.1
    have hrest := ih hke.2 ht fun o ho => hk o (List.mem_cons_of_mem _ ho)
    exact (le_min (min_le_left _ _) hf).trans hrest

end Runs

/-- **Retention removes exactly what the policy allows.** In a root with distinct names:
a run that returns leaves the entries that are not expired, and nothing else; a dry run leaves every
entry at every moment; both report the expired entries as eligible; and over any sequence of runs at
non-decreasing instants, however each of them ends, at least `k` managed backups remain if there
were as many and no policy keeps fewer. What is left is as it was, apart from the sidecars that the
verification of a backup leaves in its directory. -/
theorem retention_removes_exactly_expired (B : BackupManager) (root : BackupRoot)
    (hroot : (root.map Prod.fst).Nodup) :
    (∀ policy now ids plan report,
      (B.applyBackupRetention policy false now ids plan (Track.start root)).1 = .ok report →
      let root' := (B.applyBackupRetention policy false now ids plan (Track.start root)).2.state
      (root'.map Prod.fst).Nodup ∧
        (∀ entry ∈ root, ¬ B.Expired policy now root entry →
          ∃ entry' ∈ root', SameUpToSidecars entry entry') ∧
        ∀ entry' ∈ root', ∃ entry ∈ root, ¬ B.Expired policy now root entry ∧
          SameUpToSidecars entry entry') ∧
    (∀ policy now ids plan,
      ∀ root' ∈ (B.applyBackupRetention policy true now ids plan (Track.start root)).2.moments,
        List.Forall₂ SameUpToSidecars root root') ∧
    (∀ policy dryRun now ids plan report,
      (B.applyBackupRetention policy dryRun now ids plan (Track.start root)).1 = .ok report →
      ∀ name, name ∈ report.eligible.map BackupRetentionEntry.name ↔
        ∃ entry ∈ root, entry.1 = osName name ∧ B.Expired policy now root entry) ∧
    ∀ (k : Nat) (runs : List RetentionRun) (start finish : DateTime),
      (start :: (runs.map RetentionRun.now ++ [finish])).Pairwise (· ≤ ·) →
      (∀ run ∈ runs, k ≤ run.policy.keepLatest) →
      min k (B.count start root) ≤ B.count finish (runs.foldl (RetentionRun.after B) root) := by
  have hkeeps : ∀ policy now, Keeps (B.survivors policy now root) root :=
    fun _ _ => keeps_of_same hroot (List.forall₂_refl root) List.filter_sublist
  have hremoves : ∀ policy now ids, Meets (fun _ _ => True) (Keeps (B.survivors policy now root))
      (B.applyBackupRetention policy false now ids) root _ _ :=
    fun _ _ _ => meets_retention hroot
  have hdry : ∀ policy now ids, Meets (fun _ _ => True) (List.Forall₂ SameUpToSidecars root)
      (B.applyBackupRetention policy true now ids) root _ _ := fun _ _ _ => meets_dryRun
  refine ⟨?_, ?_, ?_, ?_⟩
  · intro policy now ids plan report hreport root'
    have hleft : List.Forall₂ SameUpToSidecars (B.survivors policy now root) root' :=
      ((hremoves policy now ids).of_ok (fun _ _ => trivial)
        (Track.within_start (hkeeps policy now)).2 hreport).1
    refine ⟨names_eq hleft ▸ hroot.sublist (List.filter_sublist.map _), ?_, ?_⟩
    · intro entry hentry hstays
      exact exists_of_forall₂ hleft entry ((mem_survivors hroot).2 ⟨hentry, hstays⟩)
    · intro entry' hentry'
      have hflip : List.Forall₂ (flip SameUpToSidecars) root' (B.survivors policy now root) :=
        hleft.flip
      obtain ⟨entry, hentry, hsame⟩ := exists_of_forall₂ hflip entry' hentry'
      obtain ⟨hmem, hstays⟩ := (mem_survivors hroot).1 hentry
      exact ⟨entry, hmem, hstays, hsame⟩
  · intro policy now ids plan
    exact (dryRun_within plan).2
  · intro policy dryRun now ids plan report hreport name
    have heligible : report.eligible = (B.chosen policy now root).map VerifiedBackup.entry := by
      cases dryRun with
      | true =>
        have hstart : (Track.start root).Within (List.Forall₂ SameUpToSidecars root) :=
          Track.within_start (List.forall₂_refl root)
        exact ((hdry policy now ids).of_ok (fun _ _ => trivial) hstart.2 hreport).2
      | false =>
        exact ((hremoves policy now ids).of_ok (fun _ _ => trivial)
          (Track.within_start (hkeeps policy now)).2 hreport).2
    rw [heligible, List.map_map]
    constructor
    · intro hname
      obtain ⟨backup, hchosen, rfl⟩ := List.mem_map.1 hname
      obtain ⟨hmem, -, -⟩ := (mem_chosen hroot).1 hchosen
      obtain ⟨entry, hentry, hbackup⟩ := List.mem_filterMap.1 hmem
      refine ⟨entry, hentry, name_of_backupOf hbackup, (expired_iff hroot hentry).2 ?_⟩
      exact List.mem_map.2 ⟨backup, hchosen, (name_of_backupOf hbackup).symm⟩
    · rintro ⟨entry, hentry, hname, hexpired⟩
      obtain ⟨backup, hchosen, hsame⟩ := List.mem_map.1 ((expired_iff hroot hentry).1 hexpired)
      exact List.mem_map.2 ⟨backup, hchosen, osName_injective (hsame.trans hname)⟩
  · intro k runs start finish htimes hk
    exact count_runs hroot htimes hk

/-! ## A sample -/

/-- A manifest with a creation time. -/
def Sample.manifest (createdAt : Char) : BackupManifest where
  formatVersion := backupFormatVersion
  databaseFile := backupDatabaseFile
  applicationId := schemaApplicationId
  schemaVersion := currentSchemaVersion
  installationId := AgentOS.Sample.uuid 'a'
  createdAt := [createdAt]
  byteCount := 1
  sha256 := []
  encryption := none
  authenticity := none

/-- The instant a number of seconds after the epoch. -/
def Sample.second (n : Fin 10) : DateTime :=
  ⟨n.val * nanosPerSecond, by revert n; decide⟩

/-- Manifests are one byte, the second of their creation; every snapshot is valid, and both sidecars
are left beside it. -/
def Sample.manager : BackupManager where
  host :=
    { crypto := ⟨fun _ => [], fun _ _ _ => false⟩
      parseManifest := fun bytes => .ok (Sample.manifest (hexChar (Fin.ofNat 16 bytes.sum.toNat)))
      parseTimestamp := fun text =>
        match text.head?.bind hexDigit with
        | some digit => .ok (Sample.second (Fin.ofNat 10 digit.val))
        | none => .error "premature end of input"
      openVerified := fun _ _ _ => .ok ⟨schemaApplicationId, currentSchemaVersion,
        minReaderSchemaVersion, AgentOS.Sample.uuid 'a'⟩
      sidecars := fun _ _ => ⟨some [7], true⟩ }
  rootPath := "/backups".toList
  installationId := AgentOS.Sample.uuid 'a'
  keys := []

/-- A backup made at a second. -/
def Sample.backup (name : String) (createdAt : UInt8) : OsName × Node :=
  (osName name.toList, .folder [(osName backupDatabaseFile, .file [0]),
    (osName backupManifestFile, .file [createdAt])])

/-- Three backups and a file between them. -/
def Sample.root : BackupRoot :=
  [Sample.backup "monday" 1, (osName "notes".toList, .other), Sample.backup "wednesday" 3,
    Sample.backup "tuesday" 2]

/-- The report of a run over the sample that keeps two backups. -/
def Sample.report : BackupRetentionReport where
  evaluatedAt := Sample.second 9
  dryRun := false
  policy := ⟨2, 5⟩
  eligible := [⟨"monday".toList, ['1'], 1⟩]
  deleted := [⟨"monday".toList, ['1'], 1⟩]
  retained := [⟨"wednesday".toList, ['3'], 1⟩, ⟨"tuesday".toList, ['2'], 1⟩]
  skipped := [⟨"notes".toList, "not a real backup directory"⟩]

/-- A run over the sample in which every call is done. -/
def Sample.run : Ending ContextError BackupRetentionReport × Track BackupRoot :=
  Sample.manager.applyBackupRetention ⟨2, 5⟩ false (Sample.second 9)
    (fun _ => ⟨List.replicate 32 0, Eq.refl 32⟩) (fun _ _ => .done) (Track.start Sample.root)

/-- Two backups are kept, with sidecars; the run returns and the third is gone. -/
theorem oldest_backup_expires :
    Sample.run.1 = .ok Sample.report ∧
      Sample.run.2.state.map Prod.fst =
        [osName "notes".toList, osName "wednesday".toList, osName "tuesday".toList] ∧
      ∀ entry ∈ Sample.root, ¬ Sample.manager.Expired ⟨2, 5⟩ (Sample.second 9) Sample.root entry →
        ∃ entry' ∈ Sample.run.2.state, SameUpToSidecars entry entry' := by
  have hreturns : Sample.run.1 = .ok Sample.report := by decide +kernel
  have hexact := retention_removes_exactly_expired Sample.manager Sample.root (by decide +kernel)
  refine ⟨hreturns, by decide +kernel, ?_⟩
  unfold Sample.run at hreturns ⊢
  exact (hexact.1 _ _ _ _ _ hreturns).2.1

end BackupManager

end AgentOS
