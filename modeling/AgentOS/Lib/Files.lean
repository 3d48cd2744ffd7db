import AgentOS.Lib.Faults

/-!
# Files

A file system is a map from paths to contents. The calls below are the ones the operating system
makes atomic: looking at a path, creating, writing, moving and removing a file. Each has one rule
for specifications; `Files.put`, `Files.drop` and `Files.move` come with the lemmas that say what a
path holds afterwards.
-/

namespace AgentOS.Lib

variable {π κ ε α : Type}

/-- An error of the operating system. -/
inductive IoError where
  | notFound
  | alreadyExists
  | other (message : String)
  deriving DecidableEq

/-- The `Display` text of an error. -/
def IoError.toString : IoError → String
  | .notFound => "No such file or directory (os error 2)"
  | .alreadyExists => "File exists (os error 17)"
  | .other message => message

/-- A call on paths. `update` is the work of another component on an open file. -/
inductive FileCall (π : Type) where
  | inspect (path : π)
  | read (path : π)
  | create (path : π)
  | write (path : π)
  | sync (path : π)
  | rename (source target : π)
  | remove (path : π)
  | update (path : π)
  deriving DecidableEq

/-- What each path holds. -/
abbrev Files (π κ : Type) : Type := π → Option κ

namespace Files

variable [DecidableEq π]

/-- The path holds the contents. -/
def put (files : Files π κ) (path : π) (contents : κ) : Files π κ :=
  Function.update files path (some contents)

/-- The path holds nothing. -/
def drop (files : Files π κ) (path : π) : Files π κ := Function.update files path none

/-- The contents of one path are found at another. -/
def move (files : Files π κ) (source target : π) (contents : κ) : Files π κ :=
  (files.drop source).put target contents

section Lookup

variable {files : Files π κ} {path source target other : π} {contents : κ}

@[simp] theorem put_self : files.put path contents path = some contents :=
  Function.update_self ..

theorem put_of_ne (h : other ≠ path) : files.put path contents other = files other :=
  Function.update_of_ne h ..

@[simp] theorem drop_self : files.drop path path = none :=
  Function.update_self ..

theorem drop_of_ne (h : other ≠ path) : files.drop path other = files other :=
  Function.update_of_ne h ..

@[simp] theorem move_target : files.move source target contents target = some contents :=
  put_self

theorem move_source (h : source ≠ target) : files.move source target contents source = none := by
  rw [move, put_of_ne h, drop_self]

theorem move_of_ne (hs : other ≠ source) (ht : other ≠ target) :
    files.move source target contents other = files other := by
  rw [move, put_of_ne ht, drop_of_ne hs]

end Lookup

end Files

/-- Procedures on files. A call fails with a message of the operating system. -/
abbrev FileProc (π κ ε α : Type) : Type := Proc (Files π κ) (FileCall π) String ε α

namespace FileProc

/-- A call on files. That a path is missing or taken is found out by the call itself, so it is
never a failure that the surroundings choose. -/
def call (op : FileCall π) (act : Files π κ → Except IoError (α × Files π κ)) :
    FileProc π κ IoError α :=
  Proc.call op .other act

/-- Whether a path holds a file. -/
def inspect (path : π) : FileProc π κ IoError Bool :=
  call (.inspect path) fun files => .ok ((files path).isSome, files)

/-- A value computed from the contents of a file. -/
def read (path : π) (view : κ → α) : FileProc π κ IoError α :=
  call (.read path) fun files =>
    match files path with
    | some contents => .ok (view contents, files)
    | none => .error .notFound

variable [DecidableEq π]

/-- Create a file that must not exist. -/
def createNew (path : π) (contents : κ) : FileProc π κ IoError Unit :=
  call (.create path) fun files =>
    if (files path).isSome then .error .alreadyExists else .ok ((), files.put path contents)

/-- Replace the contents of a file. -/
def write (path : π) (contents : κ) : FileProc π κ IoError Unit :=
  call (.write path) fun files => .ok ((), files.put path contents)

/-- Wait until a file or directory is on disk. -/
def sync (path : π) : FileProc π κ IoError Unit :=
  call (.sync path) fun files => .ok ((), files)

/-- `fs::rename`: the target is replaced. -/
def rename (source target : π) : FileProc π κ IoError Unit :=
  call (.rename source target) fun files =>
    match files source with
    | some contents => .ok ((), files.move source target contents)
    | none => .error .notFound

/-- `fs::remove_file`. -/
def remove (path : π) : FileProc π κ IoError Unit :=
  call (.remove path) fun files =>
    if (files path).isSome then .ok ((), files.drop path) else .error .notFound

end FileProc

/-! ## Rules -/

section Rules

variable {A : FileCall π → Fate String → Prop} {I : Files π κ → Prop} {files : Files π κ}
variable {E : IoError → Files π κ → Prop} {path source target : π}

theorem meets_inspect {Q : Bool → Files π κ → Prop} (hnow : I files)
    (hok : Q (files path).isSome files)
    (hf : ∀ e, A (.inspect path) (.failed e) → E (.other e) files) :
    Meets A I (FileProc.inspect path) files Q E := by
  refine meets_call hnow (fun a s' h => ?_) (fun e h => ?_) hf
  · cases h
    exact ⟨hnow, hok⟩
  · cases h

variable {contents : κ}

theorem meets_read {view : κ → α} {Q : α → Files π κ → Prop} (hnow : I files)
    (hfile : files path = some contents) (hok : Q (view contents) files)
    (hf : ∀ e, A (.read path) (.failed e) → E (.other e) files) :
    Meets A I (FileProc.read path view) files Q E := by
  refine meets_call hnow (fun a s' h => ?_) (fun e h => ?_) hf
  · rw [hfile] at h
    cases h
    exact ⟨hnow, hok⟩
  · rw [hfile] at h
    cases h

theorem meets_read_missing {view : κ → α} {Q : α → Files π κ → Prop} (hnow : I files)
    (hfile : files path = none) (hm : E .notFound files)
    (hf : ∀ e, A (.read path) (.failed e) → E (.other e) files) :
    Meets A I (FileProc.read path view) files Q E := by
  refine meets_call hnow (fun a s' h => ?_) (fun e h => ?_) hf
  · rw [hfile] at h
    cases h
  · rw [hfile] at h
    cases h
    exact hm

variable {Q : Unit → Files π κ → Prop}

variable (hnow : I files)
include hnow

theorem meets_sync (hok : Q () files) (hf : ∀ e, A (.sync path) (.failed e) → E (.other e) files) :
    Meets A I (FileProc.sync path) files Q E := by
  refine meets_call hnow (fun a s' h => ?_) (fun e h => ?_) hf
  · cases h
    exact ⟨hnow, hok⟩
  · cases h

variable [DecidableEq π]

theorem meets_createNew
    (hok : files path = none → I (files.put path contents) ∧ Q () (files.put path contents))
    (he : E .alreadyExists files) (hf : ∀ e, A (.create path) (.failed e) → E (.other e) files) :
    Meets A I (FileProc.createNew path contents) files Q E := by
  refine meets_call hnow (fun a s' h => ?_) (fun e h => ?_) hf
  · split at h
    · cases h
    · next hnone =>
      cases h
      exact hok (Option.not_isSome_iff_eq_none.1 hnone)
  · split at h <;> cases h
    exact he

theorem meets_write (hthen : I (files.put path contents)) (hok : Q () (files.put path contents))
    (hf : ∀ e, A (.write path) (.failed e) → E (.other e) files) :
    Meets A I (FileProc.write path contents) files Q E := by
  refine meets_call hnow (fun a s' h => ?_) (fun e h => ?_) hf
  · cases h
    exact ⟨hthen, hok⟩
  · cases h

theorem meets_rename (hfile : files source = some contents)
    (hthen : I (files.move source target contents)) (hok : Q () (files.move source target contents))
    (hf : ∀ e, A (.rename source target) (.failed e) → E (.other e) files) :
    Meets A I (FileProc.rename source target) files Q E := by
  refine meets_call hnow (fun a s' h => ?_) (fun e h => ?_) hf
  · rw [hfile] at h
    cases h
    exact ⟨hthen, hok⟩
  · rw [hfile] at h
    cases h

theorem meets_remove (hok : files path ≠ none → I (files.drop path) ∧ Q () (files.drop path))
    (hm : files path = none → E .notFound files)
    (hf : ∀ e, A (.remove path) (.failed e) → E (.other e) files) :
    Meets A I (FileProc.remove path) files Q E := by
  refine meets_call hnow (fun a s' h => ?_) (fun e h => ?_) hf
  · split at h
    · next hsome =>
      cases h
      exact hok (Option.isSome_iff_ne_none.1 hsome)
    · cases h
  · split at h
    · cases h
    · next hnone =>
      cases h
      exact hm (Option.not_isSome_iff_eq_none.1 hnone)

end Rules

end AgentOS.Lib
