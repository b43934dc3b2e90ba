import DecoderGen.Storage
import DecoderGen.SystemVerilog.Decoder

/-! # Writing artifacts

All artifacts are first written to temporary files beside their targets. Only when that has
succeeded are they moved into place, one after the other; a file that stands at a target is moved
aside before. If any step fails, temporary files are removed and the targets replaced so far are
restored, so that old and new output are never mixed.
-/

namespace DecoderGen.Writing

variable {m : Type → Type} [Monad m] [Storage m]

/-- A temporary file and the path it is meant for. -/
structure Staged where
  temporary : String
  target : String
deriving DecidableEq, Repr

/-- A target that holds its new contents, and where its old contents are if it had any. -/
structure Placed where
  target : String
  backup : Option String
deriving DecidableEq, Repr

/-- The temporary file and the target of an artifact. -/
def Staged.ofArtifact (directory : String) (artifact : Artifact) : Staged where
  temporary := Path.join directory s!".{artifact.fileName}.tmp"
  target := Path.join directory artifact.fileName

/-- Where the old contents of a target are kept meanwhile. -/
def backupOf (target : String) : String := Path.sibling target s!".{Path.fileName target}.bak"

/-- A report on the progress of writing. -/
def progress (level : Level) (text : String) : m Unit := Storage.report ⟨level, .writer, text⟩

/-- Remove a file if it is there. -/
def removeQuietly (path : String) : m Unit := do
  let _ ← Storage.remove path

/-- Move a file if that is possible. -/
def renameQuietly (source target : String) : m Unit := do
  let _ ← Storage.rename source target

/-- Remove temporary files. -/
def discard : List Staged → m Unit
  | [] => pure ()
  | staged :: rest => do
    removeQuietly staged.temporary
    discard rest

/-- Undo one replacement: bring the old contents back, or remove a file that was not there. -/
def undo (placed : Placed) : m Unit :=
  match placed.backup with
  | some backup => renameQuietly backup placed.target
  | none => removeQuietly placed.target

/-- Undo replacements in the given order. -/
def restore : List Placed → m Unit
  | [] => pure ()
  | placed :: rest => do
    undo placed
    restore rest

/-- Remove old contents that are no longer needed. -/
def dropBackups : List Placed → m Unit
  | [] => pure ()
  | placed :: rest => do
    match placed.backup with
    | some backup => removeQuietly backup
    | none => pure ()
    dropBackups rest

/-- Write artifacts to temporary files, after those already staged. -/
def stage (directory : String) (done : List Staged) :
    List Artifact → m (Except FileFailure (List Staged))
  | [] => return .ok done
  | artifact :: rest => do
    let staged := Staged.ofArtifact directory artifact
    match ← Storage.write staged.temporary artifact.contents.toUTF8 with
    | .error fault =>
      removeQuietly staged.temporary
      discard done
      return .error ⟨staged.temporary, fault⟩
    | .ok () =>
      progress .debug s!"staged {staged.temporary}"
      stage directory (done ++ [staged]) rest

/-- Move a file that stands at a target aside; where it went, if there was one. -/
def moveAside (target : String) : m (Except FileFault (Option String)) := do
  if ← Storage.isFile target then
    match ← Storage.rename target (backupOf target) with
    | .error fault => return .error fault
    | .ok () =>
      progress .debug s!"backed up {target} to {backupOf target}"
      return .ok (some (backupOf target))
  else return .ok none

/-- Move a temporary file into place; where the old contents of the target went, if it had any. -/
def place (staged : Staged) : m (Except FileFault (Option String)) := do
  match ← moveAside staged.target with
  | .error fault => return .error fault
  | .ok backup =>
    match ← Storage.rename staged.temporary staged.target with
    | .error fault =>
      match backup with
      | some kept => renameQuietly kept staged.target
      | none => pure ()
      return .error fault
    | .ok () => return .ok backup

/-- Move temporary files into place, after the targets already replaced. -/
def placeAll (done : List Placed) : List Staged → m (Except FileFailure (List Placed))
  | [] => return .ok done
  | staged :: rest => do
    match ← place staged with
    | .error fault =>
      discard (staged :: rest)
      restore done.reverse
      return .error ⟨staged.target, fault⟩
    | .ok backup =>
      progress .info s!"wrote {staged.target}"
      placeAll (done ++ [⟨staged.target, backup⟩]) rest

/-- Write artifacts into a directory; the paths of the written files in order. -/
def writeArtifacts (directory : String) (artifacts : Artifacts) :
    m (Except FileFailure (List String)) := do
  match ← Storage.createDirectories directory with
  | .error fault => return .error ⟨directory, fault⟩
  | .ok () =>
    match ← stage directory [] artifacts.toList with
    | .error failure => return .error failure
    | .ok staged =>
      match ← placeAll [] staged with
      | .error failure => return .error failure
      | .ok placed =>
        dropBackups placed
        return .ok (placed.map (·.target))

end DecoderGen.Writing
