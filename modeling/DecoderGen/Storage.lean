import DecoderGen.Event
import DecoderGen.FileTree

/-! # Access to files

The file operations a run may use, together with the reporting of events. A run is written once
against these operations. A `Workspace` carries them out on a file tree; the program itself carries
them out on the files of its machine.
-/

namespace DecoderGen

/-- File operations and reports in a monad. -/
class Storage (m : Type → Type) where
  read : String → m (Except FileFault ByteArray)
  write : String → ByteArray → m (Except FileFault Unit)
  remove : String → m (Except FileFault Unit)
  rename : String → String → m (Except FileFault Unit)
  createDirectories : String → m (Except FileFault Unit)
  isFile : String → m Bool
  report : Event → m Unit

/-- A file operation that failed, with the path it was for. -/
structure FileFailure where
  path : String
  fault : FileFault
deriving DecidableEq, Repr

/-- The wording of a failed file operation. -/
def FileFailure.message (failure : FileFailure) : String :=
  s!"{failure.path}: {failure.fault.message}"

/-- A file tree with the events reported so far. -/
structure Workspace where
  tree : FileTree := {}
  events : List Event := []

namespace Workspace

/-- Replace the tree if an operation on it succeeds. -/
def update (operation : FileTree → Except FileFault FileTree) :
    StateM Workspace (Except FileFault Unit) := fun workspace =>
  match operation workspace.tree with
  | .error fault => (.error fault, workspace)
  | .ok tree => (.ok (), { workspace with tree })

/-- Replace the tree by the outcome of an operation that may fail halfway. -/
def advance (operation : FileTree → Except FileFault Unit × FileTree) :
    StateM Workspace (Except FileFault Unit) := fun workspace =>
  let (result, tree) := operation workspace.tree
  (result, { workspace with tree })

instance : Storage (StateM Workspace) where
  read path := fun workspace => (workspace.tree.read path, workspace)
  write path contents := update (·.write path contents)
  remove path := update (·.remove path)
  rename source target := update (·.rename source target)
  createDirectories path := advance (·.createDirectories path)
  isFile path := fun workspace => (workspace.tree.isFile path, workspace)
  report event := fun workspace =>
    ((), { workspace with events := workspace.events ++ [event] })

end Workspace

/-- Report events in order. -/
def reportAll {m : Type → Type} [Monad m] [Storage m] : List Event → m Unit
  | [] => pure ()
  | event :: rest => do
    Storage.report event
    reportAll rest

end DecoderGen
