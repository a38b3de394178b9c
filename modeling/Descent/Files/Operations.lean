import Descent.Files.Tree

/-!
# Operations on files

What a program does with files is said once, for any system that offers the operations
it needs. A tree of files is such a system: the tree is the state, and a refused
operation leaves in it what was done up to then.
-/

namespace Descent.Files

/-- The operations of a system of files, each of which may be refused. -/
structure FileOperations (m : Type → Type) where
  /-- The text of the file at a path. -/
  readText (path : String) : m (Except FileError String)
  /-- Makes the first of some directories, each of which lies in the next one; those that are
  missing above it are made first. -/
  makeDirectories (paths : List String) : m (Except FileError Unit)
  /-- Writes a text to the file at a path, which is made if it is not there. -/
  writeText (path contents : String) : m (Except FileError Unit)

/-- The operations on a tree of files. -/
def FileTree.operations : FileOperations (StateM FileTree) where
  readText path := fun t => (t.readText path, t)
  makeDirectories paths := fun t => (t.makeDirectories paths).swap
  writeText path contents := fun t =>
    match t.writeText path contents with
    | .ok t => (.ok (), t)
    | .error e => (.error e, t)

namespace FileTree

variable (t : FileTree) (path contents : String) (paths : List String)

@[simp] theorem run_readText : (operations.readText path).run t = pure (t.readText path, t) := rfl

@[simp] theorem run_makeDirectories :
    (operations.makeDirectories paths).run t = pure (t.makeDirectories paths).swap := rfl

@[simp] theorem run_writeText : (operations.writeText path contents).run t =
    match t.writeText path contents with
    | .ok t => pure (.ok (), t)
    | .error e => pure (.error e, t) := rfl

end FileTree
end Descent.Files
