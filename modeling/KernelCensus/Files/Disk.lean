import KernelCensus.Files.Tree

/-!
# Disks

What a command may ask of the disk it works on. The commands look at a disk only through this, so
they run on a real one and on a file tree that is given as a value. Nothing here changes the disk.
-/

namespace KernelCensus

/-- A disk to look at. -/
structure Disk (m : Type → Type) where
  currentPath : m (Except FileError Path)
  /-- The absolute path without symbolic links to what is at a path. -/
  canonical : Path → m (Except FileError Path)
  read : Path → m (Except FileError Bytes)
  isDirectory : Path → m Bool
  isFile : Path → m Bool
  /-- The names of the regular files in a directory, in any order. -/
  filesIn : Path → m (Except FileError (List Text))
  now : m Text

/-- A file tree at a time, as a disk. -/
def Tree.disk (tree : Tree) (now : Text) : Disk Id where
  currentPath := tree.currentPath
  canonical := tree.canonical
  read := tree.read
  isDirectory := tree.isDirectory
  isFile := tree.isFile
  filesIn := tree.filesIn
  now := now

end KernelCensus
