import KernelCensus.Files.Error
import KernelCensus.Path
import KernelCensus.Text.Utf8

/-!
# File trees

The contents of a disk as a value: which files, directories and symbolic links there are, and how a
path leads to one of them. A file has one place, so there are no hard links. Accesses fail for the
causes that an operating system gives. Nothing is ever forbidden.
-/

namespace KernelCensus

/-- The names that lead from the root directory to a place of a tree. -/
abbrev Location := List Text

def Location.path (location : Location) : Path :=
  ⟨if location.isEmpty then ['/'] else location.flatMap fun name => '/' :: name⟩

/-- What is at a place of a tree. -/
inductive FileNode
  | file (contents : Bytes)
  | directory
  | link (target : Path)
deriving Repr, DecidableEq

/-- A file tree and the directory that relative paths start from. -/
structure Tree where
  /-- What is at each place other than the root directory. -/
  nodes : List (Location × FileNode)
  current : Location
deriving Repr, DecidableEq

namespace Tree

/-- What is at a place, if anything. -/
def node? (tree : Tree) (location : Location) : Option FileNode :=
  if location = [] then some .directory else tree.nodes.lookup location

def put (tree : Tree) (location : Location) (node : FileNode) : Tree :=
  { tree with nodes := (location, node) :: tree.nodes.filter fun entry => entry.1 != location }

/-- The tree without what is at a place and below it. -/
def prune (tree : Tree) (location : Location) : Tree :=
  { tree with nodes := tree.nodes.filter fun entry => !location.isPrefixOf entry.1 }

/-! ## Following paths -/

/-- How many symbolic links may be followed on the way. -/
def linkLimit : Nat := 40

/-- The greatest length of a name, in bytes. -/
def nameLimit : Nat := 255

/-- A place has to be a directory for a path to go on from it. -/
def enter (tree : Tree) (location : Location) : Except FileError Unit :=
  match tree.node? location with
  | some .directory => .ok ()
  | some _ => .error .notDirectory
  | none => .error .notFound

/-- Follows the parts of a path from a place, through at most `links` symbolic links. The last part
need not exist. If it is a symbolic link, it is followed only if `follow` says so. -/
def walk (tree : Tree) (follow : Bool) (links : Nat) (location : Location) :
    List Path.Part → Except FileError Location
  | [] => .ok location
  | .root :: rest => walk tree follow links [] rest
  | .here :: rest => walk tree follow links location rest
  | .up :: rest =>
    match tree.enter location with
    | .error error => .error error
    | .ok () => walk tree follow links location.dropLast rest
  | .entry name :: rest =>
    match tree.enter location with
    | .error error => .error error
    | .ok () =>
      if (Utf8.encode name).length > nameLimit then .error .nameTooLong
      else match tree.node? (location ++ [name]) with
        | some (.link target) =>
          if rest.isEmpty && !follow then .ok (location ++ [name])
          else match links with
            | 0 => .error .linkLoop
            | links + 1 => walk tree follow links location (target.parts ++ rest)
        | some _ => walk tree follow links (location ++ [name]) rest
        | none => if rest.isEmpty then .ok (location ++ [name]) else .error .notFound
termination_by parts => (links, parts.length)

/-- The greatest length of a path, in bytes. -/
def pathLimit : Nat := 4095

/-- Why a path leads nowhere in any tree, if that is so. -/
def pathError? (path : Path) : Option FileError :=
  if path.text.any (· == '\x00') then some .nulInPath
  else if (Utf8.encode path.text).length > pathLimit then some .nameTooLong
  else none

/-- The place that a path leads to, where nothing need be. -/
def locate (tree : Tree) (follow : Bool) (path : Path) : Except FileError Location :=
  match pathError? path with
  | some error => .error error
  | none =>
    if path.text.isEmpty then .error .notFound
    else tree.walk follow linkLimit tree.current path.parts

/-- Whether the way a path is written asks for a directory: it ends in a slash or in `.`. -/
def asksForDirectory (path : Path) : Bool :=
  match (Text.splitAt '/' path.text).getLast? with
  | some piece => piece.isEmpty || piece == ['.']
  | none => false

/-- The place that a path leads to, and what is there. -/
def find (tree : Tree) (path : Path) : Except FileError (Location × FileNode) :=
  match tree.locate true path with
  | .error error => .error error
  | .ok location =>
    match tree.node? location with
    | none => .error .notFound
    | some .directory => .ok (location, .directory)
    | some node => if asksForDirectory path then .error .notDirectory else .ok (location, node)

/-! ## Reading -/

def read (tree : Tree) (path : Path) : Except FileError Bytes :=
  match tree.find path with
  | .error error => .error error
  | .ok (_, .file contents) => .ok contents
  | .ok (_, _) => .error .isDirectory

def isDirectory (tree : Tree) (path : Path) : Bool :=
  match tree.find path with
  | .ok (_, .directory) => true
  | _ => false

def isFile (tree : Tree) (path : Path) : Bool :=
  match tree.find path with
  | .ok (_, .file _) => true
  | _ => false

/-- The name of a place in a directory, if it is right in it. -/
def nameIn? (directory place : Location) : Option Text :=
  match place.getLast? with
  | some name => if place.dropLast = directory then some name else none
  | none => none

/-- The names of the regular files in a directory. Symbolic links are not followed. -/
def filesIn (tree : Tree) (path : Path) : Except FileError (List Text) :=
  match tree.find path with
  | .error error => .error error
  | .ok (location, .directory) =>
    .ok (tree.nodes.filterMap fun entry =>
      match entry.2 with
      | .file _ => nameIn? location entry.1
      | _ => none)
  | .ok (_, _) => .error .notDirectory

/-- The absolute path without symbolic links to what is at a path. -/
def canonical (tree : Tree) (path : Path) : Except FileError Path :=
  (tree.find path).map fun found => Location.path found.1

def currentPath (tree : Tree) : Except FileError Path :=
  (tree.enter tree.current).map fun _ => Location.path tree.current

/-! ## Writing

A write that fails may have changed the tree, so it answers a tree in any case. -/

/-- Writes a file, in the place of the one that is there. -/
def write (tree : Tree) (path : Path) (contents : Bytes) : Except FileError Unit × Tree :=
  match tree.locate true path with
  | .error error => (.error error, tree)
  | .ok location =>
    match tree.node? location with
    | some .directory => (.error .isDirectory, tree)
    | _ =>
      if asksForDirectory path then (.error .isDirectory, tree)
      else (.ok (), tree.put location (.file contents))

def makeDir (tree : Tree) (parts : List Path.Part) : Except FileError Unit × Tree :=
  match tree.walk false linkLimit tree.current parts with
  | .error error => (.error error, tree)
  | .ok location =>
    match tree.node? location with
    | some _ => (.error .alreadyExists, tree)
    | none => (.ok (), tree.put location .directory)

/-- Whether parts lead to a directory. -/
def leadsToDirectory (tree : Tree) (parts : List Path.Part) : Bool :=
  match tree.walk true linkLimit tree.current parts with
  | .ok location => tree.node? location == some .directory
  | .error _ => false

/-- Makes the directory that reversed parts lead to, after the ones above it. -/
def makeDirsTo (tree : Tree) : List Path.Part → Except FileError Unit × Tree
  | [] => (.ok (), tree)
  | part :: above =>
    let parts := (part :: above).reverse
    match tree.makeDir parts with
    | (.ok (), made) => (.ok (), made)
    | (.error .notFound, _) =>
      match tree.makeDirsTo above with
      | (.error error, made) => (.error error, made)
      | (.ok (), made) =>
        match made.makeDir parts with
        | (.ok (), made) => (.ok (), made)
        | (.error error, made) =>
          (if made.leadsToDirectory parts then .ok () else .error error, made)
    | (.error error, _) => (if tree.leadsToDirectory parts then .ok () else .error error, tree)

/-- Makes the directory at a path and the ones above it, as far as they are missing. -/
def makeDirs (tree : Tree) (path : Path) : Except FileError Unit × Tree :=
  match pathError? path with
  | some error => (.error error, tree)
  | none => tree.makeDirsTo path.parts.reverse

def link (tree : Tree) (path target : Path) : Except FileError Unit × Tree :=
  match tree.locate false path with
  | .error error => (.error error, tree)
  | .ok location =>
    match tree.node? location with
    | some _ => (.error .alreadyExists, tree)
    | none => (.ok (), tree.put location (.link target))

/-- Removes what is at a path, with all below it. -/
def remove (tree : Tree) (path : Path) : Except FileError Unit × Tree :=
  match tree.locate false path with
  | .error error => (.error error, tree)
  | .ok location =>
    match tree.node? location with
    | none => (.error .notFound, tree)
    | some _ => (.ok (), tree.prune location)

end Tree

end KernelCensus
