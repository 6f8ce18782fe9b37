import Dpll.Dimacs.ReadError
import Dpll.Files.Name

/-!
# File trees

A tree holds files and directories by their names, below one working directory. Names are resolved
part by part: an empty part or a dot stays where it is, two dots lead to the parent, anything else
must be in the directory reached so far.

Of what is outside the working directory little is known: the directories that hold it, and what
every system has below the topmost directory.
-/

set_option autoImplicit false

namespace Dpll.Files

inductive Found where
  | file (contents : ByteArray)
  | directory
  | absent (cause : Dimacs.OpenError)

structure Item where
  path : List String
  contents : Option ByteArray

/-- Files and directories, the newest first. -/
abbrev Tree := List Item

namespace Tree

/-! ## Making a tree -/

/-- Goes through the parts of a name from a path, whose parts are given the last first, and puts
every directory on the way into the tree. -/
def pass (tree : Tree) (reached : List String) : List String → Tree × List String
  | [] => (tree, reached)
  | part :: rest =>
    if part = "" ∨ part = "." then tree.pass reached rest
    else if part = ".." then tree.pass reached.tail rest
    else
      let reached := part :: reached
      pass ({ path := reached.reverse, contents := none } :: tree) reached rest

def insert (tree : Tree) (name : String) (contents : Option ByteArray) : Tree :=
  let (tree, reached) := tree.pass [] (parts name)
  { path := reached.reverse, contents } :: tree

/-- What every system has below the topmost directory: a file that is always empty, and the usual
directories. -/
def system : Tree :=
  let directories := ["bin", "boot", "dev", "etc", "home", "lib", "media", "mnt", "opt", "proc",
    "root", "run", "sbin", "srv", "sys", "tmp", "usr", "var"]
  { path := ["dev", "null"], contents := some .empty } ::
    directories.map fun name => { path := [name], contents := none }

/-! ## Following a name -/

/-- Where a name has led so far: to the working directory or below it, to a directory that holds it,
or to the topmost one or below it. The parts of a path are given the last first. -/
inductive Place where
  | inside (path : List String)
  | above
  | topmost (path : List String)

def Place.parent : Place → Place
  | .inside [] => .above
  | .inside (_ :: outer) => .inside outer
  | .above => .above
  | .topmost path => .topmost path.tail

def Place.child? (part : String) : Place → Option Place
  | .inside path => some (.inside (part :: path))
  | .above => none
  | .topmost path => some (.topmost (part :: path))

def lookup (tree : Tree) (path : List String) : Found :=
  if path.isEmpty then .directory
  else match tree.find? (·.path = path) with
    | some { contents := some contents, .. } => .file contents
    | some { contents := none, .. } => .directory
    | none => .absent .missing

def lookupPlace (tree : Tree) : Place → Found
  | .inside path => tree.lookup path.reverse
  | .above => .directory
  | .topmost path => system.lookup path.reverse

def longestPart : Nat := 255

def nameLimit : Nat := 4096

def follow (tree : Tree) (place : Place) : List String → Found
  | [] => tree.lookupPlace place
  | part :: rest =>
    match tree.lookupPlace place with
    | .file _ => .absent .notDirectory
    | .absent cause => .absent cause
    | .directory =>
      if part = "" ∨ part = "." then tree.follow place rest
      else if part = ".." then tree.follow place.parent rest
      else if longestPart < part.utf8ByteSize then .absent .nameTooLong
      else match place.child? part with
        | none => .absent .missing
        | some place => tree.follow place rest

/-- What a name leads to. A name that begins with a slash is followed from the topmost
directory. -/
def find (tree : Tree) (name : String) : Found :=
  if name.toList.contains '\x00' then .absent .nulInName
  else if name.isEmpty then .absent .missing
  else if nameLimit ≤ name.utf8ByteSize then .absent .nameTooLong
  else if name.toList.head? = some '/' then tree.follow (.topmost []) (parts name)
  else tree.follow (.inside []) (parts name)

end Tree

end Dpll.Files
