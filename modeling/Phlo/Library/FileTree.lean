import Mathlib.Data.List.Basic
import Phlo.Library.OrderedDict

/-!
# Directory trees

A `FileTree` says what is found at each location, a list of names from the root.  A symbolic link knows
the location it leads to, if there is one.  A path is a list of names too, but may go through links and
dots: `resolve` follows it like `realpath`, whether or not anything is there, and `enter` like the
system, which goes through directories only.

* `node_put`, `node_remove` — what is where after a node has been put somewhere or removed.
-/

namespace Phlo.Library

abbrev Location := List String

/-- What is at a location; a link leads to a location that is not a link, or nowhere. -/
inductive Node (β : Type) where
  | directory
  | file (content : β)
  | link (target : Option Location)
  | special

structure FileTree (β : Type) where
  nodes : OrderedDict Location (Node β)

/-- The names in a text; `Path` drops empty ones and single dots. -/
def components (text : String) : List String :=
  ((text.toList.splitOn '/').map String.ofList).filter fun name => name ≠ "" ∧ name ≠ "."

def isAbsolute (text : String) : Bool := text.toList.head? = some '/'

/-- A location below another one as a text. -/
def posix (names : Location) : String := "/".intercalate names

namespace FileTree

variable {β : Type}

def empty : FileTree β := ⟨.empty⟩

/-- The root is a directory. -/
def node (t : FileTree β) (p : Location) : Option (Node β) :=
  if p = [] then some .directory else t.nodes.get p

def isDirectory (t : FileTree β) (p : Location) : Bool :=
  match t.node p with
  | some .directory => true
  | _ => false

def isLink (t : FileTree β) (p : Location) : Bool :=
  match t.node p with
  | some (.link _) => true
  | _ => false

def readFile (t : FileTree β) (p : Location) : Option β :=
  match t.node p with
  | some (.file content) => some content
  | _ => none

def follow (t : FileTree β) : Location → List String → Option Location
  | at_, [] => some at_
  | at_, name :: rest =>
    if name = ".." then t.follow at_.dropLast rest
    else
      match t.node (at_ ++ [name]) with
      | some (.link (some target)) => t.follow target rest
      | some (.link none) => none
      | _ => t.follow (at_ ++ [name]) rest

/-- The directory that names lead to, going through directories only. -/
def enter (t : FileTree β) : Location → List String → Option Location
  | at_, [] => if t.isDirectory at_ then some at_ else none
  | at_, name :: rest =>
    if t.isDirectory at_ then
      if name = ".." then t.enter at_.dropLast rest
      else
        match t.node (at_ ++ [name]) with
        | some (.link (some target)) => t.enter target rest
        | some (.link none) => none
        | _ => t.enter (at_ ++ [name]) rest
    else none

/-- The names of `base / text`. -/
def join (base : List String) (text : String) : List String :=
  (if isAbsolute text then [] else base) ++ components text

/-- `path.resolve()` -/
def resolve (t : FileTree β) (path : List String) : Option Location := t.follow [] path

/-- `path.is_symlink()` -/
def isSymlink (t : FileTree β) (path : List String) : Bool :=
  match path.getLast? with
  | none | some ".." => false
  | some name =>
    match t.enter [] path.dropLast with
    | some directory => t.isLink (directory ++ [name])
    | none => false

def readPath (t : FileTree β) (path : List String) : Option β :=
  (t.resolve path).bind t.readFile

/-- The regular files below a directory, by the names that lead there from it. -/
def filesBelow (t : FileTree β) (dir : Location) : List (List String) :=
  (t.nodes.items.filter fun item => dir <+: item.1 ∧ item.1 ≠ dir ∧ (t.readFile item.1).isSome).map
    fun item => item.1.drop dir.length

/-- Something is below a directory. -/
def hasEntries (t : FileTree β) (base : Location) : Bool :=
  t.nodes.items.any fun item => base <+: item.1 && item.1 != base

def put (t : FileTree β) (p : Location) (n : Node β) : FileTree β := ⟨t.nodes.set p n⟩

def remove (t : FileTree β) (p : Location) : FileTree β := ⟨t.nodes.erase p⟩

variable {t : FileTree β} {p q : Location} {n : Node β}

theorem node_put (hp : p ≠ []) : (t.put p n).node q = if q = p then some n else t.node q := by
  by_cases hq : q = []
  · subst hq
    rw [if_neg fun h => hp h.symm]
    rfl
  · rw [node, if_neg hq, put, OrderedDict.get_set, node, if_neg hq]

theorem node_remove (hp : p ≠ []) : (t.remove p).node q = if q = p then none else t.node q := by
  by_cases hq : q = []
  · subst hq
    rw [if_neg fun h => hp h.symm]
    rfl
  · rw [node, if_neg hq, remove, OrderedDict.get_erase, node, if_neg hq]

end FileTree

end Phlo.Library
