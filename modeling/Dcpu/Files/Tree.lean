import Dcpu.Text.Quoted

/-!
# Files

A tree of files and directories as a program sees it from its working directory, and what reading,
writing and looking for a file by name do to it.

A name is split at the slashes and walked component by component: an empty component and `.` stay
where they are, `..` goes up, and every component but the last has to lead to a directory. A name
and each of its components have a greatest length in octets of UTF-8. Of what lies outside the
working directory nothing is known, except that the directories above it and the root are there.

Links, devices and permissions are left out: every node is a plain file or a directory, and what is
there may be read and written.
-/

namespace Dcpu.Files

/-- What a path leads to. -/
inductive Node where
  | file (content : List UInt8)
  | directory
  deriving DecidableEq, Repr

/-- A path from the working directory; above it stand components `..`, and `/` is the root. -/
abbrev Path := List String

/-- A tree of files: every path in it with its node. -/
structure Tree where
  nodes : List (Path × Node) := []
  deriving DecidableEq, Repr

/-- Why the system refuses to open a file. -/
inductive Problem where
  | missing
  | notDirectory
  | isDirectory
  | nameTooLong
  deriving DecidableEq, Repr

namespace Problem

/-- The number of a problem. -/
def number : Problem → Nat
  | missing => 2
  | notDirectory => 20
  | isDirectory => 21
  | nameTooLong => 36

/-- The words for a problem. -/
def text : Problem → String
  | missing => "No such file or directory"
  | notDirectory => "Not a directory"
  | isDirectory => "Is a directory"
  | nameTooLong => "File name too long"

end Problem

/-- Why a file could not be opened: the system refuses its name, or the name holds a null
character. -/
inductive Error where
  | system (problem : Problem) (name : String)
  | nullCharacter
  deriving DecidableEq, Repr

/-- The message of an error. -/
def Error.message : Error → String
  | system problem name =>
    s!"[Errno {Text.decimal problem.number}] {problem.text}: {Text.quote name}"
  | nullCharacter => "embedded null byte"

/-- Where a name leads: to a node that is there, or to a free place in a directory. -/
inductive Place where
  | occupied (path : Path) (node : Node)
  | vacant (path : Path)

/-- The components of a name. -/
def components (name : String) : List String :=
  (name.toList.splitOn '/').map String.ofList

/-- The greatest number of octets in a component. -/
def componentLimit : Nat := 255

/-- The greatest number of octets in a name. -/
def nameLimit : Nat := 4095

/-- The path that a name spells, without the components that lead nowhere. -/
def spelledPath (name : String) : Path :=
  (components name).filter fun component => !(component == "" || component == ".")

/-- The slashes that stand before a path in plain form: two are kept, and more count as one. -/
def leadingSlashes (name : String) : String :=
  match (name.toList.takeWhile (· == '/')).length with
  | 0 => ""
  | 2 => "//"
  | _ => "/"

/-- The plain form of a name, without the components that lead nowhere. -/
def plainName (name : String) : String :=
  let plain := leadingSlashes name ++ "/".intercalate (spelledPath name)
  if plain.isEmpty then "." else plain

/-- The component that stands for the root. -/
def root : String := "/"

/-- A path as text. -/
def renderPath : Path → String
  | [] => "."
  | first :: rest =>
    if first = root then root ++ "/".intercalate rest else "/".intercalate (first :: rest)

/-- Tells whether a path leads into the working directory. -/
def isInside (path : Path) : Bool :=
  path.head? != some root && path.head? != some ".."

/-- The path one level up. -/
def parent (path : Path) : Path :=
  if path = [root] then path
  else if path.all (· == "..") then ".." :: path
  else path.dropLast

/-- The path from which a name is walked. -/
def start (name : String) : Path :=
  if name.toList.head? = some '/' then [root] else []

namespace Tree

/-- The node at a path. -/
def node? (tree : Tree) (path : Path) : Option Node :=
  if path = [root] ∨ path.all (· == "..") then some .directory else tree.nodes.lookup path

/-- Walks components from a directory. The length of a component is checked when its turn comes. -/
def walk (tree : Tree) (directory : Path) : List String → Except Problem Place
  | [] => .ok (.occupied directory .directory)
  | component :: rest =>
    if component = "" ∨ component = "." then tree.walk directory rest
    else if component = ".." then tree.walk (parent directory) rest
    else if componentLimit < component.utf8ByteSize then .error .nameTooLong
    else
      let path := directory ++ [component]
      match tree.node? path with
      | some .directory => tree.walk path rest
      | some (.file content) =>
        if rest.isEmpty then .ok (.occupied path (.file content)) else .error .notDirectory
      | none => if rest.isEmpty then .ok (.vacant path) else .error .missing

/-- Walks components from the place where a name starts, unless the name is empty or too long. -/
def walkName (tree : Tree) (name : String) (parts : List String) : Except Problem Place :=
  if name.isEmpty then .error .missing
  else if nameLimit < name.utf8ByteSize then .error .nameTooLong
  else tree.walk (start name) parts

/-- The place to which a name leads. -/
def find (tree : Tree) (name : String) : Except Problem Place :=
  tree.walkName name (components name)

/-- The place to which a name leads for writing. A name that ends in a slash stands for a directory,
and its last component is not looked up: only the directory that would hold it has to be there. -/
def findOutput (tree : Tree) (name : String) : Except Problem Place :=
  let parts := components name
  if parts.getLast? = some "" then do
    let holder := (parts.reverse.dropWhile (· == "")).tail.reverse
    let _ ← tree.walkName name (holder ++ ["."])
    .error .isDirectory
  else tree.walkName name parts

/-- Puts a node at a path. -/
def put (tree : Tree) (path : Path) (node : Node) : Tree :=
  if tree.nodes.any (·.1 == path) then
    ⟨tree.nodes.map fun entry => if entry.1 == path then (path, node) else entry⟩
  else ⟨tree.nodes ++ [(path, node)]⟩

end Tree

/-- Checks a name and turns a problem with it into an error. -/
def named {α : Type} (name : String) (result : Except Problem α) : Except Error α :=
  if name.toList.contains (Char.ofNat 0) then .error .nullCharacter
  else result.mapError (Error.system · name)

namespace Tree

/-- Tells whether a name leads to a file or directory. Its plain form is looked up, so that the
empty name stands for the working directory and slashes at the end do not count. A name with a null
character leads nowhere, and a plain form that is too long is an error. -/
def contains (tree : Tree) (name : String) : Except Error Bool :=
  if name.toList.contains (Char.ofNat 0) then .ok false
  else
    match tree.find (plainName name) with
    | .ok (.occupied ..) => .ok true
    | .error .nameTooLong => .error (.system .nameTooLong (plainName name))
    | _ => .ok false

/-- The content of the file with a name. -/
def read (tree : Tree) (name : String) : Except Error (List UInt8) :=
  named name <|
    match tree.find name with
    | .ok (.occupied _ (.file content)) => .ok content
    | .ok (.occupied _ .directory) => .error .isDirectory
    | .ok (.vacant _) => .error .missing
    | .error problem => .error problem

/-- The tree in which the file with a name has a content; the file is created if it is missing. -/
def write (tree : Tree) (name : String) (content : List UInt8) : Except Error Tree :=
  named name <|
    match tree.findOutput name with
    | .ok (.occupied path (.file _)) | .ok (.vacant path) => .ok (tree.put path (.file content))
    | .ok (.occupied _ .directory) => .error .isDirectory
    | .error problem => .error problem

/-- Adds a directory with the directories above it. -/
def makeDirectory (tree : Tree) (path : Path) : Tree :=
  (List.range (path.length + 1)).foldl (fun tree n =>
    if (tree.node? (path.take n)).isSome then tree else tree.put (path.take n) .directory) tree

/-- Adds a file with the directories above it. -/
def makeFile (tree : Tree) (path : Path) (content : List UInt8) : Tree :=
  (tree.makeDirectory path.dropLast).put path (.file content)

/-- The tree with the given directories and files and the directories above them. -/
def ofEntries (directories : List String) (files : List (String × List UInt8)) : Tree :=
  files.foldl (fun tree (name, content) => tree.makeFile (spelledPath name) content)
    (directories.foldl (fun tree name => tree.makeDirectory (spelledPath name)) {})

/-- The files of a tree with their contents. -/
def files (tree : Tree) : List (Path × List UInt8) :=
  tree.nodes.filterMap fun
    | (path, .file content) => some (path, content)
    | (_, .directory) => none

/-- The files of a later tree that are new or have another content. -/
def changes (before after : Tree) : List (Path × List UInt8) :=
  after.files.filter fun (path, content) => before.node? path != some (.file content)

end Tree

end Dcpu.Files
