import Dcpu.Command.Run

/-!
# The command

The outer layer of the command line: it looks at the files that the arguments name, runs the command
on them, writes the files that have changed and prints what there is to print.
-/

namespace Dcpu.Main

/-- The content of a file, or nothing where there is none. -/
def readFile? (name : String) : IO (Option (List UInt8)) := do
  try
    return some (← IO.FS.readBinFile name).toList
  catch _ =>
    return none

/-- Tells whether a name leads to a directory: only there can `.` be opened. -/
def isDirectory (name : String) : IO Bool := do
  try
    discard (IO.FS.Handle.mk (name ++ "/.") .read)
    return true
  catch _ =>
    return false

/-- Adds to a tree what lies on the way that a name describes. -/
def look (tree : Files.Tree) (name : String) : IO Files.Tree := do
  let parts := Files.components name
  let mut tree := tree
  let mut path := Files.start name
  for (part, index) in parts.zipIdx do
    if part = ".." then
      path := Files.parent path
    else unless part = "" || part = "." do
      path := path ++ [part]
      let way := "/".intercalate (parts.take (index + 1))
      if ← isDirectory way then
        tree := tree.put path .directory
      else if let some content ← readFile? way then
        tree := tree.put path (.file content)
  return tree

/-- Reads a stream to its end. -/
partial def readAll (stream : IO.FS.Stream) (done : ByteArray) : IO ByteArray := do
  let chunk ← stream.read 65536
  if chunk.isEmpty then return done else readAll stream (done ++ chunk)

/-- The names of the files that a request is about, and whether it reads the standard input. -/
def concerns (arguments : List String) : List String × Bool :=
  match Command.Request.ofArguments arguments with
  | .ok (.run options) =>
    if options.input = Command.standardInput then (options.target.toList, true)
    else (options.input :: options.target.toList, false)
  | _ => ([], false)

end Dcpu.Main

/-- Runs the command. -/
def main (arguments : List String) : IO UInt32 := do
  let (names, readsInput) := Dcpu.Main.concerns arguments
  let before ← names.foldlM Dcpu.Main.look {}
  let input ← if readsInput then Dcpu.Main.readAll (← IO.getStdin) .empty else pure .empty
  match Dcpu.Command.run before input.toList arguments with
  | .error e =>
    (← IO.getStderr).putStrLn e.message
    return 1
  | .ok report =>
    for (path, content) in before.changes report.files do
      IO.FS.writeBinFile (Dcpu.Files.renderPath path) ⟨content.toArray⟩
    (← IO.getStdout).putStr report.output
    (← IO.getStderr).putStr report.errors
    return report.exit.toUInt32
