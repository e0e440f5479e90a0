import DocSplice.Session

/-!
# DocSplice.Main

The command. It takes a picture of the files that the execution looks at, executes, and puts the
result into effect. Whether a file is included, and which, is known before any directive is
evaluated, so three looks are enough: at the environment file, at input and output, and at the
included files.
-/

namespace DocSplice
namespace Command

/-- What stands at an absolute path whose parent is a directory. -/
def look (path : Text) : IO (Option Entry) := do
  try
    return some (.file (← IO.FS.readBinFile (String.ofList path)))
  catch
    | .inappropriateType .. => return some .directory
    | _ => return none

/-- Takes what stands at a place into the picture. -/
def record (t : FileTree) (place : Place) : IO FileTree := do
  match place with
  | [] => return t
  | _ :: up =>
    if (t.find? place).isSome || t.find? up != some .directory then return t
    match ← look place.path.text with
    | some .directory => return t.makeDirectories place
    | some (.file contents) => return t.install contents place
    | none => return t

/-- Takes into the picture what the execution looks at. -/
def survey (s : Session) : IO Session := do
  let tree ← s.stops.foldlM record s.tree
  return { s with tree }

/-- The rest of a stream, behind `done`. -/
partial def readAll (stream : IO.FS.Stream) (done : ByteArray) : IO ByteArray := do
  let bytes ← stream.read 65536
  if bytes.isEmpty then return done else readAll stream (done ++ bytes)

/-- A variable of the process, if it is set. -/
def inherited (name : Text) : IO Environment := do
  match ← IO.getEnv (String.ofList name) with
  | some value => return [(name, value.toList)]
  | none => return []

def find (arguments : List String) : IO Session := do
  let current := Path.place [] ⟨(← IO.currentDir).toString.toList⟩
  let s ← survey
    { arguments := arguments.map String.toList
      inherited := []
      stdin := ByteArray.empty
      current
      tree := FileTree.empty.makeDirectories current }
  let s := { s with inherited := (← s.wanted.mapM inherited).flatten }
  let stdin ← if s.readsStdin then readAll (← IO.getStdin) ByteArray.empty else pure s.stdin
  survey (← survey { s with stdin })

end Command
end DocSplice

open DocSplice

def main (arguments : List String) : IO UInt32 := do
  let s ← Command.find arguments
  let o := s.outcome
  if let some (p, contents) := s.written? o then
    IO.FS.writeBinFile (String.ofList p.text) contents
  let stdout ← IO.getStdout
  stdout.putStr (String.ofList o.stdout)
  stdout.flush
  let stderr ← IO.getStderr
  stderr.putStr (String.ofList o.stderr)
  stderr.flush
  return UInt32.ofNat o.status
