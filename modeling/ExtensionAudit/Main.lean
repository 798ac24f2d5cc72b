import ExtensionAudit.CommandLine.Run

/-!
The program. It reads the file tree below the working directory, makes a run of it, and carries out
what the run changed in the tree and printed.
-/

namespace ExtensionAudit

/-- Why a file of the disk cannot be read. -/
def fileErrorOf : IO.Error → FileError
  | .noFileOrDirectory .. => .notFound
  | .permissionDenied .. => .permissionDenied
  | .noSuchThing .. => .noSuchDevice
  | _ => .inputOutput

/-- What stands at one place of the disk. A link is taken for what it leads to. -/
def readEntry (found : IO.FS.DirEntry) : IO Entry := do
  let info ← found.path.symlinkMetadata
  if info.type == .symlink && !(← found.path.pathExists) then return .danglingLink
  if ← found.path.isDir then return .directory
  try
    let content ← IO.FS.readBinFile found.path
    return .file content.toList
  catch error => return .unreadable (fileErrorOf error)

/-- Reads what lies below directories, with its components. Links to directories are not followed,
and a directory that cannot be listed is taken for an empty one. -/
partial def readEntries (place : List String) (found : List IO.FS.DirEntry) :
    IO (List (List String × Entry)) := do
  match found with
  | [] => return []
  | next :: rest =>
    let parts := place ++ [next.fileName]
    let here ← readEntry next
    let inside ← do
      if here == .directory && (← next.path.symlinkMetadata).type == .dir then
        readEntries parts (← try next.path.readDir catch _ => pure #[]).toList
      else pure []
    let later ← readEntries place rest
    return (parts, here) :: inside ++ later

def readWorkingTree : IO FileTree := do
  return ⟨← readEntries [] (← (← IO.currentDir).readDir).toList⟩

def writeEntry (parts : List String) : Entry → IO Unit
  | .directory => IO.FS.createDirAll (String.intercalate "/" parts)
  | .file content =>
    IO.FS.writeBinFile (String.intercalate "/" parts) (ByteArray.mk content.toArray)
  | .unreadable _ | .danglingLink => pure ()

def writeChanges (old new : FileTree) : IO Unit :=
  new.entries.forM fun (parts, entry) =>
    if old.entry? parts == some entry then pure () else writeEntry parts entry

/-- The exit code of a run, and what is said of a fault that nothing is prepared for. -/
def exitOf : CommandLine.Ending → UInt32 × String
  | .exit code => (UInt32.ofNat code, "")
  | .setup fault => (1, fault.message ++ "\n")
  | .output fault => (1, fault.message ++ "\n")

end ExtensionAudit

open ExtensionAudit in
def main (commandLine : List String) : IO UInt32 := do
  let tree ← readWorkingTree
  let run := CommandLine.run (← IO.appDir).toString commandLine tree
  writeChanges tree run.tree
  let (code, complaint) := exitOf run.ending
  IO.print run.stdout
  IO.eprint (run.stderr ++ complaint)
  return code
