import FluentWrappers.Build.Request
import FluentWrappers.Command.Run

/-!
# The program (`SPEC_FULL.md`, 10.9)

Runs its command line on the files of the system.
-/

namespace FluentWrappers

def attempt {α : Type} (action : IO α) : IO (Except FileFault α) := do
  try return .ok (← action)
  catch e => return .error (.other (toString e))

def succeeds {α : Type} (action : IO α) : IO Bool := do
  return (← attempt action).toBool

instance : FileSystem IO where
  contains path := succeeds (IO.FS.Handle.mk path .read)
  isFile path := succeeds (IO.FS.readBinFile path)
  read path := attempt do return (← IO.FS.readBinFile path).toList
  write path bytes := attempt (IO.FS.writeBinFile path ⟨bytes.toArray⟩)
  remove path := attempt (IO.FS.removeFile path)
  makeFolders path := attempt (IO.FS.createDirAll path)

end FluentWrappers

open FluentWrappers in
def main (arguments : List String) : IO UInt32 := do
  let guid := Build.guidText (← IO.getRandomBytes 16).toList
  let ended ← Command.run guid arguments
  (← IO.getStdout).putStr ended.output
  (← IO.getStderr).putStr ended.errors
  return ended.status.toUInt32
