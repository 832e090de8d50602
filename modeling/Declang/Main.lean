import Declang.Command
namespace Declang

/-- What is found at a path on disk. System calls report their code with either sign. -/
def readFile (path : String) : IO (Except FileFault FileContent) := do
  try
    let bytes ← IO.FS.readBinFile path
    let metadata ← (← IO.FS.realPath path).metadata
    return .ok ⟨bytes.toList, metadata.type == .file⟩
  catch
    | .noFileOrDirectory .. => return .error .notFound
    | .inappropriateType _ code _ =>
      return .error (if code.toInt32.toInt.natAbs = 20 then .notDirectory else .isDirectory)
    | e => return .error (.other (toString e))

/-- Reads each of the files that a request may look at. -/
def readFiles (paths : List String) : IO FileView := do
  let found ← paths.mapM fun path => return (path, ← readFile path)
  return fun path => (found.lookup path).getD (.error .notFound)

end Declang

open Declang in
def main (arguments : List String) : IO UInt32 := do
  let paths := match Request.ofArguments arguments with
    | .ok request => Command.paths request
    | .error _ => []
  let outcome := Command.run (← readFiles paths) arguments
  IO.print outcome.stdout
  IO.eprint outcome.stderr
  return outcome.code
