import Arith.Command.Run

/-! The command: reads the file if there is one to read, and prints. -/

set_option autoImplicit false

open Arith.Command

def readSource (path : String) : IO (Except ReadError String) := do
  match ← (IO.FS.readBinFile path).toBaseIO with
  | .ok bytes => return decode bytes
  | .error (.noFileOrDirectory _ _ _) => return .error .notFound
  | .error (.inappropriateType _ 21 _) => return .error .isDirectory
  | .error (.inappropriateType _ _ _) => return .error .notDirectory
  | .error (.permissionDenied _ _ _) => return .error .permissionDenied
  | .error cause => return .error (.other (toString cause))

def main (arguments : List String) : IO UInt32 := do
  let request := Request.ofArguments arguments
  let file ←
    match request with
    | .run options => if options.file then readSource options.contents else pure (.error .notFound)
    | _ => pure (.error .notFound)
  let output := respond request file
  IO.print output.stdout
  IO.eprint output.stderr
  return output.exitCode.toUInt32
