/-
The program: it looks at the paths that the command line leads to, runs, and prints.
-/
import InferTrace.Command.Run
import InferTrace.Config.Decoders

namespace InferTrace

/-- How deep expressions, types and configurations may be nested. A level of the parser takes twice
the room of one of inference. -/
def nestingBounds : Command.Bounds where
  run := { parsing := 240, walking := 480, room := fun _ => 330, showing := 330, closing := 330 }
  exporting := 480
  parsing := 240
  printing := 480
  settings := 480

/-- What a path leads to. A directory opens but cannot be read; a path through a file does not
open. -/
def lookAt (path : Text.Points) : IO (Except PathFault Item) := do
  let some name := path.string? | return .error .unencodable
  if name.contains '\x00' then return .error .nullCharacter
  try
    let bytes ← IO.FS.readBinFile name
    return .ok (.file bytes)
  catch
    | .inappropriateType none _ _ => return .ok .directory
    | .inappropriateType (some _) _ _ => return .error .notDirectory
    | .invalidArgument _ _ _ => return .error .nameTooLong
    | .permissionDenied _ _ details => return .ok (.locked details)
    | _ => return .error .missing

/-- The message of an abort. -/
def Abort.message : Abort → String
  | .undecodable => "a file is not UTF-8"
  | .unopened fault => fault.message
  | .noPath => "a file to be opened has no path"
  | .noDirectory => "there is no working directory"
  | .scalar fault => fault.message
  | .decoder reason => reason
  | .tooDeep => "nested too deeply"
  | .tooLong => "a number is too long"
  | .rebound r => r.message

end InferTrace

open InferTrace in
/-- Run the program on the words of the command line. -/
def main (words : List String) : IO UInt32 := do
  let cwd ← try
      let here := (← IO.currentDir).toString
      pure (some (normalize [] (Text.Points.ofString here)))
    catch _ => pure none
  let paths := Command.consulted cwd words
  let found ← paths.mapM fun path => do return (path, ← lookAt path)
  let stdout ← IO.getStdout
  let stderr ← IO.getStderr
  let world : Command.World :=
    { look := fun path => (found.lookup path).getD (.error .missing)
      cwd
      decoders := .standard nestingBounds.settings
      terminal := ← stdout.isTty
      noColor := (← IO.getEnv "NO_COLOR").isSome }
  match Command.run nestingBounds world words with
  | .error abort =>
    stderr.putStrLn abort.message
    return 1
  | .ok result =>
    result.remarks.forM fun remark => stderr.putStrLn remark.line.face
    stdout.putStr result.text
    return result.status.toUInt32
