import Stowage.Soak.Cli
/-!
The soak program: reads its arguments, the variables that concern it and the settings file they
name, runs, and writes what the run says.

A settings file is found at its path, or else at the path with a known extension added.
-/
open Stowage Stowage.Settings Stowage.Soak.Cli

/-- The text of a file, if it can be read. -/
def readText? (path : String) : IO (Option String) := do
  try
    return some (← IO.FS.readFile path)
  catch _ =>
    return none

/-- Find the settings file a path names: the first of its candidate paths that can be read. -/
def findSettingsFile (path : String) : IO FileSource := do
  for p in candidatePaths path do
    if let some text ← readText? p then
      return FileSource.ofFound path (some (p, text))
  return FileSource.ofFound path none

/-- Run the soak program. -/
def main (args : List String) : IO UInt32 := do
  let names := configVariable :: settingVariables
  let env ← names.filterMapM fun n => do return (← IO.getEnv n).map (n, ·)
  let exit ← match request args env with
    | .error e => pure e
    | .ok req => do
      let file ← match req.config with
        | some path => findSettingsFile path
        | none => pure FileSource.none
      pure (execute req env file)
  IO.print exit.stdout
  IO.eprint exit.stderr
  return exit.status.toUInt32
