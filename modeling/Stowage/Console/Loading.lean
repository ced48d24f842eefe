import Stowage.Console.Basics
import Stowage.Settings.Load
namespace Stowage.Console

open Stowage.Json
open Stowage.Settings

/-- The settings file a command describes: `file` with a text and a format (TOML unless given
as a string), or the name of a `missing_file`. -/
def readFileSource (cmd : Value) : Decode FileSource := do
  match present? cmd "file" with
  | some spec =>
    let text ← str spec "text"
    return .present "<file>" ((strLoose spec "format").getD "toml") text
  | none =>
    match strLoose cmd "missing_file" with
    | some _ => return .missing "<file>"
    | none => return .none

def readEnvironment (cmd : Value) : Decode (List (String × String)) := do
  match present? cmd "env" with
  | some (.obj vars) => vars.mapM fun (k, v) =>
    match v with
    | .str s => pure (k, s)
    | _ => throw "env"
  | some _ => throw "env must be an object"
  | none => return []

/-- `config_load`: settings loaded from a file and the environment, or why they cannot be. -/
def settingsLoad (cmd : Value) : Decode Value := do
  let file ← readFileSource cmd
  let vars ← readEnvironment cmd
  return match Settings.load file vars with
    | .ok s => Value.ofFields [("config", s.toJson)]
    | .error (.fault f) => faultAnswer f
    | .error (.crash m) => errorAnswer "Panic" m

end Stowage.Console
