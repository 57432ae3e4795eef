/-
  Sluice.Main

  The command line: runs the program in the file given as its argument, or else on standard
  input.

  `SLUICE_CONFIG` names a configuration file, and `SLUICE_REPORT=1` asks for a report on standard
  error.
-/

import Sluice.Cli

namespace Sluice.Main

/-- The text of a file, if it can be read. -/
def fileText? (path : String) : IO (Option String) := do
  try
    return some (← IO.FS.readFile path)
  catch _ =>
    return none

/-- All of standard input, if it is text. -/
def inputText? : IO (Option String) := do
  try
    return some (← (← IO.getStdin).readToEnd)
  catch _ =>
    return none

/-- The configuration file at the default place. -/
def defaultConfigPath? : IO (Option String) := do
  match ← IO.getEnv "XDG_CONFIG_HOME" with
  | some folder =>
    if folder.startsWith "/" then return some (folder ++ "/sluice/engine.toml")
  | none => pure ()
  return (← IO.getEnv "HOME").map (· ++ "/.config/sluice/engine.toml")

/-- Gather what the command line is given. -/
def request (args : List String) : IO Cli.Request := do
  let program ←
    match args with
    | path :: _ => fileText? path
    | [] => inputText?
  let path := Cli.chosenConfig (← IO.getEnv "SLUICE_CONFIG") (← defaultConfigPath?)
  let config ←
    match path with
    | some path => fileText? path
    | none => pure none
  return { program, config, report := ← IO.getEnv "SLUICE_REPORT" }

end Sluice.Main

/-- Run the command line. -/
def main (args : List String) : IO UInt32 := do
  let response := Sluice.Cli.respond (← Sluice.Main.request args)
  IO.print response.stdout
  match response.report with
  | some report => IO.eprintln (report.pretty 0)
  | none => pure ()
  return response.code.toUInt32
