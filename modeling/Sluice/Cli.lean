/-
  Sluice.Cli

  The command line, without its input and output: what a program text and settings come to.
-/

import Sluice.Config.Text
import Sluice.Run.Document
import Sluice.Session

namespace Sluice.Cli

/-- What the command line is given. -/
structure Request where
  /-- The text of the program, if it can be read. -/
  program : Option String
  /-- The text of the configuration file, if there is one that can be read. -/
  config : Option String
  /-- What the environment says about a report. -/
  report : Option String

/-- What the command line answers. -/
structure Response where
  code : Nat
  stdout : String
  /-- The report, if it was asked for. -/
  report : Option Json.Tree

/-- The configuration file that counts: one that was named, or else the one at the default
place. -/
def chosenConfig {α : Type} (named : Option α) (atDefault : Option α) : Option α :=
  named.or atDefault

/-- The settings of a configuration file; defaults stand in for what cannot be read. -/
def settings (text : Option String) : Config :=
  match text with
  | none => {}
  | some text =>
    match Config.ofToml text with
    | .ok config => config
    | .error _ => {}

/-- Printed lines, unless the settings are quiet. -/
def printed (config : Config) (output : List String) : String :=
  if config.quiet then "" else String.join (output.map (· ++ "\n"))

/-- The exit code of a halted run. -/
def haltedCode : Nat := 101

/-- Answer a request. A failed pipeline, or a program that cannot be read, is a failure. -/
def respond (request : Request) : Response :=
  match request.program with
  | none => ⟨1, "", none⟩
  | some source =>
    let config := settings request.config
    match (Program.parse source).runWith config with
    | .error halted => ⟨haltedCode, printed config halted.output, none⟩
    | .ok run =>
      { code := if run.report.success then 0 else 1
        stdout := printed config run.report.output
        report := if request.report = some "1" then some run.report.toTree else none }

end Sluice.Cli
