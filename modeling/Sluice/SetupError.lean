/-
  Sluice.SetupError

  What goes wrong outside of a run: while scripts are compiled and executed, and while
  configuration is read and written. An error may carry the context it arose in.
-/

namespace Sluice

/-- An error of scripts, configuration or files. -/
inductive SetupError where
  | script (message : String)
  | config (message : String)
  | io (message : String)
  | serialization (message : String)
  | within (context : String) (cause : SetupError)
deriving Repr, DecidableEq

/-- The wording of an error; its context comes first. -/
def SetupError.message : SetupError → String
  | script message => "Script error: " ++ message
  | config message => "Configuration error: " ++ message
  | io message => "IO error: " ++ message
  | serialization message => "Serialization error: " ++ message
  | within context cause => context ++ ": " ++ cause.message

end Sluice
