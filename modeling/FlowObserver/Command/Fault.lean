import FlowObserver.Command.Help

/-!
# Why a command line is not carried out

Asking for help or for the version ends the reading of a command line as a mistake in it does.
-/

namespace FlowObserver
namespace Command

inductive Fault where
  | help (topic : HelpTopic)
  | version
  | nothingGiven
  | commandMissing (program : String)
  | unknownCommand (name : String)
  | unexpectedArgument (argument : String)
  | repeated (option : OptionSpec)
  | conflict (option other : OptionSpec)
  | valueMissing (option : OptionSpec)
  | notAmongChoices (value : String) (option : OptionSpec)
  | needlessValue (value : String) (option : OptionSpec)
  | badValue (value : String) (option : OptionSpec) (reason : String)
  deriving DecidableEq, Repr

namespace Fault

def exitCode : Fault → Nat
  | help _ | version => 0
  | _ => 2

def message? : Fault → Option String
  | help _ | version | nothingGiven => none
  | commandMissing program => s!"'{program}' requires a subcommand but one was not provided"
  | unknownCommand name => s!"unrecognized subcommand '{name}'"
  | unexpectedArgument argument => s!"unexpected argument '{argument}' found"
  | repeated option => s!"the argument '{option.label}' cannot be used multiple times"
  | conflict option other => s!"the argument '{option.label}' cannot be used with '{other.label}'"
  | valueMissing option => s!"a value is required for '{option.label}' but none was supplied"
  | notAmongChoices value option => s!"invalid value '{value}' for '{option.label}'"
  | needlessValue value option =>
    s!"unexpected value '{value}' for '{option.label}' found; no more were expected"
  | badValue value option reason => s!"invalid value '{value}' for '{option.label}': {reason}"

end Fault
end Command
end FlowObserver
