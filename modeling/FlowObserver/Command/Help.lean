import FlowObserver.Command.Basic

/-!
# Help pages

A page tells what a command is for, how it is called, and what its options are. Options are sorted
by their rank among the options that they were declared with.
-/

namespace FlowObserver
namespace Command

def programName : String := "flowscope"

def programVersion : String := "0.1.0"

inductive HelpTopic where
  | program
  | command (spec : CommandSpec)
  | helpCommand
  deriving DecidableEq, Repr

def padded (width : Nat) (s : String) : String :=
  s ++ String.ofList (List.replicate (width - s.length) ' ')

def twoColumns (rows : List (String × String)) : String :=
  let width := rows.foldl (fun w (left, _) => max w left.length) 0
  String.join (rows.map fun (left, right) => "  " ++ padded (width + 2) left ++ right ++ "\n")

namespace OptionSpec

def column (o : OptionSpec) : String :=
  match o.short with
  | some c => "-" ++ String.singleton c ++ ", " ++ o.label
  | none => "    " ++ o.label

def notes (environment : List (String × String)) (o : OptionSpec) : List String :=
  let fromVar := o.envVar.toList.map fun v =>
    "[env: " ++ v ++ "=" ++ (environment.lookup v).getD "" ++ "]"
  let default := o.default.toList.map fun d => "[default: " ++ d ++ "]"
  let choices := match o.kind with
    | .choice names => ["[possible values: " ++ ", ".intercalate names ++ "]"]
    | _ => []
  fromVar ++ default ++ choices

def row (environment : List (String × String)) (o : OptionSpec) : String × String :=
  let help := if o.help.isEmpty then [] else [o.help]
  (o.column, " ".intercalate (help ++ o.notes environment))

/-- Options with a short name come under it. -/
def sortKey (o : OptionSpec) : String :=
  match o.short with
  | some c => String.ofList [c.toLower, if c.isLower then '0' else '1']
  | none => o.name

end OptionSpec

/-- Options of two lists, by their rank in the one they come from. -/
def ranked (own shared : List OptionSpec) : List OptionSpec :=
  let key (entry : OptionSpec × Nat) : Nat × String := (entry.2, entry.1.sortKey)
  let before (a b : Nat × String) : Bool := a.1 < b.1 || (a.1 = b.1 && a.2 ≤ b.2)
  ((own.zipIdx ++ shared.zipIdx).mergeSort fun a b => before (key a) (key b)).map (·.1)

def optionsPart (environment : List (String × String)) (options : List OptionSpec) : String :=
  "Options:\n" ++ twoColumns (options.map (·.row environment))

def aboutProgram : String :=
  "Flags shared by every subcommand. Serialized as the top figment layer, so a flag only " ++
    "overrides the config file when it was actually given"

def aboutHelp : String := "Print this message or the help of the given subcommand(s)"

def page (program : String) (environment : List (String × String)) : HelpTopic → String
  | .program =>
    let rows := specs.map fun s => (s.name, s.about)
    aboutProgram ++ "\n\nUsage: " ++ program ++ " [OPTIONS] <COMMAND>\n\nCommands:\n" ++
      twoColumns (rows ++ [("help", aboutHelp)]) ++ "\n" ++
      optionsPart environment (sharedOptions ++ [helpOption, versionOption])
  | .command spec =>
    spec.about ++ "\n\nUsage: " ++ program ++ " " ++ spec.name ++ " [OPTIONS]\n\n" ++
      optionsPart environment (ranked spec.options sharedOptions ++ [helpOption])
  | .helpCommand =>
    aboutHelp ++ "\n\nUsage: " ++ program ++ " help [COMMAND]...\n\nArguments:\n" ++
      twoColumns [("[COMMAND]...", "Print help for the subcommand(s)")]

end Command
end FlowObserver
