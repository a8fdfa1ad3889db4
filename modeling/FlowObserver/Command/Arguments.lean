import FlowObserver.Command.Fault
import FlowObserver.Text.Numeral

/-!
# Reading the command line

Arguments are read from left to right. An option waits for its value, which is checked when the next
option is reached or the line ends. The options of the program stand before the command, and those
that every command has may stand after it as well, where they win. An environment variable stands in
for an option that is not given.
-/

namespace FlowObserver
namespace Command

abbrev halfWords : Nat := UInt64.size / 2

/-- A number of 32 bits, which is read as one of 64 bits first; else why it is none. -/
def word32 (text : String) : Except String UInt32 := do
  let n ← (Text.integer halfWords (halfWords - 1) text).mapError Text.NumeralFault.message
  if 0 ≤ n && n < UInt32.size then return UInt32.ofNat n.toNat
  else throw s!"{n} is not in 0..=4294967295"

def valueFault? (o : OptionSpec) (value : String) : Option Fault :=
  match o.kind with
  | .flag | .text => none
  | .path => if value.isEmpty then some (.valueMissing o) else none
  | .level =>
    if (Severity.ofText? value).isSome then none
    else some (.badValue value o Severity.levelSyntaxMessage)
  | .word32 =>
    match word32 value with
    | .ok _ => none
    | .error reason => some (.badValue value o reason)
  | .choice names =>
    if names.contains value then none
    else if value.isEmpty then some (.valueMissing o)
    else some (.notAmongChoices value o)

structure Given where
  option : OptionSpec
  value : String
  fromEnvironment : Bool := false
  deriving DecidableEq, Repr

/-- What has been read at one level, the program's or a command's. -/
structure Level where
  options : List OptionSpec
  topic : HelpTopic
  given : List Given := []
  pending : Option (OptionSpec × Option String) := none

namespace Level

def has (l : Level) (o : OptionSpec) : Bool := l.given.any (·.option = o)

def add (l : Level) (o : OptionSpec) (value : String) (fromEnvironment : Bool) :
    Except Fault Level :=
  if l.has o then .error (.repeated o)
  else
    match valueFault? o value with
    | some fault => .error fault
    | none => .ok { l with given := l.given ++ [⟨o, value, fromEnvironment⟩] }

def settle (l : Level) : Except Fault Level :=
  match l.pending with
  | none => .ok l
  | some (o, none) => .error (.valueMissing o)
  | some (o, some value) => { l with pending := none }.add o value false

def isWaiting (l : Level) : Bool := l.pending.any (·.2.isNone)

def takeOption (l : Level) (o : OptionSpec) (attached : Option String) : Except Fault Level := do
  let l ← l.settle
  if o = helpOption then throw (.help l.topic)
  else if o = versionOption then throw .version
  else if !o.takesValue then l.add o "true" false
  else
    match attached with
    | some value => l.add o value false
    | none => return { l with pending := some (o, none) }

def takeLong (l : Level) (text : String) : Except Fault Level :=
  let name := text.toList.takeWhile (· ≠ '=')
  let attached := match text.toList.drop name.length with
    | '=' :: value => some (String.ofList value)
    | _ => none
  match l.options.find? (·.name = String.ofList name), attached with
  | none, _ => .error (.unexpectedArgument ("--" ++ String.ofList name))
  | some o, some value =>
    if o.takesValue then l.takeOption o attached else .error (.needlessValue value o)
  | some o, none => l.takeOption o none

def takeShort (l : Level) : List Char → Except Fault Level
  | [] => .ok l
  | c :: rest =>
    match l.options.find? (·.short = some c) with
    | none => .error (.unexpectedArgument ("-" ++ String.singleton c))
    | some o =>
      if o.takesValue then
        let value := if rest.head? = some '=' then rest.drop 1 else rest
        l.takeOption o (if rest.isEmpty then none else some (String.ofList value))
      else do (← l.takeOption o none).takeShort rest

def addEnvironment (environment : List (String × String)) (l : Level) : Except Fault Level :=
  l.options.foldlM (fun l o =>
    match o.envVar.bind fun v => environment.lookup v with
    | some value => if l.has o then .ok l else l.add o value true
    | none => .ok l) l

def value? (l : Level) (o : OptionSpec) : Option String :=
  (l.given.find? (·.option = o)).map (·.value)

end Level

inductive Reading where
  | option (text : String)
  | shorts (chars : List Char)
  | separator
  | word (text : String)
  deriving DecidableEq, Repr

def Reading.of (argument : String) : Reading :=
  match argument.toList with
  | ['-', '-'] => .separator
  | '-' :: '-' :: rest => .option (String.ofList rest)
  | '-' :: c :: rest => .shorts (c :: rest)
  | _ => .word argument

/-- Reads the arguments of a command; words are not expected among them. -/
def readOptions (l : Level) (afterSeparator : Bool) : List String → Except Fault Level
  | [] => .ok l
  | a :: rest =>
    if afterSeparator then .error (.unexpectedArgument a)
    else
      match Reading.of a with
      | .separator => readOptions l true rest
      | .option text => do readOptions (← l.takeLong text) false rest
      | .shorts chars => do readOptions (← l.takeShort chars) false rest
      | .word text =>
        match l.pending with
        | some (o, none) => readOptions { l with pending := some (o, some text) } false rest
        | _ => .error (.unexpectedArgument text)

def conflictingOptions : List OptionSpec := [interfaceOption, discoverOption]

/-- The first option that excludes another one. -/
def conflict? (l : Level) : Option Fault :=
  match (l.given.map (·.option)).filter conflictingOptions.contains with
  | o :: other :: _ => some (.conflict o other)
  | _ => none

def readCommand (environment : List (String × String)) (spec : CommandSpec)
    (arguments : List String) : Except Fault Level := do
  let start : Level := {
    options := spec.options ++ sharedOptions ++ [helpOption]
    topic := .command spec }
  let l ← (← (← readOptions start false arguments).settle).addEnvironment environment
  match conflict? l with
  | some fault => throw fault
  | none => return l

def helpTopic : List String → Fault
  | [] => .help .program
  | ["help"] => .help .helpCommand
  | name :: rest =>
    if name = "help" then .unknownCommand (rest.headD "")
    else
      match spec? name, rest with
      | some spec, [] => .help (.command spec)
      | some _, other :: _ => .unknownCommand other
      | none, _ => .unknownCommand name

inductive Stop where
  | command (spec : CommandSpec) (arguments : List String)
  | atEnd

def readProgram (l : Level) (afterSeparator : Bool) : List String → Except Fault (Level × Stop)
  | [] => .ok (l, .atEnd)
  | a :: rest =>
    let isCommand := a = "help" || (spec? a).isSome
    if afterSeparator then
      .error (if isCommand then .unexpectedArgument a else .unknownCommand a)
    else
      match Reading.of a with
      | .separator => readProgram l true rest
      | .option text => do readProgram (← l.takeLong text) false rest
      | .shorts chars => do readProgram (← l.takeShort chars) false rest
      | .word text =>
        match l.pending with
        | some (o, none) => readProgram { l with pending := some (o, some text) } false rest
        | _ =>
          if text = "help" then .error (helpTopic rest)
          else
            match spec? text with
            | some spec => .ok (l, .command spec rest)
            | none => .error (.unknownCommand text)

/-- The value of a shared option: what is given with the command, then what is given before it, then
what the environment says. -/
def sharedValue (program command : Level) (o : OptionSpec) : Option String :=
  let find (l : Level) : Option Given := l.given.find? (·.option = o)
  match find program, find command with
  | some p, some c => some (if c.fromEnvironment && !p.fromEnvironment then p.value else c.value)
  | p, c => (p <|> c).map (·.value)

def commandOf (spec : CommandSpec) (l : Level) : Command :=
  let value? (name : String) : Option String :=
    (spec.options.find? (·.name = name)).bind fun o => l.value? o <|> o.default
  let text (name : String) : String := (value? name).getD ""
  let format := OutputFormat.ofLabel (text "format")
  match spec.name with
  | "agent" => .agent (value? "interface") (value? "discover").isSome (value? "ebpf-object")
  | "observe" => .observe (text "server") (value? "namespace") (value? "verdict") format
  | "service-map" =>
    .serviceMap (text "server") ((value? "window").bind fun w => (word32 w).toOption) format
  | _ => .install ⟨text "namespace", text "image"⟩ (value? "apply").isSome

def fileName (path : String) : String := (path.splitOn "/").getLastD ""

def calledAs (arguments : List String) : String :=
  match arguments.head?.map fileName with
  | some name => if name.isEmpty then programName else name
  | none => programName

end Command

open Command in
/-- Reads a command line, of which the first argument is the name of the program. -/
def CommandLine.read (environment : List (String × String)) (arguments : List String) :
    Except Fault CommandLine := do
  let start : Level := {
    options := sharedOptions ++ [helpOption, versionOption]
    topic := .program }
  let (program, stop) ← readProgram start false (arguments.drop 1)
  match stop with
  | .atEnd =>
    let program ← (← program.settle).addEnvironment environment
    throw (if program.given.isEmpty then .nothingGiven else .commandMissing (calledAs arguments))
  | .command spec rest =>
    let l ← readCommand environment spec rest
    let program ← (← program.settle).addEnvironment environment
    return {
      config := sharedValue program l configOption
      level := (sharedValue program l levelOption).bind Severity.ofText?
      command := commandOf spec l }

end FlowObserver
