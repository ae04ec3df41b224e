/-!
# The command line

The words after the program's name: at most one command, options that every command takes, and one
option of the command's own. An option with a value takes it after an equals sign or as the next
word; a value given after the command goes before one given before it. The directory of settings may
also come from the surroundings.
-/

namespace Interlock

/-- What the program is asked to do. -/
inductive Command
  | watch
  | status (json : Bool)
  | kill (yes : Bool)
  deriving DecidableEq, Repr, Inhabited

/-- A command line that was understood. -/
structure CommandLine where
  /-- The command, if one was named. -/
  named : Option Command
  baseUrl : Option String
  configDir : String
  deriving DecidableEq, Repr

namespace CommandLine

/-- The command to carry out; without a name it is to watch. -/
def command (c : CommandLine) : Command := c.named.getD .watch

/-! ## Names -/

/-- The names of commands. -/
inductive CommandName
  | watch
  | status
  | kill
  deriving DecidableEq, Repr, Inhabited

/-- The commands in order. -/
def CommandName.all : List CommandName := [.watch, .status, .kill]

/-- The word for a command. -/
def CommandName.text : CommandName → String
  | .watch => "watch"
  | .status => "status"
  | .kill => "kill"

/-- The option that a command takes for itself. -/
def CommandName.flag? : CommandName → Option String
  | .watch => none
  | .status => some "json"
  | .kill => some "yes"

/-- The command with its own option given or not. -/
def CommandName.toCommand (flag : Bool) : CommandName → Command
  | .watch => .watch
  | .status => .status flag
  | .kill => .kill flag

/-- What help is asked about: the program, a command, or the help itself. -/
inductive Topic
  | program
  | command (c : CommandName)
  | help
  deriving DecidableEq, Repr, Inhabited

/-- Why a command line is not carried out. -/
inductive Stop
  | showHelp (topic : Topic)
  | showVersion
  | unknownOption
  | unknownCommand
  /-- An option is given twice. -/
  | repeated
  /-- An option that takes no value is given one. -/
  | unwantedValue
  /-- An option that needs a value is given none. -/
  | missingValue
  deriving DecidableEq, Repr

/-- The options that take a value. -/
inductive ValueOption
  | baseUrl
  | configDir
  deriving DecidableEq, Repr, Inhabited

/-- The option with a name. -/
def valueOption? (name : String) : Option ValueOption :=
  if name = "base-url" then some .baseUrl
  else if name = "config-dir" then some .configDir
  else none

/-! ## The words before or after the command -/

/-- The part of the command line at hand: before the command, or after it. -/
inductive Part
  | before
  | after (c : CommandName)
  deriving DecidableEq, Repr, Inhabited

/-- What help shows in a part. -/
def Part.topic : Part → Topic
  | .before => .program
  | .after c => .command c

/-- The option that stands for itself in a part. -/
def Part.flag? : Part → Option String
  | .before => none
  | .after c => c.flag?

/-- What a word is that nobody takes. -/
def Part.stranger : Part → Stop
  | .before => .unknownCommand
  | .after _ => .unknownOption

/-- What a part has given so far. An option with a value counts as given only when the next option
or the end of the part comes. -/
structure Given where
  baseUrl : Option String
  configDir : Option String
  flag : Bool
  /-- The option whose value is awaited, or has come as the word after it. -/
  pending : Option (ValueOption × Option String)
  deriving DecidableEq, Repr, Inhabited

namespace Given

/-- Nothing given. -/
def fresh : Given := ⟨none, none, false, none⟩

/-- Whether the next word is a value. -/
def awaits (g : Given) : Bool := g.pending.any (·.2.isNone)

/-- Gives an option a value. No option is given twice, and a directory has a name. -/
def accept (o : ValueOption) (v : String) (g : Given) : Except Stop Given :=
  match o with
  | .baseUrl => if g.baseUrl.isSome then .error .repeated else .ok { g with baseUrl := some v }
  | .configDir =>
    if g.configDir.isSome then .error .repeated
    else if v = "" then .error .missingValue
    else .ok { g with configDir := some v }

/-- Takes the option with its value that is left over. -/
def settle (g : Given) : Except Stop Given :=
  match g.pending with
  | none => .ok g
  | some (_, none) => .error .missingValue
  | some (o, some v) => accept o v { g with pending := none }

/-- An option that stands for itself. -/
def raiseFlag (g : Given) : Except Stop Given :=
  if g.flag then .error .repeated else .ok { g with flag := true }

/-- A word that begins with two dashes: its name, and what follows an equals sign. -/
def takeLong (part : Part) (name : String) (value : Option String) (g : Given) :
    Except Stop Given :=
  match valueOption? name with
  | some o => do
    let g ← g.settle
    match value with
    | some v => g.accept o v
    | none => .ok { g with pending := some (o, none) }
  | none =>
    if name = "help" ∨ (name = "version" ∧ part = .before) ∨ part.flag? = some name then
      if value.isSome then .error .unwantedValue
      else do
        let g ← g.settle
        if name = "help" then .error (.showHelp part.topic)
        else if name = "version" ∧ part = .before then .error .showVersion
        else g.raiseFlag
    else .error .unknownOption

/-- A word that begins with one dash; its first letter decides. -/
def takeShort (part : Part) (letter : Char) (g : Given) : Except Stop Given :=
  if letter = 'h' then do
    let _ ← g.settle
    .error (.showHelp part.topic)
  else if letter = 'V' ∧ part = .before then do
    let _ ← g.settle
    .error .showVersion
  else .error .unknownOption

end Given

/-! ## Reading the words -/

/-- What a word looks like. -/
inductive Word
  /-- Two dashes alone: what follows are no options. -/
  | rest
  | long (name : String) (value : Option String)
  | short (letter : Char)
  | plain
  deriving DecidableEq, Repr

/-- What a word looks like. -/
def Word.ofString (s : String) : Word :=
  match s.toList with
  | ['-', '-'] => .rest
  | '-' :: '-' :: cs =>
    let name := cs.takeWhile (· != '=')
    let value := if name.length = cs.length then none
      else some (String.ofList (cs.drop (name.length + 1)))
    .long (String.ofList name) value
  | '-' :: c :: _ => .short c
  | _ => .plain

/-- The command that a word names. -/
def commandName? (s : String) : Option CommandName := CommandName.all.find? (·.text == s)

/-- The word that asks for help about a command. -/
def helpWord : String := "help"

/-- What the words after the request for help ask about. -/
def helpTopic : List String → Stop
  | [] => .showHelp .program
  | [s] =>
    match commandName? s with
    | some c => .showHelp (.command c)
    | none => if s = helpWord then .showHelp .help else .unknownCommand
  | _ => .unknownCommand

/-- What a word is that follows two dashes. -/
def afterDashes (part : Part) (s : String) : Stop :=
  if part = .before ∧ ((commandName? s).isSome ∨ s = helpWord) then .unknownOption
  else part.stranger

/-- Reads the words of a part, up to the command if there is one. -/
def readPart (part : Part) (g : Given) :
    List String → Except Stop (Given × Option (CommandName × List String))
  | [] => .ok (g, none)
  | s :: rest =>
    let command := if part = .before ∧ !g.awaits then commandName? s else none
    match command with
    | some c => .ok (g, some (c, rest))
    | none =>
      if part = .before ∧ !g.awaits ∧ s = helpWord then .error (helpTopic rest)
      else
        match Word.ofString s with
        | .rest =>
          match rest with
          | [] => .ok (g, none)
          | t :: _ => .error (afterDashes part t)
        | .long name value => do
          let g ← g.takeLong part name value
          readPart part g rest
        | .short letter => do
          let g ← g.takeShort part letter
          readPart part g rest
        | .plain =>
          match g.pending with
          | some (o, none) => readPart part { g with pending := some (o, some s) } rest
          | _ => .error part.stranger

/-- The directory of settings if nobody names one. -/
def defaultConfigDir : String := "config"

/-- The end of a part: the directory of the surroundings stands in for one that was not given, and
has to have a name then. -/
def finishPart (configDir : Option String) (g : Given) : Except Stop Given := do
  let g ← g.settle
  if g.configDir.isNone && configDir == some "" then .error .missingValue else .ok g

/-- The command line in the given words; `configDir` is the directory that the surroundings name. -/
def read (configDir : Option String) (words : List String) : Except Stop CommandLine := do
  let (outer, command) ← readPart .before .fresh words
  let inner ← match command with
    | none => .ok none
    | some (c, rest) => do
      let (g, _) ← readPart (.after c) .fresh rest
      let g ← finishPart configDir g
      .ok (some (c, g))
  let outer ← finishPart configDir outer
  let given := (inner.map (·.2)).getD .fresh
  .ok {
    named := inner.map fun x => x.1.toCommand x.2.flag
    baseUrl := given.baseUrl.or outer.baseUrl
    configDir := ((given.configDir.or outer.configDir).or configDir).getD defaultConfigDir }

end CommandLine

end Interlock
