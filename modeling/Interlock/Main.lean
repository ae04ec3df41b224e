import Interlock.Program

/-!
# The command

Runs the program on the words of the command line: reads the variables, the files of settings and
the clock, writes what the program writes, and waits for a line where it asks for one. There is no
connection to any server behind it, so every request is one that could not be made, and the gate
stays closed.
-/

namespace Interlock.Program

/-- The text of a file, if there is one. -/
def fileText? (path : String) : IO (Option String) := do
  try
    let text ← IO.FS.readFile path
    return some text
  catch _ => return none

/-- The variables of the process. -/
def readVariables : IO (List (String × String)) := do
  let text := (← fileText? "/proc/self/environ").getD ""
  return (text.splitOn "\x00").filterMap fun entry =>
    match entry.splitOn "=" with
    | name :: value :: rest => some (name, "=".intercalate (value :: rest))
    | _ => none

/-- The number at the start of a text. -/
def leadingNumber (s : String) : Nat :=
  Text.digitsValue 0 (s.toList.takeWhile Text.isDigit)

/-- The clock, in whole seconds: the start of the system and the time since then. -/
def readClock : IO Instant := do
  let stat := (← fileText? "/proc/stat").getD ""
  let started := ((stat.splitOn "btime ").drop 1).head?.getD "0"
  let since := (← fileText? "/proc/uptime").getD "0"
  return ⟨(leadingNumber started + leadingNumber since) * 1000⟩

/-- The files of settings that are there, of those that loading looks for. -/
def readFiles (x : Settings.Surroundings) (dir : String) : IO (List (String × String)) := do
  let paths := (Settings.candidates (Settings.defaultsPath dir) ++
    Settings.candidates (Settings.environmentPath x dir)).map (·.1)
  let mut files := []
  for path in paths do
    match ← fileText? path with
    | some text => files := (path, text) :: files
    | none => pure ()
  return files

/-- Tries to make a directory: why it cannot be made, if so. -/
def makeDirectory (dir : String) : IO (Option String) := do
  try
    IO.FS.createDirAll dir
    return none
  catch e => return some (toString e)

/-- Reads a line; one that is no text counts as bytes that are none. -/
def readLine : IO (List UInt8) := do
  try
    let line ← (← IO.getStdin).getLine
    return line.toUTF8.toList
  catch _ => return [0xFF]

/-- Writes the rest of an output, of which `written` stands already. -/
def writeOutput (written : String) (o : Output) : IO UInt32 := do
  IO.print (String.ofList (o.stdout.toList.drop written.length))
  IO.eprint o.stderr
  return o.exit.toUInt32

/-- Runs the program to its end. -/
def perform (words : List String) : IO UInt32 := do
  let vars ← readVariables
  let bare : Settings.Surroundings := { file? := fun _ => none, vars := vars }
  let files ← match CommandLine.read (bare.valueOf configDirVariable) words with
    | .ok c => readFiles bare c.configDir
    | .error _ => pure []
  let world : World := {
    settings := { bare with file? := fun path => (files.find? (·.1 == path)).map (·.2) }
    get := fun _ _ => .failed .connect
    post := fun _ => .failed .connect
    now := ← readClock }
  match run world words with
  | .done o => writeOutput "" o
  | .asks written answered => do
    IO.print written
    (← IO.getStdout).flush
    writeOutput written (answered (← readLine))
  | .opensLog dir opened => do
    writeOutput "" (opened (← makeDirectory dir))

end Interlock.Program

/-- The command. -/
def main (words : List String) : IO UInt32 := Interlock.Program.perform words
