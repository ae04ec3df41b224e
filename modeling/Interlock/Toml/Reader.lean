import Interlock.Toml.Scalar

/-!
# Reading TOML

A document is read line by line: headers, keys with their values, comments and empty lines. Arrays
may run over several lines, inline tables may not. Values stand at most 79 deep, and so do tables.
-/

namespace Interlock.Toml

open Text

/-- What reading a piece of syntax gives: the piece and what follows, or nothing. -/
abbrev Reader (α : Type) := List Char → Option (α × List Char)

/-! ## Blank space, comments and line ends -/

/-- The characters that separate words. -/
def isSpace (c : Char) : Bool := c == ' ' || c == '\t'

/-- The characters that may stand in comments and strings. -/
def isPrintable (c : Char) : Bool := c == '\t' || (0x20 ≤ c.toNat && c.toNat != 0x7F)

/-- A text without the spaces at its start. -/
def skipSpace (cs : List Char) : List Char := cs.dropWhile isSpace

/-- What follows a line end. -/
def takeLineEnd? : List Char → Option (List Char)
  | '\n' :: cs => some cs
  | '\r' :: '\n' :: cs => some cs
  | _ => none

/-- A text without the comment at its start. -/
def skipComment : List Char → List Char
  | '#' :: cs => cs.dropWhile isPrintable
  | cs => cs

/-- What follows the rest of a line on which nothing else stands. -/
def endLine? (cs : List Char) : Option (List Char) :=
  match skipComment (skipSpace cs) with
  | [] => some []
  | cs => takeLineEnd? cs

/-- A text without the spaces, comments and line ends at its start. Each step reads a character. -/
def skipLines : (steps : Nat) → List Char → List Char
  | 0, cs => cs
  | steps + 1, cs =>
    let rest := skipComment (skipSpace cs)
    match takeLineEnd? rest with
    | some rest => skipLines steps rest
    | none => rest

/-- A text without the spaces, comments and line ends at its start. -/
def skipAll (cs : List Char) : List Char := skipLines (cs.length + 1) cs

/-! ## Strings -/

/-- The character that exactly `n` hexadecimal digits stand for. -/
def takeCodePoint? (n : Nat) : Reader Char := fun cs =>
  let ds := cs.take n
  let code := inBase 16 ds
  if ds.length = n ∧ ds.all (isDigitIn 16) ∧ code.isValidChar then
    some (Char.ofNat code, cs.drop n)
  else none

/-- The character of an escape, behind its backslash. -/
def takeEscape? : Reader Char
  | 'b' :: cs => some ('\x08', cs)
  | 't' :: cs => some ('\t', cs)
  | 'n' :: cs => some ('\n', cs)
  | 'f' :: cs => some ('\x0c', cs)
  | 'r' :: cs => some ('\r', cs)
  | '"' :: cs => some ('"', cs)
  | '\\' :: cs => some ('\\', cs)
  | 'u' :: cs => takeCodePoint? 4 cs
  | 'U' :: cs => takeCodePoint? 8 cs
  | _ => none

/-- The rest of a string on one line; `acc` is what came before, backwards. In a string with double
quotes a backslash begins an escape. Each step reads a character. -/
def readString (quote : Char) : (steps : Nat) → (acc : List Char) → Reader String
  | 0, _, _ => none
  | _, _, [] => none
  | steps + 1, acc, c :: cs =>
    if c = quote then some (String.ofList acc.reverse, cs)
    else if c = '\\' ∧ quote = '"' then do
      let (d, cs) ← takeEscape? cs
      readString quote steps (d :: acc) cs
    else if isPrintable c then readString quote steps (c :: acc) cs
    else none

/-- What follows a line that a backslash continues, behind the backslash, and the blank lines after
it. -/
def continueLine? (cs : List Char) : Option (List Char) :=
  (takeLineEnd? (skipSpace cs)).map fun rest =>
    rest.dropWhile fun c => isSpace c || c == '\n' || c == '\r'

/-- The rest of a string over several lines. Up to two quotes are part of it, also before the three
that end it. -/
def readLines (quote : Char) : (steps : Nat) → (acc : List Char) → Reader String
  | 0, _, _ => none
  | _, _, [] => none
  | steps + 1, acc, c :: cs =>
    if c = quote then
      let run := min 5 ((c :: cs).takeWhile (· == quote)).length
      let rest := (c :: cs).drop run
      if run < 3 then readLines quote steps (List.replicate run quote ++ acc) rest
      else some (String.ofList (List.replicate (run - 3) quote ++ acc).reverse, rest)
    else if c = '\\' ∧ quote = '"' then
      match continueLine? cs with
      | some rest => readLines quote steps acc rest
      | none => do
        let (d, cs) ← takeEscape? cs
        readLines quote steps (d :: acc) cs
    else
      match takeLineEnd? (c :: cs) with
      | some rest => readLines quote steps ('\n' :: acc) rest
      | none => if isPrintable c then readLines quote steps (c :: acc) cs else none

/-- A string, behind its first quote; `several` says whether it may run over several lines. -/
def readQuoted (quote : Char) (several : Bool) : Reader String := fun cs =>
  match several, cs with
  | true, q :: r :: rest =>
    if q = quote ∧ r = quote then
      let rest := (takeLineEnd? rest).getD rest
      readLines quote (rest.length + 1) [] rest
    else readString quote (cs.length + 1) [] cs
  | _, _ => readString quote (cs.length + 1) [] cs

/-! ## Keys -/

/-- The characters of a bare key. -/
def isKeyChar (c : Char) : Bool := isLetter c || isDigit c || c == '_' || c == '-'

/-- One key. -/
def readKey : Reader String
  | '"' :: cs => readQuoted '"' false cs
  | '\x27' :: cs => readQuoted '\x27' false cs
  | cs =>
    let word := cs.takeWhile isKeyChar
    if word.isEmpty then none else some (String.ofList word, cs.dropWhile isKeyChar)

/-- Keys with points between them: those before the last one, and the last one. -/
def readKeys : (steps : Nat) → Reader (Path × String)
  | 0, _ => none
  | steps + 1, cs => do
    let (k, cs) ← readKey (skipSpace cs)
    match skipSpace cs with
    | '.' :: cs =>
      let ((path, last), cs) ← readKeys steps cs
      some ((k :: path, last), cs)
    | cs => some (([], k), cs)

/-- The greatest depth of values and of tables. -/
def maxLevels : Nat := 79

/-! ## Values -/

/-- The characters of numbers, moments and words. -/
def isWordChar (c : Char) : Bool := isKeyChar c || c == '+' || c == '.' || c == ':'

/-- A word; a date may be followed by a space and a time of day. -/
def readWord : Reader Value := fun cs =>
  let word := cs.takeWhile isWordChar
  let rest := cs.dropWhile isWordChar
  let next := (rest.drop 1).takeWhile isWordChar
  match rest.head?, takeDate? word with
  | some ' ', some (date, []) =>
    if next.head?.any isDigit then
      (readMoment? date next).map fun v => (v, (rest.drop 1).dropWhile isWordChar)
    else (readWord? word).map fun v => (v, rest)
  | _, _ => (readWord? word).map fun v => (v, rest)

/-- A key with its value. -/
def readPair (value : Reader Value) : Reader (Path × String × Value) := fun cs => do
  let ((path, k), cs) ← readKeys maxLevels cs
  let cs ← takeMark? '=' cs
  let (v, cs) ← value (skipSpace cs)
  some ((path, k, v), cs)

/-- The rest of an array; the items so far are held backwards. -/
def readItems (value : Reader Value) : (steps : Nat) → (items : List Value) → Reader Value
  | 0, _, _ => none
  | steps + 1, items, cs => do
    match skipAll cs with
    | ']' :: cs => some (.array items.reverse, cs)
    | cs =>
      let (v, cs) ← value cs
      match skipAll cs with
      | ',' :: cs => readItems value steps (v :: items) cs
      | ']' :: cs => some (.array (v :: items).reverse, cs)
      | _ => none

/-- The rest of an inline table, behind its brace or a comma. -/
def readPairs (value : Reader Value) :
    (steps : Nat) → (pairs : List (Path × String × Value)) → Reader Value
  | 0, _, _ => none
  | steps + 1, pairs, cs => do
    let (p, cs) ← readPair value cs
    match skipSpace cs with
    | ',' :: cs => readPairs value steps (p :: pairs) cs
    | '}' :: cs => (Table.inlineOf (p :: pairs).reverse).map fun v => (v, cs)
    | _ => none

/-- A value in which arrays and inline tables stand at most `levels` deep. -/
def readValue : (levels : Nat) → Reader Value
  | _, '"' :: cs => (readQuoted '"' true cs).map fun r => (.text r.1, r.2)
  | _, '\x27' :: cs => (readQuoted '\x27' true cs).map fun r => (.text r.1, r.2)
  | 0, '[' :: _ => none
  | 0, '{' :: _ => none
  | levels + 1, '[' :: cs => readItems (readValue levels) (cs.length + 1) [] cs
  | levels + 1, '{' :: cs =>
    match skipSpace cs with
    | '}' :: cs => some (.table .inline [], cs)
    | cs => readPairs (readValue levels) (cs.length + 1) [] cs
  | _, cs => readWord cs

/-! ## Documents -/

/-- The keys of a header and what follows their closing bracket. -/
def readHeader (cs : List Char) : Option ((Path × String) × List Char) := do
  let (keys, cs) ← readKeys maxLevels cs
  some (keys, ← takeMark? ']' cs)

/-- Reads one line into a document whose current header is `path`. -/
def readLine (doc : Table) (path : Path) (cs : List Char) : Option (Table × Path × List Char) :=
  match skipSpace cs with
  | '[' :: '[' :: cs => do
    let ((parents, k), cs) ← readHeader cs
    let cs ← takeMark? ']' cs
    some (← doc.openNext parents k, parents ++ [k], ← endLine? cs)
  | '[' :: cs => do
    let ((parents, k), cs) ← readHeader cs
    some (← doc.openTable parents k, parents ++ [k], ← endLine? cs)
  | cs =>
    match endLine? cs with
    | some rest => some (doc, path, rest)
    | none => do
      let ((keys, k, v), cs) ← readPair (readValue maxLevels) cs
      let doc ← doc.update false (fun t => t.define keys k v) path
      some (doc, path, ← endLine? cs)

/-- Reads the lines of a document. Each step reads a line. -/
def readDocument : (steps : Nat) → Table → Path → List Char → Option Table
  | _, doc, _, [] => some doc
  | 0, _, _, _ => none
  | steps + 1, doc, path, cs => do
    let (doc, path, cs) ← readLine doc path cs
    readDocument steps doc path cs

/-- The entries of the document in a text, if it holds one; a byte order mark in front does not
count. -/
def read? (s : String) : Option (List (String × Value)) :=
  let cs := match s.toList with
    | '\uFEFF' :: cs => cs
    | cs => cs
  (readDocument (cs.length + 1) .fresh [] cs).map (·.entries)

end Interlock.Toml
