import BlockBuilder.Toml.Number
import BlockBuilder.Toml.Text

namespace BlockBuilder.Toml

/-- Values may be nested less deeply than this, and dotted keys have fewer parts. -/
def nestingLimit : Nat := 80

def dropBlanks (input : List Char) : List Char := input.dropWhile isBlank

def dropComment : List Char → List Char
  | '#' :: rest => rest.dropWhile isPlain
  | input => input

def endLine : List Char → Option (List Char)
  | [] => some []
  | '\n' :: rest => some rest
  | '\r' :: '\n' :: rest => some rest
  | _ => none

def finishLine (input : List Char) : Option (List Char) := endLine (dropComment (dropBlanks input))

def dropGap (inComment : Bool) : List Char → Option (List Char)
  | [] => if inComment then none else some []
  | '\r' :: '\n' :: rest => dropGap false rest
  | '\n' :: rest => dropGap false rest
  | c :: rest =>
    if inComment then if isPlain c then dropGap true rest else none
    else if isBlank c then dropGap false rest
    else if c = '#' then dropGap true rest
    else some (c :: rest)

def isKeyChar (c : Char) : Bool :=
  isDigit c || ('a' ≤ c && c ≤ 'z') || ('A' ≤ c && c ≤ 'Z') || c = '-' || c = '_'

def readKeyPart : List Char → Option (String × List Char)
  | '"' :: rest => (readQuoted .plain rest).map fun (text, rest) => (.ofList text, rest)
  | '\'' :: rest => (readLiteral rest).map fun (text, rest) => (.ofList text, rest)
  | input =>
    let part := input.takeWhile isKeyChar
    if part.isEmpty then none else some (.ofList part, input.dropWhile isKeyChar)

def readKeyParts : Nat → List Char → Option (List String × List Char)
  | 0, _ => none
  | count + 1, input => do
    let (part, rest) ← readKeyPart (dropBlanks input)
    match dropBlanks rest with
    | '.' :: rest =>
      let (parts, rest) ← readKeyParts count rest
      return (part :: parts, rest)
    | rest => return ([part], rest)

def readKey (input : List Char) : Option ((List String × String) × List Char) := do
  let (parts, rest) ← readKeyParts (nestingLimit - 1) input
  let last ← parts.getLast?
  return ((parts.dropLast, last), rest)

abbrev ValueReader := List Char → Option (Value × List Char)

def readItems (item : ValueReader) : Nat → List Char → Option (List Value × List Char)
  | 0, _ => none
  | count + 1, input => do
    match ← dropGap false input with
    | ']' :: rest => return ([], rest)
    | input =>
      let (value, rest) ← item input
      match ← dropGap false rest with
      | ',' :: rest =>
        let (values, rest) ← readItems item count rest
        return (value :: values, rest)
      | ']' :: rest => return ([value], rest)
      | _ => none

def readPair (item : ValueReader) (input : List Char) :
    Option (((List String × String) × Value) × List Char) := do
  let (key, rest) ← readKey input
  let rest ← readChar '=' rest
  let (value, rest) ← item (dropBlanks rest)
  return ((key, value), rest)

def readPairs (item : ValueReader) : Nat → Entries → List Char → Option (Entries × List Char)
  | 0, _, _ => none
  | count + 1, entries, input => do
    let (((path, key), value), rest) ← readPair item input
    let entries ← Entries.assign true value path key entries
    match dropBlanks rest with
    | ',' :: rest => readPairs item count entries rest
    | '}' :: rest => return (entries, rest)
    | _ => none

def readInline (item : ValueReader) (input : List Char) : Option (Value × List Char) :=
  match dropBlanks input with
  | '}' :: rest => some (.table .inline [], rest)
  | input => (readPairs item (input.length + 1) [] input).map fun (entries, rest) =>
      (.table .inline entries, rest)

def readScalar (input : List Char) : Option (Value × List Char) :=
  match input with
  | 't' :: 'r' :: 'u' :: 'e' :: rest => some (.boolean true, rest)
  | 'f' :: 'a' :: 'l' :: 's' :: 'e' :: rest => some (.boolean false, rest)
  | c :: _ =>
    if c = '"' ∨ c = '\'' then
      (readText input).map fun (text, rest) => (.text (.ofList text), rest)
    else readNumber input
  | [] => none

def readValue : Nat → ValueReader
  | 0, input => readScalar input
  | depth + 1, '[' :: rest =>
    (readItems (readValue depth) (rest.length + 1) rest).map fun (items, rest) =>
      (.array items, rest)
  | depth + 1, '{' :: rest => readInline (readValue depth) rest
  | _ + 1, input => readScalar input

structure Progress where
  entries : Entries := []
  header : List String := []

def readHeader (progress : Progress) (input : List Char) : Option (Progress × List Char) :=
  match input with
  | '[' :: input => do
    let ((path, key), rest) ← readKey input
    let rest ← readChar ']' rest
    let rest ← readChar ']' rest
    let entries ← Entries.updateAt (Entries.appendTable key) path progress.entries
    return (⟨entries, path ++ [key]⟩, ← finishLine rest)
  | input => do
    let ((path, key), rest) ← readKey input
    let rest ← readChar ']' rest
    let entries ← Entries.updateAt (Entries.openTable key) path progress.entries
    return (⟨entries, path ++ [key]⟩, ← finishLine rest)

def readAssignment (progress : Progress) (input : List Char) : Option (Progress × List Char) := do
  let (((path, key), value), rest) ← readPair (readValue (nestingLimit - 1)) input
  let entries ← Entries.updateAt (Entries.assign true value path key) progress.header
    progress.entries
  return ({ progress with entries }, ← finishLine rest)

def readLinesOf : Nat → Progress → List Char → Option Progress
  | 0, _, _ => none
  | count + 1, progress, input =>
    match dropBlanks input with
    | [] => some progress
    | '#' :: rest => do readLinesOf count progress (← endLine (rest.dropWhile isPlain))
    | '\n' :: rest => readLinesOf count progress rest
    | '\r' :: '\n' :: rest => readLinesOf count progress rest
    | '[' :: rest => do
      let (progress, rest) ← readHeader progress rest
      readLinesOf count progress rest
    | input => do
      let (progress, rest) ← readAssignment progress input
      readLinesOf count progress rest

def dropMark : List Char → List Char
  | c :: rest => if c.toNat = 0xFEFF then rest else c :: rest
  | [] => []

def parse? (document : String) : Option Value :=
  let input := dropMark document.toList
  (readLinesOf (input.length + 1) {} input).map fun progress => .table .header progress.entries

end BlockBuilder.Toml
