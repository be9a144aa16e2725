namespace BlockBuilder.Toml

def isPlain (c : Char) : Bool :=
  c = '\t' || (0x20 ≤ c.toNat && c.toNat ≠ 0x7F)

def isBlank (c : Char) : Bool := c = ' ' || c = '\t'

def hexValue? (c : Char) : Option Nat :=
  if '0' ≤ c ∧ c ≤ '9' then some (c.toNat - 48)
  else if 'a' ≤ c ∧ c ≤ 'f' then some (c.toNat - 87)
  else if 'A' ≤ c ∧ c ≤ 'F' then some (c.toNat - 55)
  else none

def charOf? (code : Nat) : Option Char :=
  if code.isValidChar then some (Char.ofNat code) else none

def escape? : Char → Option Char
  | 'b' => some (Char.ofNat 8)
  | 't' => some '\t'
  | 'n' => some '\n'
  | 'f' => some (Char.ofNat 12)
  | 'r' => some '\r'
  | '"' => some '"'
  | '\\' => some '\\'
  | _ => none

def codeLength? : Char → Option Nat
  | 'u' => some 4
  | 'U' => some 8
  | _ => none

inductive TextMode where
  | plain
  | escaped
  | code (digits value : Nat)
  | quotes (count : Nat)
  | lineEnd
  | skipping
  | carriage (skipped : Bool)
  deriving DecidableEq, Inhabited

def afterBackslash (c : Char) : Option (List Char × TextMode) :=
  match escape? c, codeLength? c with
  | some escaped, _ => some ([escaped], .plain)
  | none, some digits => some ([], .code digits 0)
  | none, none => none

def afterDigit (digits value : Nat) (c : Char) : Option (List Char × TextMode) := do
  let digit ← hexValue? c
  let value := 16 * value + digit
  if digits ≤ 1 then
    let coded ← charOf? value
    return ([coded], .plain)
  else return ([], .code (digits - 1) value)

def readQuoted : TextMode → List Char → Option (List Char × List Char)
  | _, [] => none
  | mode, c :: rest =>
    let go (found : Option (List Char × TextMode)) : Option (List Char × List Char) :=
      match found with
      | none => none
      | some (content, mode) =>
        (readQuoted mode rest).map fun (more, rest) => (content ++ more, rest)
    match mode with
    | .plain =>
      if c = '"' then some ([], rest)
      else if c = '\\' then go (some ([], .escaped))
      else if isPlain c then go (some ([c], .plain))
      else none
    | .escaped => go (afterBackslash c)
    | .code digits value => go (afterDigit digits value c)
    | _ => none

def readLiteral : List Char → Option (List Char × List Char)
  | [] => none
  | c :: rest =>
    if c = '\'' then some ([], rest)
    else if isPlain c then (readLiteral rest).map fun (more, rest) => (c :: more, rest)
    else none

def afterPlain (delimiter c : Char) : Option (List Char × TextMode) :=
  if c = delimiter then some ([], .quotes 1)
  else if c = '\\' ∧ delimiter = '"' then some ([], .escaped)
  else if c = '\n' then some (['\n'], .plain)
  else if c = '\r' then some ([], .carriage false)
  else if isPlain c then some ([c], .plain)
  else none

def afterSkipped (c : Char) : Option (List Char × TextMode) :=
  if isBlank c ∨ c = '\n' then some ([], .skipping)
  else if c = '\r' then some ([], .carriage true)
  else afterPlain '"' c

def afterChar (delimiter : Char) (mode : TextMode) (c : Char) : Option (List Char × TextMode) :=
  match mode with
  | .plain => afterPlain delimiter c
  | .escaped =>
    if isBlank c then some ([], .lineEnd)
    else if c = '\n' then some ([], .skipping)
    else if c = '\r' then some ([], .carriage true)
    else afterBackslash c
  | .code digits value => afterDigit digits value c
  | .lineEnd =>
    if isBlank c then some ([], .lineEnd)
    else if c = '\n' then some ([], .skipping)
    else if c = '\r' then some ([], .carriage true)
    else none
  | .skipping => afterSkipped c
  | .carriage skipped =>
    if c ≠ '\n' then none
    else if skipped then some ([], .skipping)
    else some (['\n'], .plain)
  | .quotes _ => none

/-- Reads a text up to the three delimiters that close it; two more may stand before these and
belong to the text. -/
def readLines (delimiter : Char) : TextMode → List Char → Option (List Char × List Char)
  | mode, [] =>
    match mode with
    | .quotes count => if 3 ≤ count then some (List.replicate (count - 3) delimiter, []) else none
    | _ => none
  | mode, c :: rest =>
    let go (found : Option (List Char × TextMode)) : Option (List Char × List Char) :=
      match found with
      | none => none
      | some (content, mode) =>
        (readLines delimiter mode rest).map fun (more, rest) => (content ++ more, rest)
    match mode with
    | .quotes count =>
      if c = delimiter then
        if count < 5 then go (some ([], .quotes (count + 1))) else none
      else if 3 ≤ count then some (List.replicate (count - 3) delimiter, c :: rest)
      else go ((afterPlain delimiter c).map fun (content, mode) =>
        (List.replicate count delimiter ++ content, mode))
    | mode => go (afterChar delimiter mode c)

def dropLineEnd : List Char → List Char
  | '\n' :: rest => rest
  | '\r' :: '\n' :: rest => rest
  | input => input

def readText : List Char → Option (List Char × List Char)
  | '"' :: '"' :: '"' :: rest => readLines '"' .plain (dropLineEnd rest)
  | '"' :: rest => readQuoted .plain rest
  | '\'' :: '\'' :: '\'' :: rest => readLines '\'' .plain (dropLineEnd rest)
  | '\'' :: rest => readLiteral rest
  | _ => none

end BlockBuilder.Toml
