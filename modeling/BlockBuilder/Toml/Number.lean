import BlockBuilder.Toml.Value

namespace BlockBuilder.Toml

def isDigit (c : Char) : Bool := '0' ≤ c && c ≤ '9'

def digitValue (c : Char) : Nat :=
  if c ≤ '9' then c.toNat - 48 else if 'a' ≤ c then c.toNat - 87 else c.toNat - 55

def isHexDigit (c : Char) : Bool :=
  isDigit c || ('a' ≤ c && c ≤ 'f') || ('A' ≤ c && c ≤ 'F')

def isOctalDigit (c : Char) : Bool := '0' ≤ c && c ≤ '7'

def isBinaryDigit (c : Char) : Bool := c = '0' || c = '1'

def ofDigits (base : Nat) (digits : List Char) : Nat :=
  digits.foldl (fun value c => base * value + digitValue c) 0

def moreDigits (valid : Char → Bool) : List Char → List Char × List Char
  | '_' :: c :: rest =>
    if valid c then
      let (digits, rest) := moreDigits valid rest
      (c :: digits, rest)
    else ([], '_' :: c :: rest)
  | c :: rest =>
    if valid c then
      let (digits, rest) := moreDigits valid rest
      (c :: digits, rest)
    else ([], c :: rest)
  | [] => ([], [])

def someDigits (valid : Char → Bool) : List Char → Option (List Char × List Char)
  | c :: rest =>
    if valid c then
      let (digits, rest) := moreDigits valid rest
      some (c :: digits, rest)
    else none
  | [] => none

def readSign : List Char → Bool × List Char
  | '+' :: rest => (false, rest)
  | '-' :: rest => (true, rest)
  | input => (false, input)

def decimalDigits : List Char → Option (List Char × List Char)
  | '0' :: rest => some (['0'], rest)
  | input => someDigits isDigit input

def integerBound : Nat := 1 <<< 63

def integerOf? (negative : Bool) (magnitude : Nat) : Option Int :=
  if negative then
    if magnitude ≤ integerBound then some (-magnitude) else none
  else if magnitude < integerBound then some magnitude else none

def readBased (base : Nat) (valid : Char → Bool) (input : List Char) :
    Option (Value × List Char) := do
  let (digits, rest) ← someDigits valid input
  let number ← integerOf? false (ofDigits base digits)
  return (.integer number, rest)

def readInteger : List Char → Option (Value × List Char)
  | '0' :: 'x' :: rest => readBased 16 isHexDigit rest
  | '0' :: 'o' :: rest => readBased 8 isOctalDigit rest
  | '0' :: 'b' :: rest => readBased 2 isBinaryDigit rest
  | input => do
    let (negative, input) := readSign input
    let (digits, rest) ← decimalDigits input
    let number ← integerOf? negative (ofDigits 10 digits)
    return (.integer number, rest)

def readExponent : List Char → Option (Int × List Char)
  | c :: input =>
    if c = 'e' ∨ c = 'E' then do
      let (negative, input) := readSign input
      let (digits, rest) ← someDigits isDigit input
      let magnitude : Int := ofDigits 10 digits
      return (if negative then -magnitude else magnitude, rest)
    else some (0, c :: input)
  | [] => some (0, [])

/-- The least positive number that rounds to infinity: half a unit above the largest float. -/
def infinityThreshold : Nat := 1 <<< 1024 - 1 <<< 970

def isFinite (digits : List Char) (exponent : Int) : Bool :=
  let significant := digits.dropWhile (· = '0')
  let magnitude : Int := significant.length + exponent
  if significant.isEmpty || magnitude ≤ 308 then true
  else if 310 ≤ magnitude then false
  else if 0 ≤ exponent then ofDigits 10 significant * Nat.pow 10 exponent.toNat < infinityThreshold
  else ofDigits 10 significant < infinityThreshold * Nat.pow 10 (-exponent).toNat

def readFraction : List Char → Option (List Char × List Char)
  | '.' :: input => someDigits isDigit input
  | input => some ([], input)

def readSpecial : List Char → Option (Value × List Char)
  | 'i' :: 'n' :: 'f' :: rest => some (.float, rest)
  | 'n' :: 'a' :: 'n' :: rest => some (.float, rest)
  | _ => none

def readFloat (input : List Char) : Option (Value × List Char) :=
  let (negative, unsigned) := readSign input
  match readSpecial unsigned with
  | some found => some found
  | none => do
    let (whole, afterWhole) ← decimalDigits unsigned
    let (fraction, afterFraction) ← readFraction afterWhole
    let (exponent, rest) ← readExponent afterFraction
    -- without a fraction or an exponent this is an integer; only positive floats are found too large
    if rest.length = afterWhole.length then none
    else if negative || isFinite (whole ++ fraction) (exponent - fraction.length) then
      return (.float, rest)
    else none

def readDigits : Nat → List Char → Option (List Char × List Char)
  | 0, input => some ([], input)
  | _ + 1, [] => none
  | count + 1, c :: rest =>
    if isDigit c then (readDigits count rest).map fun (digits, rest) => (c :: digits, rest)
    else none

def readField (count low high : Nat) (input : List Char) : Option (Nat × List Char) := do
  let (digits, rest) ← readDigits count input
  let value := ofDigits 10 digits
  if low ≤ value ∧ value ≤ high then return (value, rest) else none

def readChar (expected : Char) : List Char → Option (List Char)
  | c :: rest => if c = expected then some rest else none
  | [] => none

def daysIn (year month : Nat) : Nat :=
  if month = 2 then
    if year % 4 = 0 ∧ (year % 100 ≠ 0 ∨ year % 400 = 0) then 29 else 28
  else if month = 4 ∨ month = 6 ∨ month = 9 ∨ month = 11 then 30
  else 31

def readDate (input : List Char) : Option (List Char) := do
  let (year, input) ← readField 4 0 9999 input
  let input ← readChar '-' input
  let (month, input) ← readField 2 1 12 input
  let input ← readChar '-' input
  let (_, rest) ← readField 2 1 (daysIn year month) input
  return rest

def readTime (input : List Char) : Option (List Char) := do
  let (_, input) ← readField 2 0 23 input
  let input ← readChar ':' input
  let (_, input) ← readField 2 0 59 input
  let input ← readChar ':' input
  let (_, rest) ← readField 2 0 60 input
  match rest with
  | '.' :: c :: after => if isDigit c then return after.dropWhile isDigit else return rest
  | _ => return rest

def readOffset : List Char → Option (List Char)
  | [] => none
  | c :: rest =>
    if c = 'Z' ∨ c = 'z' then some rest
    else if c = '+' ∨ c = '-' then do
      let (_, rest) ← readField 2 0 23 rest
      let rest ← readChar ':' rest
      let (_, rest) ← readField 2 0 59 rest
      return rest
    else none

def afterDate : List Char → List Char
  | [] => []
  | c :: rest =>
    if c = 'T' ∨ c = 't' ∨ c = ' ' then
      match readTime rest with
      | some afterTime => (readOffset afterTime).getD afterTime
      | none => c :: rest
    else c :: rest

def readDatetime (input : List Char) : Option (Value × List Char) :=
  match readDate input with
  | some rest => some (.datetime, afterDate rest)
  | none => (readTime input).map fun rest => (.datetime, rest)

def readNumber (input : List Char) : Option (Value × List Char) :=
  readDatetime input <|> readFloat input <|> readInteger input

end BlockBuilder.Toml
