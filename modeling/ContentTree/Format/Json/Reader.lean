import ContentTree.Format.Json.Number

/-!
# Reading JSON text

A text holds one value, with blanks around it. A string with an unpaired surrogate escape and a
numeral without a value are well formed but stand for nothing (`Datum.unreadable`), so they only
spoil a value that needs them.
-/

namespace ContentTree.Json

/-- Space, tabulator, line feed and carriage return. -/
def isBlank (c : Char) : Bool :=
  c = ' ' ∨ c = '\t' ∨ c = '\n' ∨ c = '\r'

/-- What follows the blanks. -/
def skipBlanks (s : List Char) : List Char :=
  s.dropWhile isBlank

/-- The number a hexadecimal digit stands for. -/
def hexValue? (c : Char) : Option Nat :=
  if '0' ≤ c ∧ c ≤ '9' then some (c.toNat - '0'.toNat)
  else if 'a' ≤ c ∧ c ≤ 'f' then some (c.toNat - 'a'.toNat + 10)
  else if 'A' ≤ c ∧ c ≤ 'F' then some (c.toNat - 'A'.toNat + 10)
  else none

/-- The code that four hexadecimal digits denote. -/
def hexCode? (a b c d : Char) : Option Nat := do
  return 4096 * (← hexValue? a) + 256 * (← hexValue? b) + 16 * (← hexValue? c) + (← hexValue? d)

/-- The character that a short escape stands for. -/
def shortEscape? : Char → Option Char
  | '"' => some '"'
  | '\\' => some '\\'
  | '/' => some '/'
  | 'b' => some '\x08'
  | 'f' => some '\x0c'
  | 'n' => some '\n'
  | 'r' => some '\r'
  | 't' => some '\t'
  | _ => none

/-- Reads the rest of a string, as codes of characters and surrogates, up to its closing quote. -/
def readCodes : List Char → Option (List Nat × List Char)
  | [] => none
  | '"' :: rest => some ([], rest)
  | '\\' :: 'u' :: a :: b :: c :: d :: rest => do
    let code ← hexCode? a b c d
    let (codes, rest) ← readCodes rest
    return (code :: codes, rest)
  | '\\' :: e :: rest => do
    let c ← shortEscape? e
    let (codes, rest) ← readCodes rest
    return (c.toNat :: codes, rest)
  | c :: rest =>
    if c.toNat < 0x20 ∨ c = '\\' then none
    else do
      let (codes, rest) ← readCodes rest
      return (c.toNat :: codes, rest)

/-- The characters that codes denote: a leading and a trailing surrogate make one character, and
any other surrogate none. -/
def combine : List Nat → Option (List Char)
  | [] => some []
  | lead :: rest =>
    if 0xd800 ≤ lead ∧ lead < 0xdc00 then
      match rest with
      | trail :: rest =>
        if 0xdc00 ≤ trail ∧ trail < 0xe000 then
          (combine rest).map
            (Char.ofNat (0x10000 + (lead - 0xd800) * 0x400 + (trail - 0xdc00)) :: ·)
        else none
      | [] => none
    else if 0xdc00 ≤ lead ∧ lead < 0xe000 then none
    else (combine rest).map (Char.ofNat lead :: ·)

/-- Reads a string after its opening quote. -/
def readText (s : List Char) : Option (Datum × List Char) := do
  let (codes, rest) ← readCodes s
  match combine codes with
  | some chars => return (.text (String.ofList chars).toUTF8.toList, rest)
  | none => return (.unreadable, rest)

mutual

/-- Reads one value after blanks. -/
def readValue : (fuel : Nat) → List Char → Option (Datum × List Char)
  | 0, _ => none
  | fuel + 1, s =>
    match skipBlanks s with
    | 'n' :: 'u' :: 'l' :: 'l' :: rest => some (.null, rest)
    | 't' :: 'r' :: 'u' :: 'e' :: rest => some (.boolean true, rest)
    | 'f' :: 'a' :: 'l' :: 's' :: 'e' :: rest => some (.boolean false, rest)
    | '"' :: rest => readText rest
    | '[' :: rest =>
      match skipBlanks rest with
      | ']' :: rest => some (.list [], rest)
      | rest => (readItems fuel rest).map fun (items, rest) => (.list items, rest)
    | '\x7b' :: rest =>
      match skipBlanks rest with
      | '\x7d' :: rest => some (.table [], rest)
      | rest => (readMembers fuel rest).map fun (entries, rest) => (.table entries, rest)
    | '-' :: rest => (readNumeral true rest).map fun (n, rest) => (n.datum, rest)
    | rest => (readNumeral false rest).map fun (n, rest) => (n.datum, rest)

/-- Reads one or more values with commas between them, up to the closing bracket. -/
def readItems : (fuel : Nat) → List Char → Option (List Datum × List Char)
  | 0, _ => none
  | fuel + 1, s => do
    let (d, s) ← readValue fuel s
    match skipBlanks s with
    | ']' :: rest => some ([d], rest)
    | ',' :: rest =>
      let (items, rest) ← readItems fuel rest
      some (d :: items, rest)
    | _ => none

/-- Reads one or more members with commas between them, up to the closing brace. -/
def readMembers : (fuel : Nat) → List Char → Option (List (Datum × Datum) × List Char)
  | 0, _ => none
  | fuel + 1, s =>
    match skipBlanks s with
    | '"' :: s => do
      let (key, s) ← readText s
      match skipBlanks s with
      | ':' :: s =>
        let (value, s) ← readValue fuel s
        match skipBlanks s with
        | '\x7d' :: rest => some ([(key, value)], rest)
        | ',' :: rest =>
          let (entries, rest) ← readMembers fuel rest
          some ((key, value) :: entries, rest)
        | _ => none
      | _ => none
    | _ => none

end

/-- Reads a whole text. Every step on the way down to a value consumes a character or follows one
that did, so the fuel does not run out. -/
def read (text : String) : Option Datum := do
  let s := text.toList
  let (d, rest) ← readValue (2 * s.length + 2) s
  if (skipBlanks rest).isEmpty then some d else none

/-- The value that a whole text denotes. -/
def decode {α : Type} (ofDatum : Datum → Option α) (text : String) : Option α := do
  ofDatum (← read text)

end ContentTree.Json
