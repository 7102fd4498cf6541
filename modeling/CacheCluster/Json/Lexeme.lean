import CacheCluster.Decimal.Integer
import CacheCluster.Json.Basic
import CacheCluster.Text.Hex

/-! # Lexemes of a JSON text

The marks, words and quoted strings of a text. A first pass cuts the text at blanks, marks and
quotes; a second one reads each word as a literal or a number and resolves the escapes of each
string.
-/

namespace CacheCluster.Json

inductive Mark
  | openArray | closeArray | openObject | closeObject | colon | comma
  deriving DecidableEq, Repr

inductive Lexeme
  | mark (mark : Mark)
  /-- A literal, a number or a string. -/
  | scalar (value : Json)
  deriving Repr

def mark? : Char → Option Mark
  | '[' => some .openArray
  | ']' => some .closeArray
  | '\x7b' => some .openObject
  | '\x7d' => some .closeObject
  | ':' => some .colon
  | ',' => some .comma
  | _ => none

/-- The blanks between lexemes. -/
def isBlank (c : Char) : Bool :=
  c == ' ' || c == '\n' || c == '\r' || c == '\t'

/-- The integer part of a number; a leading zero stands alone. -/
def wholePart? (cs : List Char) : Option (Nat × List Char) :=
  let (digits, rest) := cs.span fun c => (Decimal.digit? c).isSome
  match digits with
  | [] => none
  | '0' :: _ :: _ => none
  | _ => (Decimal.readDigits 0 digits).map fun n => (n, rest)

/-- The fraction of a number, as the number without the point and the count of its places. -/
def fractionPart? (n : Nat) : List Char → Option (Nat × Nat × List Char)
  | '.' :: cs =>
    let (digits, rest) := cs.span fun c => (Decimal.digit? c).isSome
    if digits.isEmpty then none
    else (Decimal.readDigits n digits).map fun m => (m, digits.length, rest)
  | cs => some (n, 0, cs)

/-- The exponent that the rest of a number spells. -/
def exponentPart? : List Char → Option Int
  | [] => some 0
  | c :: cs => if c == 'e' || c == 'E' then Decimal.integer? cs else none

/-- The number that a word spells. -/
def number? (word : List Char) : Option Number :=
  let (negative, cs) := match word with
    | '-' :: cs => (true, cs)
    | cs => (false, cs)
  match wholePart? cs with
  | none => none
  | some (n, []) =>
    if negative && n == 0 then some (.decimal true 0 0)
    else some (.integer (if negative then -(n : Int) else n))
  | some (n, rest) =>
    match fractionPart? n rest with
    | none => none
    | some (digits, places, rest) =>
      (exponentPart? rest).map fun e => .decimal negative digits (e - places)

/-- The literal or number that a word spells. -/
def word? (word : List Char) : Option Json :=
  match word with
  | ['n', 'u', 'l', 'l'] => some .null
  | ['t', 'r', 'u', 'e'] => some (.bool true)
  | ['f', 'a', 'l', 's', 'e'] => some (.bool false)
  | _ => (number? word).map .number

/-- The unit that four hexadecimal digits spell. -/
def unit? (a b c d : Char) : Option Nat := do
  let high := (← Text.hexDigit? a) * 16 + (← Text.hexDigit? b)
  return (high * 16 + (← Text.hexDigit? c)) * 16 + (← Text.hexDigit? d)

/-- What an escape of one letter stands for. -/
def escape? : Char → Option Char
  | '"' => some '"'
  | '\\' => some '\\'
  | '/' => some '/'
  | 'b' => some '\x08'
  | 'f' => some '\x0c'
  | 'n' => some '\n'
  | 'r' => some '\r'
  | 't' => some '\t'
  | _ => none

/-- The parts of a quoted string: a character, or a unit written with four digits. -/
inductive Part
  | char (c : Char)
  | unit (n : Nat)
  deriving DecidableEq

/-- The parts of what stands between two quotes, after those already read, latest first. -/
def parts? (read : List Part) : List Char → Option (List Part)
  | [] => some read.reverse
  | '\\' :: 'u' :: a :: b :: c :: d :: cs =>
    match unit? a b c d with
    | some n => parts? (.unit n :: read) cs
    | none => none
  | '\\' :: e :: cs =>
    match escape? e with
    | some c => parts? (.char c :: read) cs
    | none => none
  | c :: cs => if c == '\\' || c.toNat < 0x20 then none else parts? (.char c :: read) cs

def isHighSurrogate (n : Nat) : Bool := 0xD800 ≤ n && n ≤ 0xDBFF
def isLowSurrogate (n : Nat) : Bool := 0xDC00 ≤ n && n ≤ 0xDFFF

/-- The characters that parts stand for, none where half a surrogate pair stands alone. -/
def charsOf? (read : List Char) : List Part → Option (List Char)
  | [] => some read.reverse
  | .char c :: parts => charsOf? (c :: read) parts
  | .unit n :: parts =>
    if isLowSurrogate n then none
    else if isHighSurrogate n then
      match parts with
      | .unit m :: parts =>
        if isLowSurrogate m then
          charsOf? (Char.ofNat (0x10000 + (n - 0xD800) * 0x400 + (m - 0xDC00)) :: read) parts
        else none
      | _ => none
    else charsOf? (Char.ofNat n :: read) parts

/-- The document of what stands between two quotes. -/
def quoted? (raw : List Char) : Option Json :=
  (parts? [] raw).map fun parts =>
    match charsOf? [] parts with
    | some cs => .string (String.ofList cs)
    | none => .stray

/-- What the cutting pass is inside of. -/
inductive Inside
  | nothing
  /-- A word, its characters latest first. -/
  | word (read : List Char)
  /-- A string, its characters latest first, and whether the last one begins an escape. -/
  | quotes (read : List Char) (escaping : Bool)

/-- The lexemes of a text, after those already read, latest first. -/
def lex? (read : List Lexeme) : Inside → List Char → Option (List Lexeme)
  | .nothing, [] => some read.reverse
  | .word w, [] =>
    match word? w.reverse with
    | some value => some (Lexeme.scalar value :: read).reverse
    | none => none
  | .quotes _ _, [] => none
  | .nothing, c :: cs =>
    if isBlank c then lex? read .nothing cs
    else if c == '"' then lex? read (.quotes [] false) cs
    else match mark? c with
      | some m => lex? (.mark m :: read) .nothing cs
      | none => lex? read (.word [c]) cs
  | .word w, c :: cs =>
    if isBlank c then
      match word? w.reverse with
      | some value => lex? (.scalar value :: read) .nothing cs
      | none => none
    else if c == '"' then none
    else match mark? c with
      | some m =>
        match word? w.reverse with
        | some value => lex? (.mark m :: .scalar value :: read) .nothing cs
        | none => none
      | none => lex? read (.word (c :: w)) cs
  | .quotes raw escaping, c :: cs =>
    if escaping then lex? read (.quotes (c :: raw) false) cs
    else if c == '\\' then lex? read (.quotes (c :: raw) true) cs
    else if c == '"' then
      match quoted? raw.reverse with
      | some value => lex? (.scalar value :: read) .nothing cs
      | none => none
    else lex? read (.quotes (c :: raw) false) cs

end CacheCluster.Json
