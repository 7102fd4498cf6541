import CacheCluster.Text.Blank
import CacheCluster.Yaml.Scalar

/-! # Collections in brackets

Lists in square brackets and tables in braces, which may go over several lines. The readers take the
characters from the bracket on and give back those behind its partner.
-/

namespace CacheCluster.Yaml

open Settings (Value)

def isSpace (c : Char) : Bool :=
  c == ' ' || c == '\t' || c == '\n'

/-- Whether a character ends a scalar in brackets. -/
def isFlowMark (c : Char) : Bool :=
  c == ',' || c == '[' || c == ']' || c == '{' || c == '}'

/-- Whether a scalar cannot begin with a character. -/
def isReserved (c : Char) : Bool :=
  "#&*!|>'\"%@".toList.contains c || c.toNat == 0x60

/-- Whether a text begins with a sign that stands alone, and so with no scalar. -/
def isSign : List Char → Bool
  | c :: cs => (c == '-' || c == '?' || c == ':') && cs.head?.all isSpace
  | [] => false

/-- Skips blanks, line breaks and comments. -/
def skipSpace : (fuel : Nat) → List Char → List Char
  | fuel + 1, '#' :: cs => skipSpace fuel (cs.dropWhile (· != '\n'))
  | fuel + 1, c :: cs => if isSpace c then skipSpace fuel cs else c :: cs
  | _, cs => cs

/-- Whether a colon before `rest` separates a key from its value. -/
def isSeparatorBefore (rest : List Char) : Bool :=
  rest.head?.all fun c => isSpace c || isFlowMark c

/-- The scalar at the start, its line breaks as blanks, and what follows it. -/
def plainFlow : (written : List Char) → List Char → String × List Char
  | written, [] => (String.ofList written.reverse, [])
  | written, c :: cs =>
    let ends := isFlowMark c || (c == ':' && isSeparatorBefore cs) ||
      (c == '#' && written.head?.all isSpace)
    if ends then (String.ofList written.reverse, c :: cs)
    else plainFlow ((if c == '\n' then ' ' else c) :: written) cs

/-- The text of a key; a number is taken as it would be written. -/
def keyText? (s : String) : Option String :=
  match plain? s with
  | some (.text key) => some key
  | some (.integer i) => some (toString i)
  | _ => none

/-- A key in brackets and what follows it. -/
def flowKey? (cs : List Char) : Option (String × List Char) :=
  match cs with
  | '"' :: _ | '\'' :: _ => quoted? cs
  | c :: _ =>
    if isReserved c || isFlowMark c || isSign cs then none
    else
      let (key, rest) := plainFlow [] cs
      (keyText? (Text.trim key)).map fun key => (key, rest)
  | [] => none

mutual

/-- A value in brackets and what follows it. -/
def flow? : (fuel : Nat) → List Char → Option (Value × List Char)
  | 0, _ => none
  | fuel + 1, cs =>
    match skipSpace cs.length cs with
    | '[' :: cs => (flowItems? fuel [] cs).map fun (values, rest) => (.list values, rest)
    | '{' :: cs => (flowEntries? fuel [] cs).map fun (entries, rest) => (.table entries, rest)
    | c :: cs =>
      if c == '"' || c == '\'' then (quoted? (c :: cs)).map fun (s, rest) => (.text s, rest)
      else if isReserved c || isFlowMark c || isSign (c :: cs) then none
      else
        let (s, rest) := plainFlow [] (c :: cs)
        (plain? (Text.trim s)).map fun value => (value, rest)
    | [] => none

/-- The values up to a closing bracket, and what follows it. -/
def flowItems? : (fuel : Nat) → (values : List Value) → List Char → Option (List Value × List Char)
  | 0, _, _ => none
  | fuel + 1, values, cs =>
    match skipSpace cs.length cs with
    | ']' :: rest => some (values.reverse, rest)
    | cs =>
      (flow? fuel cs).bind fun (value, rest) =>
        match skipSpace rest.length rest with
        | ',' :: rest => flowItems? fuel (value :: values) rest
        | ']' :: rest => some ((value :: values).reverse, rest)
        | _ => none

/-- The entries up to a closing brace, and what follows it; no key may come twice. -/
def flowEntries? : (fuel : Nat) → (entries : List (String × Value)) → List Char →
    Option (List (String × Value) × List Char)
  | 0, _, _ => none
  | fuel + 1, entries, cs =>
    match skipSpace cs.length cs with
    | '}' :: rest => some (entries.reverse, rest)
    | cs =>
      (flowKey? cs).bind fun (key, rest) =>
        (flowValue? fuel (skipSpace rest.length rest)).bind fun (value, rest) =>
          if entries.any (·.1 == key) then none
          else
            match skipSpace rest.length rest with
            | ',' :: rest => flowEntries? fuel ((key, value) :: entries) rest
            | '}' :: rest => some (((key, value) :: entries).reverse, rest)
            | _ => none

/-- The value behind a key, which may be left out, and what follows it. -/
def flowValue? : (fuel : Nat) → List Char → Option (Value × List Char)
  | 0, _ => none
  | fuel + 1, cs =>
    match cs with
    | ':' :: rest =>
      match skipSpace rest.length rest with
      | ',' :: rest => some (.null, ',' :: rest)
      | '}' :: rest => some (.null, '}' :: rest)
      | rest => flow? fuel rest
    | cs => some (.null, cs)

end

end CacheCluster.Yaml
