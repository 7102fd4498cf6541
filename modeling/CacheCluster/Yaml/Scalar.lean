import CacheCluster.Decimal.Reading
import CacheCluster.Settings.Value
import CacheCluster.Text.Hex

/-! # Scalars of a YAML text

What a plain scalar stands for, and the text of a quoted one.
-/

namespace CacheCluster.Yaml

open Settings (Value)

/-- The digits of an integer in some base, read after the number `n`. -/
def readBase (base n : Nat) : List Char → Option Nat
  | [] => some n
  | c :: cs =>
    (Text.hexDigit? c).bind fun d => if d < base then readBase base (n * base + d) cs else none

/-- An integer in some base, if it has 64 bits. -/
def based? (base : Nat) (cs : List Char) : Option Int :=
  let (negative, digits) := match cs with
    | '-' :: ds => (true, ds)
    | '+' :: ds => (false, ds)
    | ds => (false, ds)
  if digits.isEmpty then none
  else
    ((readBase base 0 digits).map fun n => if negative then -(n : Int) else n).filter
      Decimal.fitsInt64

/-- An integer that is marked by what it begins with. -/
def marked? : List Char → Option Int
  | '0' :: 'x' :: cs => based? 16 cs
  | '0' :: 'o' :: cs => based? 8 cs
  | '+' :: cs => Decimal.int64? (String.ofList cs)
  | _ => none

/-- A number with a fraction or an exponent; it has a digit. -/
def float? (s : String) : Option Decimal.Binary64 :=
  if s.toList.any fun c => (Decimal.digit? c).isSome then Decimal.binary64? s else none

/-- A special number, which is written with a point in front. -/
def isSpecial (s : String) : Bool :=
  [".inf", ".Inf", ".INF", "+.inf", "+.Inf", "+.INF", "-.inf", "-.Inf", "-.INF",
    ".nan", ".NaN", ".NAN"].contains s

/-- What a plain scalar stands for; special numbers are not taken. -/
def plain? (s : String) : Option Value :=
  match marked? s.toList with
  | some i => some (.integer i)
  | none =>
    if s == "" || s == "~" || s == "null" then some .null
    else if s == "true" then some (.bool true)
    else if s == "false" then some (.bool false)
    else
      match Decimal.int64? s with
      | some i => some (.integer i)
      | none =>
        if isSpecial s then none
        else some ((float? s).elim (.text s) .float)

/-! ## Quoted scalars -/

/-- The character that a letter after a backslash stands for. -/
def escape? : Char → Option Char
  | '0' => some '\x00'
  | 'a' => some '\x07'
  | 'b' => some '\x08'
  | 't' | '\t' => some '\t'
  | 'n' => some '\n'
  | 'v' => some '\x0b'
  | 'f' => some '\x0c'
  | 'r' => some '\r'
  | 'e' => some '\x1b'
  | ' ' => some ' '
  | '"' => some '"'
  | '/' => some '/'
  | '\\' => some '\\'
  | 'N' => some '\u0085'
  | '_' => some '\u00a0'
  | 'L' => some '\u2028'
  | 'P' => some '\u2029'
  | _ => none

/-- The number of digits after a backslash and a letter. -/
def escapeDigits : Char → Nat
  | 'x' => 2
  | 'u' => 4
  | 'U' => 8
  | _ => 0

/-- Removes the blanks at the end of what was written, latest first. -/
def dropBlanks (written : List Char) : List Char :=
  written.dropWhile fun c => c == ' ' || c == '\t'

/-- Folds line breaks: one becomes a blank, and of more the first is dropped. -/
def fold (breaks : Nat) (written : List Char) : List Char :=
  if breaks ≤ 1 then ' ' :: written else List.replicate (breaks - 1) '\n' ++ written

/-- Counts the line breaks at the start, over blanks, and gives what follows them. -/
def skipBreaks : (breaks : Nat) → List Char → Nat × List Char
  | breaks, '\n' :: cs => skipBreaks (breaks + 1) cs
  | breaks, ' ' :: cs | breaks, '\t' :: cs => skipBreaks breaks cs
  | breaks, cs => (breaks, cs)

/-- The text up to a single quote, where two stand for one, and what follows it. -/
def single? : (fuel : Nat) → (written : List Char) → List Char → Option (String × List Char)
  | fuel + 1, written, '\'' :: '\'' :: cs => single? fuel ('\'' :: written) cs
  | _ + 1, written, '\'' :: cs => some (String.ofList written.reverse, cs)
  | fuel + 1, written, '\n' :: cs =>
    let (breaks, cs) := skipBreaks 1 cs
    single? fuel (fold breaks (dropBlanks written)) cs
  | fuel + 1, written, c :: cs => single? fuel (c :: written) cs
  | _, _, _ => none

/-- The text up to a double quote, with what backslashes stand for, and what follows it. -/
def double? : (fuel : Nat) → (written : List Char) → List Char → Option (String × List Char)
  | _ + 1, written, '"' :: cs => some (String.ofList written.reverse, cs)
  | fuel + 1, written, '\\' :: '\n' :: cs =>
    double? fuel written (cs.dropWhile fun c => c == ' ' || c == '\t')
  | fuel + 1, written, '\\' :: c :: cs =>
    match escapeDigits c with
    | 0 => (escape? c).bind fun c => double? fuel (c :: written) cs
    | digits =>
      let code := readBase 16 0 (cs.take digits)
      if cs.length < digits then none
      else
        code.bind fun n =>
          if n.isValidChar then double? fuel (Char.ofNat n :: written) (cs.drop digits) else none
  | fuel + 1, written, '\n' :: cs =>
    let (breaks, cs) := skipBreaks 1 cs
    double? fuel (fold breaks (dropBlanks written)) cs
  | fuel + 1, written, c :: cs => double? fuel (c :: written) cs
  | _, _, _ => none

/-- The text of a quoted scalar and what follows it. -/
def quoted? : List Char → Option (String × List Char)
  | '\'' :: cs => single? (cs.length + 1) [] cs
  | '"' :: cs => double? (cs.length + 1) [] cs
  | _ => none

end CacheCluster.Yaml
