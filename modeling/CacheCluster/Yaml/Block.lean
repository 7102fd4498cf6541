import CacheCluster.Yaml.Flow

/-! # Collections by indentation

Tables and lists whose entries stand on lines of their own, indented alike. A line is kept by its
indentation and the text behind it. The readers take the lines from an entry on and give back those
behind the collection.
-/

namespace CacheCluster.Yaml

open Settings (Value)

structure Line where
  indent : Nat
  text : List Char
  deriving DecidableEq, Repr

namespace Line

def ofChars (cs : List Char) : Line :=
  let text := cs.dropWhile (· == ' ')
  ⟨cs.length - text.length, Text.trimRight text⟩

def toChars (line : Line) : List Char :=
  List.replicate line.indent ' ' ++ line.text

/-- Whether the line says nothing. -/
def isEmpty (line : Line) : Bool :=
  match line.text.dropWhile isSpace with
  | [] | '#' :: _ => true
  | _ => false

end Line

def skipEmpty (lines : List Line) : List Line :=
  lines.dropWhile Line.isEmpty

/-- Lines as one text. -/
def joinLines (lines : List Line) : List Char :=
  ['\n'].intercalate (lines.map Line.toChars)

def isItem : List Char → Bool
  | ['-'] => true
  | '-' :: c :: _ => isSpace c
  | _ => false

/-! ## Keys -/

/-- A plain key before a colon, and what follows the colon. -/
def plainKey? : (written : List Char) → List Char → Option (List Char × List Char)
  | _, [] => none
  | written, ':' :: cs =>
    if cs.head?.all isSpace then some (written.reverse, cs) else plainKey? (':' :: written) cs
  | written, c :: cs =>
    if c == '#' && written.head?.any isSpace then none else plainKey? (c :: written) cs

/-- The key that a line begins with, and what follows its colon. -/
def key? (cs : List Char) : Option (String × List Char) :=
  match cs with
  | [] => none
  | c :: _ =>
    if c == '"' || c == '\'' then
      (quoted? cs).bind fun (key, rest) =>
        match rest.dropWhile isSpace with
        | ':' :: rest => if rest.head?.all isSpace then some (key, rest) else none
        | _ => none
    else if isReserved c || isFlowMark c || isSign cs then none
    else
      (plainKey? [] cs).bind fun (key, rest) =>
        (keyText? (Text.trim (String.ofList key))).map fun key => (key, rest)

/-! ## Scalars -/

/-- A line's text up to its comment. -/
def withoutComment : (written : List Char) → List Char → List Char
  | written, [] => written.reverse
  | written, c :: cs =>
    if c == '#' && written.head?.all isSpace then written.reverse
    else withoutComment (c :: written) cs

/-- The lines that go on with a scalar below `parent`, as texts, and those that follow. -/
def continuation (parent : Option Nat) : List Line → List (List Char) × List Line
  | [] => ([], [])
  | line :: lines =>
    if line.text.isEmpty then
      let (more, rest) := continuation parent lines
      if more.isEmpty then ([], line :: lines) else ([] :: more, rest)
    else if line.isEmpty || !parent.all (· < line.indent) then ([], line :: lines)
    else
      let (more, rest) := continuation parent lines
      (withoutComment [] line.text :: more, rest)

/-- Joins the lines of a scalar: a break becomes a blank, and before empty lines it is dropped. -/
def foldLines : (written : String) → (empty : Nat) → List (List Char) → String
  | written, _, [] => written
  | written, empty, [] :: more => foldLines written (empty + 1) more
  | written, 0, text :: more =>
    foldLines (written ++ " " ++ Text.trim (String.ofList text)) 0 more
  | written, empty + 1, text :: more =>
    foldLines (written ++ String.ofList (List.replicate (empty + 1) '\n') ++
      Text.trim (String.ofList text)) 0 more

/-- A plain scalar that begins with `text` and goes on in the lines below `parent`. No line of it
may look like the entry of a table. -/
def plainBlock? (parent : Option Nat) (text : List Char) (lines : List Line) :
    Option (Value × List Line) :=
  let first := withoutComment [] text
  let isCut := first.length < text.length
  let (more, rest) := if isCut then ([], lines) else continuation parent lines
  if (first :: more).any fun part => (plainKey? [] part).isSome then none
  else
    (plain? (foldLines (Text.trim (String.ofList first)) 0 more)).map fun value => (value, rest)

/-- What stands behind a value that ends within a line: nothing else, and then other lines. -/
def afterInline? (rest : List Char) : Option (List Line) :=
  let line := rest.takeWhile (· != '\n')
  if (Line.ofChars line).isEmpty then
    some (((Text.pieces (· == '\n') rest).drop 1).map Line.ofChars)
  else none

/-- How line breaks at the end of a scalar are kept. -/
inductive Chomping
  | strip | clip | keep
  deriving DecidableEq

/-- The marks behind the sign of a block scalar: indentation and chomping. -/
def blockMarks? : Option Nat → Chomping → List Char → Option (Option Nat × Chomping)
  | indent, chomping, [] => some (indent, chomping)
  | indent, _, '-' :: cs => blockMarks? indent .strip cs
  | indent, _, '+' :: cs => blockMarks? indent .keep cs
  | indent, chomping, c :: cs =>
    match Decimal.digit? c with
    | some d => if d = 0 then none else blockMarks? (some d) chomping cs
    | none => if isSpace c && (Line.ofChars cs).isEmpty then some (indent, chomping) else none

/-- The text of a block scalar from its lines, each less the common indentation. -/
def blockText (folded : Bool) (chomping : Chomping) (lines : List (List Char)) : String :=
  let body := (lines.reverse.dropWhile List.isEmpty).reverse
  let trailing := lines.length - body.length
  let text :=
    if folded then
      match body with
      | [] => ""
      | first :: more => foldLines (String.ofList first) 0 more
    else "\n".intercalate (body.map String.ofList)
  match chomping with
  | .strip => text
  | .clip => if body.isEmpty then text else text ++ "\n"
  | .keep =>
    text ++ String.ofList (List.replicate (trailing + if body.isEmpty then 0 else 1) '\n')

/-- A block scalar below `parent`, from what follows its sign. -/
def blockScalar? (folded : Bool) (parent : Option Nat) (marks : List Char) (lines : List Line) :
    Option (Value × List Line) :=
  (blockMarks? none .clip marks).map fun (indent, chomping) =>
    let own := lines.takeWhile fun line => line.text.isEmpty || parent.all (· < line.indent)
    let least := (parent.elim 0 (· + 1))
    let common := match indent with
      | some n => (parent.getD 0) + n
      | none => ((own.find? (!·.text.isEmpty)).map (·.indent)).getD least
    let texts := own.map fun line => line.toChars.drop common
    (.text (blockText folded chomping texts), lines.drop own.length)

/-- A value that begins within a line, below the collection indented by `parent`. -/
def inline? (parent : Option Nat) (text : List Char) (lines : List Line) :
    Option (Value × List Line) :=
  match text with
  | '|' :: marks => blockScalar? false parent marks lines
  | '>' :: marks => blockScalar? true parent marks lines
  | c :: _ =>
    let whole := text ++ '\n' :: joinLines lines
    if c == '"' || c == '\'' then
      (quoted? whole).bind fun (s, rest) =>
        (afterInline? rest).map fun lines => (.text s, lines)
    else if c == '[' || c == '{' then
      (flow? (2 * whole.length) whole).bind fun (value, rest) =>
        (afterInline? rest).map fun lines => (value, lines)
    else if isReserved c || isFlowMark c || isSign text then none
    else plainBlock? parent text lines
  | [] => some (.null, lines)

/-! ## Collections -/

mutual

/-- The value that the lines begin with, if its first line is indented by `least` at least;
otherwise there is none, which is null. -/
def block? : (fuel least : Nat) → (parent : Option Nat) → List Line → Option (Value × List Line)
  | 0, _, _, _ => none
  | fuel + 1, least, parent, lines =>
    match skipEmpty lines with
    | [] => some (.null, [])
    | line :: rest =>
      if line.indent < least then some (.null, line :: rest)
      else if line.text.head? = some '\t' then none
      else if isItem line.text then
        (items? fuel line.indent [] (line :: rest)).map fun (values, rest) => (.list values, rest)
      else if (key? line.text).isSome then
        (entries? fuel line.indent [] (line :: rest)).map fun (entries, rest) =>
          (.table entries, rest)
      else inline? parent line.text rest

/-- The items that are indented by `indent`. -/
def items? : (fuel indent : Nat) → (values : List Value) → List Line →
    Option (List Value × List Line)
  | 0, _, _, _ => none
  | fuel + 1, indent, values, lines =>
    match skipEmpty lines with
    | [] => some (values.reverse, [])
    | line :: rest =>
      if line.indent < indent then some (values.reverse, line :: rest)
      else if line.indent = indent && isItem line.text then
        let behind := line.text.drop 1
        let text := behind.dropWhile (· == ' ')
        let inner : Line := ⟨indent + 1 + (behind.length - text.length), text⟩
        (block? fuel (indent + 1) (some indent) (inner :: rest)).bind fun (value, rest) =>
          items? fuel indent (value :: values) rest
      else if line.indent = indent then some (values.reverse, line :: rest)
      else none

/-- The entries that are indented by `indent`; no key may come twice. -/
def entries? : (fuel indent : Nat) → (entries : List (String × Value)) → List Line →
    Option (List (String × Value) × List Line)
  | 0, _, _, _ => none
  | fuel + 1, indent, entries, lines =>
    match skipEmpty lines with
    | [] => some (entries.reverse, [])
    | line :: rest =>
      if line.indent < indent then some (entries.reverse, line :: rest)
      else if indent < line.indent || line.text.head? = some '\t' then none
      else
        (key? line.text).bind fun (key, behind) =>
          if entries.any (·.1 == key) then none
          else
            (entryValue? fuel indent behind rest).bind fun (value, rest) =>
              entries? fuel indent ((key, value) :: entries) rest

/-- The value of an entry: what follows the colon, or the lines below it. The items of a list may be
indented like the entry. -/
def entryValue? : (fuel indent : Nat) → List Char → List Line → Option (Value × List Line)
  | 0, _, _, _ => none
  | fuel + 1, indent, behind, lines =>
    match behind.dropWhile isSpace with
    | [] | '#' :: _ =>
      match skipEmpty lines with
      | line :: rest =>
        if line.indent = indent && isItem line.text then
          (items? fuel indent [] (line :: rest)).map fun (values, rest) => (.list values, rest)
        else block? fuel (indent + 1) (some indent) (line :: rest)
      | [] => some (.null, [])
    | text => inline? (some indent) text lines

end

end CacheCluster.Yaml
