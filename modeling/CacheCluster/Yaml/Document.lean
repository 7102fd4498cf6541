import CacheCluster.Yaml.Block

/-! # Documents of a YAML text

A text holds at most one document, which may be marked where it begins and ends. Values are plain,
quoted and block scalars, and lists and tables by indentation or in brackets; a text with tags,
anchors or marked keys is not read.
-/

namespace CacheCluster.Yaml

open Settings (Value)

def startMark : List Char := ['-', '-', '-']
def endMark : List Char := ['.', '.', '.']

/-- What follows a mark at the start of a line. -/
def afterMark? (mark : List Char) (line : Line) : Option (List Char) :=
  if line.indent = 0 then
    (Text.dropStart mark line.text).filter fun rest => rest.head?.all isSpace
  else none

/-- Whether nothing stands behind the end of a document. -/
def endsAfter (lines : List Line) : Bool :=
  match skipEmpty lines with
  | [] => true
  | line :: rest => (afterMark? endMark line).isSome && (skipEmpty rest).isEmpty

/-- The lines up to the next mark, and those from it on. -/
def spanDocument (lines : List Line) : List Line × List Line :=
  lines.span fun line =>
    (afterMark? startMark line).isNone && (afterMark? endMark line).isNone

/-- The value of the lines of one document. -/
def value? (lines : List Line) : Option Value :=
  let fuel := 2 * lines.foldl (fun n line => n + line.text.length + 2) 0 + 2
  (block? fuel 0 none lines).bind fun (value, rest) =>
    if (skipEmpty rest).isEmpty then some value else none

/-- The lines of a document behind its mark. -/
def bodyLines (behind : List Char) (lines : List Line) : List Line :=
  let text := behind.dropWhile isSpace
  if text.isEmpty then lines else ⟨4, text⟩ :: lines

/-- The value of the only document of a text; a text without one is an empty table. -/
def parse? (s : String) : Option Value :=
  let lines := (Text.pieces (· == '\n') (s.toList.filter (· != '\r'))).map Line.ofChars
  let lines := lines.dropWhile fun line => line.isEmpty || line.text.head? = some '%'
  match lines with
  | [] => some (.table [])
  | line :: rest =>
    let body := match afterMark? startMark line with
      | some behind => bodyLines behind rest
      | none => line :: rest
    let (own, others) := spanDocument body
    if endsAfter others then value? own else none

end CacheCluster.Yaml
