import CacheCluster.Text.CaseTable

/-! # Lower case

The lower-case form of a text. It is the form of each character, save that a capital sigma at the
end of a word becomes the final sigma and a capital I with a dot keeps its dot as a mark of its own.
-/

namespace CacheCluster.Text

/-- The lower-case form of one character, by itself. -/
def lowerChar (c : Char) : List Char :=
  let n := c.toNat
  if n = 0x130 then [Char.ofNat 0x69, Char.ofNat 0x307]
  else
    match lowerRuns.find? fun run =>
        run.first ≤ n && n ≤ run.last && (n - run.first) % run.step == 0 with
    | some run => [Char.ofNat (run.lower + (n - run.first))]
    | none => [c]

/-- Whether the first character that is not passed over is cased. -/
def meetsCased (cs : List Char) : Bool :=
  match cs.dropWhile fun c => inRuns ignorableRuns c.toNat with
  | [] => false
  | c :: _ => inRuns casedRuns c.toNat

/-- The lower-case form of `after`, given what stands before it, nearest first. -/
def lowerAfter (before : List Char) : List Char → List Char
  | [] => []
  | c :: after =>
    (if c.toNat = 0x3A3 then
      if meetsCased before && !meetsCased after then [Char.ofNat 0x3C2] else [Char.ofNat 0x3C3]
    else lowerChar c) ++ lowerAfter (c :: before) after

/-- The lower-case form of a text. -/
def lowercase (s : String) : String :=
  String.ofList (lowerAfter [] s.toList)

end CacheCluster.Text
