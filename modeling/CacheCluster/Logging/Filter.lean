import CacheCluster.Logging.Level
import CacheCluster.Text.Split

/-! # Filters

A filter is a list of directives, each of which lets the lines of some targets through up to a
level. The directive with the longest target decides; a line that none is for is dropped.
-/

namespace CacheCluster.Logging

/-- Lets lines through up to the level of a rank; the rank zero lets none through. -/
structure Directive where
  /-- What the targets start with; the empty text is for all. -/
  target : String
  rank : Nat
  deriving DecidableEq, Repr

abbrev Filter := List Directive

namespace Filter

def ofLevel (level : Level) : Filter :=
  [⟨"", level.rank⟩]

/-- The rank that a directive names. -/
def rank? (s : String) : Option Nat :=
  if s.map Char.toLower == "off" then some 0
  else
    match Level.number? s with
    | some n => if n ≤ 5 then some n else none
    | none => (Level.ofName? s).map Level.rank

def isTargetChar (c : Char) : Bool :=
  c.isAlphanum || c == '_' || c == ':' || c == '-'

/-- One directive: a level for all targets, or a target with or without a level. -/
def directive? (s : String) : Option Directive :=
  match rank? s with
  | some rank => some ⟨"", rank⟩
  | none =>
    match Text.cutFirst '=' s.toList with
    | none => if s.toList.all isTargetChar then some ⟨s, Level.trace.rank⟩ else none
    | some (target, level) =>
      if target.isEmpty || !target.all isTargetChar then none
      else if level.isEmpty then some ⟨String.ofList target, Level.trace.rank⟩
      else (rank? (String.ofList level)).map fun rank => ⟨String.ofList target, rank⟩

/-- A filter that is written as directives with commas between them; one without directives lets
errors through. -/
def parse? (s : String) : Option Filter :=
  match (Text.split (· == ',') s).filter (!·.isEmpty) with
  | [] => some (ofLevel .error)
  | parts => parts.mapM directive?

/-- The directive that decides about a target: of those with the longest target, the last. -/
def deciding? (filter : Filter) (target : String) : Option Directive :=
  filter.foldl (fun best directive =>
    if target.startsWith directive.target &&
        best.all (fun other => other.target.utf8ByteSize ≤ directive.target.utf8ByteSize) then
      some directive
    else best) none

/-- Whether lines of a level and target come through. -/
def admits (filter : Filter) (level : Level) (target : String) : Bool :=
  (filter.deciding? target).any fun directive => level.rank ≤ directive.rank

end Filter

end CacheCluster.Logging
