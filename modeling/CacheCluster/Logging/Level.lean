import CacheCluster.Decimal.Integer

/-! # Levels of log lines -/

namespace CacheCluster.Logging

/-- From the most to the least severe. -/
inductive Level
  | error | warn | info | debug | trace
  deriving DecidableEq, Repr

namespace Level

/-- A greater number is less severe. -/
def rank : Level → Nat
  | error => 1
  | warn => 2
  | info => 3
  | debug => 4
  | trace => 5

def ofRank? : Nat → Option Level
  | 1 => some error
  | 2 => some warn
  | 3 => some info
  | 4 => some debug
  | 5 => some trace
  | _ => none

def label : Level → String
  | error => "ERROR"
  | warn => "WARN"
  | info => "INFO"
  | debug => "DEBUG"
  | trace => "TRACE"

def ofName? (name : String) : Option Level :=
  [error, warn, info, debug, trace].find? fun level => level.label == name.map Char.toUpper

/-- The number that a text spells, a plus sign allowed. -/
def number? (s : String) : Option Nat :=
  match s.toList with
  | '+' :: digits => Decimal.natural? digits
  | digits => Decimal.natural? digits

/-- A level by its name in any case, or by its number. -/
def parse? (s : String) : Option Level :=
  match number? s with
  | some n => ofRank? n
  | none => ofName? s

end Level

end CacheCluster.Logging
