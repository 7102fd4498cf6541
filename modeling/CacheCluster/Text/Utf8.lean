/-! # Reading UTF-8

Decoding a byte list as UTF-8, with the place and the extent of the first fault. A sequence that the
end of the input cuts short is told apart from one that no continuation can mend.
-/

namespace CacheCluster.Text

/-- The bytes of a text in UTF-8. -/
def utf8 (s : String) : List UInt8 :=
  s.toUTF8.data.toList

/-- The first place where a byte list stops being UTF-8. -/
structure Utf8Fault where
  /-- The number of bytes that read well. -/
  index : Nat
  /-- The number of bytes of the broken sequence, or none if the input ends inside it. -/
  length : Option Nat
  deriving DecidableEq, Repr

namespace Utf8Fault

def message (fault : Utf8Fault) : String :=
  match fault.length with
  | some n => "invalid utf-8 sequence of " ++ toString n ++ " bytes from index " ++
      toString fault.index
  | none => "incomplete utf-8 byte sequence from index " ++ toString fault.index

end Utf8Fault

/-- Whether a byte continues a sequence. -/
def isContinuation (b : UInt8) : Bool :=
  0x80 ≤ b && b ≤ 0xBF

/-- Whether `second` may follow the first byte of a sequence of three or four bytes: it rules out
overlong forms, surrogates and what lies beyond the last code point. -/
def allowsSecond (first second : UInt8) : Bool :=
  if first == 0xE0 then 0xA0 ≤ second && second ≤ 0xBF
  else if first == 0xED then 0x80 ≤ second && second ≤ 0x9F
  else if first == 0xF0 then 0x90 ≤ second && second ≤ 0xBF
  else if first == 0xF4 then 0x80 ≤ second && second ≤ 0x8F
  else isContinuation second

/-- The code point whose sequence carries these payload bits, six to each continuation byte. -/
def codePoint (lead : Nat) (continuations : List UInt8) : Char :=
  Char.ofNat (continuations.foldl (fun n b => n * 64 + (b.toNat - 0x80)) lead)

/-- One character and the number of bytes that follow its first, or the length of the fault. -/
def readChar (first : UInt8) (rest : List UInt8) : Except (Option Nat) (Char × Nat) :=
  if first < 0x80 then
    .ok (Char.ofNat first.toNat, 0)
  else if 0xC2 ≤ first && first ≤ 0xDF then
    match rest with
    | [] => .error none
    | a :: _ =>
      if isContinuation a then .ok (codePoint (first.toNat - 0xC0) [a], 1) else .error (some 1)
  else if 0xE0 ≤ first && first ≤ 0xEF then
    match rest with
    | [] => .error none
    | a :: rest =>
      if !allowsSecond first a then .error (some 1)
      else match rest with
        | [] => .error none
        | b :: _ =>
          if isContinuation b then .ok (codePoint (first.toNat - 0xE0) [a, b], 2)
          else .error (some 2)
  else if 0xF0 ≤ first && first ≤ 0xF4 then
    match rest with
    | [] => .error none
    | a :: rest =>
      if !allowsSecond first a then .error (some 1)
      else match rest with
        | [] => .error none
        | b :: rest =>
          if !isContinuation b then .error (some 2)
          else match rest with
            | [] => .error none
            | c :: _ =>
              if isContinuation c then .ok (codePoint (first.toNat - 0xF0) [a, b, c], 3)
              else .error (some 3)
  else .error (some 1)

/-- The characters of `bytes`, which start at `index` of the whole input and follow those in `read`,
latest first. -/
def decodeFrom (index : Nat) (read : List Char) (bytes : List UInt8) :
    Except Utf8Fault (List Char) :=
  match bytes with
  | [] => .ok read.reverse
  | first :: rest =>
    match readChar first rest with
    | .error length => .error ⟨index, length⟩
    | .ok (c, n) => decodeFrom (index + 1 + n) (c :: read) (rest.drop n)
termination_by bytes.length
decreasing_by simp only [List.length_drop, List.length_cons]; omega

/-- The text that `bytes` spell in UTF-8. -/
def decodeUtf8 (bytes : List UInt8) : Except Utf8Fault String :=
  (decodeFrom 0 [] bytes).map String.ofList

end CacheCluster.Text
