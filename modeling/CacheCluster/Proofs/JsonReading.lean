import Mathlib.Data.List.TakeDrop
import CacheCluster.Json.Reader
import CacheCluster.Proofs.JsonText

/-! # Reading back the text of a document

The text of a document without stray parts denotes that document. The cutting pass goes through the
text part by part and gives the lexemes of each part; the reader puts a value whose lexemes it has
gone through where it would have put a scalar.
-/

namespace CacheCluster

namespace Decimal

/-! ## Digits -/

theorem digit?_of_isDigit {c : Char} (h : c.isDigit = true) :
    digit? c = some (c.toNat - '0'.toNat) := by
  have bounds : '0' ≤ c ∧ c ≤ '9' := by simpa [Char.isDigit, Char.le_def] using h
  rw [digit?, if_pos bounds]

theorem readDigits_eq {digits : List Char} (h : ∀ c ∈ digits, c.isDigit = true) (n : Nat) :
    readDigits n digits = some (Nat.ofDigitChars 10 digits n) := by
  induction digits generalizing n with
  | nil => rfl
  | cons c cs ih =>
    obtain ⟨first, rest⟩ := List.forall_mem_cons.1 h
    rw [readDigits, digit?_of_isDigit first, Option.bind_some, ih rest, Nat.ofDigitChars_cons,
      Nat.mul_comm]

theorem isDigit_toDigits {n : Nat} : ∀ c ∈ Nat.toDigits 10 n, c.isDigit = true :=
  fun _ => Nat.isDigit_of_mem_toDigits (by decide) (by decide)

theorem readDigits_toDigits (n : Nat) : readDigits 0 (Nat.toDigits 10 n) = some n := by
  rw [readDigits_eq isDigit_toDigits, Nat.ofDigitChars_ten_toDigits]

/-- A positive number has no leading zero. -/
theorem toDigits_ne_zero_cons {n : Nat} (pos : 0 < n) (cs : List Char) :
    Nat.toDigits 10 n ≠ '0' :: cs := by
  induction n using Nat.strongRecOn generalizing cs with
  | ind n ih =>
    rw [Nat.toDigits_eq_if (by decide)]
    split
    next small =>
      intro h
      have zero : n.digitChar.toNat = '0'.toNat := by rw [(List.cons.inj h).1]
      rw [Nat.toNat_digitChar_of_lt_ten small] at zero
      have : '0'.toNat = 48 := rfl
      omega
    next large =>
      obtain ⟨c, digits, eq⟩ :=
        List.exists_cons_of_ne_nil (Nat.toDigits_ne_nil (n := n / 10) (b := 10))
      have high := ih (n / 10) (by omega) (by omega) digits
      rw [eq] at high ⊢
      intro h
      rw [List.cons_append, List.cons.injEq] at h
      exact high (by rw [h.1])

theorem natural?_toDigits (n : Nat) : natural? (Nat.toDigits 10 n) = some n := by
  rw [natural?, if_neg (by simp), readDigits_toDigits]

theorem toList_toString (i : Int) :
    (toString i).toList = (if i < 0 then ['-'] else []) ++ Nat.toDigits 10 i.natAbs := by
  cases i with
  | ofNat n => simp [Int.repr_eq_if, Nat.toList_repr]
  | negSucc n => simp [Int.repr_eq_if, Nat.toList_repr, Int.negSucc_lt_zero]

/-- Digits are neither a sign nor blank. -/
theorem integer?_toDigits (n : Nat) : integer? (Nat.toDigits 10 n) = some (n : Int) := by
  have digits := isDigit_toDigits (n := n)
  unfold integer?
  split
  next eq => exact absurd (digits '-' (by rw [eq]; exact List.mem_cons_self)) (by decide)
  next eq => exact absurd (digits '+' (by rw [eq]; exact List.mem_cons_self)) (by decide)
  next => rw [natural?_toDigits]; rfl

theorem integer?_toString (i : Int) : integer? (toString i).toList = some i := by
  rw [toList_toString]
  split
  next negative =>
    have spelled : integer? ('-' :: Nat.toDigits 10 i.natAbs) = some (-(i.natAbs : Int)) := by
      rw [integer?, natural?_toDigits]
      rfl
    rw [List.singleton_append, spelled, Option.some.injEq]
    omega
  next =>
    rw [List.nil_append, integer?_toDigits, Option.some.injEq]
    omega

end Decimal

namespace Json

open Decimal

/-! ## Numbers -/

/-- What does not go on with a digit. -/
def EndsDigits : List Char → Prop
  | [] => True
  | c :: _ => digit? c = none

theorem span_digits {digits rest : List Char} (h : ∀ c ∈ digits, c.isDigit = true)
    (ends : EndsDigits rest) :
    (digits ++ rest).span (fun c => (digit? c).isSome) = (digits, rest) := by
  have all (c : Char) (mem : c ∈ digits) : (digit? c).isSome = true := by
    rw [digit?_of_isDigit (h c mem)]
    rfl
  rw [List.span_eq_takeWhile_dropWhile, List.takeWhile_append_of_pos all,
    List.dropWhile_append_of_pos all]
  cases rest with
  | nil => simp
  | cons c cs =>
    have stop : (digit? c).isSome = false := by rw [show digit? c = none from ends]; rfl
    rw [List.takeWhile_cons_of_neg (by simp [stop]), List.dropWhile_cons_of_neg (by simp [stop]),
      List.append_nil]

theorem wholePart?_toDigits (n : Nat) (rest : List Char) (ends : EndsDigits rest) :
    wholePart? (Nat.toDigits 10 n ++ rest) = some (n, rest) := by
  rw [wholePart?, span_digits isDigit_toDigits ends]
  dsimp only
  split
  next none => exact absurd none Nat.toDigits_ne_nil
  next zero =>
    rcases n.eq_zero_or_pos with rfl | pos
    · cases zero
    · exact absurd zero (toDigits_ne_zero_cons pos _)
  next => rw [readDigits_toDigits]; rfl

theorem toDigits_append_ne_minus (n : Nat) (rest cs : List Char) :
    Nat.toDigits 10 n ++ rest ≠ '-' :: cs := by
  obtain ⟨c, digits, eq⟩ := List.exists_cons_of_ne_nil (Nat.toDigits_ne_nil (n := n) (b := 10))
  have digit : c.isDigit = true := isDigit_toDigits c (by rw [eq]; exact List.mem_cons_self)
  rw [eq, List.cons_append, Ne, List.cons.injEq]
  rintro ⟨rfl, -⟩
  exact absurd digit (by decide)

/-- A whole number is an integer. -/
theorem number?_integer (i : Int) : number? (toString i).toList = some (.integer i) := by
  have whole := wholePart?_toDigits i.natAbs [] trivial
  rw [List.append_nil] at whole
  rw [toList_toString]
  split
  next negative =>
    have pos : (i.natAbs == 0) = false := by simp; omega
    rw [List.singleton_append, number?, whole]
    simp only [Bool.true_and, pos, Bool.false_eq_true, if_false, if_true, Option.some.injEq,
      Number.integer.injEq]
    omega
  next =>
    rw [List.nil_append, number?, whole]
    · simp only [Bool.false_and, Bool.false_eq_true, if_false, Option.some.injEq,
        Number.integer.injEq]
      omega
    · intro cs minus
      exact toDigits_append_ne_minus i.natAbs [] cs (by rw [List.append_nil, minus])

theorem number?_decimal (negative : Bool) (n : Nat) (power : Int) :
    number? ((if negative then ['-'] else []) ++
      (Nat.toDigits 10 n ++ 'e' :: (toString power).toList)) =
      some (.decimal negative n power) := by
  have whole := wholePart?_toDigits n ('e' :: (toString power).toList) rfl
  have exponent : exponentPart? ('e' :: (toString power).toList) = some power :=
    integer?_toString power
  have fraction (cs : List Char) : fractionPart? n ('e' :: cs) = some (n, 0, 'e' :: cs) := rfl
  cases negative with
  | true =>
    rw [if_pos rfl, List.singleton_append, number?, whole]
    dsimp only
    rw [fraction]
    dsimp only
    rw [exponent]
    simp
  | false =>
    rw [if_neg Bool.false_ne_true, List.nil_append, number?, whole]
    · dsimp only
      rw [fraction]
      dsimp only
      rw [exponent]
      simp
    · exact toDigits_append_ne_minus n _

theorem toList_render_decimal (negative : Bool) (digits : Nat) (power : Int) :
    (Number.decimal negative digits power).render.toList =
      (if negative then ['-'] else []) ++
        (Nat.toDigits 10 digits ++ 'e' :: (toString power).toList) := by
  rw [Number.render]
  cases negative <;> simp [Nat.toList_repr]

theorem number?_render (number : Number) : number? number.render.toList = some number := by
  cases number with
  | integer value => exact number?_integer value
  | decimal negative digits power => rw [toList_render_decimal, number?_decimal]

/-! ## Escapes -/

/-- The characters that stand for a character between quotes. -/
def escaped (c : Char) : List Char :=
  (pushEscaped "" c).toList

theorem toList_pushEscaped (written : String) (c : Char) :
    (pushEscaped written c).toList = written.toList ++ escaped c := by
  rw [pushEscaped_eq, String.toList_append, escaped]

theorem toList_foldl_pushEscaped (written : String) (cs : List Char) :
    (cs.foldl pushEscaped written).toList = written.toList ++ cs.flatMap escaped := by
  induction cs generalizing written with
  | nil => simp
  | cons c cs ih =>
    rw [List.foldl_cons, ih, toList_pushEscaped, List.append_assoc, List.flatMap_cons]

theorem toList_pushQuoted (s : String) :
    (pushQuoted "" s).toList = '"' :: (s.toList.flatMap escaped ++ ['"']) := by
  rw [pushQuoted, String.foldl_eq_foldl_toList, String.toList_push, toList_foldl_pushEscaped]
  rfl

/-- A character stands for itself, or has an escape of one letter, or is a control character written
with four digits. -/
theorem escaped_cases (c : Char) :
    (escaped c = [c] ∧ c ≠ '"' ∧ c ≠ '\\' ∧ 0x20 ≤ c.toNat) ∨
    (∃ e, escaped c = ['\\', e] ∧ escape? e = some c) ∨
    (escaped c = ['\\', 'u', '0', '0', Text.hexChar (c.toNat / 16), Text.hexChar (c.toNat % 16)] ∧
      c.toNat < 0x20) := by
  unfold escaped pushEscaped
  split
  next h => exact .inr (.inl ⟨'"', rfl, by rw [eq_of_beq h]; rfl⟩)
  next notQuote =>
  split
  next h => exact .inr (.inl ⟨'\\', rfl, by rw [eq_of_beq h]; rfl⟩)
  next notBackslash =>
  split
  next plain =>
    exact .inl ⟨by simp, by simpa using notQuote, by simpa using notBackslash, plain⟩
  next control =>
  split
  next h => exact .inr (.inl ⟨'n', rfl, by rw [eq_of_beq h]; rfl⟩)
  split
  next h => exact .inr (.inl ⟨'r', rfl, by rw [eq_of_beq h]; rfl⟩)
  split
  next h => exact .inr (.inl ⟨'t', rfl, by rw [eq_of_beq h]; rfl⟩)
  split
  next h =>
    have eq : c = '\x08' := Char.toNat_inj.1 (by simpa using h)
    exact .inr (.inl ⟨'b', rfl, by rw [eq]; rfl⟩)
  split
  next h =>
    have eq : c = '\x0c' := Char.toNat_inj.1 (by simpa using h)
    exact .inr (.inl ⟨'f', rfl, by rw [eq]; rfl⟩)
  next => exact .inr (.inr ⟨by simp, by omega⟩)

/-- The part that the escape of a character reads as. -/
def IsPartOf (c : Char) (part : Part) : Prop :=
  part = .char c ∨ part = .unit c.toNat ∧ c.toNat < 0x20

theorem hexDigit?_hexChar {n : Nat} (small : n < 16) :
    Text.hexDigit? (Text.hexChar n) = some n := by
  have all : ∀ k : Fin 16, Text.hexDigit? (Text.hexChar k) = some k.val := by decide
  exact all ⟨n, small⟩

theorem parts?_escaped (read : List Part) (c : Char) (rest : List Char) :
    ∃ part, IsPartOf c part ∧ parts? read (escaped c ++ rest) = parts? (part :: read) rest := by
  rcases escaped_cases c with ⟨eq, -, notBackslash, plain⟩ | ⟨e, eq, letter⟩ | ⟨eq, control⟩
  · refine ⟨.char c, .inl rfl, ?_⟩
    have taken : (c == '\\' || decide (c.toNat < 0x20)) = false := by
      simp [notBackslash, plain]
    rw [eq, List.singleton_append, parts?, taken, if_neg Bool.false_ne_true]
    · exact fun _ _ _ _ _ backslash _ => notBackslash backslash
    · exact fun _ _ backslash _ => notBackslash backslash
  · refine ⟨.char c, .inl rfl, ?_⟩
    rw [eq, List.cons_append, List.singleton_append, parts?, letter]
    rintro _ _ _ _ _ rfl _
    cases letter
  · refine ⟨.unit c.toNat, .inr ⟨rfl, control⟩, ?_⟩
    have unit : unit? '0' '0' (Text.hexChar (c.toNat / 16)) (Text.hexChar (c.toNat % 16)) =
        some (c.toNat / 16 * 16 + c.toNat % 16) := by
      rw [unit?, hexDigit?_hexChar (by omega), hexDigit?_hexChar (by omega)]
      simp [show Text.hexDigit? '0' = some 0 from rfl]
    rw [eq]
    simp only [List.cons_append, List.nil_append]
    rw [parts?, unit, Nat.div_add_mod']

theorem charsOf?_cons {c : Char} {part : Part} (h : IsPartOf c part) (read : List Char)
    (parts : List Part) : charsOf? read (part :: parts) = charsOf? (c :: read) parts := by
  obtain rfl | ⟨rfl, control⟩ := h
  · rw [charsOf?]
  · have low : isLowSurrogate c.toNat = false := by simp [isLowSurrogate]; omega
    have high : isHighSurrogate c.toNat = false := by simp [isHighSurrogate]; omega
    rw [charsOf?.eq_def]
    dsimp only
    rw [low, high, Char.ofNat_toNat]
    rfl

theorem parts?_flatMap_escaped (read : List Part) (cs : List Char) :
    ∃ parts, List.Forall₂ IsPartOf cs parts ∧
      parts? read (cs.flatMap escaped) = some (read.reverse ++ parts) := by
  induction cs generalizing read with
  | nil => exact ⟨[], .nil, by rw [List.append_nil]; rfl⟩
  | cons c cs ih =>
    obtain ⟨part, first, eq⟩ := parts?_escaped read c (cs.flatMap escaped)
    obtain ⟨parts, rest, eq_rest⟩ := ih (part :: read)
    refine ⟨part :: parts, .cons first rest, ?_⟩
    rw [List.flatMap_cons, eq, eq_rest, List.reverse_cons, List.append_assoc]
    rfl

theorem charsOf?_eq {cs : List Char} {parts : List Part} (h : List.Forall₂ IsPartOf cs parts)
    (read : List Char) : charsOf? read parts = some (read.reverse ++ cs) := by
  induction h generalizing read with
  | nil => rw [charsOf?, List.append_nil]
  | cons first _ ih =>
    rw [charsOf?_cons first, ih, List.reverse_cons, List.append_assoc]
    rfl

theorem quoted?_flatMap_escaped (s : String) :
    quoted? (s.toList.flatMap escaped) = some (.string s) := by
  obtain ⟨parts, arePartsOf, eq⟩ := parts?_flatMap_escaped [] s.toList
  rw [quoted?, eq, Option.map_some, List.reverse_nil, List.nil_append, charsOf?_eq arePartsOf]
  simp

/-! ## Cutting -/

mutual

/-- The lexemes of the text of a document. -/
def lexemes : Json → List Lexeme
  | .array values => .mark .openArray :: (lexemesOfAll true values ++ [.mark .closeArray])
  | .object members => .mark .openObject :: (lexemesOfMembers true members ++ [.mark .closeObject])
  | .stray => [.scalar .null]
  | document => [.scalar document]

def lexemesOfAll (isFirst : Bool) : List Json → List Lexeme
  | [] => []
  | value :: values =>
    (if isFirst then [] else [.mark .comma]) ++ (lexemes value ++ lexemesOfAll false values)

def lexemesOfMembers (isFirst : Bool) : List (String × Json) → List Lexeme
  | [] => []
  | (name, value) :: members =>
    (if isFirst then [] else [.mark .comma]) ++
      (.scalar (.string name) :: .mark .colon :: (lexemes value ++ lexemesOfMembers false members))

end

variable {read : List Lexeme} {rest : List Char}

theorem mark?_eq_some {c : Char} {mark : Mark} (h : mark? c = some mark) :
    isBlank c = false ∧ (c == '"') = false := by
  unfold mark? at h
  split at h <;> first | exact ⟨rfl, rfl⟩ | cases h

theorem lex?_mark {c : Char} {mark : Mark} (h : mark? c = some mark) :
    lex? read .nothing (c :: rest) = lex? (.mark mark :: read) .nothing rest := by
  obtain ⟨notBlank, notQuote⟩ := mark?_eq_some h
  rw [lex?, notBlank, notQuote, h]
  rfl

/-- A character that a word may hold. -/
structure IsWordChar (c : Char) : Prop where
  notBlank : isBlank c = false
  notQuote : (c == '"') = false
  notMark : mark? c = none

/-- The end of a text, or a mark: what a word may stand before. -/
def EndsWord : List Char → Prop
  | [] => True
  | c :: _ => (mark? c).isSome = true

theorem lex?_wordChars {word : List Char} (h : ∀ c ∈ word, IsWordChar c) (before : List Char) :
    lex? read (.word before) (word ++ rest) = lex? read (.word (word.reverse ++ before)) rest := by
  induction word generalizing before with
  | nil => rfl
  | cons c cs ih =>
    obtain ⟨first, others⟩ := List.forall_mem_cons.1 h
    rw [List.cons_append, lex?, first.notBlank, first.notQuote, first.notMark]
    simp only [Bool.false_eq_true, if_false]
    rw [ih others, List.reverse_cons, List.append_assoc]
    rfl

theorem lex?_endOfWord {before : List Char} {value : Json}
    (reads : word? before.reverse = some value)
    (ends : EndsWord rest) :
    lex? read (.word before) rest = lex? (.scalar value :: read) .nothing rest := by
  cases rest with
  | nil =>
    unfold lex?
    rw [reads]
  | cons c cs =>
    obtain ⟨mark, eq⟩ := Option.isSome_iff_exists.1 ends
    obtain ⟨notBlank, notQuote⟩ := mark?_eq_some eq
    rw [lex?_mark eq, lex?, notBlank, notQuote, eq, reads]
    rfl

theorem lex?_word {word : List Char} {value : Json} (nonempty : word ≠ [])
    (h : ∀ c ∈ word, IsWordChar c) (reads : word? word = some value) (ends : EndsWord rest) :
    lex? read .nothing (word ++ rest) = lex? (.scalar value :: read) .nothing rest := by
  obtain ⟨c, cs, rfl⟩ := List.exists_cons_of_ne_nil nonempty
  obtain ⟨first, others⟩ := List.forall_mem_cons.1 h
  rw [List.cons_append, lex?, first.notBlank, first.notQuote, first.notMark]
  simp only [Bool.false_eq_true, if_false]
  rw [lex?_wordChars others]
  exact lex?_endOfWord (by simpa using reads) ends

theorem lex?_inQuotes {raw : List Char} {c : Char} (notQuote : c ≠ '"') (notBackslash : c ≠ '\\') :
    lex? read (.quotes raw false) (c :: rest) = lex? read (.quotes (c :: raw) false) rest := by
  rw [lex?]
  simp [notQuote, notBackslash]

theorem lex?_escape (raw : List Char) (e : Char) :
    lex? read (.quotes raw false) ('\\' :: e :: rest) =
      lex? read (.quotes (e :: '\\' :: raw) false) rest := by
  rw [lex?]
  simp [lex?]

theorem hexChar_ne {n : Nat} (small : n < 16) : Text.hexChar n ≠ '"' ∧ Text.hexChar n ≠ '\\' := by
  have all : ∀ k : Fin 16, Text.hexChar k ≠ '"' ∧ Text.hexChar k ≠ '\\' := by decide
  exact all ⟨n, small⟩

/-- The escape of a character does not end a string. -/
theorem lex?_escaped (raw : List Char) (c : Char) :
    lex? read (.quotes raw false) (escaped c ++ rest) =
      lex? read (.quotes ((escaped c).reverse ++ raw) false) rest := by
  rcases escaped_cases c with ⟨eq, notQuote, notBackslash, -⟩ | ⟨e, eq, -⟩ | ⟨eq, control⟩
  · rw [eq]
    exact lex?_inQuotes notQuote notBackslash
  · rw [eq]
    exact lex?_escape raw e
  · have high := hexChar_ne (n := c.toNat / 16) (by omega)
    have low := hexChar_ne (n := c.toNat % 16) (by omega)
    rw [eq]
    simp only [List.cons_append, List.nil_append]
    rw [lex?_escape, lex?_inQuotes (by decide) (by decide), lex?_inQuotes (by decide) (by decide),
      lex?_inQuotes high.1 high.2, lex?_inQuotes low.1 low.2]
    rfl

theorem lex?_flatMap_escaped (raw cs : List Char) :
    lex? read (.quotes raw false) (cs.flatMap escaped ++ rest) =
      lex? read (.quotes ((cs.flatMap escaped).reverse ++ raw) false) rest := by
  induction cs generalizing raw with
  | nil => rfl
  | cons c cs ih =>
    rw [List.flatMap_cons, List.append_assoc, lex?_escaped, ih, List.reverse_append,
      List.append_assoc]

theorem lex?_string (s : String) :
    lex? read .nothing ((pushQuoted "" s).toList ++ rest) =
      lex? (.scalar (.string s) :: read) .nothing rest := by
  have opening (cs : List Char) :
      lex? read .nothing ('"' :: cs) = lex? read (.quotes [] false) cs := by
    rw [lex?]
    rfl
  rw [toList_pushQuoted, List.cons_append, opening, List.append_assoc, lex?_flatMap_escaped,
    List.append_nil, List.singleton_append, lex?, List.reverse_reverse, quoted?_flatMap_escaped]
  rfl

/-- The characters that no word holds. -/
def wordEnds : List Char :=
  [' ', '\n', '\r', '\t', '"', '[', ']', '\x7b', '\x7d', ':', ',']

theorem isWordChar_of_notMem {c : Char} (h : c ∉ wordEnds) : IsWordChar c := by
  simp only [wordEnds, List.mem_cons, not_or] at h
  obtain ⟨space, newline, carriage, tab, quote, marks⟩ := h
  refine ⟨by simp [isBlank, space, newline, carriage, tab], by simp [quote], ?_⟩
  unfold mark?
  split <;> first | rfl | simp at marks

/-- A class of characters that has no end of a word in it. -/
theorem isWordChar_of {p : Char → Bool} (apart : wordEnds.any p = false) {c : Char}
    (h : p c = true) : IsWordChar c :=
  isWordChar_of_notMem fun mem => List.any_eq_false.1 apart c mem h

theorem isWordChar_toDigits (n : Nat) : ∀ c ∈ Nat.toDigits 10 n, IsWordChar c :=
  fun c mem => isWordChar_of rfl (isDigit_toDigits c mem)

theorem isWordChar_sign (negative : Prop) [Decidable negative] :
    ∀ c ∈ if negative then ['-'] else [], IsWordChar c := by
  intro c mem
  split at mem
  · obtain rfl := List.mem_singleton.1 mem
    exact ⟨rfl, rfl, rfl⟩
  · cases mem

theorem isWordChar_toString (i : Int) : ∀ c ∈ (toString i).toList, IsWordChar c := by
  rw [toList_toString, List.forall_mem_append]
  exact ⟨isWordChar_sign _, isWordChar_toDigits _⟩

theorem isWordChar_render (number : Number) : ∀ c ∈ number.render.toList, IsWordChar c := by
  cases number with
  | integer value => exact isWordChar_toString value
  | decimal negative digits power =>
    rw [toList_render_decimal, List.forall_mem_append, List.forall_mem_append, List.forall_mem_cons]
    exact ⟨isWordChar_sign _, isWordChar_toDigits _, ⟨rfl, rfl, rfl⟩, isWordChar_toString _⟩

theorem word?_render (number : Number) : word? number.render.toList = some (.number number) := by
  have reads := number?_render number
  unfold word?
  split
  case h_4 => rw [reads, Option.map_some]
  all_goals
    next eq =>
      rw [eq] at reads
      cases reads

theorem lex?_number (number : Number) (ends : EndsWord rest) :
    lex? read .nothing (number.render.toList ++ rest) =
      lex? (.scalar (.number number) :: read) .nothing rest := by
  have reads := word?_render number
  refine lex?_word ?_ (isWordChar_render number) reads ends
  intro eq
  rw [eq] at reads
  cases reads

/-! ### The text of an array or object -/

theorem toList_pushAll_cons (isFirst : Bool) (value : Json) (values : List Json) :
    (pushAll "" isFirst (value :: values)).toList =
      (if isFirst then [] else [',']) ++
        (value.render.toList ++ (pushAll "" false values).toList) := by
  rw [pushAll, pushAll_eq, push_eq]
  cases isFirst <;> simp

theorem toList_pushMembers_cons (isFirst : Bool) (name : String) (value : Json)
    (members : List (String × Json)) :
    (pushMembers "" isFirst ((name, value) :: members)).toList =
      (if isFirst then [] else [',']) ++ ((pushQuoted "" name).toList ++
        ':' :: (value.render.toList ++ (pushMembers "" false members).toList)) := by
  rw [pushMembers, pushMembers_eq, push_eq, pushQuoted_eq]
  cases isFirst <;> simp

theorem toList_render_array (values : List Json) :
    (array values).render.toList = '[' :: ((pushAll "" true values).toList ++ [']']) := by
  rw [render, push, pushAll_eq]
  simp

theorem toList_render_object (members : List (String × Json)) :
    (object members).render.toList =
      '\x7b' :: ((pushMembers "" true members).toList ++ ['\x7d']) := by
  rw [render, push, pushMembers_eq]
  simp

theorem endsWord_pushAll (values : List Json) (ends : EndsWord rest) :
    EndsWord ((pushAll "" false values).toList ++ rest) := by
  cases values with
  | nil => exact ends
  | cons value values =>
    rw [toList_pushAll_cons]
    rfl

theorem endsWord_pushMembers (members : List (String × Json)) (ends : EndsWord rest) :
    EndsWord ((pushMembers "" false members).toList ++ rest) := by
  cases members with
  | nil => exact ends
  | cons member members =>
    rw [toList_pushMembers_cons]
    rfl

/-- The comma before all parts but the first. -/
theorem lex?_comma (isFirst : Bool) :
    lex? read .nothing ((if isFirst then [] else [',']) ++ rest) =
      lex? ((if isFirst then [] else [.mark .comma]) ++ read) .nothing rest := by
  cases isFirst with
  | true => rfl
  | false => exact lex?_mark rfl

/-- Words of small letters are cut off as they are. -/
theorem lex?_literal (word : List Char) {value : Json} (letters : word.all Char.isLower = true)
    (reads : word? word = some value) (ends : EndsWord rest) :
    lex? read .nothing (word ++ rest) = lex? (.scalar value :: read) .nothing rest := by
  have wordChars : ∀ c ∈ word, IsWordChar c :=
    fun c mem => isWordChar_of rfl (List.all_eq_true.1 letters c mem)
  refine lex?_word ?_ wordChars reads ends
  rintro rfl
  cases reads

mutual

/-- Cutting goes through the text of a document and gives its lexemes. -/
theorem lex?_render (read : List Lexeme) {rest : List Char} (ends : EndsWord rest) :
    (document : Json) →
      lex? read .nothing (document.render.toList ++ rest) =
        lex? (document.lexemes.reverse ++ read) .nothing rest
  | .null | .stray => lex?_literal ['n', 'u', 'l', 'l'] rfl rfl ends
  | .bool true => lex?_literal ['t', 'r', 'u', 'e'] rfl rfl ends
  | .bool false => lex?_literal ['f', 'a', 'l', 's', 'e'] rfl rfl ends
  | .number n => by
    rw [render, push, String.empty_append]
    exact lex?_number n ends
  | .string s => lex?_string s
  | .array values => by
    have closes : EndsWord ([']'] ++ rest) := rfl
    rw [toList_render_array, List.cons_append, lex?_mark rfl, List.append_assoc,
      lex?_pushAll _ true closes values, List.singleton_append, lex?_mark rfl]
    simp [lexemes]
  | .object members => by
    have closes : EndsWord (['\x7d'] ++ rest) := rfl
    rw [toList_render_object, List.cons_append, lex?_mark rfl, List.append_assoc,
      lex?_pushMembers _ true closes members, List.singleton_append, lex?_mark rfl]
    simp [lexemes]

theorem lex?_pushAll (read : List Lexeme) (isFirst : Bool) {rest : List Char}
    (ends : EndsWord rest) :
    (values : List Json) →
      lex? read .nothing ((pushAll "" isFirst values).toList ++ rest) =
        lex? ((lexemesOfAll isFirst values).reverse ++ read) .nothing rest
  | [] => rfl
  | value :: values => by
    rw [toList_pushAll_cons, List.append_assoc, List.append_assoc, lex?_comma,
      lex?_render _ (endsWord_pushAll values ends), lex?_pushAll _ false ends values, lexemesOfAll]
    cases isFirst <;> simp

theorem lex?_pushMembers (read : List Lexeme) (isFirst : Bool) {rest : List Char}
    (ends : EndsWord rest) :
    (members : List (String × Json)) →
      lex? read .nothing ((pushMembers "" isFirst members).toList ++ rest) =
        lex? ((lexemesOfMembers isFirst members).reverse ++ read) .nothing rest
  | [] => rfl
  | (name, value) :: members => by
    rw [toList_pushMembers_cons, List.append_assoc, List.append_assoc, lex?_comma, lex?_string,
      List.cons_append, lex?_mark rfl, List.append_assoc,
      lex?_render _ (endsWord_pushMembers members ends), lex?_pushMembers _ false ends members,
      lexemesOfMembers]
    cases isFirst <;> simp

end

/-! ## Reading -/

/-- What the reader does once a value is complete. -/
def readOn (rest : List Lexeme) (value : Json) (stack : List Open) : Option Json :=
  match land value stack with
  | .document value => readFrom rest .more [] (some value)
  | .within stack => readFrom rest .more stack none

/-- Whether the reader may meet a value. -/
def Expect.IsValue (expect : Expect) : Prop :=
  expect = .value ∨ expect = .valueOrEnd

theorem readFrom_scalar {expect : Expect} (h : expect.IsValue) (value : Json) (rest : List Lexeme)
    (stack : List Open) (finished : Option Json) :
    readFrom (.scalar value :: rest) expect stack finished = readOn rest value stack := by
  obtain rfl | rfl := h <;> rfl

theorem readFrom_openArray {expect : Expect} (h : expect.IsValue) (rest : List Lexeme)
    (stack : List Open) (finished : Option Json) :
    readFrom (.mark .openArray :: rest) expect stack finished =
      readFrom rest .valueOrEnd (.array [] :: stack) none := by
  obtain rfl | rfl := h <;> rfl

theorem readFrom_openObject {expect : Expect} (h : expect.IsValue) (rest : List Lexeme)
    (stack : List Open) (finished : Option Json) :
    readFrom (.mark .openObject :: rest) expect stack finished =
      readFrom rest .nameOrEnd (.object [] false none :: stack) none := by
  obtain rfl | rfl := h <;> rfl

theorem isSound_array {levels : Nat} {values : List Json}
    (sound : (array values).isSound levels = true) :
    ∃ inner, areSound inner values = true := by
  cases levels with
  | zero => cases sound
  | succ inner => exact ⟨inner, sound⟩

theorem isSound_object {levels : Nat} {members : List (String × Json)}
    (sound : (object members).isSound levels = true) :
    ∃ inner, areSoundMembers inner members = true := by
  cases levels with
  | zero => cases sound
  | succ inner => exact ⟨inner, sound⟩

section Steps

variable (rest : List Lexeme) (stack : List Open)

theorem readFrom_comma (read : List Json) :
    readFrom (.mark .comma :: rest) .more (.array read :: stack) none =
      readFrom rest .value (.array read :: stack) none :=
  rfl

theorem readFrom_closeArray (read : List Json) :
    readFrom (.mark .closeArray :: rest) .more (.array read :: stack) none =
      readOn rest (.array read.reverse) stack :=
  rfl

/-- The name of a member, behind the opening of its object. -/
theorem readFrom_firstName (name : String) :
    readFrom (.scalar (.string name) :: .mark .colon :: rest) .nameOrEnd
        (.object [] false none :: stack) none =
      readFrom rest .value (.object [] false (some name) :: stack) none :=
  rfl

theorem readFrom_nextName (read : List (String × Json)) (name : String) :
    readFrom (.mark .comma :: .scalar (.string name) :: .mark .colon :: rest) .more
        (.object read false none :: stack) none =
      readFrom rest .value (.object read false (some name) :: stack) none :=
  rfl

theorem readFrom_closeObject (read : List (String × Json)) :
    readFrom (.mark .closeObject :: rest) .more (.object read false none :: stack) none =
      readOn rest (.object read.reverse) stack :=
  rfl

theorem readOn_array (value : Json) (read : List Json) :
    readOn rest value (.array read :: stack) =
      readFrom rest .more (.array (value :: read) :: stack) none :=
  rfl

theorem readOn_object (name : String) (value : Json) (read : List (String × Json)) :
    readOn rest value (.object read false (some name) :: stack) =
      readFrom rest .more (.object ((name, value) :: read) false none :: stack) none :=
  rfl

end Steps

mutual

/-- The reader goes through the lexemes of a sound document as through a scalar. -/
theorem readFrom_lexemes {expect : Expect} (h : expect.IsValue) (rest : List Lexeme)
    (stack : List Open) (finished : Option Json) {levels : Nat} : {document : Json} →
    document.isSound levels = true →
    readFrom (document.lexemes ++ rest) expect stack finished = readOn rest document stack
  | .null, _ => readFrom_scalar h _ _ _ _
  | .bool _, _ => readFrom_scalar h _ _ _ _
  | .number _, _ => readFrom_scalar h _ _ _ _
  | .string _, _ => readFrom_scalar h _ _ _ _
  | .array [], _ => readFrom_openArray h _ _ _
  | .array (value :: values), sound => by
    obtain ⟨inner, sounds⟩ := isSound_array sound
    obtain ⟨first, others⟩ := Bool.and_eq_true_iff.1 sounds
    simp only [lexemes, lexemesOfAll, if_true, List.cons_append, List.nil_append, List.append_assoc]
    rw [readFrom_openArray h, readFrom_lexemes (.inr rfl) _ _ _ first, readOn_array,
      readFrom_lexemesOfAll [value] _ stack others, readFrom_closeArray, List.reverse_append,
      List.reverse_reverse]
    rfl
  | .object [], _ => readFrom_openObject h _ _ _
  | .object ((name, value) :: members), sound => by
    obtain ⟨inner, sounds⟩ := isSound_object sound
    obtain ⟨first, others⟩ := Bool.and_eq_true_iff.1 sounds
    simp only [lexemes, lexemesOfMembers, if_true, List.cons_append, List.nil_append,
      List.append_assoc]
    rw [readFrom_openObject h, readFrom_firstName, readFrom_lexemes (.inl rfl) _ _ _ first,
      readOn_object, readFrom_lexemesOfMembers [(name, value)] _ stack others,
      readFrom_closeObject, List.reverse_append, List.reverse_reverse]
    rfl

theorem readFrom_lexemesOfAll (read : List Json) (rest : List Lexeme) (stack : List Open)
    {levels : Nat} : {values : List Json} → areSound levels values = true →
    readFrom (lexemesOfAll false values ++ rest) .more (.array read :: stack) none =
      readFrom rest .more (.array (values.reverse ++ read) :: stack) none
  | [], _ => rfl
  | value :: values, sound => by
    obtain ⟨first, others⟩ := Bool.and_eq_true_iff.1 sound
    simp only [lexemesOfAll, Bool.false_eq_true, if_false, List.cons_append, List.nil_append,
      List.append_assoc]
    rw [readFrom_comma, readFrom_lexemes (.inl rfl) _ _ _ first, readOn_array,
      readFrom_lexemesOfAll (value :: read) rest stack others, List.reverse_cons,
      List.append_assoc]
    rfl

theorem readFrom_lexemesOfMembers (read : List (String × Json)) (rest : List Lexeme)
    (stack : List Open) {levels : Nat} : {members : List (String × Json)} →
    areSoundMembers levels members = true →
    readFrom (lexemesOfMembers false members ++ rest) .more
        (.object read false none :: stack) none =
      readFrom rest .more (.object (members.reverse ++ read) false none :: stack) none
  | [], _ => rfl
  | (name, value) :: members, sound => by
    obtain ⟨first, others⟩ := Bool.and_eq_true_iff.1 sound
    simp only [lexemesOfMembers, Bool.false_eq_true, if_false, List.cons_append, List.nil_append,
      List.append_assoc]
    rw [readFrom_nextName, readFrom_lexemes (.inl rfl) _ _ _ first, readOn_object,
      readFrom_lexemesOfMembers ((name, value) :: read) rest stack others, List.reverse_cons,
      List.append_assoc]
    rfl

end

/-- The text of a sound document denotes it. -/
theorem parse?_render {levels : Nat} {document : Json} (sound : document.isSound levels = true) :
    parse? document.render = some document := by
  have cut := lex?_render [] (show EndsWord [] from trivial) document
  rw [List.append_nil, List.append_nil, lex?, List.reverse_reverse] at cut
  have reads := readFrom_lexemes (.inl rfl) [] [] none sound
  rw [List.append_nil] at reads
  rw [parse?, cut, Option.bind_some, reads]
  rfl

end Json

end CacheCluster
