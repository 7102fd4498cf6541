import CacheCluster.Text.Utf8

/-! # Reading what is written in UTF-8

Every character is read back from its bytes, whatever follows them, and so is every text.
-/

namespace CacheCluster.Text

/-! ## One character -/

section Sequences

variable {first a b c : UInt8} {rest : List UInt8}

theorem between_iff {low high : UInt8} :
    (low ≤ a && a ≤ high) = true ↔ low.toNat ≤ a.toNat ∧ a.toNat ≤ high.toNat := by
  simp [UInt8.le_iff_toNat_le]

theorem not_below (h : 0x80 ≤ first.toNat) : ¬ first < 0x80 :=
  fun below => absurd (UInt8.lt_iff_toNat_lt.1 below) (Nat.not_lt.2 h)

theorem not_between {low high : UInt8} (h : high.toNat < a.toNat) :
    ¬ (low ≤ a && a ≤ high) = true :=
  fun between => absurd (between_iff.1 between).2 (Nat.not_le.2 h)

theorem readChar_one (least : first.toNat < 0x80) :
    readChar first rest = .ok (Char.ofNat first.toNat, 0) :=
  if_pos (UInt8.lt_iff_toNat_lt.2 least)

theorem readChar_two (least : 0xC2 ≤ first.toNat) (greatest : first.toNat ≤ 0xDF)
    (ha : isContinuation a = true) :
    readChar first (a :: rest) = .ok (codePoint (first.toNat - 0xC0) [a], 1) := by
  have notOne : ¬ first < 0x80 := not_below (by omega)
  have two : (0xC2 ≤ first && first ≤ 0xDF) = true := between_iff.2 ⟨least, greatest⟩
  unfold readChar
  rw [if_neg notOne, if_pos two]
  exact if_pos ha

theorem readChar_three (least : 0xE0 ≤ first.toNat) (greatest : first.toNat ≤ 0xEF)
    (ha : allowsSecond first a = true) (hb : isContinuation b = true) :
    readChar first (a :: b :: rest) = .ok (codePoint (first.toNat - 0xE0) [a, b], 2) := by
  have notOne : ¬ first < 0x80 := not_below (by omega)
  have notTwo : ¬ (0xC2 ≤ first && first ≤ 0xDF) = true := not_between least
  have three : (0xE0 ≤ first && first ≤ 0xEF) = true := between_iff.2 ⟨least, greatest⟩
  unfold readChar
  rw [if_neg notOne, if_neg notTwo, if_pos three]
  simp [ha, hb]

theorem readChar_four (least : 0xF0 ≤ first.toNat) (greatest : first.toNat ≤ 0xF4)
    (ha : allowsSecond first a = true) (hb : isContinuation b = true)
    (hc : isContinuation c = true) :
    readChar first (a :: b :: c :: rest) = .ok (codePoint (first.toNat - 0xF0) [a, b, c], 3) := by
  have notOne : ¬ first < 0x80 := not_below (by omega)
  have notTwo : ¬ (0xC2 ≤ first && first ≤ 0xDF) = true :=
    not_between (Nat.lt_of_lt_of_le (by decide) least)
  have notThree : ¬ (0xE0 ≤ first && first ≤ 0xEF) = true := not_between least
  have four : (0xF0 ≤ first && first ≤ 0xF4) = true := between_iff.2 ⟨least, greatest⟩
  unfold readChar
  rw [if_neg notOne, if_neg notTwo, if_neg notThree, if_pos four]
  simp [ha, hb, hc]

/-- The second byte may be any continuation, but for the bounds of four first bytes. -/
theorem allowsSecond_of (continues : isContinuation a = true)
    (overlong3 : first.toNat = 0xE0 → 0xA0 ≤ a.toNat)
    (surrogate : first.toNat = 0xED → a.toNat ≤ 0x9F)
    (overlong4 : first.toNat = 0xF0 → 0x90 ≤ a.toNat)
    (beyond : first.toNat = 0xF4 → a.toNat ≤ 0x8F) :
    allowsSecond first a = true := by
  have eq_iff (n : UInt8) : (first == n) = true ↔ first.toNat = n.toNat := by
    rw [beq_iff_eq, UInt8.toNat_inj]
  obtain ⟨low, high⟩ := between_iff.1 continues
  unfold allowsSecond
  split
  next h => exact between_iff.2 ⟨overlong3 ((eq_iff _).1 h), high⟩
  split
  next h => exact between_iff.2 ⟨low, surrogate ((eq_iff _).1 h)⟩
  split
  next h => exact between_iff.2 ⟨overlong4 ((eq_iff _).1 h), high⟩
  split
  next h => exact between_iff.2 ⟨low, beyond ((eq_iff _).1 h)⟩
  · exact continues

end Sequences

/-- A continuation byte carries six bits. -/
theorem toNat_continuation (n : Nat) : (UInt8.ofNat (n % 64 + 0x80)).toNat = n % 64 + 0x80 := by
  rw [UInt8.toNat_ofNat']
  omega

theorem isContinuation_ofNat (n : Nat) : isContinuation (UInt8.ofNat (n % 64 + 0x80)) = true := by
  refine between_iff.2 ?_
  rw [toNat_continuation]
  exact ⟨Nat.le_add_left _ _, by change _ ≤ 0xBF; omega⟩

theorem toNat_lead (n : Nat) {width least : Nat} (pos : 0 < width) (small : width + least ≤ 256) :
    (UInt8.ofNat (n % width + least)).toNat = n % width + least := by
  rw [UInt8.toNat_ofNat']
  have := Nat.mod_lt n pos
  exact Nat.mod_eq_of_lt (by omega)

/-- A character is read back from its bytes. -/
theorem readChar_utf8EncodeChar (c : Char) (rest : List UInt8) :
    ∃ first more, String.utf8EncodeChar c = first :: more ∧
      readChar first (more ++ rest) = .ok (c, more.length) := by
  have valid : c.val.toNat < 0xD800 ∨ 0xDFFF < c.val.toNat ∧ c.val.toNat < 0x110000 := c.valid
  have char : Char.ofNat c.val.toNat = c := Char.ofNat_toNat c
  unfold String.utf8EncodeChar
  dsimp only
  generalize c.val.toNat = v at valid char
  split
  next one =>
    have first : (UInt8.ofNat v).toNat = v := by rw [UInt8.toNat_ofNat']; omega
    refine ⟨_, _, rfl, ?_⟩
    rw [readChar_one (by omega), first, char]
    rfl
  split
  next notOne two =>
    have first : (UInt8.ofNat (v / 64 % 0x20 + 0xC0)).toNat = _ :=
      toNat_lead _ (by decide) (by decide)
    refine ⟨_, _, rfl, ?_⟩
    rw [List.cons_append, readChar_two (by omega) (by omega) (isContinuation_ofNat v), first,
      codePoint, List.foldl_cons, List.foldl_nil, toNat_continuation, ← char]
    have : (v / 64 % 32 + 192 - 192) * 64 + (v % 64 + 128 - 128) = v := by omega
    rw [this]
    rfl
  split
  next notOne notTwo three =>
    have first : (UInt8.ofNat (v / 4096 % 0x10 + 0xE0)).toNat = _ :=
      toNat_lead _ (by decide) (by decide)
    have second := toNat_continuation (v / 64)
    refine ⟨_, _, rfl, ?_⟩
    rw [List.cons_append, List.cons_append,
      readChar_three (by omega) (by omega)
        (allowsSecond_of (isContinuation_ofNat _) (by omega) (by omega) (by omega) (by omega))
        (isContinuation_ofNat v), first,
      codePoint, List.foldl_cons, List.foldl_cons, List.foldl_nil, second, toNat_continuation,
      ← char]
    have : ((v / 4096 % 16 + 224 - 224) * 64 + (v / 64 % 64 + 128 - 128)) * 64 +
      (v % 64 + 128 - 128) = v := by omega
    rw [this]
    rfl
  next notOne notTwo notThree =>
    have first : (UInt8.ofNat (v / 262144 % 0x08 + 0xF0)).toNat = _ :=
      toNat_lead _ (by decide) (by decide)
    have second := toNat_continuation (v / 4096)
    refine ⟨_, _, rfl, ?_⟩
    rw [List.cons_append, List.cons_append, List.cons_append,
      readChar_four (by omega) (by omega)
        (allowsSecond_of (isContinuation_ofNat _) (by omega) (by omega) (by omega) (by omega))
        (isContinuation_ofNat _) (isContinuation_ofNat v), first,
      codePoint, List.foldl_cons, List.foldl_cons, List.foldl_cons, List.foldl_nil, second,
      toNat_continuation, toNat_continuation, ← char]
    have : (((v / 262144 % 8 + 240 - 240) * 64 + (v / 4096 % 64 + 128 - 128)) * 64 +
      (v / 64 % 64 + 128 - 128)) * 64 + (v % 64 + 128 - 128) = v := by omega
    rw [this]
    rfl

/-! ## A text -/

/-- The bytes of a text are those of its characters. -/
theorem utf8_eq_flatMap (s : String) : utf8 s = s.toList.flatMap String.utf8EncodeChar := by
  rw [utf8, String.toUTF8_eq_toByteArray, ← String.utf8Encode_toList, List.utf8Encode,
    List.data_toByteArray]

theorem decodeFrom_flatMap (index : Nat) (read chars : List Char) :
    decodeFrom index read (chars.flatMap String.utf8EncodeChar) = .ok (read.reverse ++ chars) := by
  induction chars generalizing index read with
  | nil => simp [decodeFrom]
  | cons c chars ih =>
    obtain ⟨first, more, bytes, reads⟩ :=
      readChar_utf8EncodeChar c (chars.flatMap String.utf8EncodeChar)
    rw [List.flatMap_cons, bytes, List.cons_append, decodeFrom, reads]
    dsimp only
    rw [List.drop_left, ih]
    simp

/-- Decoding what was encoded gives the text. -/
theorem decodeUtf8_utf8 (s : String) : decodeUtf8 (utf8 s) = .ok s := by
  rw [decodeUtf8, utf8_eq_flatMap, decodeFrom_flatMap, List.reverse_nil, List.nil_append]
  exact congrArg Except.ok String.ofList_toList

end CacheCluster.Text
