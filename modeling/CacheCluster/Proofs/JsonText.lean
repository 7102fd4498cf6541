import Mathlib.Algebra.Ring.Nat
import CacheCluster.Json.Printer

/-! # The text of a document

Printing a document appends its text to what is written before, so the text of an array or an object
is put together from those of its parts, and so is its size.
-/

namespace CacheCluster.Json

/-! ## Printing appends -/

theorem pushEscaped_eq (written : String) (c : Char) :
    pushEscaped written c = written ++ pushEscaped "" c := by
  unfold pushEscaped
  split
  · rfl
  split
  · rfl
  split
  · rw [String.push_eq_append, String.push_eq_append, String.empty_append]
  split
  · rfl
  split
  · rfl
  split
  · rfl
  split
  · rfl
  split
  · rfl
  · simp only [String.push_eq_append, String.append_assoc, String.empty_append]

theorem foldl_pushEscaped (written : String) (chars : List Char) :
    chars.foldl pushEscaped written = written ++ chars.foldl pushEscaped "" := by
  induction chars generalizing written with
  | nil => exact String.append_empty.symm
  | cons c chars ih =>
    rw [List.foldl_cons, List.foldl_cons, ih, ih (pushEscaped "" c), pushEscaped_eq written,
      String.append_assoc]

theorem pushQuoted_eq (written s : String) :
    pushQuoted written s = written ++ pushQuoted "" s := by
  unfold pushQuoted
  rw [String.foldl_eq_foldl_toList, String.foldl_eq_foldl_toList, foldl_pushEscaped,
    foldl_pushEscaped ("".push '"')]
  simp only [String.push_eq_append, String.append_assoc, String.empty_append]

mutual

theorem push_eq (written : String) : (document : Json) →
    push written document = written ++ document.render
  | .null | .stray => by simp only [push, render, String.empty_append]
  | .bool value => by simp only [push, render, String.empty_append]
  | .number value => by simp only [push, render, String.empty_append]
  | .string value => by
    simp only [push, render]
    exact pushQuoted_eq written value
  | .array values => by
    simp only [push, render]
    rw [pushAll_eq (written.push '['), pushAll_eq ("".push '[')]
    simp only [String.push_eq_append, String.append_assoc, String.empty_append]
  | .object members => by
    simp only [push, render]
    rw [pushMembers_eq (written.push '\x7b'), pushMembers_eq ("".push '\x7b')]
    simp only [String.push_eq_append, String.append_assoc, String.empty_append]

theorem pushAll_eq (written : String) (isFirst : Bool) : (values : List Json) →
    pushAll written isFirst values = written ++ pushAll "" isFirst values
  | [] => by simp only [pushAll, String.append_empty]
  | value :: values => by
    simp only [pushAll]
    rw [pushAll_eq (push _ value), pushAll_eq (push (if isFirst then "" else _) value), push_eq,
      push_eq (if isFirst then "" else _)]
    rcases isFirst with _ | _
    all_goals
      simp only [String.push_eq_append, String.append_assoc, String.empty_append, if_true,
        Bool.false_eq_true, if_false]

theorem pushMembers_eq (written : String) (isFirst : Bool) : (members : List (String × Json)) →
    pushMembers written isFirst members = written ++ pushMembers "" isFirst members
  | [] => by simp only [pushMembers, String.append_empty]
  | (name, value) :: members => by
    simp only [pushMembers]
    rw [pushMembers_eq (push _ value), pushMembers_eq (push (String.push _ _) value), push_eq,
      push_eq (String.push (pushQuoted (if isFirst then "" else _) _) _), pushQuoted_eq,
      pushQuoted_eq (if isFirst then "" else _)]
    rcases isFirst with _ | _
    all_goals
      simp only [String.push_eq_append, String.append_assoc, String.empty_append, if_true,
        Bool.false_eq_true, if_false]

end

/-! ## Sizes -/

/-- The number of bytes of the text of a document. -/
def size (document : Json) : Nat :=
  document.render.utf8ByteSize

theorem size_push_mark (text : String) {mark : Char} (ascii : mark.utf8Size = 1) :
    (text.push mark).utf8ByteSize = text.utf8ByteSize + 1 := by
  rw [String.utf8ByteSize_push, ascii]

theorem size_string (s : String) :
    (string s).size = (s.toList.foldl pushEscaped "").utf8ByteSize + 2 := by
  rw [size, render, push, pushQuoted, size_push_mark _ rfl, String.foldl_eq_foldl_toList,
    foldl_pushEscaped, String.utf8ByteSize_append, size_push_mark _ rfl, String.utf8ByteSize_empty]
  omega

theorem size_push (written : String) (document : Json) :
    (push written document).utf8ByteSize = written.utf8ByteSize + document.size := by
  rw [push_eq, String.utf8ByteSize_append, size]

/-- Each value behind the first has a comma before it. -/
theorem size_pushAll (written : String) (values : List Json) :
    (pushAll written false values).utf8ByteSize =
      written.utf8ByteSize + (values.map fun value => value.size + 1).sum := by
  induction values generalizing written with
  | nil => rfl
  | cons value values ih =>
    simp only [pushAll, Bool.false_eq_true, if_false]
    rw [ih, size_push, size_push_mark _ rfl, List.map_cons, List.sum_cons]
    omega

theorem size_array {values : List Json} (some_values : values ≠ []) :
    (array values).size = 1 + (values.map fun value => value.size + 1).sum := by
  obtain ⟨value, rest, rfl⟩ := List.exists_cons_of_ne_nil some_values
  rw [size, render, push, size_push_mark _ rfl, pushAll, if_pos rfl, size_pushAll, size_push,
    size_push_mark _ rfl, String.utf8ByteSize_empty, List.map_cons, List.sum_cons]
  omega

/-- Each member has a colon in it, and each behind the first a comma before it. -/
theorem size_pushMembers (written : String) (members : List (String × Json)) :
    (pushMembers written false members).utf8ByteSize =
      written.utf8ByteSize +
        (members.map fun member => (string member.1).size + member.2.size + 2).sum := by
  induction members generalizing written with
  | nil => rfl
  | cons member members ih =>
    obtain ⟨name, value⟩ := member
    simp only [pushMembers, Bool.false_eq_true, if_false]
    rw [ih, size_push, size_push_mark _ rfl, ← push, size_push, size_push_mark _ rfl,
      List.map_cons, List.sum_cons]
    dsimp only
    omega

theorem size_object {members : List (String × Json)} (some_members : members ≠ []) :
    (object members).size =
      1 + (members.map fun member => (string member.1).size + member.2.size + 2).sum := by
  obtain ⟨⟨name, value⟩, rest, rfl⟩ := List.exists_cons_of_ne_nil some_members
  rw [size, render, push, size_push_mark _ rfl, pushMembers, if_pos rfl, size_pushMembers,
    size_push, size_push_mark _ rfl, ← push, size_push, size_push_mark _ rfl,
    String.utf8ByteSize_empty, List.map_cons, List.sum_cons]
  dsimp only
  omega

end CacheCluster.Json
