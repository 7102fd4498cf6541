/-! # Cutting text at separators

`pieces` cuts a text at every separator, `cutFirst` and `cutLast` at one character's first or last
occurrence. Joining the pieces with the separator gives the text back.
-/

namespace CacheCluster.Text

/-- Puts `c` in front of the pieces that follow it. -/
def grow (isSeparator : Char → Bool) (c : Char) : List (List Char) → List (List Char)
  | [] => if isSeparator c then [[], []] else [[c]]
  | piece :: rest => if isSeparator c then [] :: piece :: rest else (c :: piece) :: rest

/-- The stretches between separators; their number is one more than the number of separators. -/
def pieces (isSeparator : Char → Bool) (cs : List Char) : List (List Char) :=
  cs.foldr (grow isSeparator) [[]]

/-- `pieces` of a text, each as a text. -/
def split (isSeparator : Char → Bool) (s : String) : List String :=
  (pieces isSeparator s.toList).map String.ofList

/-- What stands before and after the first `c`. -/
def cutFirst (c : Char) : List Char → Option (List Char × List Char)
  | [] => none
  | d :: ds =>
    if d = c then some ([], ds) else (cutFirst c ds).map fun (before, after) => (d :: before, after)

/-- What stands before and after the last `c`. -/
def cutLast (c : Char) (cs : List Char) : Option (List Char × List Char) :=
  (cutFirst c cs.reverse).map fun (after, before) => (before.reverse, after.reverse)

/-- What follows `start` in a list that begins with it. -/
def dropStart : List Char → List Char → Option (List Char)
  | [], cs => some cs
  | _ :: _, [] => none
  | p :: ps, c :: cs => if p = c then dropStart ps cs else none

theorem cutFirst_eq_some_iff {c : Char} {cs before after : List Char} :
    cutFirst c cs = some (before, after) ↔ cs = before ++ c :: after ∧ c ∉ before := by
  induction cs generalizing before with
  | nil => simp [cutFirst]
  | cons d ds ih =>
    by_cases h : d = c
    · subst h
      cases before with
      | nil => simp [cutFirst]
      | cons b bs =>
        simp only [cutFirst, if_pos]
        constructor
        · intro h; cases h
        · rintro ⟨h, hn⟩; cases h; simp at hn
    · simp only [cutFirst, if_neg h]
      cases before with
      | nil =>
        constructor
        · intro h; cases hc : cutFirst c ds <;> simp [hc] at h
        · rintro ⟨he, -⟩; cases he; exact absurd rfl h
      | cons b bs =>
        constructor
        · intro hm
          obtain ⟨⟨x, y⟩, hc, he⟩ := Option.map_eq_some_iff.1 hm
          cases he
          obtain ⟨rfl, hx⟩ := ih.1 hc
          exact ⟨rfl, by simp [hx, Ne.symm h]⟩
        · rintro ⟨he, hn⟩
          cases he
          simp only [List.mem_cons, not_or] at hn
          have hc : cutFirst c (bs ++ c :: after) = some (bs, after) := ih.2 ⟨rfl, hn.2⟩
          simp [hc]

theorem cutFirst_eq_none_iff {c : Char} {cs : List Char} : cutFirst c cs = none ↔ c ∉ cs := by
  constructor
  · intro uncut mem
    obtain ⟨before, after, rfl, clean⟩ := List.eq_append_cons_of_mem mem
    simp [cutFirst_eq_some_iff.2 ⟨rfl, clean⟩] at uncut
  · intro clean
    cases cut : cutFirst c cs with
    | none => rfl
    | some parts =>
      obtain ⟨rfl, -⟩ := cutFirst_eq_some_iff.1 cut
      simp at clean

theorem cutLast_eq_some_iff {c : Char} {cs before after : List Char} :
    cutLast c cs = some (before, after) ↔ cs = before ++ c :: after ∧ c ∉ after := by
  have reversed : cutFirst c cs.reverse = some (after.reverse, before.reverse) ↔
      cs = before ++ c :: after ∧ c ∉ after := by
    rw [cutFirst_eq_some_iff, List.reverse_eq_iff]
    simp
  rw [← reversed, cutLast]
  constructor
  · intro cut
    obtain ⟨parts, found, same⟩ := Option.map_eq_some_iff.1 cut
    cases same
    simpa using found
  · intro cut
    simp [cut]

theorem cutLast_eq_none_iff {c : Char} {cs : List Char} : cutLast c cs = none ↔ c ∉ cs := by
  rw [cutLast, Option.map_eq_none_iff, cutFirst_eq_none_iff, List.mem_reverse]

theorem dropStart_eq_some_iff {start cs rest : List Char} :
    dropStart start cs = some rest ↔ cs = start ++ rest := by
  induction start generalizing cs with
  | nil => simp [dropStart, eq_comm]
  | cons p ps ih =>
    cases cs with
    | nil => simp [dropStart]
    | cons c cs =>
      by_cases h : p = c
      · simp [dropStart, h, ih]
      · simp [dropStart, h, Ne.symm h]

end CacheCluster.Text
