/-! # Tables

A finite map from names to values, kept as its entries in ascending order of the names. Two tables
that answer every look-up alike are equal.
-/

namespace CacheCluster

/-- Entries in strictly ascending order of their names. -/
structure Table (α : Type) where
  entries : List (String × α)
  sorted : entries.Pairwise (fun a b => a.1 < b.1)

namespace Table

variable {α : Type}

instance : EmptyCollection (Table α) := ⟨⟨[], .nil⟩⟩
instance : Inhabited (Table α) := ⟨∅⟩

/-! ## Look-up -/

def get? (table : Table α) (name : String) : Option α :=
  table.entries.lookup name

def contains (table : Table α) (name : String) : Bool :=
  (table.get? name).isSome

def names (table : Table α) : List String :=
  table.entries.map Prod.fst

def values (table : Table α) : List α :=
  table.entries.map Prod.snd

def size (table : Table α) : Nat :=
  table.entries.length

/-! ## Change -/

/-- Puts an entry at its place among ascending ones. -/
def place (name : String) (value : α) : List (String × α) → List (String × α)
  | [] => [(name, value)]
  | (other, held) :: rest =>
    if name < other then (name, value) :: (other, held) :: rest
    else if name = other then (name, value) :: rest
    else (other, held) :: place name value rest

theorem mem_place {name : String} {value : α} {entry : String × α} {entries : List (String × α)}
    (h : entry ∈ place name value entries) : entry = (name, value) ∨ entry ∈ entries := by
  induction entries with
  | nil => simpa [place] using h
  | cons e rest ih => grind [place]

theorem sorted_place (name : String) (value : α) {entries : List (String × α)}
    (h : entries.Pairwise (fun a b => a.1 < b.1)) :
    (place name value entries).Pairwise (fun a b => a.1 < b.1) := by
  induction entries with
  | nil => simp [place]
  | cons e rest ih =>
    obtain ⟨other, held⟩ := e
    obtain ⟨first, rest_sorted⟩ := List.pairwise_cons.1 h
    unfold place
    split
    · refine List.pairwise_cons.2 ⟨?_, h⟩
      grind
    · split
      · exact List.pairwise_cons.2 ⟨by grind, rest_sorted⟩
      · refine List.pairwise_cons.2 ⟨fun e he => ?_, ih rest_sorted⟩
        rcases mem_place he with rfl | he
        · grind
        · exact first e he

/-- Changes what a name stands for. -/
def insert (table : Table α) (name : String) (value : α) : Table α where
  entries := place name value table.entries
  sorted := sorted_place name value table.sorted

/-- Keeps the entries that satisfy a test. -/
def filter (keep : String → α → Bool) (table : Table α) : Table α where
  entries := table.entries.filter fun e => keep e.1 e.2
  sorted := table.sorted.filter _

def erase (table : Table α) (name : String) : Table α :=
  table.filter fun other _ => other != name

/-- Changes every value, the names staying. -/
def map {β : Type} (f : α → β) (table : Table α) : Table β where
  entries := table.entries.map fun e => (e.1, f e.2)
  sorted := by
    refine List.pairwise_map.2 (table.sorted.imp ?_)
    intro a b h
    exact h

/-- The table of some entries, of which a later one replaces an earlier one of its name. -/
def ofList (entries : List (String × α)) : Table α :=
  entries.foldl (fun table e => table.insert e.1 e.2) ∅

/-! ## Laws -/

@[simp] theorem get?_empty (name : String) : (∅ : Table α).get? name = none := rfl

theorem lookup_cons (name other : String) (held : α) (rest : List (String × α)) :
    ((other, held) :: rest).lookup name = if name = other then some held else rest.lookup name := by
  rw [List.lookup_cons]
  by_cases h : name = other
  · simp [h]
  · rw [beq_false_of_ne h, if_neg h]

theorem lookup_of_notMem {name : String} {entries : List (String × α)}
    (new : name ∉ entries.map Prod.fst) : entries.lookup name = none := by
  rw [List.lookup_eq_none_iff]
  intro e mem
  rw [bne_iff_ne]
  rintro rfl
  exact new (List.mem_map.2 ⟨e, mem, rfl⟩)

/-- Where names do not repeat, an entry is what is found by its name. -/
theorem lookup_of_mem {entries : List (String × α)} (once : (entries.map Prod.fst).Nodup)
    {e : String × α} (mem : e ∈ entries) : entries.lookup e.1 = some e.2 := by
  induction entries with
  | nil => cases mem
  | cons first rest ih =>
    obtain ⟨new, once⟩ := List.nodup_cons.1 once
    rcases List.mem_cons.1 mem with rfl | mem
    · exact List.lookup_cons_self
    · have ne : e.1 ≠ first.1 := fun eq => new (eq ▸ List.mem_map.2 ⟨e, mem, rfl⟩)
      rw [lookup_cons, if_neg ne]
      exact ih once mem

/-- A name below every name of the entries is none of theirs. -/
theorem lookup_eq_none {name : String} {entries : List (String × α)}
    (h : ∀ e ∈ entries, name < e.1) : entries.lookup name = none := by
  refine lookup_of_notMem fun named => ?_
  obtain ⟨e, mem, rfl⟩ := List.mem_map.1 named
  exact String.lt_irrefl _ (h e mem)

theorem lookup_place (name : String) (value : α) (entries : List (String × α)) (other : String) :
    (place name value entries).lookup other =
      if other = name then some value else entries.lookup other := by
  induction entries with
  | nil => simp only [place, lookup_cons]
  | cons e rest ih =>
    obtain ⟨first, held⟩ := e
    unfold place
    split
    · simp only [lookup_cons]
    · split <;> simp only [lookup_cons, ih] <;> grind

@[simp] theorem get?_insert (table : Table α) (name other : String) (value : α) :
    (table.insert name value).get? other = if other = name then some value else table.get? other :=
  lookup_place name value table.entries other

theorem mem_entries_iff (table : Table α) (name : String) (value : α) :
    (name, value) ∈ table.entries ↔ table.get? name = some value := by
  obtain ⟨entries, sorted⟩ := table
  simp only [get?]
  induction entries with
  | nil => simp
  | cons e rest ih =>
    obtain ⟨other, held⟩ := e
    obtain ⟨first, rest_sorted⟩ := List.pairwise_cons.1 sorted
    have ih := ih rest_sorted
    rw [List.mem_cons, Prod.mk.injEq, lookup_cons, ih]
    by_cases h : name = other
    · subst h
      rw [lookup_eq_none first]
      simp [eq_comm]
    · simp [h]

theorem mem_names_iff {table : Table α} {name : String} :
    name ∈ table.names ↔ ∃ value, table.get? name = some value := by
  rw [names, List.mem_map]
  constructor
  · rintro ⟨⟨name, value⟩, mem, rfl⟩
    exact ⟨value, (mem_entries_iff table name value).1 mem⟩
  · rintro ⟨value, held⟩
    exact ⟨(name, value), (mem_entries_iff table name value).2 held, rfl⟩

theorem lookup_filter (keep : String → α → Bool) (entries : List (String × α)) (name : String)
    (h : entries.Pairwise (fun a b => a.1 < b.1)) :
    (entries.filter fun e => keep e.1 e.2).lookup name =
      (entries.lookup name).filter (keep name) := by
  induction entries with
  | nil => rfl
  | cons e rest ih =>
    obtain ⟨other, held⟩ := e
    obtain ⟨first, rest_sorted⟩ := List.pairwise_cons.1 h
    have ih := ih rest_sorted
    rw [List.filter_cons, lookup_cons]
    by_cases hn : name = other
    · subst hn
      rw [lookup_eq_none first] at ih
      by_cases hk : keep name held
      · simp [hk, Option.filter]
      · simp [hk, ih, Option.filter]
    · by_cases hk : keep other held
      · simp only [hk, if_true, lookup_cons, hn, if_false, ih]
      · simp [hk, hn, ih]

@[simp] theorem get?_filter (keep : String → α → Bool) (table : Table α) (name : String) :
    (table.filter keep).get? name = (table.get? name).filter (keep name) :=
  lookup_filter keep table.entries name table.sorted

@[simp] theorem get?_erase (table : Table α) (name other : String) :
    (table.erase name).get? other = if other = name then none else table.get? other := by
  rw [erase, get?_filter]
  by_cases h : other = name
  · subst h
    cases table.get? other <;> simp [Option.filter]
  · cases table.get? other <;> simp [Option.filter, h]

/-- Tables are equal when every look-up gives the same. -/
theorem ext_get? {s t : Table α} (h : ∀ name, s.get? name = t.get? name) : s = t := by
  have mem (e : String × α) : e ∈ s.entries ↔ e ∈ t.entries := by
    obtain ⟨name, value⟩ := e
    rw [mem_entries_iff, mem_entries_iff, h]
  obtain ⟨xs, hx⟩ := s
  obtain ⟨ys, hy⟩ := t
  simp only at mem
  have : xs = ys := by
    clear h
    induction xs generalizing ys with
    | nil =>
      cases ys with
      | nil => rfl
      | cons y ys => exact absurd ((mem y).2 List.mem_cons_self) List.not_mem_nil
    | cons x xs ih =>
      cases ys with
      | nil => exact absurd ((mem x).1 List.mem_cons_self) List.not_mem_nil
      | cons y ys =>
        obtain ⟨x_first, xs_sorted⟩ := List.pairwise_cons.1 hx
        obtain ⟨y_first, ys_sorted⟩ := List.pairwise_cons.1 hy
        have heads : x = y := by
          rcases List.mem_cons.1 ((mem x).1 List.mem_cons_self) with h | h
          · exact h
          · rcases List.mem_cons.1 ((mem y).2 List.mem_cons_self) with h' | h'
            · exact h'.symm
            · exact absurd (y_first x h) (String.lt_asymm (x_first y h'))
        subst heads
        congr 1
        refine ih xs_sorted ys ys_sorted fun e => ⟨fun he => ?_, fun he => ?_⟩
        · rcases List.mem_cons.1 ((mem e).1 (List.mem_cons_of_mem _ he)) with rfl | h
          · exact absurd (x_first e he) (String.lt_irrefl _)
          · exact h
        · rcases List.mem_cons.1 ((mem e).2 (List.mem_cons_of_mem _ he)) with rfl | h
          · exact absurd (y_first e he) (String.lt_irrefl _)
          · exact h
  subst this
  rfl

/-- A name that was there stays where it is. -/
theorem names_insert {table : Table α} {name : String} {held : α}
    (h : table.get? name = some held) (value : α) :
    (table.insert name value).names = table.names := by
  obtain ⟨entries, sorted⟩ := table
  simp only [get?] at h
  simp only [insert, names]
  induction entries with
  | nil => simp at h
  | cons e rest ih =>
    obtain ⟨other, held'⟩ := e
    obtain ⟨first, rest_sorted⟩ := List.pairwise_cons.1 sorted
    rw [lookup_cons] at h
    unfold place
    by_cases same : name = other
    · subst same
      rw [if_neg (String.lt_irrefl name), if_pos rfl]
      rfl
    · rw [if_neg same] at h
      have notBelow : ¬ name < other := by
        intro below
        rw [lookup_eq_none fun e mem => String.lt_trans below (first e mem)] at h
        cases h
      rw [if_neg notBelow, if_neg same, List.map_cons, List.map_cons, ih rest_sorted h]

theorem values_map {β : Type} (table : Table α) (f : α → β) :
    (table.map f).values = table.values.map f := by
  simp only [values, map, List.map_map]
  rfl

@[simp] theorem get?_map {β : Type} (table : Table α) (f : α → β) (name : String) :
    (table.map f).get? name = (table.get? name).map f := by
  change (table.entries.map fun e => (e.1, f e.2)).lookup name = (table.entries.lookup name).map f
  induction table.entries with
  | nil => rfl
  | cons e rest ih =>
    rw [List.map_cons, lookup_cons, lookup_cons, ih]
    split <;> rfl

theorem map_insert {β : Type} (table : Table α) (f : α → β) (name : String) (value : α) :
    (table.insert name value).map f = (table.map f).insert name (f value) := by
  refine ext_get? fun other => ?_
  rw [get?_map, get?_insert, get?_insert, get?_map]
  split <;> rfl

theorem mem_values_iff {table : Table α} {value : α} :
    value ∈ table.values ↔ ∃ name, table.get? name = some value := by
  constructor
  · intro mem
    obtain ⟨⟨name, _⟩, entry, rfl⟩ := List.mem_map.1 mem
    exact ⟨name, (mem_entries_iff ..).1 entry⟩
  · rintro ⟨name, held⟩
    exact List.mem_map.2 ⟨(name, value), (mem_entries_iff ..).2 held, rfl⟩

/-- A list gathered from the values is that of one name, when no other name contributes. -/
theorem flatMap_values {β : Type} {table : Table α} {f : α → List β} {name : String}
    (others : ∀ other value, table.get? other = some value → other ≠ name → f value = []) :
    table.values.flatMap f = ((table.get? name).map f).getD [] := by
  replace others : ∀ e ∈ table.entries, e.1 ≠ name → f e.2 = [] := fun e mem =>
    others e.1 e.2 ((mem_entries_iff table e.1 e.2).1 mem)
  obtain ⟨entries, sorted⟩ := table
  simp only [values, get?, List.flatMap_map] at others ⊢
  induction entries with
  | nil => rfl
  | cons e rest ih =>
    obtain ⟨other, held⟩ := e
    obtain ⟨first, rest_sorted⟩ := List.pairwise_cons.1 sorted
    rw [List.flatMap_cons, lookup_cons]
    by_cases h : name = other
    · subst h
      have silent : rest.flatMap (fun e => f e.2) = [] := by
        rw [List.flatMap_eq_nil_iff]
        intro e mem
        refine others e (List.mem_cons_of_mem _ mem) fun same => ?_
        exact String.lt_irrefl _ (same ▸ first e mem)
      simp [silent]
    · rw [others _ List.mem_cons_self (Ne.symm h), if_neg h]
      exact ih rest_sorted fun e mem => others e (List.mem_cons_of_mem _ mem)

theorem insert_held {table : Table α} {name : String} {held : α}
    (h : table.get? name = some held) : table.insert name held = table := by
  refine ext_get? fun other => ?_
  rw [get?_insert]
  split
  next same => rw [same, h]
  next => rfl

theorem sorted_names (table : Table α) : table.names.Pairwise (· < ·) :=
  List.pairwise_map.2 table.sorted

theorem nodup_names (table : Table α) : table.names.Nodup := by
  refine table.sorted_names.imp ?_
  rintro name _ ascending rfl
  exact String.lt_irrefl name ascending

end Table

end CacheCluster
