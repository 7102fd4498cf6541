import Mathlib.Logic.Relation
import CacheCluster.Proofs.WireForms

/-! # Reading by the names of fields

A record in an object is read by the names of its members alone: neither their order nor members of
other names, at any depth, make a difference, while each field must be there once. A change tells on
the whole document as it tells on the part that it is made in.
-/

namespace CacheCluster

namespace Wire

open Json (once?)

namespace Form

/-! ## Changes of a document -/

/-- A part of a document and the place at which it is read, with what takes its place. -/
inductive Part (form : Form) : Json → Json → Form → Json → Json → Prop
  | member (name : String) (value other : Json) (before after : List (String × Json)) :
    Part form (.object (before ++ (name, value) :: after))
      (.object (before ++ (name, other) :: after))
      (form.memberForm (.object (before ++ (name, value) :: after)) name) value other
  | item (value other : Json) (before after : List Json) :
    Part form (.array (before ++ value :: after)) (.array (before ++ other :: after))
      (form.itemForm (.array (before ++ value :: after)) before.length) value other

section
variable {form inner : Form} {document changed value other : Json}

theorem Part.read?_eq (part : Part form document changed inner value other)
    (tags : Json.string? value = Json.string? other)
    (alike : inner.read? value = inner.read? other) :
    form.read? document = form.read? changed := by
  cases part with
  | member name => exact read?_member_congr tags alike
  | item => exact read?_item_congr tags alike

theorem Part.isSome (part : Part form document changed inner value other)
    (read : (form.read? document).isSome = true) : (inner.read? value).isSome = true := by
  cases part with
  | member name => exact isSome_member read
  | item => exact isSome_item read

theorem Part.read?_eq_none (part : Part form document changed inner value other)
    (unread : inner.read? other = none) : form.read? changed = none := by
  cases part with
  | member name => exact read?_member_eq_none unread
  | item => exact read?_item_eq_none unread

theorem Part.isSound {levels : Nat} (part : Part form document changed inner value other)
    (keeps : value.isSound levels = true → other.isSound levels = true)
    (sound : document.isSound (levels + 1) = true) : changed.isSound (levels + 1) = true := by
  cases part with
  | member name value other before after =>
    rw [Json.isSound, Json.areSoundMembers_iff, List.forall_mem_append, List.forall_mem_cons]
      at sound ⊢
    exact ⟨sound.1, keeps sound.2.1, sound.2.2⟩
  | item value other before after =>
    rw [Json.isSound, Json.areSound_iff, List.forall_mem_append, List.forall_mem_cons] at sound ⊢
    exact ⟨sound.1, keeps sound.2.1, sound.2.2⟩

end

/-- A change that leaves all fields alone, in a document of so many levels or in a part of it: the
members of an object change places, or there is a new one with a name that is no field's. -/
inductive Rearranges : (levels : Nat) → Form → Json → Json → Prop
  | permute {levels : Nat} {form : Form} {members reordered : List (String × Json)} :
    members.Perm reordered → Rearranges levels form (.object members) (.object reordered)
  | add {levels : Nat} {form : Form} {members : List (String × Json)} {name : String}
      {value : Json} :
    (∀ field ∈ form.fields (.object members), field.1 ≠ name) → name ≠ "type" →
    value.isSound levels = true →
    Rearranges (levels + 1) form (.object members) (.object ((name, value) :: members))
  | within {levels : Nat} {form inner : Form} {document changed value other : Json} :
    Part form document changed inner value other → Rearranges levels inner value other →
    Rearranges (levels + 1) form document changed

namespace Rearranges

variable {levels : Nat} {form : Form} {document changed : Json}

/-- Neither document is the text of a tag. -/
theorem string?_eq (change : Rearranges levels form document changed) :
    Json.string? document = Json.string? changed := by
  cases change with
  | permute | add => rfl
  | within part => cases part <;> rfl

theorem read?_eq (change : Rearranges levels form document changed) :
    form.read? document = form.read? changed := by
  induction change with
  | @permute _ _ members reordered perm =>
    have tags : Json.tag? members = Json.tag? reordered := by
      rw [Json.tag?, Json.tag?, Json.once?_of_perm perm]
    refine read?_object_congr tags fun field _ => ?_
    rw [Json.once?_of_perm perm]
    exact foundAlike_refl _ _
  | @add levels form members name value unowned untyped sound =>
    have same {other : String} (ne : name ≠ other) :
        once? other ((name, value) :: members) = once? other members := by
      have inserted : once? other ([] ++ (name, value) :: members) = once? other ([] ++ members) :=
        Json.once?_insert_of_ne ne value
      exact inserted
    refine read?_object_congr (by rw [Json.tag?, Json.tag?, same untyped]) fun field mem => ?_
    rw [same (unowned field mem).symm]
    exact foundAlike_refl _ _
  | within part change ih => exact part.read?_eq change.string?_eq ih

theorem isSound (change : Rearranges levels form document changed)
    (sound : document.isSound levels = true) : changed.isSound levels = true := by
  induction change with
  | @permute levels form members reordered perm =>
    cases levels with
    | zero => cases sound
    | succ levels =>
      rw [Json.isSound, Json.areSoundMembers_iff] at sound ⊢
      exact fun member mem => sound member (perm.mem_iff.2 mem)
  | add unowned untyped sound_value =>
    rw [Json.isSound, Json.areSoundMembers_iff] at sound ⊢
    exact List.forall_mem_cons.2 ⟨sound_value, sound⟩
  | within part change ih => exact part.isSound ih sound

end Rearranges

/-- A name of which a record needs one member: that of a field or of the tag. -/
def Owns (form : Form) (document : Json) (name : String) : Prop :=
  (∃ field ∈ form.fields document, field.1 = name) ∨ form.IsTagged ∧ name = "type"

/-- A change of the fields of a record, in a document or in a part of it: one goes or comes
again. -/
inductive Breaks : Form → Json → Json → Prop
  | remove {form : Form} {name : String} {value : Json} {before after : List (String × Json)} :
    form.Owns (.object (before ++ (name, value) :: after)) name →
    Breaks form (.object (before ++ (name, value) :: after)) (.object (before ++ after))
  | double {form : Form} {name : String} {value : Json} {before after : List (String × Json)} :
    form.Owns (.object (before ++ after)) name →
    Breaks form (.object (before ++ after)) (.object (before ++ (name, value) :: after))
  | within {form inner : Form} {document changed value other : Json} :
    Part form document changed inner value other → Breaks inner value other →
    Breaks form document changed

section
variable {form : Form} {name : String} {value : Json} {members before after : List (String × Json)}

theorem isSome_once?_of_owns (read : (form.read? (.object members)).isSome = true)
    (owns : form.Owns (.object members) name) : (once? name members).isSome = true := by
  rcases owns with ⟨field, mem, rfl⟩ | ⟨tagged, rfl⟩
  · obtain ⟨value, found, -⟩ := exists_once? read mem
    exact Option.isSome_of_eq_some found
  · rcases found : once? "type" members with _ | value
    · have untagged : form.body? (.object members) = none := by
        rw [tagged.body?_eq, Json.variant?_object, Json.tag?, found]
        rfl
      rw [read?_of_untagged tagged.isRecord untagged] at read
      cases read
    · rfl

theorem owns_insert_iff (form : Form) (name : String) (value : Json)
    (before after : List (String × Json)) :
    form.Owns (.object (before ++ (name, value) :: after)) name ↔
      form.Owns (.object (before ++ after)) name := by
  by_cases type : name = "type"
  · have unowned (document : Json) : ¬ ∃ field ∈ form.fields document, field.1 = name := by
      rintro ⟨field, mem, rfl⟩
      exact ne_type_of_mem_fields mem type
    rw [Owns, Owns, iff_false_intro (unowned _), iff_false_intro (unowned _)]
  · rw [Owns, Owns, fields_eq_of_tags form (tag?_insert_of_ne type value)]

/-- Not both of two objects are read that differ in one member for a field. -/
theorem not_isSome_both (owns : form.Owns (.object (before ++ after)) name)
    (read : (form.read? (.object (before ++ after))).isSome = true)
    (read_more : (form.read? (.object (before ++ (name, value) :: after))).isSome = true) :
    False := by
  have once := isSome_once?_of_owns read owns
  have once_more :=
    isSome_once?_of_owns read_more ((owns_insert_iff form name value before after).2 owns)
  -- the longer object has no second member of the name, so the shorter has none at all
  rw [Json.once?_insert] at once_more
  split at once_more
  next => cases once_more
  next alone =>
    obtain ⟨found, once⟩ := Option.isSome_iff_exists.1 once
    exact alone (Json.exists_mem_of_once? once)

end

theorem Breaks.read?_eq_none {form : Form} {document changed : Json}
    (change : Breaks form document changed) (read : (form.read? document).isSome = true) :
    form.read? changed = none := by
  induction change with
  | remove owns =>
    by_contra still
    have owns := (owns_insert_iff _ _ _ _ _).1 owns
    exact not_isSome_both owns (Option.isSome_iff_ne_none.2 still) read
  | double owns =>
    by_contra still
    exact not_isSome_both owns read (Option.isSome_iff_ne_none.2 still)
  | within part change ih => exact part.read?_eq_none (ih (part.isSome read))

end Form

/-! ## Texts -/

/-- The documents that are sent or read by themselves. -/
inductive Kind
  | request | response | message | element

namespace Kind

def form : Kind → Form
  | request => .request
  | response => .response
  | message => .message
  | element => .element

def decode? : (kind : Kind) → String → Option kind.form.Value
  | request => Request.decode?
  | response => Response.decode?
  | message => Message.decode?
  | element => Element.decode?

/-- How many levels of a document may be rearranged. An element by itself may have any number. -/
def Reaches (levels : Nat) : Kind → Prop
  | element => True
  | request | response | message => levels = maxLevels

/-- What is asked of a document before it is read. -/
def Takes (document : Json) : Kind → Prop
  | element => True
  | request | response | message => document.isSound maxLevels = true

variable {kind : Kind} {levels : Nat} {text other : String} {document changed : Json}

theorem decode?_eq_some_iff (denotes : Json.parse? text = some document) {value : kind.form.Value} :
    kind.decode? text = some value ↔
      kind.Takes document ∧ kind.form.read? document = some value := by
  have tagged {α : Type} (read? : Json → Option α) (value : α) :
      (taggedText? text).bind read? = some value ↔
        document.isSound maxLevels = true ∧ read? document = some value := by
    rw [taggedText?, denotes, Option.filter_some]
    by_cases sound : document.isSound maxLevels = true
    · rw [if_pos sound, Option.bind_some, and_iff_right sound]
    · rw [if_neg sound, Option.bind_none]
      exact iff_of_false (Option.some_ne_none value).symm fun taken => sound taken.1
  cases kind with
  | element =>
    change (Json.parse? text).bind Element.ofJson? = some value ↔ _
    rw [denotes]
    exact (and_iff_right trivial).symm
  | request => exact tagged Request.ofJson? value
  | response => exact tagged Response.ofJson? value
  | message => exact tagged Message.ofJson? value

/-- What is taken is taken after any number of changes that leave the fields alone. -/
theorem takes_of_rearranged (reaches : kind.Reaches levels)
    (changes : Relation.ReflTransGen (Form.Rearranges levels kind.form) document changed)
    (taken : kind.Takes document) : kind.Takes changed := by
  induction changes with
  | refl => exact taken
  | tail _ change ih =>
    cases kind with
    | element => trivial
    | request | response | message =>
      obtain rfl : levels = maxLevels := reaches
      exact change.isSound ih

theorem read?_of_rearranged
    (changes : Relation.ReflTransGen (Form.Rearranges levels kind.form) document changed) :
    kind.form.read? document = kind.form.read? changed := by
  induction changes with
  | refl => rfl
  | tail _ change ih => exact ih.trans change.read?_eq

/-- A text that is accepted is read by the names of fields alone: whatever is done to the order of
members and to members of other names, in the document and in its parts, the new text is accepted
with the same value, and where a field goes or comes once more, it is rejected. -/
theorem reads_by_name (reaches : kind.Reaches levels) {value : kind.form.Value}
    (denotes : Json.parse? text = some document) (accepted : kind.decode? text = some value)
    (denotes_other : Json.parse? other = some changed) :
    (Relation.ReflTransGen (Form.Rearranges levels kind.form) document changed →
      kind.decode? other = some value) ∧
    (Form.Breaks kind.form document changed → kind.decode? other = none) := by
  obtain ⟨taken, read⟩ := (decode?_eq_some_iff denotes).1 accepted
  constructor
  · intro changes
    refine (decode?_eq_some_iff denotes_other).2 ⟨takes_of_rearranged reaches changes taken, ?_⟩
    rw [← read?_of_rearranged changes, read]
  · intro change
    have unread := change.read?_eq_none (Option.isSome_of_eq_some read)
    refine Option.eq_none_iff_forall_ne_some.2 fun value decoded => ?_
    rw [((decode?_eq_some_iff denotes_other).1 decoded).2] at unread
    cases unread

/-- A request with its tag at the end, an element in it that is turned round and a member that
nobody knows; and the same without the version of the element. -/
theorem reads_by_name_tag_last :
    let number (i : Int) : Json := .number (.integer i)
    let known (element : List (String × Json)) : List (String × Json) :=
      [("element", .object element), ("cache_name", .string "c"), ("type", .string "PUT")]
    let whole (element : List (String × Json)) : Json :=
      .object (("hops", .array [.object [("type", .null)]]) :: known element)
    let put : Request := ⟨"c", .put ⟨"k", [7], 1, 2⟩⟩
    Request.decode? (whole [("creationTime", number 2), ("version", number 1),
        ("value", .array [number 7]), ("key", .string "k")]).render = some put ∧
      Request.decode? (whole [("creationTime", number 2), ("value", .array [number 7]),
        ("key", .string "k")]).render = none := by
  intro number known whole put
  let straight := [("key", .string "k"), ("value", .array [number 7]), ("version", number 1),
    ("creationTime", number 2)]
  have denotes : Json.parse? put.encode = some put.toJson :=
    Json.parse?_render (put.isSound_toJson 122)
  have denotes_whole :
      Json.parse? (whole straight.reverse).render = some (whole straight.reverse) :=
    Json.parse?_render (by decide +kernel : Json.isSound maxLevels _ = true)
  have denotes_cut : Json.parse? (whole [("creationTime", number 2), ("value", .array [number 7]),
      ("key", .string "k")]).render = some _ :=
    Json.parse?_render (by decide +kernel : Json.isSound maxLevels _ = true)
  have reorder : Form.Rearranges maxLevels .request put.toJson (.object (known straight)) :=
    .permute (List.reverse_perm _).symm
  have extend : Form.Rearranges maxLevels .request (.object (known straight)) (whole straight) :=
    .add (by decide) (by decide) (by decide +kernel)
  have turn : Form.Rearranges maxLevels .request (whole straight) (whole straight.reverse) :=
    .within (.member "element" _ _ [_] [_, _]) (.permute (List.reverse_perm _).symm)
  have remove : Form.Breaks .element
      (.object ([("creationTime", number 2)] ++
        ("version", number 1) :: [("value", .array [number 7]), ("key", .string "k")]))
      (.object ([("creationTime", number 2)] ++
        [("value", .array [number 7]), ("key", .string "k")])) :=
    .remove (.inl ⟨("version", .int64), by decide, rfl⟩)
  have cut : Form.Breaks .request (whole straight.reverse) _ :=
    .within (.member "element" _ _ [_] [_, _]) remove
  have reaches : request.Reaches maxLevels := rfl
  have decoded : Request.decode? (whole straight.reverse).render = some put :=
    (reads_by_name reaches denotes (Request.decode?_encode _) denotes_whole).1
      (((Relation.ReflTransGen.single reorder).tail extend).tail turn)
  exact ⟨decoded, (reads_by_name reaches denotes_whole decoded denotes_cut).2 cut⟩

end Kind

end Wire

end CacheCluster
