import CacheCluster.Proofs.WireRoundTrip
import CacheCluster.Table

/-! # Forms of wire documents

Each part of a wire document has a form in which it is read, if it is looked at: that of the field,
of the entry or of the whole document that it is. A record is read from its tag and the values of
its fields, so that how a part is read tells on the whole.
-/

namespace CacheCluster

namespace Json

/-! ## Members by name -/

section
variable {name other : String} {value : Json}
  {before after members reordered : List (String × Json)}

theorem once?_of_perm (perm : members.Perm reordered) (name : String) :
    once? name members = once? name reordered := by
  have found := perm.filter (·.1 = name)
  rw [once?, once?]
  generalize members.filter (·.1 = name) = these at found
  generalize reordered.filter (·.1 = name) = those at found
  rcases these with _ | ⟨member, _ | ⟨second, rest⟩⟩
  · rw [found.nil_eq]
  · rw [found.singleton_eq]
  · -- as many members are found in both, and more than one is as good as none
    rcases those with _ | ⟨other, _ | ⟨another, others⟩⟩
    · cases found.length_eq
    · cases found.length_eq
    · rfl

theorem once?_insert_of_ne (ne : other ≠ name) (value : Json) :
    once? name (before ++ (other, value) :: after) = once? name (before ++ after) := by
  simp [once?, ne]

/-- A member is the only one of its name or counts for nothing. -/
theorem once?_insert (name : String) (value : Json) (before after : List (String × Json)) :
    once? name (before ++ (name, value) :: after) =
      if ∃ member ∈ before ++ after, member.1 = name then none else some value := by
  rw [once?, List.filter_append, List.filter_cons_of_pos (by simp)]
  have named {member : String × Json} {rest : List (String × Json)} {members : List (String × Json)}
      (eq : members.filter (·.1 = name) = member :: rest) : member ∈ members ∧ member.1 = name := by
    have mem : member ∈ members.filter (·.1 = name) := eq ▸ List.mem_cons_self
    simpa using mem
  rcases first : before.filter (·.1 = name) with _ | ⟨member, rest⟩
  · rcases last : after.filter (·.1 = name) with _ | ⟨member, rest⟩
    · rw [first, last, if_neg]
      · rfl
      · rintro ⟨member, mem, eq⟩
        rcases List.mem_append.1 mem with mem | mem
        · exact List.filter_eq_nil_iff.1 first member mem (decide_eq_true eq)
        · exact List.filter_eq_nil_iff.1 last member mem (decide_eq_true eq)
    · obtain ⟨mem, eq⟩ := named last
      rw [first, last, if_pos ⟨member, List.mem_append_right _ mem, eq⟩]
      rfl
  · obtain ⟨mem, eq⟩ := named first
    rw [first, if_pos ⟨member, List.mem_append_left _ mem, eq⟩]
    cases rest <;> rfl

theorem exists_mem_of_once? (found : once? name members = some value) :
    ∃ member ∈ members, member.1 = name := by
  rw [once?] at found
  split at found
  next only _ eq =>
    have mem : (only, _) ∈ members.filter (·.1 = name) := eq ▸ List.mem_cons_self
    exact ⟨_, (List.mem_filter.1 mem).1, of_decide_eq_true (List.mem_filter.1 mem).2⟩
  next => cases found

theorem once?_filter_ne (ne : name ≠ other) :
    once? name (members.filter (·.1 ≠ other)) = once? name members := by
  have same : (members.filter (·.1 ≠ other)).filter (·.1 = name) = members.filter (·.1 = name) := by
    rw [List.filter_filter]
    refine List.filter_congr fun member _ => ?_
    by_cases eq : member.1 = name
    · simp [eq, ne]
    · simp [eq]
  rw [once?, once?, same]

/-- The tag that members give; without one text for it there is none. -/
def tag? (members : List (String × Json)) : Option String :=
  (once? "type" members).bind string?

theorem eq_of_string? {document : Json} {s : String} (read : string? document = some s) :
    document = .string s := by
  cases document <;> cases read
  rfl

theorem variant?_object (members : List (String × Json)) :
    Wire.variant? (object members) =
      (tag? members).map fun tag => (tag, object (members.filter (·.1 ≠ "type"))) := by
  rw [Wire.variant?, tag?]
  rcases once? "type" members with _ | value
  · rfl
  · cases value <;> rfl

end

end Json

namespace Wire

open Json (once?)
open Request (Action)

/-! ## Places -/

/-- How a part of a document is read. -/
inductive Form
  | string | bool | int64 | byte
  | list (form : Form)
  | element | message | request | response
  /-- A part that is not looked at. -/
  | ignored
  deriving DecidableEq

namespace Form

/-- What a part is read as. -/
def Value : Form → Type
  | string => String
  | bool => Bool
  | int64 => Int64
  | byte => UInt8
  | list form => List form.Value
  | element => Element
  | message => Message
  | request => Request
  | response => Response
  | ignored => Unit

def read? : (form : Form) → Json → Option form.Value
  | string => Json.string?
  | bool => Json.bool?
  | int64 => Wire.int64?
  | byte => Wire.byte?
  | list form => Wire.list? form.read?
  | element => Element.ofJson?
  | message => Message.ofJson?
  | request => Request.ofJson?
  | response => Response.ofJson?
  | ignored => fun _ => some ()

/-- The fields of a record, which for a tagged one depend on its variant. -/
def fieldsOf : Form → (tag : String) → List (String × Form)
  | element, _ =>
    [("key", string), ("value", list byte), ("version", int64), ("creationTime", int64)]
  | message, "PUT" => [("element", element)]
  | message, "REMOVE" => [("key", string)]
  | request, "PUT" => [("cache_name", string), ("element", element)]
  | request, "REMOVE" => [("cache_name", string), ("key", string)]
  | request, "SEND" => [("cache_name", string), ("messages", list message)]
  | request, "GET_ELEMENTS" => [("cache_name", string), ("keys", list string)]
  | request, _ => [("cache_name", string)]
  | response, "REMOVED" => [("removed", bool)]
  | response, "KEYS" => [("keys", list string)]
  | response, "ELEMENTS" => [("elements", list element)]
  | response, "ERROR" => [("message", string)]
  | _, _ => []

/-- The variants of a record; an element has one without a name. -/
def tags : Form → List String
  | element => [""]
  | message => ["PUT", "REMOVE", "REMOVE_ALL"]
  | request => ["PING", "PUT", "REMOVE", "REMOVE_ALL", "SEND", "KEYS", "GET_ELEMENTS"]
  | response => ["OK", "REMOVED", "KEYS", "ELEMENTS", "ERROR"]
  | _ => []

/-- The tag of a record and the document of its fields. -/
def body? : Form → Json → Option (String × Json)
  | element, document => some ("", document)
  | message, document | request, document | response, document => variant? document
  | _, _ => none

/-- The fields that a document has of its own as a record. -/
def fields (form : Form) (document : Json) : List (String × Form) :=
  (form.body? document).elim [] fun (tag, _) => form.fieldsOf tag

/-- How the member of a name is read. -/
def memberForm (form : Form) (document : Json) (name : String) : Form :=
  ((form.fields document).lookup name).getD ignored

/-- How an entry of an array is read: that of a list, or that of a record whose fields stand in
order, behind the tag if it has one. -/
def itemForm (form : Form) (document : Json) (i : Nat) : Form :=
  match form, i with
  | list form, _ => form
  | element, i => ((element.fields document)[i]?).elim ignored Prod.snd
  | message, i + 1 | request, i + 1 | response, i + 1 =>
    ((form.fields document)[i]?).elim ignored Prod.snd
  | _, _ => ignored

/-! ## Records -/

/-- Each field is read from its value. -/
inductive AreRead : List (String × Form) → List Json → Prop
  | nil : AreRead [] []
  | cons {name : String} {form : Form} {fields : List (String × Form)} {value : Json}
      {values : List Json} : (form.read? value).isSome = true → AreRead fields values →
      AreRead ((name, form) :: fields) (value :: values)

/-- Each field is read alike from two values. -/
inductive AreAlike : List (String × Form) → List Json → List Json → Prop
  | nil : AreAlike [] [] []
  | cons {name : String} {form : Form} {fields : List (String × Form)} {value other : Json}
      {values others : List Json} : form.read? value = form.read? other →
      AreAlike fields values others →
      AreAlike ((name, form) :: fields) (value :: values) (other :: others)

/-- The values of the fields of a variant. -/
def contents? (form : Form) (tag : String) (body : Json) : Option (List Json) :=
  fields? ((form.fieldsOf tag).map Prod.fst) body

/-- The fields of a variant are there and read alike in two documents, or are in neither. -/
def BodiesAlike (form : Form) (tag : String) (body other : Json) : Prop :=
  Option.Rel (AreAlike (form.fieldsOf tag)) (form.contents? tag body) (form.contents? tag other)

/-- The fields of a variant are there and each of them is read. -/
def BodyRead (form : Form) (tag : String) (body : Json) : Prop :=
  ∃ values, form.contents? tag body = some values ∧ AreRead (form.fieldsOf tag) values

section
variable {α : Type} {name : String} {values others : Option (List Json)} {body other : Json}

theorem rel_nil (alike : Option.Rel (AreAlike []) values others) : values = others := by
  rcases alike with ⟨⟨⟩⟩ | _ <;> rfl

/-- What one field decides is decided alike. -/
theorem rel_one (form : Form) {read? : Json → Option α}
    (decides : ∀ value other, form.read? value = form.read? other → read? value = read? other) :
    Option.Rel (AreAlike [(name, form)]) values others →
    (match values with
      | some [value] => read? value
      | _ => none) =
    match others with
      | some [value] => read? value
      | _ => none := by
  rintro (@⟨_, _, _ | ⟨same, ⟨⟩⟩⟩ | _)
  · exact decides _ _ same
  · rfl

theorem plain?_congr (action : Action)
    (alike : Option.Rel (AreAlike [("cache_name", string)]) (fields? ["cache_name"] body)
      (fields? ["cache_name"] other)) : Request.plain? action body = Request.plain? action other :=
  rel_one string (fun _ _ same => congrArg (Option.map _) same) alike

theorem withField?_congr (form : Form) {action? : Json → Option Action}
    (decides : ∀ value other, form.read? value = form.read? other → action? value = action? other)
    (alike : Option.Rel (AreAlike [("cache_name", string), (name, form)])
      (fields? ["cache_name", name] body) (fields? ["cache_name", name] other)) :
    Request.withField? name action? body = Request.withField? name action? other := by
  rw [Request.withField?, Request.withField?]
  generalize fields? ["cache_name", name] body = values at alike
  generalize fields? ["cache_name", name] other = others at alike
  rcases alike with @⟨_, _, _ | ⟨cache, _ | ⟨same, ⟨⟩⟩⟩⟩ | _
  · dsimp only
    have cache : Json.string? _ = Json.string? _ := cache
    rw [cache, decides _ _ same]
  · rfl

end

section
variable {tag : String} {body other document changed : Json}

theorem message_of_unknown (unknown : tag ∉ message.tags)
    (named : variant? document = some (tag, body)) : Message.ofJson? document = none := by
  rw [Message.ofJson?, named]
  split
  case h_4 => rfl
  all_goals
    rename_i eq
    cases eq
    exact absurd (by decide) unknown

theorem request_of_unknown (unknown : tag ∉ request.tags)
    (named : variant? document = some (tag, body)) : Request.ofJson? document = none := by
  rw [Request.ofJson?, named]
  split
  case h_8 => rfl
  all_goals
    rename_i eq
    cases eq
    exact absurd (by decide) unknown

theorem response_of_unknown (unknown : tag ∉ response.tags)
    (named : variant? document = some (tag, body)) : Response.ofJson? document = none := by
  rw [Response.ofJson?, named]
  split
  case h_6 => rfl
  all_goals
    rename_i eq
    cases eq
    exact absurd (by decide) unknown

/-- A record of no known variant is not read. -/
theorem read?_of_unknown {form : Form} (unknown : tag ∉ form.tags)
    (named : form.body? document = some (tag, body)) : form.read? document = none := by
  cases form with
  | string | bool | int64 | byte | list | ignored => cases named
  | element =>
    cases named
    exact absurd List.mem_cons_self unknown
  | message => exact message_of_unknown unknown named
  | request => exact request_of_unknown unknown named
  | response => exact response_of_unknown unknown named

/-! ## Alike fields -/

theorem element_congr (alike : element.BodiesAlike "" body other) :
    Element.ofJson? body = Element.ofJson? other := by
  rw [Element.ofJson?, Element.ofJson?]
  change Option.Rel (AreAlike [("key", string), ("value", list byte), ("version", int64),
    ("creationTime", int64)]) (fields? ["key", "value", "version", "creationTime"] body)
    (fields? ["key", "value", "version", "creationTime"] other) at alike
  generalize fields? ["key", "value", "version", "creationTime"] body = values at alike
  generalize fields? ["key", "value", "version", "creationTime"] other = others at alike
  rcases alike with @⟨_, _, _ | ⟨key, _ | ⟨value, _ | ⟨version, _ | ⟨time, ⟨⟩⟩⟩⟩⟩⟩ | _
  · have key : Json.string? _ = Json.string? _ := key
    have value : Wire.list? Wire.byte? _ = Wire.list? Wire.byte? _ := value
    have version : Wire.int64? _ = Wire.int64? _ := version
    have time : Wire.int64? _ = Wire.int64? _ := time
    dsimp only
    rw [key, value, version, time]
  · rfl

theorem message_congr (known : tag ∈ message.tags) (named : variant? document = some (tag, body))
    (renamed : variant? changed = some (tag, other))
    (alike : message.BodiesAlike tag body other) :
    Message.ofJson? document = Message.ofJson? changed := by
  rw [Message.ofJson?, Message.ofJson?, named, renamed]
  simp only [tags, List.mem_cons, List.not_mem_nil, or_false] at known
  rcases known with rfl | rfl | rfl
  · exact rel_one element (fun _ _ same => congrArg (Option.map Message.put) same) alike
  · exact rel_one string (fun _ _ same => congrArg (Option.map Message.remove) same) alike
  · exact congrArg (Option.map _) (rel_nil alike)

theorem request_congr (known : tag ∈ request.tags) (named : variant? document = some (tag, body))
    (renamed : variant? changed = some (tag, other))
    (alike : request.BodiesAlike tag body other) :
    Request.ofJson? document = Request.ofJson? changed := by
  rw [Request.ofJson?, Request.ofJson?, named, renamed]
  simp only [tags, List.mem_cons, List.not_mem_nil, or_false] at known
  rcases known with rfl | rfl | rfl | rfl | rfl | rfl | rfl
  · exact plain?_congr _ alike
  · exact withField?_congr element (fun _ _ same => congrArg (Option.map Action.put) same) alike
  · exact withField?_congr string (fun _ _ same => congrArg (Option.map Action.remove) same) alike
  · exact plain?_congr _ alike
  · exact withField?_congr (list message) (fun _ _ same => congrArg (Option.map Action.send) same)
      alike
  · exact plain?_congr _ alike
  · exact withField?_congr (list string)
      (fun _ _ same => congrArg (Option.map Action.getElements) same) alike

theorem response_congr (known : tag ∈ response.tags) (named : variant? document = some (tag, body))
    (renamed : variant? changed = some (tag, other))
    (alike : response.BodiesAlike tag body other) :
    Response.ofJson? document = Response.ofJson? changed := by
  rw [Response.ofJson?, Response.ofJson?, named, renamed]
  simp only [tags, List.mem_cons, List.not_mem_nil, or_false] at known
  rcases known with rfl | rfl | rfl | rfl | rfl
  · exact congrArg (Option.map _) (rel_nil alike)
  · exact rel_one bool (fun _ _ same => congrArg (Option.map Response.removed) same) alike
  · exact rel_one (list string) (fun _ _ same => congrArg (Option.map Response.keys) same) alike
  · exact rel_one (list element)
      (fun _ _ same => congrArg (Option.map Response.elements) same) alike
  · exact rel_one string (fun _ _ same => congrArg (Option.map Response.error) same) alike

/-- Two documents of one variant with fields that read alike are read alike. -/
theorem read?_congr {form : Form} (named : form.body? document = some (tag, body))
    (renamed : form.body? changed = some (tag, other))
    (alike : form.BodiesAlike tag body other) :
    form.read? document = form.read? changed := by
  -- a tag that is none of the form's has no fields to compare, and is read nowhere
  by_cases known : tag ∈ form.tags
  case neg => rw [read?_of_unknown known named, read?_of_unknown known renamed]
  cases form with
  | string | bool | int64 | byte | list | ignored => cases named
  | element =>
    cases named
    cases renamed
    exact element_congr alike
  | message => exact message_congr known named renamed alike
  | request => exact request_congr known named renamed alike
  | response => exact response_congr known named renamed alike

/-! ## Fields that are read -/

theorem isSome_of_map {α β : Type} {f : α → β} {a : Option α} (read : (a.map f).isSome = true) :
    a.isSome = true := by
  rwa [Option.isSome_map] at read

/-- A single field on which all depends is read. -/
theorem areRead_one {α : Type} (name : String) (form : Form) {read? : Json → Option α}
    (needs : ∀ value, (read? value).isSome = true → (form.read? value).isSome = true)
    (values : Option (List Json)) :
    (match values with
      | some [value] => read? value
      | _ => none).isSome = true →
    ∃ list, values = some list ∧ AreRead [(name, form)] list := by
  intro read
  split at read
  next value => exact ⟨[value], rfl, .cons (needs value read) .nil⟩
  next => cases read

theorem areRead_nil (read : (fields? [] body).isSome = true) :
    ∃ list, fields? [] body = some list ∧ AreRead [] list := by
  cases body with
  | null | bool | number | string | stray => cases read
  | object members => exact ⟨[], rfl, .nil⟩
  | array values =>
    cases values with
    | nil => exact ⟨[], rfl, .nil⟩
    | cons => cases read

theorem areRead_of_plain? {action : Action} (read : (Request.plain? action body).isSome = true) :
    ∃ values, fields? ["cache_name"] body = some values ∧ AreRead [("cache_name", string)] values :=
  areRead_one "cache_name" string (fun _ => isSome_of_map) _ read

theorem areRead_of_withField? {name : String} (form : Form) {action? : Json → Option Action}
    (needs : ∀ value, (action? value).isSome = true → (form.read? value).isSome = true)
    (read : (Request.withField? name action? body).isSome = true) :
    ∃ values, fields? ["cache_name", name] body = some values ∧
      AreRead [("cache_name", string), (name, form)] values := by
  rw [Request.withField?] at read
  split at read
  next cache field found =>
    obtain ⟨value, read⟩ := Option.isSome_iff_exists.1 read
    simp only [Option.bind_eq_bind, Option.bind_eq_some_iff] at read
    obtain ⟨cache, read_cache, action, read_action, -⟩ := read
    refine ⟨_, found, .cons ?_ (.cons ?_ .nil)⟩
    · exact Option.isSome_of_eq_some read_cache
    · exact needs field (Option.isSome_of_eq_some read_action)
  next => cases read

theorem bodyRead_element (read : (Element.ofJson? body).isSome = true) :
    element.BodyRead "" body := by
  rw [Element.ofJson?] at read
  split at read
  next key value version time found =>
    obtain ⟨element, read⟩ := Option.isSome_iff_exists.1 read
    simp only [Option.bind_eq_bind, Option.bind_eq_some_iff] at read
    obtain ⟨_, key, _, value, _, version, _, time, -⟩ := read
    refine ⟨_, found, .cons ?_ (.cons ?_ (.cons ?_ (.cons ?_ .nil)))⟩
    · exact Option.isSome_of_eq_some key
    · exact Option.isSome_of_eq_some value
    · exact Option.isSome_of_eq_some version
    · exact Option.isSome_of_eq_some time
  next => cases read

theorem bodyRead_message (known : tag ∈ message.tags) (named : variant? document = some (tag, body))
    (read : (Message.ofJson? document).isSome = true) : message.BodyRead tag body := by
  rw [Message.ofJson?, named] at read
  simp only [tags, List.mem_cons, List.not_mem_nil, or_false] at known
  rcases known with rfl | rfl | rfl
  · exact areRead_one _ element (fun _ => isSome_of_map) _ read
  · exact areRead_one _ string (fun _ => isSome_of_map) _ read
  · exact areRead_nil (isSome_of_map read)

theorem bodyRead_request (known : tag ∈ request.tags) (named : variant? document = some (tag, body))
    (read : (Request.ofJson? document).isSome = true) : request.BodyRead tag body := by
  rw [Request.ofJson?, named] at read
  simp only [tags, List.mem_cons, List.not_mem_nil, or_false] at known
  rcases known with rfl | rfl | rfl | rfl | rfl | rfl | rfl
  · exact areRead_of_plain? read
  · exact areRead_of_withField? element (fun _ => isSome_of_map) read
  · exact areRead_of_withField? string (fun _ => isSome_of_map) read
  · exact areRead_of_plain? read
  · exact areRead_of_withField? (list message) (fun _ => isSome_of_map) read
  · exact areRead_of_plain? read
  · exact areRead_of_withField? (list string) (fun _ => isSome_of_map) read

theorem bodyRead_response (known : tag ∈ response.tags)
    (named : variant? document = some (tag, body))
    (read : (Response.ofJson? document).isSome = true) : response.BodyRead tag body := by
  rw [Response.ofJson?, named] at read
  simp only [tags, List.mem_cons, List.not_mem_nil, or_false] at known
  rcases known with rfl | rfl | rfl | rfl | rfl
  · exact areRead_nil (isSome_of_map read)
  · exact areRead_one _ bool (fun _ => isSome_of_map) _ read
  · exact areRead_one _ (list string) (fun _ => isSome_of_map) _ read
  · exact areRead_one _ (list element) (fun _ => isSome_of_map) _ read
  · exact areRead_one _ string (fun _ => isSome_of_map) _ read

/-- A record that is read has a tag and all the fields of its variant. -/
theorem bodyRead_of_read? {form : Form} (named : form.body? document = some (tag, body))
    (read : (form.read? document).isSome = true) : form.BodyRead tag body := by
  by_cases known : tag ∈ form.tags
  case neg =>
    rw [read?_of_unknown known named] at read
    cases read
  cases form with
  | string | bool | int64 | byte | list | ignored => cases named
  | element =>
    cases named
    exact bodyRead_element read
  | message => exact bodyRead_message known named read
  | request => exact bodyRead_request known named read
  | response => exact bodyRead_response known named read

end

/-- A form of which the documents are records. -/
def IsRecord : Form → Prop
  | element | message | request | response => True
  | _ => False

theorem read?_of_untagged {form : Form} {document : Json} (record : form.IsRecord)
    (untagged : form.body? document = none) : form.read? document = none := by
  cases form with
  | string | bool | int64 | byte | list | ignored => exact record.elim
  | element => cases untagged
  | message =>
    change Message.ofJson? document = none
    rw [Message.ofJson?, (show variant? document = none from untagged)]
  | request =>
    change Request.ofJson? document = none
    rw [Request.ofJson?, (show variant? document = none from untagged)]
  | response =>
    change Response.ofJson? document = none
    rw [Response.ofJson?, (show variant? document = none from untagged)]

/-! ## Members of an object -/

theorem nodup_fieldsOf (form : Form) (tag : String) : ((form.fieldsOf tag).map Prod.fst).Nodup := by
  unfold fieldsOf
  split <;> decide

theorem ne_type_of_mem_fieldsOf {form : Form} {tag : String} {field : String × Form}
    (mem : field ∈ form.fieldsOf tag) : field.1 ≠ "type" := by
  have untyped : "type" ∉ (form.fieldsOf tag).map Prod.fst := by
    unfold fieldsOf
    split <;> decide
  exact fun eq => untyped (List.mem_map.2 ⟨field, mem, eq⟩)

section
variable {form : Form} {tag name : String} {body value other : Json}
  {members others before after : List (String × Json)} {field : String × Form}

/-- The fields of a record in an object are the members that its tag is not among. -/
theorem body?_object (named : form.body? (.object members) = some (tag, body)) :
    ∃ own, body = .object own ∧
      ∀ field ∈ form.fieldsOf tag, once? field.1 own = once? field.1 members := by
  have variant {form : Form} (named : variant? (.object members) = some (tag, body)) :
      ∃ own, body = .object own ∧
        ∀ field ∈ form.fieldsOf tag, once? field.1 own = once? field.1 members := by
    rw [Json.variant?_object] at named
    obtain ⟨found, -, eq⟩ := Option.map_eq_some_iff.1 named
    cases eq
    exact ⟨_, rfl, fun field mem => Json.once?_filter_ne (ne_type_of_mem_fieldsOf mem)⟩
  cases form with
  | string | bool | int64 | byte | list | ignored => cases named
  | element =>
    cases named
    exact ⟨members, rfl, fun _ _ => rfl⟩
  | message | request | response => exact variant named

/-- Two objects that name the same variant are records of the same fields. -/
theorem body?_eq_none_or (form : Form) (tags : Json.tag? members = Json.tag? others) :
    (form.body? (.object members) = none ∧ form.body? (.object others) = none) ∨
      ∃ tag body other, form.body? (.object members) = some (tag, body) ∧
        form.body? (.object others) = some (tag, other) := by
  have variant : (variant? (.object members) = none ∧ variant? (.object others) = none) ∨
      ∃ tag body other, variant? (.object members) = some (tag, body) ∧
        variant? (.object others) = some (tag, other) := by
    rw [Json.variant?_object, Json.variant?_object, tags]
    rcases Json.tag? others with _ | tag
    · exact .inl ⟨rfl, rfl⟩
    · exact .inr ⟨tag, _, _, rfl, rfl⟩
  cases form with
  | string | bool | int64 | byte | list | ignored => exact .inl ⟨rfl, rfl⟩
  | element => exact .inr ⟨_, _, _, rfl, rfl⟩
  | message | request | response => exact variant

theorem fields_eq_of_tags (form : Form) (tags : Json.tag? members = Json.tag? others) :
    form.fields (.object members) = form.fields (.object others) := by
  unfold fields
  rcases body?_eq_none_or form tags with ⟨none, none'⟩ | ⟨tag, body, other, some, some'⟩
  · rw [none, none']
  · rw [some, some']
    rfl

/-- What is found for a field is read alike, or there is nothing for it twice. -/
def FoundAlike (form : Form) : Option Json → Option Json → Prop :=
  Option.Rel fun value other => form.read? value = form.read? other

theorem foundAlike_refl (form : Form) (found : Option Json) : form.FoundAlike found found := by
  cases found with
  | none => exact .none
  | some value => exact .some rfl

theorem rel_mapM {fields : List (String × Form)} {first second : String → Option Json}
    (alike : ∀ field ∈ fields, field.2.FoundAlike (first field.1) (second field.1)) :
    Option.Rel (AreAlike fields) ((fields.map Prod.fst).mapM first)
      ((fields.map Prod.fst).mapM second) := by
  induction fields with
  | nil => exact .some .nil
  | cons field fields ih =>
    obtain ⟨here, later⟩ := List.forall_mem_cons.1 alike
    rw [List.map_cons, List.mapM_cons, List.mapM_cons]
    generalize first field.1 = value at here
    generalize second field.1 = other at here
    rcases here with same | _
    · generalize (fields.map Prod.fst).mapM first = values at ih
      generalize (fields.map Prod.fst).mapM second = others at ih
      rcases ih later with rest | _
      · exact .some (.cons same rest)
      · exact .none
    · exact .none

theorem exists_of_mapM {fields : List (String × Form)} {find : String → Option Json}
    {values : List Json} (found : (fields.map Prod.fst).mapM find = some values)
    (read : AreRead fields values) :
    ∀ field ∈ fields, ∃ value, find field.1 = some value ∧ (field.2.read? value).isSome = true := by
  induction fields generalizing values with
  | nil => nofun
  | cons field fields ih =>
    rw [List.map_cons, List.mapM_cons] at found
    simp only [Option.bind_eq_bind, Option.bind_eq_some_iff] at found
    obtain ⟨value, first, rest, later, eq⟩ := found
    cases eq
    cases read with
    | cons here read => exact List.forall_mem_cons.2 ⟨⟨value, first, here⟩, ih later read⟩

/-- Objects with the same variant and fields that read alike are read alike. -/
theorem read?_object_congr (tags : Json.tag? members = Json.tag? others)
    (alike : ∀ field ∈ form.fields (.object members),
      field.2.FoundAlike (once? field.1 members) (once? field.1 others)) :
    form.read? (.object members) = form.read? (.object others) := by
  by_cases record : form.IsRecord
  case neg => cases form <;> first | rfl | exact absurd trivial record
  rcases body?_eq_none_or form tags with ⟨none, none'⟩ | ⟨tag, body, other, named, renamed⟩
  · rw [read?_of_untagged record none, read?_of_untagged record none']
  · refine read?_congr named renamed ?_
    have fields : form.fields (.object members) = form.fieldsOf tag := by
      rw [Form.fields, named]
      rfl
    obtain ⟨own, rfl, same⟩ := body?_object named
    obtain ⟨own', rfl, same'⟩ := body?_object renamed
    refine rel_mapM fun field mem => ?_
    rw [same field mem, same' field mem]
    exact alike field (fields ▸ mem)

/-- An object that is read has each field of its own once, with a value that is read. -/
theorem exists_once? (read : (form.read? (.object members)).isSome = true)
    (mem : field ∈ form.fields (.object members)) :
    ∃ value, once? field.1 members = some value ∧ (field.2.read? value).isSome = true := by
  rcases named : form.body? (.object members) with _ | ⟨tag, body⟩
  · rw [Form.fields, named] at mem
    cases mem
  · rw [Form.fields, named] at mem
    obtain ⟨values, found, read⟩ := bodyRead_of_read? named read
    obtain ⟨own, rfl, same⟩ := body?_object named
    rw [← same field mem]
    exact exists_of_mapM found read field mem

theorem tag?_insert_of_ne (ne : name ≠ "type") (value : Json) :
    Json.tag? (before ++ (name, value) :: after) = Json.tag? (before ++ after) := by
  rw [Json.tag?, Json.tag?, Json.once?_insert_of_ne ne]

theorem tag?_member (same : Json.string? value = Json.string? other) (name : String) :
    Json.tag? (before ++ (name, value) :: after) =
      Json.tag? (before ++ (name, other) :: after) := by
  by_cases type : name = "type"
  · subst type
    rw [Json.tag?, Json.tag?, Json.once?_insert, Json.once?_insert]
    split
    · rfl
    · exact same
  · rw [tag?_insert_of_ne type, tag?_insert_of_ne type]

theorem memberForm_of_mem (mem : field ∈ form.fields (.object members)) :
    form.memberForm (.object members) field.1 = field.2 := by
  have once : ((form.fields (.object members)).map Prod.fst).Nodup := by
    unfold fields
    cases form.body? (.object members) with
    | none => exact List.nodup_nil
    | some => exact nodup_fieldsOf _ _
  rw [memberForm, Table.lookup_of_mem once mem, Option.getD_some]

theorem ne_type_of_mem_fields {document : Json} (mem : field ∈ form.fields document) :
    field.1 ≠ "type" := by
  unfold fields at mem
  cases named : form.body? document with
  | none =>
    rw [named] at mem
    cases mem
  | some =>
    rw [named] at mem
    exact ne_type_of_mem_fieldsOf mem

theorem read?_member_congr (same : Json.string? value = Json.string? other)
    (alike : (form.memberForm (.object (before ++ (name, value) :: after)) name).read? value =
      (form.memberForm (.object (before ++ (name, value) :: after)) name).read? other) :
    form.read? (.object (before ++ (name, value) :: after)) =
      form.read? (.object (before ++ (name, other) :: after)) := by
  refine read?_object_congr (tag?_member same name) fun field mem => ?_
  by_cases here : field.1 = name
  · -- a second member of the name leaves none for the field, whatever this one holds
    subst here
    rw [Json.once?_insert, Json.once?_insert]
    rw [memberForm_of_mem mem] at alike
    split
    · exact .none
    · exact .some alike
  · rw [Json.once?_insert_of_ne (Ne.symm here), Json.once?_insert_of_ne (Ne.symm here)]
    rcases once? field.1 (before ++ after) with _ | found
    · exact .none
    · exact .some rfl

/-- A member of an object that is read is read where it is looked at. -/
theorem isSome_member
    (read : (form.read? (.object (before ++ (name, value) :: after))).isSome = true) :
    ((form.memberForm (.object (before ++ (name, value) :: after)) name).read? value).isSome =
      true := by
  rw [memberForm]
  rcases found : (form.fields (.object (before ++ (name, value) :: after))).lookup name with _ | own
  · rfl
  · obtain ⟨earlier, later, fields, -⟩ := List.lookup_eq_some_iff.1 found
    have mem : (name, own) ∈ form.fields (.object (before ++ (name, value) :: after)) := by
      rw [fields]
      exact List.mem_append_right _ List.mem_cons_self
    obtain ⟨only, once, read⟩ := exists_once? read mem
    rw [Json.once?_insert] at once
    split at once
    · cases once
    · cases once
      exact read

/-- The name of a member decides how it is read, whatever it holds. -/
theorem memberForm_member (form : Form) (name : String) (value other : Json)
    (before after : List (String × Json)) :
    form.memberForm (.object (before ++ (name, value) :: after)) name =
      form.memberForm (.object (before ++ (name, other) :: after)) name := by
  by_cases type : name = "type"
  · have unnamed (members : List (String × Json)) :
        (form.fields (.object members)).lookup name = none :=
      List.lookup_eq_none_iff.2 fun field mem =>
        bne_iff_ne.2 fun eq => ne_type_of_mem_fields mem (eq ▸ type)
    rw [memberForm, memberForm, unnamed, unnamed]
  · have tags : Json.tag? (before ++ (name, value) :: after) =
        Json.tag? (before ++ (name, other) :: after) := by
      rw [tag?_insert_of_ne type, tag?_insert_of_ne type]
    rw [memberForm, memberForm, fields_eq_of_tags form tags]

theorem read?_member_eq_none
    (unread :
      (form.memberForm (.object (before ++ (name, value) :: after)) name).read? other = none) :
    form.read? (.object (before ++ (name, other) :: after)) = none := by
  by_contra read
  rw [memberForm_member form name value other] at unread
  have read := isSome_member (Option.isSome_iff_ne_none.2 read)
  rw [unread] at read
  cases read

end

/-! ## Entries of an array -/

section
variable {form : Form} {tag : String} {value other : Json} {before after : List Json}

theorem areAlike_replace {fields : List (String × Form)}
    (length : fields.length = (before ++ value :: after).length)
    (alike : ((fields[before.length]?).elim ignored Prod.snd).read? value =
      ((fields[before.length]?).elim ignored Prod.snd).read? other) :
    AreAlike fields (before ++ value :: after) (before ++ other :: after) := by
  have rest {fields : List (String × Form)} {values : List Json}
      (length : fields.length = values.length) : AreAlike fields values values := by
    induction fields generalizing values with
    | nil =>
      obtain rfl := List.length_eq_zero_iff.1 length.symm
      exact .nil
    | cons field fields ih =>
      cases values with
      | nil => cases length
      | cons value values => exact .cons rfl (ih (Nat.succ.inj length))
  induction before generalizing fields with
  | nil =>
    cases fields with
    | nil => cases length
    | cons field fields => exact .cons alike (rest (Nat.succ.inj length))
  | cons first before ih =>
    cases fields with
    | nil => cases length
    | cons field fields => exact .cons rfl (ih (Nat.succ.inj length) alike)

theorem isSome_of_areRead {fields : List (String × Form)}
    (read : AreRead fields (before ++ value :: after)) :
    (((fields[before.length]?).elim ignored Prod.snd).read? value).isSome = true := by
  induction before generalizing fields with
  | nil =>
    cases read with
    | cons here _ => exact here
  | cons first before ih =>
    cases read with
    | cons _ read => exact ih read

theorem contents?_array_congr
    (alike : (((form.fieldsOf tag)[before.length]?).elim ignored Prod.snd).read? value =
      (((form.fieldsOf tag)[before.length]?).elim ignored Prod.snd).read? other) :
    form.BodiesAlike tag (.array (before ++ value :: after))
      (.array (before ++ other :: after)) := by
  rw [BodiesAlike, contents?, contents?, fields?, fields?]
  by_cases length : (before ++ value :: after).length = ((form.fieldsOf tag).map Prod.fst).length
  · rw [if_pos length, if_pos (by simpa using length)]
    exact .some (areAlike_replace (by simpa using length.symm) alike)
  · rw [if_neg length, if_neg (by simpa using length)]
    exact .none

theorem list?_congr {α : Type} {read? : Json → Option α} (alike : read? value = read? other) :
    list? read? (.array (before ++ value :: after)) =
      list? read? (.array (before ++ other :: after)) := by
  rw [list?, list?, List.mapM_append, List.mapM_append, List.mapM_cons, List.mapM_cons, alike]

theorem isSome_of_list? {α : Type} {read? : Json → Option α}
    (read : (list? read? (.array (before ++ value :: after))).isSome = true) :
    (read? value).isSome = true := by
  rw [list?, List.mapM_append, List.mapM_cons] at read
  rcases here : read? value with _ | found
  · rw [here] at read
    cases earlier : before.mapM read? <;> rw [earlier] at read <;> cases read
  · rfl

/-- The tag of an array is its first entry. -/
theorem variant?_array (first : Json) (values : List Json) :
    variant? (.array (first :: values)) =
      (Json.string? first).map fun tag => (tag, .array values) := by
  cases first <;> rfl

/-- The forms with a tag. -/
def IsTagged : Form → Prop
  | message | request | response => True
  | _ => False

theorem IsTagged.isRecord (tagged : form.IsTagged) : form.IsRecord := by
  cases form <;> trivial

theorem IsTagged.body?_eq (tagged : form.IsTagged) (document : Json) :
    form.body? document = variant? document := by
  cases form <;> first | rfl | exact tagged.elim

theorem IsTagged.itemForm_zero (tagged : form.IsTagged) (document : Json) :
    form.itemForm document 0 = ignored := by
  cases form <;> first | rfl | exact tagged.elim

theorem IsTagged.itemForm_succ (tagged : form.IsTagged) (first : Json) (values : List Json)
    (i : Nat) :
    form.itemForm (.array (first :: values)) (i + 1) =
      (((Json.string? first).elim [] form.fieldsOf)[i]?).elim ignored Prod.snd := by
  have fields : form.fields (.array (first :: values)) =
      (Json.string? first).elim [] form.fieldsOf := by
    rw [Form.fields, tagged.body?_eq, variant?_array]
    cases Json.string? first <;> rfl
  rw [← fields]
  cases form <;> first | rfl | exact tagged.elim

/-- Arrays with tags that are none are read as no record. -/
theorem IsTagged.read?_array (tagged : form.IsTagged) {first : Json}
    (untagged : Json.string? first = none) (values : List Json) :
    form.read? (.array (first :: values)) = none := by
  refine read?_of_untagged tagged.isRecord ?_
  rw [tagged.body?_eq, variant?_array, untagged]
  rfl

theorem IsTagged.read?_item_congr (tagged : form.IsTagged)
    (tags : Json.string? value = Json.string? other)
    (alike : (form.itemForm (.array (before ++ value :: after)) before.length).read? value =
      (form.itemForm (.array (before ++ value :: after)) before.length).read? other) :
    form.read? (.array (before ++ value :: after)) =
      form.read? (.array (before ++ other :: after)) := by
  cases before with
  | nil =>
    -- the entry is the tag, so that it is the same or the array is read as nothing
    rcases tag : Json.string? value with _ | s
    · exact (tagged.read?_array tag after).trans (tagged.read?_array (tags ▸ tag) after).symm
    · have eq : other = .string s := Json.eq_of_string? (tags ▸ tag)
      rw [Json.eq_of_string? tag, eq]
  | cons first before =>
    rcases tag : Json.string? first with _ | s
    · exact (tagged.read?_array tag _).trans (tagged.read?_array tag _).symm
    · obtain rfl := Json.eq_of_string? tag
      have named (values : List Json) :
          form.body? (.array (.string s :: values)) = some (s, .array values) := tagged.body?_eq _
      rw [List.cons_append, List.length_cons, tagged.itemForm_succ] at alike
      exact read?_congr (named _) (named _) (contents?_array_congr alike)

theorem read?_item_congr (tags : Json.string? value = Json.string? other)
    (alike : (form.itemForm (.array (before ++ value :: after)) before.length).read? value =
      (form.itemForm (.array (before ++ value :: after)) before.length).read? other) :
    form.read? (.array (before ++ value :: after)) =
      form.read? (.array (before ++ other :: after)) := by
  cases form with
  | string | bool | int64 | byte | ignored => rfl
  | list form => exact list?_congr alike
  | element =>
    have named (values : List Json) : element.body? (.array values) = some ("", .array values) :=
      rfl
    exact read?_congr (named _) (named _) (contents?_array_congr alike)
  | message | request | response => exact IsTagged.read?_item_congr trivial tags alike

theorem isSome_of_bodyRead (read : form.BodyRead tag (.array (before ++ value :: after))) :
    ((((form.fieldsOf tag)[before.length]?).elim ignored Prod.snd).read? value).isSome = true := by
  obtain ⟨values, found, read⟩ := read
  rw [contents?, fields?] at found
  split at found
  · cases found
    exact isSome_of_areRead read
  · cases found

theorem IsTagged.isSome_item (tagged : form.IsTagged)
    (read : (form.read? (.array (before ++ value :: after))).isSome = true) :
    ((form.itemForm (.array (before ++ value :: after)) before.length).read? value).isSome =
      true := by
  cases before with
  | nil =>
    rw [List.length_nil, tagged.itemForm_zero]
    rfl
  | cons first before =>
    rcases tag : Json.string? first with _ | s
    · rw [List.cons_append, tagged.read?_array tag] at read
      cases read
    · obtain rfl := Json.eq_of_string? tag
      rw [List.cons_append, List.length_cons, tagged.itemForm_succ]
      exact isSome_of_bodyRead (bodyRead_of_read? (tagged.body?_eq _) read)

/-- An entry of an array that is read is read where it is looked at. -/
theorem isSome_item (read : (form.read? (.array (before ++ value :: after))).isSome = true) :
    ((form.itemForm (.array (before ++ value :: after)) before.length).read? value).isSome =
      true := by
  cases form with
  | string | bool | int64 | byte => cases read
  | ignored => rfl
  | list form => exact isSome_of_list? read
  | element =>
    have named (values : List Json) : element.body? (.array values) = some ("", .array values) :=
      rfl
    exact isSome_of_bodyRead (bodyRead_of_read? (named _) read)
  | message | request | response => exact IsTagged.isSome_item trivial read

theorem itemForm_item (form : Form) (value other : Json) (before after : List Json) :
    form.itemForm (.array (before ++ value :: after)) before.length =
      form.itemForm (.array (before ++ other :: after)) before.length := by
  have tagged {form : Form} (tagged : form.IsTagged) :
      form.itemForm (.array (before ++ value :: after)) before.length =
        form.itemForm (.array (before ++ other :: after)) before.length := by
    cases before with
    | nil => rw [List.length_nil, tagged.itemForm_zero, tagged.itemForm_zero]
    | cons first before =>
      rw [List.cons_append, List.cons_append, List.length_cons, tagged.itemForm_succ,
        tagged.itemForm_succ]
  cases form with
  | string | bool | int64 | byte | list | ignored | element => rfl
  | message | request | response => exact tagged trivial

theorem read?_item_eq_none
    (unread :
      (form.itemForm (.array (before ++ value :: after)) before.length).read? other = none) :
    form.read? (.array (before ++ other :: after)) = none := by
  by_contra read
  rw [itemForm_item form value other] at unread
  have read := isSome_item (Option.isSome_iff_ne_none.2 read)
  rw [unread] at read
  cases read

end

end Form

end Wire

end CacheCluster
