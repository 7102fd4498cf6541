import CacheCluster.Wire.Frame
import CacheCluster.Proofs.JsonReading

/-! # Requests and responses over a stream

The document of a request or response is sound and reads as the value it is made from. Framing keeps
texts apart: frames behind one another are read back in order, and nothing behind them is touched.
-/

namespace CacheCluster

/-! ## Integers are within range -/

namespace Decimal.Binary64

/-- A fraction below 2 ^ 64 is rounded with a small exponent. -/
theorem ofRatio_ne_infinity (negative sign : Bool) {num : Nat} (small : num < 2 ^ 64) (den : Nat) :
    ofRatio negative num den ≠ .infinity sign := by
  unfold ofRatio
  split
  next => exact fun h => by cases h
  next nonzero =>
    have bits : num.log2 < 64 := (Nat.log2_lt (fun zero => nonzero (.inl zero))).2 small
    have least : leastExponent = -1074 := rfl
    have greatest : greatestExponent = 971 := rfl
    dsimp only
    split
    all_goals
      split
      all_goals
        rw [if_neg (by dsimp only; omega)]
        exact fun h => by cases h

theorem ofDecimal_ne_infinity (negative sign : Bool) {n : Nat} (small : n < 2 ^ 64) :
    ofDecimal negative n 0 ≠ .infinity sign := by
  have length : (Nat.toDigits 10 n).length ≤ 20 :=
    (Nat.length_toDigits_le_iff (by decide) (by decide)).2 (by omega)
  unfold ofDecimal
  split
  next => exact fun h => by cases h
  next =>
    dsimp only
    rw [if_neg (by omega)]
    split
    next => exact fun h => by cases h
    next =>
      refine ofRatio_ne_infinity negative sign ?_ _
      simpa using small

end Decimal.Binary64

namespace Json

theorem isFinite_integer {i : Int} (small : i.natAbs < 2 ^ 64) :
    (Number.integer i).isFinite = true := by
  rw [Number.isFinite, Bool.not_eq_true', Number.isFinite.isInfinite]
  exact fun sign => Decimal.Binary64.ofDecimal_ne_infinity _ sign small

theorem areSound_iff {levels : Nat} {values : List Json} :
    areSound levels values = true ↔ ∀ value ∈ values, value.isSound levels = true := by
  induction values with
  | nil => simp [areSound]
  | cons value values ih => simp [areSound, ih]

theorem areSoundMembers_iff {levels : Nat} {members : List (String × Json)} :
    areSoundMembers levels members = true ↔
      ∀ member ∈ members, member.2.isSound levels = true := by
  induction members with
  | nil => simp [areSoundMembers]
  | cons member members ih => simp [areSoundMembers, ih]

/-- A list of documents that are each sound. -/
theorem isSound_array_map {α : Type} {levels : Nat} {toJson : α → Json} (values : List α)
    (sound : ∀ value, (toJson value).isSound levels = true) :
    (array (values.map toJson)).isSound (levels + 1) = true := by
  rw [isSound, areSound_iff]
  intro document mem
  obtain ⟨value, -, rfl⟩ := List.mem_map.1 mem
  exact sound value

end Json

namespace Wire

open Json

theorem list?_map {α : Type} {read? : Json → Option α} {toJson : α → Json}
    (reads : ∀ value, read? (toJson value) = some value) (values : List α) :
    list? read? (.array (values.map toJson)) = some values := by
  rw [list?]
  induction values with
  | nil => rfl
  | cons value values ih =>
    rw [List.map_cons, List.mapM_cons, reads, ih]
    rfl

theorem list?_ofStrings (values : List String) :
    list? Json.string? (ofStrings values) = some values :=
  list?_map (fun value => (rfl : Json.string? (.string value) = some value)) values

theorem int64?_toInt (n : Int64) : int64? (.number (.integer n.toInt)) = some n := by
  have fits : Decimal.fitsInt64 n.toInt = true := by
    have low := n.le_toInt
    have high := n.toInt_lt
    simp only [Decimal.fitsInt64, Bool.and_eq_true, decide_eq_true_eq]
    exact ⟨low, Int.le_of_lt_add_one high⟩
  rw [int64?, if_pos fits, Int64.ofInt_toInt]

theorem byte?_toNat (b : UInt8) : byte? (.number (.integer b.toNat)) = some b := by
  have := b.toNat_lt
  rw [byte?, if_pos (by omega), Int.toNat_natCast, UInt8.ofNat_toNat]

theorem isSound_int64 (levels : Nat) (n : Int64) :
    (number (.integer n.toInt)).isSound levels = true := by
  have := n.le_toInt
  have := n.toInt_lt
  exact isFinite_integer (by omega)

theorem isSound_byte (levels : Nat) (b : UInt8) :
    (number (.integer b.toNat)).isSound levels = true := by
  have := b.toNat_lt
  exact isFinite_integer (by omega)

theorem isSound_ofStrings (levels : Nat) (values : List String) :
    (ofStrings values).isSound (levels + 1) = true :=
  isSound_array_map values fun _ => rfl

theorem isSound_tagged {levels : Nat} (tag : String) {fields : List (String × Json)}
    (sound : ∀ field ∈ fields, field.2.isSound levels = true) :
    (tagged tag fields).isSound (levels + 1) = true := by
  rw [tagged, isSound, areSoundMembers_iff, List.forall_mem_cons]
  exact ⟨rfl, sound⟩

theorem variant?_tagged (tag : String) {fields : List (String × Json)}
    (untagged : ∀ field ∈ fields, field.1 ≠ "type") :
    variant? (tagged tag fields) = some (tag, .object fields) := by
  have none : fields.filter (·.1 = "type") = [] := by
    rw [List.filter_eq_nil_iff]
    intro field mem
    simpa using untagged field mem
  have all : fields.filter (·.1 ≠ "type") = fields := by
    rw [List.filter_eq_self]
    intro field mem
    simpa using untagged field mem
  rw [tagged, variant?, once?, List.filter_cons_of_pos (by simp), none]
  dsimp only
  rw [List.filter_cons_of_neg (by simp), all]

theorem taggedText?_render {document : Json} (sound : document.isSound maxLevels = true) :
    taggedText? document.render = some document := by
  rw [taggedText?, parse?_render sound, Option.filter_some, if_pos sound]

end Wire

namespace Element

theorem isSound_toJson (element : Element) (levels : Nat) :
    element.toJson.isSound (levels + 2) = true := by
  rw [toJson, Json.isSound, Json.areSoundMembers_iff]
  simp only [List.forall_mem_cons]
  refine ⟨rfl, ?_, Wire.isSound_int64 _ _, Wire.isSound_int64 _ _, by simp⟩
  exact Json.isSound_array_map element.value (Wire.isSound_byte levels)

theorem ofJson?_toJson (element : Element) : ofJson? element.toJson = some element := by
  have fields : Wire.fields? ["key", "value", "version", "creationTime"] element.toJson =
      some [.string element.key, .array (element.value.map fun b => .number (.integer b.toNat)),
        .number (.integer element.version.toInt),
        .number (.integer element.creationTime.toInt)] := by
    simp [toJson, Wire.fields?, Json.once?]
  rw [ofJson?, fields]
  simp [Json.string?, Wire.list?_map Wire.byte?_toNat, Wire.int64?_toInt]

end Element

namespace Message

theorem isSound_toJson (message : Message) (levels : Nat) :
    message.toJson.isSound (levels + 3) = true := by
  cases message with
  | put element => exact Wire.isSound_tagged _ (by simp [element.isSound_toJson])
  | remove key => exact Wire.isSound_tagged _ (by simp [Json.isSound])
  | removeAll => exact Wire.isSound_tagged _ (by simp)

theorem ofJson?_toJson (message : Message) : ofJson? message.toJson = some message := by
  cases message with
  | put element =>
    rw [toJson, ofJson?, Wire.variant?_tagged _ (by simp)]
    simp [Wire.fields?, Json.once?, element.ofJson?_toJson]
  | remove key =>
    rw [toJson, ofJson?, Wire.variant?_tagged _ (by simp)]
    simp [Wire.fields?, Json.once?, Json.string?]
  | removeAll =>
    rw [toJson, ofJson?, Wire.variant?_tagged _ (by simp)]
    simp [Wire.fields?]

end Message

namespace Request

theorem isSound_toJson (request : Request) (levels : Nat) :
    request.toJson.isSound (levels + 5) = true := by
  obtain ⟨cache, action⟩ := request
  cases action with
  | ping | removeAll | keys => exact Wire.isSound_tagged _ (by simp [Json.isSound])
  | remove key => exact Wire.isSound_tagged _ (by simp [Json.isSound])
  | put element =>
    exact Wire.isSound_tagged _ (by simp [Json.isSound, element.isSound_toJson])
  | send messages =>
    have sound := Json.isSound_array_map messages fun message => message.isSound_toJson levels
    refine Wire.isSound_tagged _ ?_
    simp only [List.forall_mem_cons]
    exact ⟨rfl, sound, by simp⟩
  | getElements names =>
    exact Wire.isSound_tagged _ (by simp [Json.isSound, Wire.isSound_ofStrings])

theorem ofJson?_toJson (request : Request) : ofJson? request.toJson = some request := by
  obtain ⟨cache, action⟩ := request
  cases action with
  | ping | removeAll | keys =>
    rw [toJson, Action.shape, ofJson?, Wire.variant?_tagged _ (by simp)]
    simp [plain?, Wire.fields?, Json.once?, Json.string?]
  | put element =>
    rw [toJson, Action.shape, ofJson?, Wire.variant?_tagged _ (by simp)]
    simp [withField?, Wire.fields?, Json.once?, Json.string?, element.ofJson?_toJson]
  | remove key =>
    rw [toJson, Action.shape, ofJson?, Wire.variant?_tagged _ (by simp)]
    simp [withField?, Wire.fields?, Json.once?, Json.string?]
  | send messages =>
    rw [toJson, Action.shape, ofJson?, Wire.variant?_tagged _ (by simp)]
    simp [withField?, Wire.fields?, Json.once?, Json.string?, Wire.list?_map Message.ofJson?_toJson]
  | getElements names =>
    rw [toJson, Action.shape, ofJson?, Wire.variant?_tagged _ (by simp)]
    simp [withField?, Wire.fields?, Json.once?, Json.string?, Wire.list?_ofStrings]

theorem decode?_encode (request : Request) : decode? request.encode = some request := by
  rw [decode?, encode, Wire.taggedText?_render (isSound_toJson request 122), Option.bind_some,
    ofJson?_toJson]

end Request

namespace Response

theorem isSound_toJson (response : Response) (levels : Nat) :
    response.toJson.isSound (levels + 4) = true := by
  cases response with
  | ok => exact Wire.isSound_tagged _ (by simp)
  | removed held => exact Wire.isSound_tagged _ (by simp [Json.isSound])
  | keys names => exact Wire.isSound_tagged _ (by simp [Wire.isSound_ofStrings])
  | elements found =>
    have sound := Json.isSound_array_map found fun element => element.isSound_toJson levels
    exact Wire.isSound_tagged _ (by simp [sound])
  | error message => exact Wire.isSound_tagged _ (by simp [Json.isSound])

theorem ofJson?_toJson (response : Response) : ofJson? response.toJson = some response := by
  cases response with
  | ok =>
    rw [toJson, ofJson?, Wire.variant?_tagged _ (by simp)]
    simp [Wire.fields?]
  | removed held =>
    rw [toJson, ofJson?, Wire.variant?_tagged _ (by simp)]
    simp [withField?, Wire.fields?, Json.once?, Json.bool?]
  | keys names =>
    rw [toJson, ofJson?, Wire.variant?_tagged _ (by simp)]
    simp [withField?, Wire.fields?, Json.once?, Wire.list?_ofStrings]
  | elements found =>
    rw [toJson, ofJson?, Wire.variant?_tagged _ (by simp)]
    simp [withField?, Wire.fields?, Json.once?, Wire.list?_map Element.ofJson?_toJson]
  | error message =>
    rw [toJson, ofJson?, Wire.variant?_tagged _ (by simp)]
    simp [withField?, Wire.fields?, Json.once?, Json.string?]

theorem decode?_encode (response : Response) : decode? response.encode = some response := by
  rw [decode?, encode, Wire.taggedText?_render (isSound_toJson response 123), Option.bind_some,
    ofJson?_toJson]

end Response

/-! ## Frames -/

namespace Frame

theorem length?_lengthBytes {n : Nat} (small : n < 2 ^ 32) (stream : ByteArray) :
    length? (lengthBytes n ++ stream) = some n := by
  have size : (lengthBytes n).size = 4 := rfl
  have byte (i : Nat) (bound : i < 4) :
      (lengthBytes n ++ stream)[i]? = (lengthBytes n)[i]? := by
    rw [getElem?_pos _ _ (by rw [ByteArray.size_append]; omega), ByteArray.getElem_append_left,
      getElem?_pos _ _ (by omega)]
  have digits : ((n / 0x1000000 % 256 * 256 + n / 0x10000 % 256) * 256 + n / 0x100 % 256) * 256 +
      n % 256 = n := by omega
  rw [length?, byte 0 (by decide), byte 1 (by decide), byte 2 (by decide), byte 3 (by decide),
    getElem?_pos _ _ (by omega), getElem?_pos _ _ (by omega), getElem?_pos _ _ (by omega),
    getElem?_pos _ _ (by omega)]
  simpa [lengthBytes, ByteArray.getElem_eq_getElem_data] using digits

/-- A frame around some bytes. -/
def ofBytes (body : ByteArray) : ByteArray :=
  lengthBytes body.size ++ body

@[simp] theorem size_ofBytes (body : ByteArray) : (ofBytes body).size = 4 + body.size := by
  rw [ofBytes, ByteArray.size_append]
  rfl

/-- A frame that is written is short enough to be read. -/
theorem write_eq_ok {text : String} {frame : ByteArray} (h : write text = .ok frame) :
    text.utf8ByteSize ≤ maxBytes ∧ frame = ofBytes text.toUTF8 := by
  rw [write] at h
  split at h
  next small => exact ⟨small, (Except.ok.inj h).symm⟩
  next => cases h

variable {α : Type} {encode : α → String} {decode? : String → Option α}

/-- What is read from the bytes in a frame: a value, or that they are none. -/
def valueOf (decode? : String → Option α) (body : ByteArray) : Result α :=
  match (String.fromUTF8? body).bind decode? with
  | some value => .ok value
  | none => .error (.serialization "not a document of this type")

theorem valueOf_toUTF8 {text : String} {value : α} (decodes : decode? text = some value) :
    valueOf decode? text.toUTF8 = .ok value := by
  have text_eq : String.fromUTF8? text.toUTF8 = some text := by
    rw [String.fromUTF8?, dif_pos (show text.toUTF8.IsValidUTF8 from text.isValidUTF8)]
    rfl
  rw [valueOf, text_eq, Option.bind_some, decodes]

theorem length?_ofBytes {body : ByteArray} (small : body.size ≤ maxBytes) (rest : ByteArray) :
    length? (ofBytes body ++ rest) = some body.size := by
  have : maxBytes = 0x4000000 := rfl
  rw [ofBytes, ByteArray.append_assoc, length?_lengthBytes (by omega)]

/-- A frame is read up to its end, whatever is in it and behind it. -/
theorem read_ofBytes {body : ByteArray} (small : body.size ≤ maxBytes) (rest : ByteArray) :
    read decode? (ofBytes body ++ rest) = .frame (valueOf decode? body) rest := by
  have inside : (ofBytes body ++ rest).extract 4 (4 + body.size) = body := by
    have shifted : (lengthBytes body.size ++ (body ++ rest)).extract (4 + 0) (4 + body.size) =
        (body ++ rest).extract 0 body.size :=
      ByteArray.extract_append_size_add' rfl
    rw [ofBytes, ByteArray.append_assoc]
    exact shifted.trans (ByteArray.extract_append_eq_left rfl)
  have behind : (ofBytes body ++ rest).extract (4 + body.size) (ofBytes body ++ rest).size = rest :=
    ByteArray.extract_append_eq_right (size_ofBytes body).symm (by rw [ByteArray.size_append])
  rw [read, length?_ofBytes small]
  dsimp only
  rw [if_neg (by omega), if_neg (by rw [ByteArray.size_append, size_ofBytes]; omega), inside,
    behind]
  rfl

theorem read_append {text : String} {frame : ByteArray} {value : α}
    (written : write text = .ok frame)
    (decodes : decode? text = some value) (rest : ByteArray) :
    read decode? (frame ++ rest) = .frame (.ok value) rest := by
  obtain ⟨small, rfl⟩ := write_eq_ok written
  have whole : read decode? (ofBytes text.toUTF8 ++ rest) =
      .frame (valueOf decode? text.toUTF8) rest := read_ofBytes small rest
  rw [whole, valueOf_toUTF8 decodes]

/-- Reading frame after frame gives the values and leaves the rest of the stream. -/
inductive Reads (decode? : String → Option α) : ByteArray → List α → ByteArray → Prop
  | done (rest : ByteArray) : Reads decode? rest [] rest
  | frame {stream next rest : ByteArray} {value : α} {values : List α} :
    read decode? stream = .frame (.ok value) next → Reads decode? next values rest →
      Reads decode? stream (value :: values) rest

/-- Values survive a stream of frames. -/
structure RoundTrips (encode : α → String) (decode? : String → Option α) : Prop where
  /-- A frame is read as the value it was written for, and up to its end. -/
  reads_one : ∀ (value : α) (frame rest : ByteArray), write (encode value) = .ok frame →
    read decode? (frame ++ rest) = .frame (.ok value) rest
  /-- Values that fit are all written, and read in order whatever follows. -/
  reads_all : ∀ (values : List α) (rest : ByteArray),
    (∀ value ∈ values, (encode value).utf8ByteSize ≤ maxBytes) →
    ∃ frames, (values.mapM fun value => write (encode value)) = .ok frames ∧
      Reads decode? (frames.foldr (· ++ ·) rest) values rest
  /-- Where nothing follows, reading ends behind the last value. -/
  finishes : ∀ (values : List α) (frames : List ByteArray),
    (values.mapM fun value => write (encode value)) = .ok frames →
    readAll decode? (values.length + 1) (frames.foldr (· ++ ·) ByteArray.empty) =
      (values.map .ok, .finished)
  /-- A value that does not fit has no frame. -/
  refuses : ∀ value, maxBytes < (encode value).utf8ByteSize →
    write (encode value) = .error (.remote
      ("frame of " ++ toString (encode value).utf8ByteSize ++ " bytes is too large"))
  /-- The length in a frame is within the limit of the reader. -/
  bounded : ∀ value frame, write (encode value) = .ok frame →
    ∃ n ≤ maxBytes, length? frame = some n ∧ frame.size = 4 + n

theorem mapM_write {values : List α}
    (small : ∀ value ∈ values, (encode value).utf8ByteSize ≤ maxBytes) :
    (values.mapM fun value => write (encode value)) = .ok (values.map fun value =>
      lengthBytes (encode value).utf8ByteSize ++ (encode value).toUTF8) := by
  induction values with
  | nil => rfl
  | cons value values ih =>
    obtain ⟨first, others⟩ := List.forall_mem_cons.1 small
    have written : write (encode value) =
        .ok (lengthBytes (encode value).utf8ByteSize ++ (encode value).toUTF8) := if_pos first
    rw [List.mapM_cons, written, ih others]
    rfl

/-- What is written for a list begins with what is written for its first value. -/
theorem mapM_write_cons {value : α} {values : List α} {frames : List ByteArray}
    (h : ((value :: values).mapM fun value => write (encode value)) = .ok frames) :
    ∃ frame others, write (encode value) = .ok frame ∧
      (values.mapM fun value => write (encode value)) = .ok others ∧ frames = frame :: others := by
  rw [List.mapM_cons] at h
  rcases first : write (encode value) with error | frame
  · rw [first] at h
    cases h
  rw [first] at h
  rcases rest : values.mapM fun value => write (encode value) with error | others
  · rw [rest] at h
    cases h
  rw [rest] at h
  exact ⟨frame, others, rfl, rfl, (Except.ok.inj h).symm⟩

theorem reads_of_written (decodes : ∀ value, decode? (encode value) = some value) {values : List α}
    {frames : List ByteArray}
    (written : (values.mapM fun value => write (encode value)) = .ok frames) (rest : ByteArray) :
    Reads decode? (frames.foldr (· ++ ·) rest) values rest := by
  induction values generalizing frames with
  | nil =>
    cases written
    exact .done rest
  | cons value values ih =>
    obtain ⟨frame, others, first, remaining, rfl⟩ := mapM_write_cons written
    exact .frame (read_append first (decodes value) _) (ih remaining)

theorem readAll_of_reads {stream : ByteArray} {values : List α}
    (h : Reads decode? stream values ByteArray.empty) :
    readAll decode? (values.length + 1) stream = (values.map .ok, .finished) := by
  generalize empty : ByteArray.empty = rest at h
  induction h with
  | done rest =>
    subst empty
    rfl
  | frame first _ ih =>
    rw [List.length_cons, readAll, first]
    dsimp only
    rw [ih empty]
    rfl

theorem roundTrips (decodes : ∀ value, decode? (encode value) = some value) :
    RoundTrips encode decode? where
  reads_one value frame rest written := read_append written (decodes value) rest
  reads_all values rest small :=
    ⟨_, mapM_write small, reads_of_written decodes (mapM_write small) rest⟩
  finishes values frames written := readAll_of_reads (reads_of_written decodes written _)
  refuses value large := if_neg (Nat.not_le.2 large)
  bounded value frame written := by
    obtain ⟨small, rfl⟩ := write_eq_ok written
    have length := length?_ofBytes small ByteArray.empty
    rw [ByteArray.append_empty] at length
    exact ⟨_, small, length, size_ofBytes _⟩

/-- Requests and responses survive a stream of frames, whatever strings, bytes and numbers they
hold. -/
theorem frames_round_trip :
    RoundTrips Request.encode Request.decode? ∧ RoundTrips Response.encode Response.decode? :=
  ⟨roundTrips Request.decode?_encode, roundTrips Response.decode?_encode⟩

end Frame

end CacheCluster
