import CacheCluster.Proofs.WireRoundTrip

/-! # Streams that are cut

A stream is made of frames and of a tail that no whole frame begins. Every frame is read, whether or
not there is a document in it, and the tail says how reading ends. One of fewer than four bytes
passes for the end of the stream; a longer one has the length of a frame in it, and breaks the
stream.
-/

namespace CacheCluster.Frame

variable {α : Type} {decode? : String → Option α} {stream tail body : ByteArray}
  {bodies : List ByteArray} {n : Nat}

/-! ## Lengths -/

theorem length?_eq_none_iff : length? stream = none ↔ stream.size < 4 := by
  have absent (i : Nat) : stream[i]? = none ↔ stream.size ≤ i := by
    rw [getElem?_eq_none_iff, Nat.not_lt]
  constructor
  · intro missing
    by_contra long
    have present (i : Nat) (bound : i < 4) : stream[i]? = some stream[i] :=
      getElem?_pos stream i (by omega)
    simp [length?, present] at missing
  · intro short
    rw [length?, (absent 3).2 (by omega)]
    split <;> simp_all

theorem eq_lengthBytes_append (read : length? stream = some n) :
    n < 2 ^ 32 ∧ stream = lengthBytes n ++ stream.extract 4 stream.size := by
  have long : 4 ≤ stream.size := by
    by_contra short
    rw [length?_eq_none_iff.2 (by omega)] at read
    cases read
  have byte (i : Nat) (bound : i < 4) : stream[i]? = some stream[i] :=
    getElem?_pos stream i (by omega)
  have value : ((stream[0].toNat * 256 + stream[1].toNat) * 256 + stream[2].toNat) * 256 +
      stream[3].toNat = n := by
    simpa [length?, byte] using read
  have a := stream[0].toNat_lt
  have b := stream[1].toNat_lt
  have c := stream[2].toNat_lt
  have d := stream[3].toNat_lt
  have first : stream.extract 0 4 = lengthBytes n := by
    refine ByteArray.ext_getElem (by rw [ByteArray.size_extract]; exact Nat.min_eq_left long) ?_
    intro i _ bound
    rw [ByteArray.getElem_extract, ← UInt8.toNat_inj]
    obtain rfl | rfl | rfl | rfl : i = 0 ∨ i = 1 ∨ i = 2 ∨ i = 3 := by
      have : i < 4 := bound
      omega
    · change stream[0].toNat = n / 0x1000000 % 256
      omega
    · change stream[1].toNat = n / 0x10000 % 256
      omega
    · change stream[2].toNat = n / 0x100 % 256
      omega
    · change stream[3].toNat = n % 256
      omega
  refine ⟨by omega, ?_⟩
  rw [← first, ByteArray.extract_append_extract, Nat.min_eq_left (by omega), Nat.max_eq_right long,
    ByteArray.extract_zero_size]

/-! ## Tails -/

/-- No whole frame stands at the start of a stream. -/
def IsCut (tail : ByteArray) : Prop :=
  ∀ body rest, body.size ≤ maxBytes → tail ≠ ofBytes body ++ rest

def endingOf (tail : ByteArray) : Ending :=
  match length? tail with
  | none => .finished
  | some n =>
    if n > maxBytes then
      .broken (.corruptPayload ("frame length " ++ toString n ++ " exceeds " ++ toString maxBytes))
    else .broken (.io .unexpectedEnd "early eof")

theorem endingOf_eq_finished_iff : endingOf tail = .finished ↔ tail.size < 4 := by
  rw [← length?_eq_none_iff, endingOf]
  cases length? tail with
  | none => simp
  | some n =>
    dsimp only
    split <;> simp

theorem exists_endingOf_eq_broken_iff :
    (∃ error, endingOf tail = .broken error) ↔ 4 ≤ tail.size := by
  rw [← Nat.not_lt, ← length?_eq_none_iff, endingOf]
  cases length? tail with
  | none => simp
  | some n =>
    dsimp only
    split <;> simp

theorem IsCut.size_lt (cut : IsCut tail) (read : length? tail = some n) (small : n ≤ maxBytes) :
    tail.size < 4 + n := by
  by_contra long
  obtain ⟨-, whole⟩ := eq_lengthBytes_append read
  have size : (tail.extract 4 (4 + n)).size = n := by
    rw [ByteArray.size_extract]
    omega
  refine cut (tail.extract 4 (4 + n)) (tail.extract (4 + n) tail.size) (by omega) ?_
  rw [ofBytes, size, ByteArray.append_assoc, ByteArray.extract_append_extract,
    Nat.min_eq_left (by omega), Nat.max_eq_right (by omega)]
  exact whole

theorem readAll_of_isCut (cut : IsCut tail) (count : Nat) :
    readAll decode? (count + 1) tail = ([], endingOf tail) := by
  rw [readAll, read, endingOf]
  cases read : length? tail with
  | none => rfl
  | some n =>
    by_cases large : n > maxBytes
    · simp only [if_pos large]
    · simp only [if_neg large, if_pos (cut.size_lt read (Nat.le_of_not_lt large))]

theorem isCut_of_append {more : ByteArray} (small : body.size ≤ maxBytes)
    (whole : tail ++ more = ofBytes body) (cut : tail.size < (ofBytes body).size) : IsCut tail := by
  rintro other rest small_other rfl
  have length := length?_ofBytes small_other (rest ++ more)
  rw [← ByteArray.append_assoc, whole, ← ByteArray.append_empty (b := ofBytes body),
    length?_ofBytes small] at length
  rw [ByteArray.size_append, size_ofBytes, size_ofBytes, Option.some.inj length] at cut
  omega

/-- A cut frame ends the stream in front of its body, and breaks it inside. -/
theorem endingOf_of_append {more : ByteArray} (small : body.size ≤ maxBytes)
    (whole : tail ++ more = ofBytes body) :
    endingOf tail =
      if tail.size < 4 then .finished else .broken (.io .unexpectedEnd "early eof") := by
  split
  next short => exact endingOf_eq_finished_iff.2 short
  next long =>
    obtain ⟨n, read⟩ := Option.ne_none_iff_exists'.1 (mt length?_eq_none_iff.1 long)
    obtain ⟨bound, first⟩ := eq_lengthBytes_append read
    have length := length?_ofBytes small ByteArray.empty
    rw [ByteArray.append_empty, ← whole, first, ByteArray.append_assoc,
      length?_lengthBytes bound] at length
    rw [endingOf, read]
    simp only [Option.some.inj length, if_neg (Nat.not_lt.2 small)]

/-! ## Whole streams -/

/-- Frames behind one another, and a tail behind them. -/
def streamOf (bodies : List ByteArray) (tail : ByteArray) : ByteArray :=
  bodies.foldr (fun body rest => ofBytes body ++ rest) tail

/-- A stream is cut behind the frames of some bodies. -/
structure IsCutBehind (stream : ByteArray) (bodies : List ByteArray) (tail : ByteArray) : Prop where
  small : ∀ body ∈ bodies, body.size ≤ maxBytes
  cut : IsCut tail
  whole : stream = streamOf bodies tail

/-- Every stream is cut somewhere: each frame that is taken off its start leaves a shorter one. -/
theorem exists_isCutBehind (stream : ByteArray) :
    ∃ bodies tail, IsCutBehind stream bodies tail := by
  induction size : stream.size using Nat.strong_induction_on generalizing stream with
  | _ bytes ih =>
    by_cases cut : IsCut stream
    · exact ⟨[], stream, nofun, cut, rfl⟩
    · simp only [IsCut, not_forall, Classical.not_not] at cut
      obtain ⟨body, rest, small, rfl⟩ := cut
      have shorter : rest.size < bytes := by
        rw [← size, ByteArray.size_append, size_ofBytes]
        omega
      obtain ⟨bodies, tail, behind⟩ := ih _ shorter rest rfl
      refine ⟨body :: bodies, tail, List.forall_mem_cons.2 ⟨small, behind.small⟩, behind.cut, ?_⟩
      rw [behind.whole]
      rfl

theorem readAll_streamOf {count : Nat} (small : ∀ body ∈ bodies, body.size ≤ maxBytes)
    (cut : IsCut tail) (enough : bodies.length < count) :
    readAll decode? count (streamOf bodies tail) =
      (bodies.map (valueOf decode?), endingOf tail) := by
  induction bodies generalizing count with
  | nil =>
    obtain ⟨count, rfl⟩ := Nat.exists_eq_add_of_lt enough
    exact readAll_of_isCut cut _
  | cons body bodies ih =>
    obtain ⟨first, others⟩ := List.forall_mem_cons.1 small
    cases count with
    | zero => cases enough
    | succ count =>
      have next : read decode? (streamOf (body :: bodies) tail) =
          .frame (valueOf decode? body) (streamOf bodies tail) := read_ofBytes first _
      rw [readAll, next]
      dsimp only
      rw [ih others (Nat.lt_of_succ_lt_succ enough)]
      rfl

/-- Every stream is made of frames and a tail that no frame begins. Whatever their bodies and
whatever lengths the tail announces, each frame gives its value, or an error for its document that
the next one is read behind, and then reading ends as the tail says: as at the end of a stream if
that has fewer than four bytes, be it empty or the start of a length, and with an error otherwise.
Inside a frame that is cut, the end is therefore only noticed behind its length. -/
theorem reading_ends_by_tail (decode? : String → Option α) :
    (∀ stream, ∃ bodies tail, IsCutBehind stream bodies tail) ∧
    (∀ stream bodies tail, IsCutBehind stream bodies tail →
      (∀ count, bodies.length < count →
        readAll decode? count stream = (bodies.map (valueOf decode?), endingOf tail)) ∧
      (endingOf tail = .finished ↔ tail.size < 4) ∧
      ((∃ error, endingOf tail = .broken error) ↔ 4 ≤ tail.size)) ∧
    ∀ body tail more, body.size ≤ maxBytes → tail ++ more = ofBytes body →
      tail.size < (ofBytes body).size →
      IsCut tail ∧ endingOf tail =
        if tail.size < 4 then .finished else .broken (.io .unexpectedEnd "early eof") := by
  refine ⟨exists_isCutBehind, ?_, ?_⟩
  · rintro _ bodies tail ⟨small, cut, rfl⟩
    exact ⟨fun count enough => readAll_streamOf small cut enough, endingOf_eq_finished_iff,
      exists_endingOf_eq_broken_iff⟩
  · intro body tail more small whole cut
    exact ⟨isCut_of_append small whole cut, endingOf_of_append small whole⟩

/-- Two bytes of a length stand behind a frame without a document and one with one. Both frames are
read, and the stream passes for one that ends behind them. -/
theorem start_of_length_passes_for_end :
    let tail : ByteArray := ⟨#[0, 0]⟩
    let bodies := [ByteArray.empty, "\x7b\"type\":\"OK\"\x7d".toUTF8]
    readAll Response.decode? 3 (streamOf bodies tail) =
      ([.error (.serialization "not a document of this type"), .ok .ok], .finished) ∧
    tail ≠ ByteArray.empty := by
  intro tail bodies
  obtain ⟨-, reads, cuts⟩ := reading_ends_by_tail Response.decode?
  obtain ⟨cut, ending⟩ := cuts ByteArray.empty tail tail (by decide) (by decide +kernel) (by decide)
  have small : ∀ body ∈ bodies, body.size ≤ maxBytes := by decide +kernel
  obtain ⟨read, -, -⟩ := reads _ bodies tail ⟨small, cut, rfl⟩
  have first : valueOf Response.decode? ByteArray.empty =
      .error (.serialization "not a document of this type") := by decide +kernel
  have second : valueOf Response.decode? "\x7b\"type\":\"OK\"\x7d".toUTF8 = .ok .ok :=
    valueOf_toUTF8 (by decide +kernel)
  refine ⟨?_, by decide +kernel⟩
  rw [read 3 (by decide), ending, List.map_cons, List.map_cons, first, second]
  rfl

end CacheCluster.Frame
