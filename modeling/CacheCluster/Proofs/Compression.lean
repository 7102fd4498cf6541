import Mathlib.Algebra.Ring.Nat
import Mathlib.Data.List.Basic
import CacheCluster.Codec.Gzip

/-! # Reading compressed data back

A compressed stream is read up to its end and no further, so that what follows it is left as it is.
Data reads back from stored blocks, and coded blocks are only used when they read back as well; a
compressed file therefore gives the data that it was made from.
-/

namespace CacheCluster.Codec

/-! ## What follows a stream -/

section Following

variable {α β : Type} {n m : Nat} {more : Bits}

/-- Where the first reading succeeds the second one reads the same, and leaves `more` behind what is
left of the stream. -/
def AgreesBefore (more : Bits) (reading : Except InflateFault (α × Tail n))
    (longer : Except InflateFault (α × Tail m)) : Prop :=
  ∀ read rest, reading = .ok (read, rest) →
    ∃ rest', longer = .ok (read, rest') ∧ rest'.1 = rest.1 ++ more

theorem agreesBefore_ok (read : α) {rest : Tail n} {rest' : Tail m}
    (h : rest'.1 = rest.1 ++ more) : AgreesBefore more (.ok (read, rest)) (.ok (read, rest')) := by
  intro read' rest'' same
  cases same
  exact ⟨rest', rfl, h⟩

theorem agreesBefore_error (fault : InflateFault)
    (longer : Except InflateFault (α × Tail m)) :
    AgreesBefore (n := n) more (.error fault) longer := by
  intro read rest same
  cases same

theorem AgreesBefore.bind {k l : Nat} {reading : Except InflateFault (α × Tail n)}
    {longer : Except InflateFault (α × Tail m)} (h : AgreesBefore more reading longer)
    {next : α × Tail n → Except InflateFault (β × Tail k)}
    {next' : α × Tail m → Except InflateFault (β × Tail l)}
    (hnext : ∀ read rest rest', rest'.1 = rest.1 ++ more →
      AgreesBefore more (next (read, rest)) (next' (read, rest'))) :
    AgreesBefore more (reading >>= next) (longer >>= next') := by
  rcases reading with fault | ⟨read, rest⟩
  · exact agreesBefore_error fault _
  · obtain ⟨rest', rfl, left⟩ := h read rest rfl
    exact hnext read rest rest' left

theorem takeNumber?_append {k : Nat} {bits rest : Bits} {read : Nat}
    (h : takeNumber? k bits = some (read, rest)) (more : Bits) :
    takeNumber? k (bits ++ more) = some (read, rest ++ more) := by
  induction k generalizing bits read with
  | zero =>
    obtain ⟨rfl, rfl⟩ := by simpa [takeNumber?] using h
    rfl
  | succ k ih =>
    cases bits with
    | nil => cases h
    | cons b bits =>
      obtain ⟨⟨read', rest'⟩, taken, same⟩ := Option.map_eq_some_iff.1 h
      cases same
      rw [List.cons_append, takeNumber?, ih taken]
      rfl

theorem takeBits_of {k : Nat} {bits : Tail n} {read : Nat} {rest : Bits}
    (h : takeNumber? k bits.1 = some (read, rest)) :
    ∃ tail : Tail n, takeBits k bits = .ok (read, tail) ∧ tail.1 = rest := by
  unfold takeBits
  split
  next none => simp [none] at h
  next read' rest' taken =>
    obtain ⟨rfl, rfl⟩ : read' = read ∧ rest' = rest := by simpa [taken] using h
    exact ⟨_, rfl, rfl⟩

theorem takeNumber?_of_takeBits {k : Nat} {bits rest : Tail n} {read : Nat}
    (h : takeBits k bits = .ok (read, rest)) : takeNumber? k bits.1 = some (read, rest.1) := by
  unfold takeBits at h
  split at h
  · cases h
  next taken =>
    cases h
    exact taken

variable {bits : Tail n} {bits' : Tail m}

theorem takeBits_agrees (k : Nat) (h : bits'.1 = bits.1 ++ more) :
    AgreesBefore more (takeBits k bits) (takeBits k bits') := by
  intro read rest taken
  refine takeBits_of ?_
  rw [h]
  exact takeNumber?_append (takeNumber?_of_takeBits taken) more

theorem takeSlot_agrees (table : List (Nat × Nat)) (slot : Nat) (h : bits'.1 = bits.1 ++ more) :
    AgreesBefore more (takeSlot table slot bits) (takeSlot table slot bits') := by
  unfold takeSlot
  split
  · exact agreesBefore_error _ _
  next least extra _ =>
    refine (takeBits_agrees extra h).bind fun read rest rest' left => ?_
    exact agreesBefore_ok (least + read) left

theorem walk_agrees (zero one : CodeTree) (bits : Bits) (h : bits.length ≤ n)
    (h' : (bits ++ more).length ≤ m) {s : Nat} {rest : Tail n}
    (walked : walk zero one bits h = .symbol s rest) :
    ∃ rest' : Tail m, walk zero one (bits ++ more) h' = .symbol s rest' ∧
      rest'.1 = rest.1 ++ more := by
  induction bits generalizing zero one with
  | nil => cases walked
  | cons b bits ih =>
    rcases b with _ | _
    all_goals
      simp only [walk, List.cons_append] at walked ⊢
      split at walked
      · cases walked
      next =>
        cases walked
        exact ⟨_, rfl, rfl⟩
      next z o => exact ih z o _ _ walked

theorem takeSymbol_agrees (code : PrefixCode) (h : bits'.1 = bits.1 ++ more) :
    AgreesBefore more (takeSymbol code bits) (takeSymbol code bits') := by
  obtain ⟨bits', lt⟩ := bits'
  obtain rfl : bits' = bits.1 ++ more := h
  intro s rest taken
  unfold takeSymbol PrefixCode.read at taken ⊢
  split at taken
  next walked =>
    cases taken
    obtain ⟨rest', walked', left⟩ := walk_agrees code.zero code.one bits.1 _ (Nat.le_refl _) walked
    dsimp only
    rw [walked']
    exact ⟨rest', rfl, left⟩
  all_goals cases taken

theorem takeToken_agrees (literals distances : PrefixCode) (h : bits'.1 = bits.1 ++ more) :
    AgreesBefore more (takeToken literals distances bits) (takeToken literals distances bits') := by
  unfold takeToken
  refine (takeSymbol_agrees literals h).bind fun s rest rest' left => ?_
  dsimp only
  split
  · exact agreesBefore_ok _ left
  split
  · exact agreesBefore_ok _ left
  refine (takeSlot_agrees lengthTable _ left).bind fun length rest rest' left => ?_
  refine (takeSymbol_agrees distances left).bind fun d after after' left => ?_
  refine AgreesBefore.bind (takeSlot_agrees distanceTable d ?_) fun distance rest rest' left => ?_
  · exact left
  · exact agreesBefore_ok _ left

theorem inflateCoded_agrees (literals distances : PrefixCode) (out : Array UInt8)
    (h : bits'.1 = bits.1 ++ more) :
    AgreesBefore more (inflateCoded literals distances out bits)
      (inflateCoded literals distances out bits') := by
  induction size : bits.1.length using Nat.strongRecOn generalizing out bits bits' with
  | ind size ih =>
    subst size
    intro data rest read
    rw [inflateCoded] at read ⊢
    have agrees := takeToken_agrees literals distances h
    split at read
    · cases read
    next tail taken =>
      cases read
      obtain ⟨tail', taken', left⟩ := agrees none tail taken
      rw [taken']
      exact ⟨_, rfl, left⟩
    next token tail taken =>
      obtain ⟨tail', taken', left⟩ := agrees (some token) tail taken
      rw [taken']
      exact ih tail.1.length tail.2 (token.expand out) left rfl data rest read

theorem takeBytes_agrees (count : Nat) (out : Array UInt8) (h : bits'.1 = bits.1 ++ more) :
    AgreesBefore more (takeBytes out count bits) (takeBytes out count bits') := by
  induction count generalizing out bits bits' with
  | zero => exact agreesBefore_ok _ h
  | succ count ih =>
    intro data rest read
    rw [takeBytes] at read ⊢
    split at read
    · cases read
    next b tail taken =>
      obtain ⟨tail', taken', left⟩ := takeBits_agrees 8 h b tail taken
      rw [taken']
      exact ih _ left data rest read

/-- A stored block begins at a byte, which whole bytes behind it do not move. -/
theorem inflateStored_agrees (out : Array UInt8) (whole : more.length % 8 = 0)
    (h : bits'.1 = bits.1 ++ more) :
    AgreesBefore more (inflateStored out bits) (inflateStored out bits') := by
  unfold inflateStored
  have aligned : bits'.1.length % 8 = bits.1.length % 8 := by
    rw [h, List.length_append]
    omega
  rw [aligned]
  refine (takeBits_agrees _ h).bind fun _ rest rest' left => ?_
  refine (takeBits_agrees 16 left).bind fun count rest rest' left => ?_
  refine (takeBits_agrees 16 left).bind fun complement rest rest' left => ?_
  dsimp only
  split
  · exact takeBytes_agrees count out left
  · exact agreesBefore_error _ _

theorem takeTriples_agrees (count : Nat) (h : bits'.1 = bits.1 ++ more) :
    AgreesBefore more (takeTriples count bits) (takeTriples count bits') := by
  induction count generalizing bits bits' with
  | zero => exact agreesBefore_ok _ h
  | succ count ih =>
    unfold takeTriples
    refine (takeBits_agrees 3 h).bind fun read rest rest' left => ?_
    refine (ih left).bind fun reads rest rest' left => ?_
    exact agreesBefore_ok _ left

theorem takeLengths_agrees (code : PrefixCode) (total : Nat) (read : List Nat) (count : Nat)
    (h : bits'.1 = bits.1 ++ more) :
    AgreesBefore more (takeLengths code total read count bits)
      (takeLengths code total read count bits') := by
  induction size : bits.1.length using Nat.strongRecOn
    generalizing read count bits bits' with
  | ind size ih =>
    subst size
    rw [takeLengths, takeLengths]
    split
    · split
      · exact agreesBefore_ok _ h
      · exact agreesBefore_error _ _
    rcases symbol : takeSymbol code bits with fault | ⟨s, tail⟩
    · exact agreesBefore_error _ _
    obtain ⟨tail', symbol', left⟩ := takeSymbol_agrees code h s tail symbol
    rw [symbol']
    dsimp only
    split
    · exact ih tail.1.length tail.2 _ _ (by exact left) rfl
    generalize (if s = 16 then read.head? else some 0) = repeated
    generalize (if s = 16 then (2, 3) else if s = 17 then (3, 3) else (7, 11)) = sizes
    rcases repeated with _ | length
    · exact agreesBefore_error _ _
    dsimp only
    rcases extra : takeBits sizes.1 tail with fault | ⟨more', after⟩
    · exact agreesBefore_error _ _
    obtain ⟨after', extra', left⟩ := takeBits_agrees _ left more' after extra
    rw [extra']
    exact ih after.1.length after.2 _ _ (by exact left) rfl

theorem inflateDynamic_agrees (out : Array UInt8) (h : bits'.1 = bits.1 ++ more) :
    AgreesBefore more (inflateDynamic out bits) (inflateDynamic out bits') := by
  unfold inflateDynamic
  refine (takeBits_agrees 5 h).bind fun literalCount rest rest' left => ?_
  refine (takeBits_agrees 5 left).bind fun distanceCount rest rest' left => ?_
  refine (takeBits_agrees 4 left).bind fun lengthCount rest rest' left => ?_
  dsimp only
  split
  · exact agreesBefore_error _ _
  refine (takeTriples_agrees _ left).bind fun given rest rest' left => ?_
  dsimp only
  split
  · exact agreesBefore_error _ _
  refine (takeLengths_agrees _ _ _ _ left).bind fun all rest rest' left => ?_
  dsimp only
  split
  · exact inflateCoded_agrees _ _ out left
  · exact agreesBefore_error _ _

/-- Whole bytes behind the last block are left as they are. -/
theorem inflateBlocks_append {out data : Array UInt8} {bits rest : Bits}
    (read : inflateBlocks out bits = .ok (data, rest)) {more : Bits} (whole : more.length % 8 = 0) :
    inflateBlocks out (bits ++ more) = .ok (data, rest ++ more) := by
  induction size : bits.length using Nat.strongRecOn generalizing out bits with
  | ind size ih =>
    subst size
    unfold inflateBlocks at read
    split at read
    next last low high bits =>
      -- what the two bits of its kind say about a block, whatever bound there is on its bits
      let block {n : Nat} (body : Tail n) : Except InflateFault (Array UInt8 × Tail n) :=
        if !low && !high then inflateStored out body
        else if low && !high then
          inflateCoded (.ofLengths fixedLengths) (.ofLengths fixedDistanceLengths) out body
        else if !low && high then inflateDynamic out body
        else .error .corrupt
      have agrees {n m : Nat} (body : Tail n) (body' : Tail m) (h : body'.1 = body.1 ++ more) :
          AgreesBefore more (block body) (block body') := by
        dsimp only [block]
        split
        · exact inflateStored_agrees out whole h
        split
        · exact inflateCoded_agrees _ _ out h
        split
        · exact inflateDynamic_agrees out h
        · exact agreesBefore_error _ _
      rw [List.cons_append, List.cons_append, List.cons_append, inflateBlocks]
      dsimp only at read ⊢
      split at read
      · cases read
      next out' tail inflated =>
        obtain ⟨tail', inflated', left⟩ := agrees ⟨bits, by omega⟩
          ⟨bits ++ more, Nat.lt_add_of_pos_right (by decide : 0 < 3)⟩ rfl out' tail inflated
        dsimp only [block] at inflated'
        rw [inflated']
        dsimp only
        split
        next isLast =>
          rw [if_pos isLast] at read
          cases read
          rw [left]
        next notLast =>
          rw [if_neg notLast] at read
          rw [left]
          exact ih tail.1.length tail.2 read rfl
    · cases read

end Following

/-! ## Bytes as bits -/

theorem toBits_cons (b : UInt8) (bytes : List UInt8) :
    toBits (b :: bytes) = byteBits b ++ toBits bytes :=
  List.flatMap_cons

theorem toBits_append (bytes more : List UInt8) :
    toBits (bytes ++ more) = toBits bytes ++ toBits more :=
  List.flatMap_append

theorem length_toBits (bytes : List UInt8) : (toBits bytes).length = 8 * bytes.length := by
  induction bytes with
  | nil => rfl
  | cons b bytes ih =>
    rw [toBits_cons, List.length_append, ih, byteBits, List.length_map, List.length_range,
      List.length_cons]
    omega

theorem length_toBits_mod (bytes : List UInt8) : (toBits bytes).length % 8 = 0 := by
  rw [length_toBits]
  exact Nat.mul_mod_right 8 _

theorem numberBits_mod (n k : Nat) : numberBits n (k % 2 ^ n) = numberBits n k := by
  induction n generalizing k with
  | zero => rfl
  | succ n ih =>
    have parity : k % 2 ^ (n + 1) % 2 = k % 2 :=
      Nat.mod_mod_of_dvd k ⟨2 ^ n, Nat.pow_succ'⟩
    have half : k % 2 ^ (n + 1) / 2 = k / 2 % 2 ^ n := by
      rw [Nat.pow_succ, Nat.mul_comm, Nat.mod_mul_right_div_self]
    rw [numberBits, numberBits, parity, half, ih]

theorem numberBits_eq_map (n k : Nat) : numberBits n k = (List.range n).map k.testBit := by
  induction n generalizing k with
  | zero => rfl
  | succ n ih =>
    rw [numberBits, ih, List.range_succ_eq_map, List.map_cons, List.map_map, Nat.testBit_zero]
    refine congrArg _ (List.map_congr_left fun i _ => ?_)
    exact (Nat.testBit_succ k i).symm

/-- The bits of a byte are those of its number. -/
theorem byteBits_eq (b : UInt8) : byteBits b = numberBits 8 b.toNat :=
  (numberBits_eq_map 8 b.toNat).symm

theorem numberBits_append (n m k : Nat) :
    numberBits (n + m) k = numberBits n k ++ numberBits m (k / 2 ^ n) := by
  induction n generalizing k with
  | zero => simp [numberBits]
  | succ n ih =>
    rw [Nat.add_right_comm, numberBits, ih, numberBits, List.cons_append, Nat.div_div_eq_div_mul,
      Nat.pow_succ']

/-- Numbers are written low byte first, as are their bits. -/
theorem toBits_littleEndian (n k : Nat) : toBits (littleEndian n k) = numberBits (8 * n) k := by
  induction n generalizing k with
  | zero => rfl
  | succ n ih =>
    have high : k / 256 = k / 2 ^ 8 := rfl
    rw [littleEndian, toBits_cons, ih, byteBits_eq, UInt8.toNat_ofNat', numberBits_mod,
      Nat.mul_succ, Nat.add_comm, numberBits_append, high]

theorem takeNumber?_numberBits (n k : Nat) (rest : Bits) :
    takeNumber? n (numberBits n k ++ rest) = some (k % 2 ^ n, rest) := by
  induction n generalizing k with
  | zero => simp [numberBits, takeNumber?, Nat.mod_one]
  | succ n ih =>
    rw [numberBits, List.cons_append, takeNumber?, ih, Option.map_some, Option.some.injEq,
      Prod.mk.injEq]
    refine ⟨?_, rfl⟩
    have split : k % 2 ^ (n + 1) = k % 2 + 2 * (k / 2 % 2 ^ n) := by
      rw [Nat.pow_succ, Nat.mul_comm, Nat.mod_mul]
    rw [split]
    rcases Nat.mod_two_eq_zero_or_one k with even | odd
    · simp [even]
    · simp [odd]

/-! ## Stored blocks -/

section Stored

variable {n : Nat} {bits : Tail n} {rest : Bits}

theorem takeBits_numberBits {k v : Nat} (h : bits.1 = numberBits k v ++ rest) :
    ∃ tail : Tail n, takeBits k bits = .ok (v % 2 ^ k, tail) ∧ tail.1 = rest :=
  takeBits_of (h ▸ takeNumber?_numberBits k v rest)

theorem takeBytes_toBits (out : Array UInt8) {data : List UInt8}
    (h : bits.1 = toBits data ++ rest) :
    ∃ tail : Tail n, takeBytes out data.length bits = .ok (out ++ data.toArray, tail) ∧
      tail.1 = rest := by
  induction data generalizing out bits with
  | nil => exact ⟨bits, by simp [takeBytes], h⟩
  | cons b data ih =>
    rw [toBits_cons, byteBits_eq, List.append_assoc] at h
    obtain ⟨after, taken, left⟩ := takeBits_numberBits h
    obtain ⟨tail, read, left⟩ := ih (out.push b) left
    refine ⟨tail, ?_, left⟩
    have same : UInt8.ofNat (b.toNat % 2 ^ 8) = b := by simp
    rw [List.length_cons, takeBytes, taken]
    dsimp only
    rw [same, read]
    simp

/-- Five bits fill the byte that a stored block begins in. -/
theorem inflateStored_of (out : Array UInt8) {data : List UInt8} (small : data.length ≤ maxStored)
    (whole : rest.length % 8 = 0)
    (h : bits.1 = numberBits 5 0 ++ (toBits (littleEndian 2 data.length ++
      littleEndian 2 (maxStored - data.length) ++ data) ++ rest)) :
    ∃ tail : Tail n, inflateStored out bits = .ok (out ++ data.toArray, tail) ∧
      tail.1 = rest := by
  have aligned : bits.1.length % 8 = 5 := by
    have five : (numberBits 5 0).length = 5 := rfl
    rw [h, List.length_append, List.length_append, length_toBits, five]
    omega
  rw [toBits_append, toBits_append, toBits_littleEndian, toBits_littleEndian, List.append_assoc,
    List.append_assoc] at h
  obtain ⟨sizes, padding, left⟩ := takeBits_numberBits h
  obtain ⟨after, size, left⟩ := takeBits_numberBits left
  obtain ⟨after, complement, left⟩ := takeBits_numberBits left
  obtain ⟨tail, read, left⟩ := takeBytes_toBits out left
  refine ⟨tail, ?_, left⟩
  rw [maxStored] at small complement
  have size_mod : data.length % 2 ^ (8 * 2) = data.length := Nat.mod_eq_of_lt (by omega)
  have complement_mod : (65535 - data.length) % 2 ^ (8 * 2) = 65535 - data.length :=
    Nat.mod_eq_of_lt (by omega)
  rw [size_mod] at size
  rw [complement_mod] at complement
  unfold inflateStored
  simp only [aligned, padding, bind, Except.bind]
  rw [show 16 = 8 * 2 from rfl, size]
  dsimp only
  rw [complement]
  dsimp only
  rw [if_pos (by omega), read]

/-- What a stored block gives behind its three bits: its length twice, and its bytes. -/
def storedBody (data : List UInt8) : List UInt8 :=
  littleEndian 2 data.length ++ littleEndian 2 (maxStored - data.length) ++ data

theorem stored_of_le {data : List UInt8} (small : data.length ≤ maxStored) :
    stored data = 1 :: storedBody data := by
  rw [stored, if_pos small, Nat.min_eq_left small]
  rfl

theorem stored_of_lt {data : List UInt8} (large : maxStored < data.length) :
    stored data = 0 :: (storedBody (data.take maxStored) ++ stored (data.drop maxStored)) := by
  have full : (data.take maxStored).length = maxStored :=
    List.length_take_of_le (Nat.le_of_lt large)
  rw [stored, if_neg (Nat.not_le.2 large), Nat.min_eq_right (Nat.le_of_lt large), storedBody, full]
  rfl

/-- A block is read, and then the blocks behind it if it is not the last. -/
theorem inflateBlocks_storedBody (out : Array UInt8) {data : List UInt8}
    (small : data.length ≤ maxStored) (last : Bool) (more : List UInt8) :
    inflateBlocks out
        (last :: false :: false :: numberBits 5 0 ++ toBits (storedBody data ++ more)) =
      if last then .ok (out ++ data.toArray, toBits more)
      else inflateBlocks (out ++ data.toArray) (toBits more) := by
  generalize same : numberBits 5 0 ++ toBits (storedBody data ++ more) = bits
  have lt : bits.length < bits.length + 3 := Nat.lt_add_of_pos_right (by decide)
  obtain ⟨tail, read, left⟩ : ∃ tail : Tail (bits.length + 3),
      inflateStored out ⟨bits, lt⟩ = .ok (out ++ data.toArray, tail) ∧ tail.1 = toBits more := by
    refine inflateStored_of out small (length_toBits_mod more) ?_
    rw [← toBits_append]
    exact same.symm
  rw [List.cons_append, List.cons_append, List.cons_append, same, inflateBlocks.eq_1,
    if_pos (by decide), read]
  dsimp only
  rw [left]

theorem byteBits_of_last (last : Bool) :
    byteBits last.toNat.toUInt8 = last :: false :: false :: numberBits 5 0 := by
  cases last <;> decide

theorem inflateBlocks_stored (out : Array UInt8) (data : List UInt8) :
    inflateBlocks out (toBits (stored data)) = .ok (out ++ data.toArray, []) := by
  induction size : data.length using Nat.strongRecOn generalizing out data with
  | ind size ih =>
    subst size
    rcases Nat.lt_or_ge maxStored data.length with large | small
    · have shorter : (data.drop maxStored).length < data.length := by
        rw [List.length_drop, maxStored] at *
        omega
      have split :
          (data.take maxStored).toArray ++ (data.drop maxStored).toArray = data.toArray := by
        simp
      rw [stored_of_lt large, toBits_cons, show byteBits 0 = _ from byteBits_of_last false,
        inflateBlocks_storedBody out (List.length_take_le _ _) false, if_neg (by decide),
        ih _ shorter _ _ rfl, Array.append_assoc, split]
    · have block := inflateBlocks_storedBody out small true []
      rw [List.append_nil] at block
      rw [stored_of_le small, toBits_cons, show byteBits 1 = _ from byteBits_of_last true, block]
      rfl

end Stored

/-! ## Streams and files -/

theorem length_inflateBlocks_le {out data : Array UInt8} {bits rest : Bits}
    (read : inflateBlocks out bits = .ok (data, rest)) : rest.length ≤ bits.length := by
  induction size : bits.length using Nat.strongRecOn generalizing out bits with
  | ind size ih =>
    subst size
    unfold inflateBlocks at read
    split at read
    next last low high bits =>
      dsimp only at read
      split at read
      · cases read
      next out' tail _ =>
        split at read
        · cases read
          exact Nat.le_of_lt tail.2
        · exact Nat.le_trans (ih _ tail.2 read rfl) (Nat.le_of_lt tail.2)
    · cases read

/-- What follows a compressed stream is given back with the data. -/
theorem inflate_append {stream data rest : List UInt8} (read : inflate stream = .ok (data, rest))
    (more : List UInt8) : inflate (stream ++ more) = .ok (data, rest ++ more) := by
  unfold inflate at read ⊢
  rcases blocks : inflateBlocks #[] (toBits stream) with fault | ⟨out, left⟩
  · rw [blocks] at read
    cases read
  rw [blocks] at read
  cases read
  have few : left.length ≤ 8 * stream.length := by
    rw [← length_toBits]
    exact length_inflateBlocks_le blocks
  rw [toBits_append, inflateBlocks_append blocks (length_toBits_mod more)]
  have behind : (stream ++ more).length - (left ++ toBits more).length / 8 =
      stream.length - left.length / 8 := by
    rw [List.length_append, List.length_append, length_toBits]
    omega
  simp only [Except.map, behind]
  rw [List.drop_append_of_le_length (Nat.sub_le _ _)]

theorem inflate_stored (data : List UInt8) : inflate (stored data) = .ok (data, []) := by
  unfold inflate
  rw [inflateBlocks_stored]
  simp [Except.map]

theorem inflate_of_readsAs {data stream : List UInt8} (reads : readsAs data stream = true) :
    inflate stream = .ok (data, []) := by
  unfold readsAs at reads
  split at reads
  next read inflated => rw [inflated, eq_of_beq reads]
  next => cases reads

theorem inflate_deflate (data : List UInt8) : inflate (deflate data) = .ok (data, []) := by
  have chosen (coded : List UInt8) :
      inflate (if coded.length < (stored data).length && readsAs data coded then coded
        else stored data) = .ok (data, []) := by
    split
    next coded => exact inflate_of_readsAs (Bool.and_eq_true_iff.1 coded).2
    next => exact inflate_stored data
  exact chosen _

theorem skipHeader_gzipHeader (bytes : List UInt8) : skipHeader (gzipHeader ++ bytes) = .ok bytes :=
  rfl

theorem length_littleEndian (n k : Nat) : (littleEndian n k).length = n := by
  induction n generalizing k with
  | zero => rfl
  | succ n ih => rw [littleEndian, List.length_cons, ih]

/-- Data is never compressed to more than stored blocks take. -/
theorem length_deflate_le (data : List UInt8) : (deflate data).length ≤ (stored data).length := by
  have chosen (coded : List UInt8) :
      (if coded.length < (stored data).length && readsAs data coded then coded
        else stored data).length ≤ (stored data).length := by
    split
    next coded => exact Nat.le_of_lt (of_decide_eq_true (Bool.and_eq_true_iff.1 coded).1)
    next => exact Nat.le_refl _
  exact chosen _

theorem length_gzip_le {data : List UInt8} (small : data.length ≤ maxStored) :
    (gzip data).length ≤ data.length + 23 := by
  have deflated := length_deflate_le data
  rw [stored_of_le small, storedBody] at deflated
  simp only [List.length_cons, List.length_append, length_littleEndian] at deflated
  simp only [gzip, gzipHeader, List.length_cons, List.length_nil, List.length_append,
    length_littleEndian]
  omega

/-- Decompressing what was compressed gives the data. -/
theorem ungzip_gzip (data : List UInt8) : ungzip (gzip data) = .ok data := by
  unfold ungzip gzip
  rw [List.append_assoc, skipHeader_gzipHeader]
  simp only [bind, Except.bind]
  rw [inflate_append (inflate_deflate data), List.nil_append]
  have trailer (n k : Nat) : (littleEndian 4 n ++ littleEndian 4 k).length = 8 := by
    rw [List.length_append, length_littleEndian, length_littleEndian]
  dsimp only
  rw [trailer, if_neg (Nat.lt_irrefl 8), List.take_of_length_le (Nat.le_of_eq (trailer _ _)),
    if_pos rfl]
  rfl

end CacheCluster.Codec
