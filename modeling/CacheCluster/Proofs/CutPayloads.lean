import CacheCluster.Peer.Provider
import CacheCluster.Proofs.Hearing

/-! # Payloads that are cut short

A compressed file says itself where it ends. What follows it makes no difference to what is read
from it, and nothing is read from a file that ends earlier, so that a heartbeat of which a part is
lost is dropped as a whole.
-/

namespace CacheCluster

namespace Codec

/-! ## Headers -/

section Header

variable {skipped longer : Except GzipFault (List UInt8)} {whole bytes rest more : List UInt8}
  {n : Nat}

/-- Where something is skipped and no more than `n` bytes are left, the same is skipped in a longer
file, with `more` behind what is left. -/
def SkipsBefore (more : List UInt8) (n : Nat) (skipped longer : Except GzipFault (List UInt8)) :
    Prop :=
  ∀ rest, skipped = .ok rest → rest.length ≤ n ∧ longer = .ok (rest ++ more)

theorem skipsBefore_ok (few : rest.length ≤ n) :
    SkipsBefore more n (.ok rest) (.ok (rest ++ more)) := by
  rintro _ ⟨⟩
  exact ⟨few, rfl⟩

theorem skipsBefore_error (fault : GzipFault) (longer : Except GzipFault (List UInt8)) :
    SkipsBefore more n (.error fault) longer :=
  nofun

theorem SkipsBefore.bind (h : SkipsBefore more n skipped longer)
    {next next' : List UInt8 → Except GzipFault (List UInt8)}
    (hnext : ∀ rest, rest.length ≤ n → SkipsBefore more n (next rest) (next' (rest ++ more))) :
    SkipsBefore more n (skipped >>= next) (longer >>= next') := by
  rcases skipped with fault | rest
  · exact skipsBefore_error fault _
  · obtain ⟨few, rfl⟩ := h rest rfl
    exact hnext rest few

theorem skip_before (count : Nat) (few : bytes.length ≤ n) :
    SkipsBefore more n (skip count bytes) (skip count (bytes ++ more)) := by
  unfold skip
  split
  · exact skipsBefore_error _ _
  next enough =>
    have enough : count ≤ bytes.length := Nat.le_of_not_lt enough
    rw [if_neg (by rw [List.length_append]; omega), List.drop_append_of_le_length enough]
    exact skipsBefore_ok (by rw [List.length_drop]; omega)

theorem skipText_before (room : Nat) (few : bytes.length ≤ n) :
    SkipsBefore more n (skipText room bytes) (skipText room (bytes ++ more)) := by
  induction bytes generalizing room with
  | nil =>
    rw [skipText]
    exact skipsBefore_error _ _
  | cons b bytes ih =>
    have few : bytes.length ≤ n := Nat.le_of_succ_le few
    rw [List.cons_append, skipText.eq_def, skipText.eq_def]
    dsimp only
    split
    · exact skipsBefore_ok few
    · cases room with
      | zero => exact skipsBefore_error _ _
      | succ room => exact ih room few

theorem skipSized_before (few : bytes.length ≤ n) :
    SkipsBefore more n (skipSized bytes) (skipSized (bytes ++ more)) := by
  rcases bytes with _ | ⟨low, _ | ⟨high, bytes⟩⟩
  · exact skipsBefore_error _ _
  · exact skipsBefore_error _ _
  · exact skip_before _ (Nat.le_of_succ_le (Nat.le_of_succ_le few))

/-- The check is of the bytes before it, which are the same in the longer file. -/
theorem skipHeaderCheck_before (few : bytes.length ≤ whole.length) :
    SkipsBefore more whole.length (skipHeaderCheck whole bytes)
      (skipHeaderCheck (whole ++ more) (bytes ++ more)) := by
  have checked : (whole ++ more).take ((whole ++ more).length - (bytes ++ more).length) =
      whole.take (whole.length - bytes.length) := by
    rw [List.length_append, List.length_append, Nat.add_sub_add_right,
      List.take_append_of_le_length (Nat.sub_le _ _)]
  unfold skipHeaderCheck
  rw [checked]
  rcases bytes with _ | ⟨low, _ | ⟨high, bytes⟩⟩
  · exact skipsBefore_error _ _
  · exact skipsBefore_error _ _
  · dsimp only [List.cons_append]
    split
    · exact skipsBefore_ok (Nat.le_of_succ_le (Nat.le_of_succ_le few))
    · exact skipsBefore_error _ _

/-- Skips a field if its flag is set. -/
def skipIf (flag : UInt8) (field : List UInt8 → Except GzipFault (List UInt8))
    (bytes : List UInt8) :
    Except GzipFault (List UInt8) :=
  if flag = 0 then .ok bytes else field bytes

theorem skipIf_before (flag : UInt8) {field field' : List UInt8 → Except GzipFault (List UInt8)}
    (few : bytes.length ≤ n) (h : SkipsBefore more n (field bytes) (field' (bytes ++ more))) :
    SkipsBefore more n (skipIf flag field bytes) (skipIf flag field' (bytes ++ more)) := by
  unfold skipIf
  split
  · exact skipsBefore_ok few
  · exact h

/-- The bytes behind the optional fields of a header. -/
def skipFields (whole : List UInt8) (flags : UInt8) (bytes : List UInt8) :
    Except GzipFault (List UInt8) :=
  skipIf (flags &&& 4) skipSized bytes >>= fun bytes =>
  skipIf (flags &&& 8) (skipText maxTextField) bytes >>= fun bytes =>
  skipIf (flags &&& 16) (skipText maxTextField) bytes >>=
  skipIf (flags &&& 2) (skipHeaderCheck whole)

theorem skipFields_before (flags : UInt8) (few : bytes.length ≤ whole.length) :
    SkipsBefore more whole.length (skipFields whole flags bytes)
      (skipFields (whole ++ more) flags (bytes ++ more)) := by
  unfold skipFields
  refine (skipIf_before _ few (skipSized_before few)).bind fun bytes few => ?_
  refine (skipIf_before _ few (skipText_before _ few)).bind fun bytes few => ?_
  refine (skipIf_before _ few (skipText_before _ few)).bind fun bytes few => ?_
  exact skipIf_before _ few (skipHeaderCheck_before few)

/-- A header takes ten bytes at least. -/
theorem exists_of_skipHeader (read : skipHeader whole = .ok bytes) :
    ∃ a b method flags c d e f g h fields,
      whole = a :: b :: method :: flags :: c :: d :: e :: f :: g :: h :: fields := by
  unfold skipHeader at read
  split at read
  · exact ⟨_, _, _, _, _, _, _, _, _, _, _, rfl⟩
  · cases read

theorem skipHeader_cons (a b method flags c d e f g h : UInt8) (fields : List UInt8) :
    let whole := a :: b :: method :: flags :: c :: d :: e :: f :: g :: h :: fields
    skipHeader whole =
      if a ≠ 0x1F ∨ b ≠ 0x8B ∨ method ≠ 8 ∨ flags &&& 0xE0 ≠ 0 then .error .badHeader
      else skipFields whole flags fields := by
  unfold skipHeader skipFields skipIf
  dsimp only
  split
  · rfl
  · by_cases extra : flags &&& 4 = 0 <;> by_cases name : flags &&& 8 = 0 <;>
      by_cases comment : flags &&& 16 = 0 <;>
      simp only [extra, name, comment, if_true, if_false] <;> rfl

theorem skipHeader_append (read : skipHeader whole = .ok bytes) (more : List UInt8) :
    skipHeader (whole ++ more) = .ok (bytes ++ more) := by
  obtain ⟨a, b, method, flags, c, d, e, f, g, h, fields, rfl⟩ := exists_of_skipHeader read
  have few : fields.length ≤
      (a :: b :: method :: flags :: c :: d :: e :: f :: g :: h :: fields).length := by
    simp only [List.length_cons]
    omega
  have before : SkipsBefore more _ _ _ := skipFields_before flags few
  simp only [List.cons_append] at before ⊢
  rw [skipHeader_cons] at read ⊢
  split at read
  · cases read
  next good =>
    rw [if_neg good]
    exact (before bytes read).2

end Header

/-! ## Members -/

variable {file data start : List UInt8}

/-- The check sum and the length behind the data of a member. -/
def trailer (data : List UInt8) : List UInt8 :=
  littleEndian 4 (crc32 data).toNat ++ littleEndian 4 data.length

theorem length_trailer (data : List UInt8) : (trailer data).length = 8 := by
  rw [trailer, List.length_append, length_littleEndian, length_littleEndian]

/-- A file that is one member and nothing else. -/
def IsMember (file data : List UInt8) : Prop :=
  ∃ stream, skipHeader file = .ok stream ∧ inflate stream = .ok (data, trailer data)

theorem isMember_gzip (data : List UInt8) : IsMember (gzip data) data := by
  refine ⟨deflate data ++ trailer data, ?_, inflate_append (inflate_deflate data) (trailer data)⟩
  rw [gzip, List.append_assoc]
  exact skipHeader_gzipHeader _

theorem ungzip_eq {stream rest : List UInt8} (header : skipHeader file = .ok stream)
    (inflated : inflate stream = .ok (data, rest)) :
    ungzip file = if rest.length < 8 then .error .unexpectedEnd
      else if rest.take 8 = trailer data then .ok data else .error .badChecksum := by
  rw [ungzip, header]
  simp only [bind, Except.bind]
  rw [inflated]
  rfl

theorem ungzip_eq_ok_iff : ungzip file = .ok data ↔
    ∃ stream rest, skipHeader file = .ok stream ∧ inflate stream = .ok (data, rest) ∧
      8 ≤ rest.length ∧ rest.take 8 = trailer data := by
  constructor
  · intro read
    rcases header : skipHeader file with fault | stream
    · rw [ungzip, header] at read
      cases read
    rcases inflated : inflate stream with fault | ⟨found, rest⟩
    · rw [ungzip, header] at read
      simp only [bind, Except.bind] at read
      rw [inflated] at read
      cases read
    rw [ungzip_eq header inflated] at read
    split at read
    · cases read
    next enough =>
      split at read
      next checked =>
        cases read
        exact ⟨stream, rest, rfl, inflated, Nat.le_of_not_lt enough, checked⟩
      next => cases read
  · rintro ⟨stream, rest, header, inflated, enough, checked⟩
    rw [ungzip_eq header inflated, if_neg (Nat.not_lt.2 enough), if_pos checked]

theorem ungzip_append (read : ungzip file = .ok data) (more : List UInt8) :
    ungzip (file ++ more) = .ok data := by
  rw [ungzip_eq_ok_iff] at read ⊢
  obtain ⟨stream, rest, header, inflated, enough, checked⟩ := read
  refine ⟨_, _, skipHeader_append header more, inflate_append inflated more, ?_, ?_⟩
  · rw [List.length_append]
    exact Nat.le_add_right_of_le enough
  · rwa [List.take_append_of_le_length enough]

/-- A member that is cut short is never read: what was read of it would be read of the whole member
as well, with its trailer behind it and more. -/
theorem IsMember.error_of_cut (h : IsMember file data) (cut : start <+: file)
    (less : start ≠ file) :
    ∃ fault, ungzip start = .error fault := by
  obtain ⟨stream, header, inflated⟩ := h
  obtain ⟨lost, rfl⟩ := cut
  rcases read : ungzip start with fault | other
  · exact ⟨fault, rfl⟩
  obtain ⟨begun, rest, header', inflated', enough, -⟩ := ungzip_eq_ok_iff.1 read
  have same : begun ++ lost = stream :=
    Except.ok.inj ((skipHeader_append header' lost).symm.trans header)
  have both := (inflate_append inflated' lost).symm.trans (same ▸ inflated)
  have sizes := congrArg List.length (Prod.mk.inj (Except.ok.inj both)).2
  rw [List.length_append, length_trailer] at sizes
  have nothing : lost = [] := List.eq_nil_of_length_eq_zero (by omega)
  exact absurd (by rw [nothing, List.append_nil]) less

end Codec

open Codec Heartbeat

/-- What was compressed is read back, whatever follows it. Of no proper part of it from its
beginning anything is read: as a payload it is refused as corrupt, so that the node that hears it
drops it and keeps the urls that it knows. -/
theorem Provider.cut_heartbeats_are_dropped (data : List UInt8) :
    ungzip (gzip data) = .ok data ∧
    (∀ more, ungzip (gzip data ++ more) = .ok data) ∧
    ∀ start, start <+: gzip data → start ≠ gzip data → ∃ fault,
      ungzip start = .error fault ∧
      disassemble start = .error (.corruptPayload fault.message) ∧
      ∀ (provider : Provider) (now : Nat) (own : List String) (metrics : Metrics),
        provider.registry.hear now own start = .error (.corruptPayload fault.message) ∧
        provider.receive now own start metrics =
          (provider, (metrics.add .heartbeatsReceived 1).add .heartbeatsDropped 1) := by
  refine ⟨ungzip_gzip data, ungzip_append (ungzip_gzip data), fun start cut less => ?_⟩
  obtain ⟨fault, refused⟩ := (isMember_gzip data).error_of_cut cut less
  have corrupt : disassemble start = .error (.corruptPayload fault.message) := by
    rw [disassemble, refused]
  refine ⟨fault, refused, corrupt, fun provider now own metrics => ?_⟩
  have unheard : provider.registry.hear now own start = .error (.corruptPayload fault.message) :=
    Registry.hear_of_error corrupt
  exact ⟨unheard, by rw [receive, unheard]⟩

/-- A heartbeat whose last byte is lost tells nothing of the url in it. -/
theorem Provider.heartbeat_without_last_byte_is_dropped :
    let datagram := payload ["tcp://a:1/c"]
    let provider := manual ["tcp://b:1/c"]
    datagram.dropLast <+: datagram ∧ datagram.dropLast ≠ datagram ∧
      (∃ fault : GzipFault,
        disassemble datagram.dropLast = .error (.corruptPayload fault.message)) ∧
      (provider.receive 0 [] datagram.dropLast {}).1.registry.live 0 = ["tcp://b:1/c"] := by
  intro datagram provider
  have lost : datagram.dropLast ≠ datagram := by
    intro same
    have sizes := congrArg List.length same
    have positive : 0 < datagram.length := Nat.succ_pos _
    rw [List.length_dropLast] at sizes
    omega
  have part : datagram.dropLast <+: datagram := List.dropLast_prefix _
  obtain ⟨-, -, cut⟩ := cut_heartbeats_are_dropped (Text.utf8 (join ["tcp://a:1/c"]))
  obtain ⟨fault, -, corrupt, dropped⟩ := cut datagram.dropLast part lost
  refine ⟨part, lost, ⟨fault, corrupt⟩, ?_⟩
  rw [(dropped provider 0 [] {}).2]
  decide +kernel

end CacheCluster
