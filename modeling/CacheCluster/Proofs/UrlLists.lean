import CacheCluster.Proofs.Packing

/-! # Lists of urls as text

The text of a heartbeat holds urls without the delimiter, and a reader trims them and drops the
blank ones. What a reader makes of any payload is a list of urls that it would read from its own
payload again, so that reading and writing undo each other from then on.
-/

namespace CacheCluster

namespace Text

/-! ## Trimmed texts -/

/-- Neither the first nor the last character is blank. -/
def IsTrimmed (s : String) : Prop :=
  (∀ c ∈ s.toList.head?, isBlank c = false) ∧ ∀ c ∈ s.toList.getLast?, isBlank c = false

theorem toList_trim (s : String) : (trim s).toList = trimRight (trimLeft s.toList) :=
  String.toList_ofList

theorem head?_dropWhile_isBlank (cs : List Char) :
    ∀ c ∈ (cs.dropWhile isBlank).head?, isBlank c = false := by
  intro c first
  have visible := List.head?_dropWhile_not isBlank cs
  rwa [Option.mem_def.1 first] at visible

theorem dropWhile_isBlank_of_head? {cs : List Char} (visible : ∀ c ∈ cs.head?, isBlank c = false) :
    cs.dropWhile isBlank = cs := by
  cases cs with
  | nil => rfl
  | cons c cs => exact List.dropWhile_cons_of_neg (ne_true_of_eq_false (visible c rfl))

/-- What is trimmed on the right begins as it did. -/
theorem trimRight_isPrefix (cs : List Char) : trimRight cs <+: cs := by
  rw [← List.reverse_suffix, trimRight, List.reverse_reverse]
  exact List.dropWhile_suffix _

theorem isTrimmed_trim (s : String) : IsTrimmed (trim s) := by
  unfold IsTrimmed
  rw [toList_trim]
  constructor
  · intro c first
    obtain ⟨after, whole⟩ := trimRight_isPrefix (trimLeft s.toList)
    refine head?_dropWhile_isBlank s.toList c ?_
    rw [← trimLeft, ← whole, List.head?_append, Option.mem_def.1 first]
    rfl
  · intro c last
    rw [trimRight, List.getLast?_reverse] at last
    exact head?_dropWhile_isBlank _ c last

theorem trim_of_isTrimmed {s : String} (trimmed : IsTrimmed s) : trim s = s := by
  obtain ⟨first, last⟩ := trimmed
  rw [← List.head?_reverse] at last
  rw [trim, trimLeft, dropWhile_isBlank_of_head? first, trimRight, dropWhile_isBlank_of_head? last,
    List.reverse_reverse, String.ofList_toList]

theorem mem_of_mem_trim {s : String} {c : Char} (mem : c ∈ (trim s).toList) : c ∈ s.toList := by
  rw [toList_trim] at mem
  exact (List.dropWhile_suffix isBlank).subset ((trimRight_isPrefix _).subset mem)

/-! ## Pieces between separators -/

theorem not_separator_of_mem_pieces {isSeparator : Char → Bool} {cs piece : List Char}
    (mem : piece ∈ pieces isSeparator cs) : ∀ c ∈ piece, isSeparator c = false := by
  induction cs generalizing piece with
  | nil =>
    obtain rfl := List.mem_singleton.1 mem
    nofun
  | cons first cs ih =>
    obtain ⟨next, rest, cut⟩ := List.exists_cons_of_ne_nil (pieces_ne_nil cs)
    rw [pieces_cons, cut, grow] at mem
    rw [cut] at ih
    split at mem
    next =>
      rcases List.mem_cons.1 mem with rfl | mem
      · nofun
      · exact ih mem
    next letter =>
      rcases List.mem_cons.1 mem with rfl | mem
      · exact List.forall_mem_cons.2 ⟨eq_false_of_ne_true letter, ih List.mem_cons_self⟩
      · exact ih (List.mem_cons_of_mem _ mem)

end Text

namespace Heartbeat

open Text

variable {urls : List String} {text : String}

/-! ## Writing -/

theorem hasDelimiter_iff {url : String} : hasDelimiter url = true ↔ delimiter ∈ url.toList :=
  List.contains_iff_mem

theorem assemble_of_clean (clean : ∀ url ∈ urls, delimiter ∉ url.toList) :
    assemble urls = .ok (join urls) := by
  have none : urls.find? hasDelimiter = none :=
    List.find?_eq_none.2 fun url mem => hasDelimiter_iff.not.2 (clean url mem)
  rw [assemble, none]

/-- Urls are refused for the first of them that holds the delimiter. -/
theorem assemble_eq_error_iff {error : Error} : assemble urls = .error error ↔
    ∃ before url after, urls = before ++ url :: after ∧ delimiter ∈ url.toList ∧
      (∀ earlier ∈ before, delimiter ∉ earlier.toList) ∧ error = .encoding url := by
  unfold assemble
  constructor
  · intro refused
    split at refused
    next url found =>
      cases refused
      obtain ⟨here, before, after, whole, first⟩ := List.find?_eq_some_iff_append.1 found
      exact ⟨before, url, after, whole, hasDelimiter_iff.1 here,
        fun earlier mem => hasDelimiter_iff.not.1 (by simpa using first earlier mem), rfl⟩
    next => cases refused
  · rintro ⟨before, url, after, whole, here, first, rfl⟩
    have found : urls.find? hasDelimiter = some url := by
      refine List.find?_eq_some_iff_append.2
        ⟨hasDelimiter_iff.2 here, before, after, whole, fun earlier mem => ?_⟩
      simpa using hasDelimiter_iff.not.2 (first earlier mem)
    rw [found]

theorem disassemble_gzip_join (clean : ∀ url ∈ urls, delimiter ∉ url.toList) :
    disassemble (Codec.gzip (utf8 (join urls))) = .ok (legible urls) :=
  disassemble_payload fun url mem =>
    eq_false_of_ne_true (hasDelimiter_iff.not.2 (clean url mem))

/-! ## Reading -/

/-- A url as it stands among those read from a payload. -/
structure IsRead (url : String) : Prop where
  spoken : url ≠ ""
  clean : delimiter ∉ url.toList
  trimmed : IsTrimmed url

theorem isRead_of_mem_urlsIn {url : String} (mem : url ∈ urlsIn text) : IsRead url := by
  obtain ⟨mem_trimmed, spoken⟩ := List.mem_filter.1 mem
  obtain ⟨_, mem_split, rfl⟩ := List.mem_map.1 mem_trimmed
  obtain ⟨piece, cut, rfl⟩ := List.mem_map.1 mem_split
  refine ⟨by simpa using spoken, fun here => ?_, isTrimmed_trim _⟩
  have here := mem_of_mem_trim here
  rw [String.toList_ofList] at here
  simpa using not_separator_of_mem_pieces cut _ here

theorem isRead_of_disassemble {datagram : List UInt8} (read : disassemble datagram = .ok urls) :
    ∀ url ∈ urls, IsRead url := by
  unfold disassemble at read
  split at read
  · cases read
  split at read
  · cases read
  next text _ =>
    cases read
    exact fun url => isRead_of_mem_urlsIn

theorem legible_of_isRead (read : ∀ url ∈ urls, IsRead url) : legible urls = urls := by
  have same : urls.map trim = urls := by
    refine Eq.trans ?_ (List.map_id urls)
    exact List.map_congr_left fun url mem => trim_of_isTrimmed (read url mem).trimmed
  rw [legible, same, List.filter_eq_self]
  intro url mem
  simpa using (read url mem).spoken

/-- Urls without the delimiter are read back trimmed and without the blank ones, in their order and
as often as they were written. The urls read from any payload, whoever made it, are trimmed, not
empty and without the delimiter; so they can be written, and are read back as they are. Urls cannot
be written exactly if one holds the delimiter, and the first such url is told of. -/
theorem url_lists_round_trip :
    (∀ urls : List String, (∀ url ∈ urls, delimiter ∉ url.toList) →
      ∃ text, assemble urls = .ok text ∧
        disassemble (Codec.gzip (utf8 text)) = .ok ((urls.map trim).filter (!·.isEmpty))) ∧
    (∀ datagram urls, disassemble datagram = .ok urls →
      (∀ url ∈ urls, url ≠ "" ∧ delimiter ∉ url.toList ∧ IsTrimmed url) ∧
      ∃ text, assemble urls = .ok text ∧ disassemble (Codec.gzip (utf8 text)) = .ok urls) ∧
    ∀ (urls : List String) (error : Error), assemble urls = .error error ↔
      ∃ before url after, urls = before ++ url :: after ∧ delimiter ∈ url.toList ∧
        (∀ earlier ∈ before, delimiter ∉ earlier.toList) ∧ error = .encoding url := by
  refine ⟨fun urls clean => ?_, fun datagram urls read => ?_, fun urls error => ?_⟩
  · exact ⟨join urls, assemble_of_clean clean, disassemble_gzip_join clean⟩
  · have read := isRead_of_disassemble read
    have clean (url : String) (mem : url ∈ urls) := (read url mem).clean
    refine ⟨fun url mem => ⟨(read url mem).spoken, clean url mem, (read url mem).trimmed⟩,
      join urls, assemble_of_clean clean, ?_⟩
    rw [disassemble_gzip_join clean, legible_of_isRead read]
  · exact assemble_eq_error_iff

/-- An empty url, one between blanks and one that is told of twice; what is read of them is read
from its own payload again. -/
theorem padded_urls_round_trip :
    let urls := ["", "\u3000tcp://a:1/c ", " ", "tcp://b:2/d", "tcp://b:2/d"]
    let read := ["tcp://a:1/c", "tcp://b:2/d", "tcp://b:2/d"]
    (∀ url ∈ urls, delimiter ∉ url.toList) ∧
    (∃ text, assemble urls = .ok text ∧ disassemble (Codec.gzip (utf8 text)) = .ok read) ∧
    (∃ text, assemble read = .ok text ∧ disassemble (Codec.gzip (utf8 text)) = .ok read) ∧
    assemble ["tcp://a:1/c", "tcp://a:1/x|y", "|"] = .error (.encoding "tcp://a:1/x|y") := by
  intro urls read
  obtain ⟨written, foreign, refused⟩ := url_lists_round_trip
  have clean : ∀ url ∈ urls, delimiter ∉ url.toList := by decide +kernel
  have legible : (urls.map trim).filter (!·.isEmpty) = read := by decide +kernel
  obtain ⟨text, assembled, back⟩ := written urls clean
  rw [legible] at back
  refine ⟨clean, ⟨text, assembled, back⟩, (foreign _ read back).2, (refused _ _).2 ?_⟩
  exact ⟨["tcp://a:1/c"], "tcp://a:1/x|y", ["|"], rfl, by decide +kernel, by decide +kernel, rfl⟩

end Heartbeat

end CacheCluster
