import Mathlib.Data.List.Basic
import CacheCluster.Heartbeat
import CacheCluster.Proofs.Compression
import CacheCluster.Proofs.Utf8Text

/-! # Packing urls into payloads

A payload gives the urls that it was made from, trimmed and without blank ones. Packing divides a
list of urls into consecutive runs; each run has a payload that fits, or is a single url that does
not fit by itself. No url that fits is lost, doubled or moved.
-/

namespace CacheCluster

open scoped List

namespace Text

/-! ## Pieces -/

section Pieces

variable {isSeparator : Char → Bool}

theorem pieces_cons (c : Char) (cs : List Char) :
    pieces isSeparator (c :: cs) = grow isSeparator c (pieces isSeparator cs) :=
  rfl

theorem pieces_ne_nil (cs : List Char) : pieces isSeparator cs ≠ [] := by
  cases cs with
  | nil => exact List.cons_ne_nil _ _
  | cons c cs =>
    rw [pieces_cons]
    unfold grow
    split <;> split <;> exact List.cons_ne_nil _ _

/-- Text without a separator is one piece. -/
theorem pieces_of_none {cs : List Char} (h : ∀ c ∈ cs, isSeparator c = false) :
    pieces isSeparator cs = [cs] := by
  induction cs with
  | nil => rfl
  | cons c cs ih =>
    obtain ⟨first, rest⟩ := List.forall_mem_cons.1 h
    rw [pieces_cons, ih rest, grow, if_neg (by simp [first])]

/-- A separator ends the pieces before it. -/
theorem pieces_append_cons {c : Char} (separates : isSeparator c = true)
    (before after : List Char) :
    pieces isSeparator (before ++ c :: after) =
      pieces isSeparator before ++ pieces isSeparator after := by
  induction before with
  | nil =>
    obtain ⟨piece, rest, pieces_after⟩ := List.exists_cons_of_ne_nil (pieces_ne_nil after)
    rw [List.nil_append, pieces_cons, pieces_after, grow, if_pos separates]
    rfl
  | cons b before ih =>
    obtain ⟨piece, rest, pieces_before⟩ := List.exists_cons_of_ne_nil (pieces_ne_nil before)
    rw [List.cons_append, pieces_cons, ih, pieces_cons, pieces_before, List.cons_append, grow, grow]
    split <;> rfl

end Pieces

end Text

namespace Heartbeat

open Text

/-! ## One payload -/

/-- The urls as a receiver reads them: trimmed, and without blank ones. -/
def legible (urls : List String) : List String :=
  (urls.map trim).filter (!·.isEmpty)

theorem legible_append (urls more : List String) :
    legible (urls ++ more) = legible urls ++ legible more := by
  rw [legible, List.map_append, List.filter_append]
  rfl

theorem forall_ne_of_clean {url : String} (clean : hasDelimiter url = false) :
    ∀ c ∈ url.toList, (c == delimiter) = false := by
  intro c mem
  rw [beq_eq_false_iff_ne]
  rintro rfl
  simp [hasDelimiter, mem] at clean

theorem urlsIn_of_clean {url : String} (clean : hasDelimiter url = false) :
    urlsIn url = legible [url] := by
  rw [urlsIn, split, pieces_of_none (forall_ne_of_clean clean), List.map_singleton,
    String.ofList_toList]
  rfl

theorem urlsIn_empty : urlsIn "" = [] := by
  rw [urlsIn_of_clean (by decide +kernel), legible, List.map_singleton, trim_empty]
  rfl

/-- A url behind a delimiter is read behind the urls before it. -/
theorem urlsIn_push (text : String) {url : String} (clean : hasDelimiter url = false) :
    urlsIn (text.push delimiter ++ url) = urlsIn text ++ legible [url] := by
  have chars : (text.push delimiter ++ url).toList = text.toList ++ delimiter :: url.toList := by
    simp
  rw [← urlsIn_of_clean clean]
  simp only [urlsIn, split]
  rw [chars, pieces_append_cons (by simp), List.map_append, List.map_append, List.filter_append]

theorem urlsIn_join {urls : List String} (clean : ∀ url ∈ urls, hasDelimiter url = false) :
    urlsIn (join urls) = legible urls := by
  have from_text (text : String) :
      urlsIn (urls.foldl (fun text url =>
        (if text.isEmpty then text else text.push delimiter) ++ url) text) =
        urlsIn text ++ legible urls := by
    induction urls generalizing text with
    | nil => simp [legible]
    | cons url urls ih =>
      obtain ⟨first, rest⟩ := List.forall_mem_cons.1 clean
      rw [List.foldl_cons, ih rest, ← List.singleton_append, legible_append, ← List.append_assoc]
      congr 1
      split
      next empty =>
        obtain rfl : text = "" := by simpa using empty
        rw [String.empty_append, urlsIn_of_clean first, urlsIn_empty, List.nil_append]
      next => exact urlsIn_push text first
  rw [join, from_text, urlsIn_empty, List.nil_append]

theorem disassemble_payload {urls : List String} (clean : ∀ url ∈ urls, hasDelimiter url = false) :
    disassemble (payload urls) = .ok (legible urls) := by
  rw [disassemble, payload, Codec.ungzip_gzip]
  dsimp only
  rw [decodeUtf8_utf8]
  dsimp only
  rw [urlsIn_join clean]

theorem disassemble_payloads {runs : List (List String)}
    (clean : ∀ run ∈ runs, ∀ url ∈ run, hasDelimiter url = false) :
    (runs.map payload).mapM disassemble = .ok (runs.map legible) := by
  induction runs with
  | nil => rfl
  | cons run runs ih =>
    obtain ⟨first, rest⟩ := List.forall_mem_cons.1 clean
    rw [List.map_cons, List.mapM_cons, disassemble_payload first, ih rest]
    rfl

/-! ## Many payloads -/

/-- Whether the payload of some urls is within the limit. -/
def fits (limit : Nat) (urls : List String) : Bool :=
  (payload urls).length ≤ limit

/-- A packing goes through consecutive runs of the urls: those that fit are sent, each in a payload
of its own, and the others are single urls. -/
structure Divides (limit : Nat) (urls : List String) (packing : Packing)
    (runs : List (List String)) : Prop where
  whole : runs.flatten = urls
  nonempty : ∀ run ∈ runs, run ≠ []
  single : ∀ run ∈ runs, fits limit run = false → ∃ url, run = [url]
  sent : packing.payloads = (runs.filter (fits limit)).map payload
  tooLong : packing.tooLong = (runs.filter (!fits limit ·)).flatten

variable {limit : Nat} {urls more : List String} {packing packing' : Packing}
  {runs runs' : List (List String)}

theorem Divides.append (h : Divides limit urls packing runs)
    (h' : Divides limit more packing' runs') :
    Divides limit (urls ++ more) (packing ++ packing') (runs ++ runs') where
  whole := by rw [List.flatten_append, h.whole, h'.whole]
  nonempty := by
    intro run mem
    exact (List.mem_append.1 mem).elim (h.nonempty run) (h'.nonempty run)
  single := by
    intro run mem
    exact (List.mem_append.1 mem).elim (h.single run) (h'.single run)
  sent := by
    rw [List.filter_append, List.map_append, ← h.sent, ← h'.sent]
    rfl
  tooLong := by
    rw [List.filter_append, List.flatten_append, ← h.tooLong, ← h'.tooLong]
    rfl

theorem packClean_nil (limit : Nat) : packClean limit [] = {} := by
  rw [packClean]

theorem packClean_of_fits (some_urls : urls ≠ []) (small : fits limit urls = true) :
    packClean limit urls = { payloads := [payload urls] } := by
  obtain ⟨first, rest, rfl⟩ := List.exists_cons_of_ne_nil some_urls
  rw [packClean, if_pos (of_decide_eq_true small)]

theorem packClean_single {url : String} (large : fits limit [url] = false) :
    packClean limit [url] = { tooLong := [url] } := by
  rw [packClean, if_neg (of_decide_eq_false large)]
  rfl

/-- The recursion halves what does not fit, down to single urls. -/
theorem exists_divides (limit : Nat) (urls : List String) :
    ∃ runs, Divides limit urls (packClean limit urls) runs := by
  induction urls using packClean.induct limit with
  | case1 =>
    rw [packClean_nil]
    exact ⟨[], rfl, by simp, by simp, rfl, rfl⟩
  | case2 first rest _ small =>
    have small : fits limit (first :: rest) = true := decide_eq_true small
    rw [packClean_of_fits (List.cons_ne_nil _ _) small]
    exact ⟨[first :: rest], by simp, by simp, by simp [small], by simp [small], by simp [small]⟩
  | case3 first rest _ large alone =>
    obtain rfl : rest = [] := List.isEmpty_iff.1 alone
    have large : fits limit [first] = false := decide_eq_false large
    rw [packClean_single large]
    exact ⟨[[first]], by simp, by simp, by simp, by simp [large], by simp [large]⟩
  | case4 first rest _ large several half ihTake ihDrop =>
    obtain ⟨taken, hTaken⟩ := ihTake
    obtain ⟨dropped, hDropped⟩ := ihDrop
    have halves := hTaken.append hDropped
    rw [List.take_append_drop] at halves
    rw [packClean, if_neg large, if_neg several]
    exact ⟨taken ++ dropped, halves⟩

/-- What is sent is what there is but for urls that do not fit. -/
theorem Divides.sent_sublist (h : Divides limit urls packing runs) :
    (runs.filter (fits limit)).flatten <+ urls := by
  obtain ⟨rfl, -, -, -, -⟩ := h
  clear packing
  induction runs with
  | nil => exact .slnil
  | cons run runs ih =>
    rw [List.filter_cons, List.flatten_cons]
    split
    next =>
      rw [List.flatten_cons]
      exact (List.Sublist.refl run).append ih
    next => exact ih.trans (List.sublist_append_right _ _)

theorem Divides.fitting_sublist (h : Divides limit urls packing runs) :
    urls.filter (fun url => fits limit [url]) <+ (runs.filter (fits limit)).flatten := by
  obtain ⟨rfl, -, single, -, -⟩ := h
  clear packing
  induction runs with
  | nil => exact .slnil
  | cons run runs ih =>
    obtain ⟨first, rest⟩ := List.forall_mem_cons.1 single
    rw [List.flatten_cons, List.filter_append]
    rcases small : fits limit run with _ | _
    · obtain ⟨url, rfl⟩ := first small
      rw [List.filter_cons_of_neg (by simp [small]), List.filter_cons_of_neg (by simp [small])]
      exact ih rest
    · rw [List.filter_cons_of_pos small, List.flatten_cons]
      exact List.filter_sublist.append (ih rest)

theorem legible_flatten (runs : List (List String)) :
    legible runs.flatten = (runs.map legible).flatten := by
  induction runs with
  | nil => rfl
  | cons run runs ih => rw [List.flatten_cons, legible_append, ih, List.map_cons, List.flatten_cons]

/-- The urls that a payload can hold: those without the delimiter. -/
def undelimited (urls : List String) : List String :=
  urls.filter (!hasDelimiter ·)

theorem hasDelimiter_of_mem_undelimited {url : String} (mem : url ∈ undelimited urls) :
    hasDelimiter url = false := by
  simpa using (List.mem_filter.1 mem).2

/-- Packing divides the urls without the delimiter into consecutive runs. The runs that fit are sent
in order, each in a payload within the limit that reads back as the run, trimmed and without blank
urls. A run that does not fit is a single url and reported as too long, so that every url that fits
by itself is sent, once and in its place. Where all urls fit together there is one payload, or none
if there is no url. -/
theorem pack_divides (limit : Nat) (urls : List String) :
    (∃ runs : List (List String),
      runs.flatten = undelimited urls ∧
      (∀ run ∈ runs, run ≠ []) ∧
      (∀ run ∈ runs, limit < (payload run).length → ∃ url, run = [url]) ∧
      (pack limit urls).tooLong =
        (runs.filter fun run => limit < (payload run).length).flatten ∧
      let sent := runs.filter fun run => (payload run).length ≤ limit
      (pack limit urls).payloads = sent.map payload ∧
      (pack limit urls).payloads.mapM disassemble = .ok (sent.map legible) ∧
      (sent.map legible).flatten = legible sent.flatten ∧
      ((undelimited urls).filter fun url => (payload [url]).length ≤ limit) <+ sent.flatten ∧
      sent.flatten <+ undelimited urls) ∧
    (∀ payload ∈ (pack limit urls).payloads, payload.length ≤ limit) ∧
    ((payload (undelimited urls)).length ≤ limit →
      (pack limit urls).payloads =
        if undelimited urls = [] then [] else [payload (undelimited urls)]) := by
  obtain ⟨runs, divides⟩ := exists_divides limit (undelimited urls)
  have payloads_eq : (pack limit urls).payloads = (runs.filter (fits limit)).map payload :=
    divides.sent
  refine ⟨⟨runs, divides.whole, divides.nonempty, ?_, ?_, payloads_eq, ?_,
    (legible_flatten _).symm, divides.fitting_sublist, divides.sent_sublist⟩, ?_, ?_⟩
  · intro run mem large
    exact divides.single run mem (decide_eq_false (Nat.not_le.2 large))
  · have tooLong_eq : (pack limit urls).tooLong = (runs.filter (!fits limit ·)).flatten :=
      divides.tooLong
    have large_eq (run : List String) :
        (!fits limit run) = decide (limit < (payload run).length) := by
      rw [fits, ← decide_not]
      exact decide_eq_decide.2 Nat.not_le
    rw [tooLong_eq]
    simp only [large_eq]
  · rw [payloads_eq]
    refine disassemble_payloads fun run mem url mem_url => ?_
    have undelimited_url : url ∈ undelimited urls := by
      rw [← divides.whole]
      exact List.mem_flatten_of_mem (List.mem_of_mem_filter mem) mem_url
    exact hasDelimiter_of_mem_undelimited undelimited_url
  · rw [payloads_eq]
    intro text mem
    obtain ⟨run, mem_run, rfl⟩ := List.mem_map.1 mem
    exact of_decide_eq_true (List.mem_filter.1 mem_run).2
  · intro small
    have packing_eq : (pack limit urls).payloads =
        (packClean limit (undelimited urls)).payloads := rfl
    rw [packing_eq]
    split
    next none => rw [none, packClean_nil]
    next some_urls => rw [packClean_of_fits some_urls (decide_eq_true small)]

end Heartbeat

end CacheCluster
