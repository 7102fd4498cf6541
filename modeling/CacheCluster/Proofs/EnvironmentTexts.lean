import CacheCluster.Proofs.JsonReading
import CacheCluster.Proofs.Overrides
import CacheCluster.Proofs.SelfDiscovery
import CacheCluster.Proofs.UrlLists

/-! # Texts of the environment

The text of a variable that spells a truth value or a number is kept as that, and is written anew
when a text is asked for, while the text of a flag is kept as it is. Both texts are a single part
for every reader of lists, so that a configuration reads alike from both just if what is written
anew is the same.
-/

namespace CacheCluster

namespace Text

/-! ## Solid texts -/

/-- A character that is neither trimmed off a text nor separates the parts of a list. -/
def IsSolid (c : Char) : Prop :=
  isBlank c = false ∧ c ≠ '|' ∧ c ≠ ','

/-- The characters that are not solid. -/
def gaps : List Char :=
  [0x09, 0x0A, 0x0B, 0x0C, 0x0D, 0x20, 0x2C, 0x7C, 0x85, 0xA0, 0x1680, 0x2000, 0x2001, 0x2002,
    0x2003, 0x2004, 0x2005, 0x2006, 0x2007, 0x2008, 0x2009, 0x200A, 0x2028, 0x2029, 0x202F, 0x205F,
    0x3000].map Char.ofNat

theorem mem_gaps_of_isBlank {c : Char} (blank : isBlank c = true) : c ∈ gaps := by
  refine List.mem_map.2 ⟨c.toNat, ?_, Char.ofNat_toNat c⟩
  simp only [isBlank, Bool.or_eq_true, Bool.and_eq_true, decide_eq_true_eq, beq_iff_eq] at blank
  simp only [List.mem_cons, List.not_mem_nil, or_false]
  omega

theorem isSolid_iff {c : Char} : IsSolid c ↔ c ∉ gaps := by
  constructor
  · -- the few gaps are gone through, not all characters
    rintro ⟨visible, notBar, notComma⟩ gap
    have all : gaps.all (fun c => isBlank c || c == '|' || c == ',') = true := by decide
    simpa [visible, notBar, notComma] using List.all_eq_true.1 all c gap
  · intro notGap
    refine ⟨eq_false_of_ne_true fun blank => notGap (mem_gaps_of_isBlank blank), ?_, ?_⟩
    · rintro rfl
      exact notGap (by decide)
    · rintro rfl
      exact notGap (by decide)

/-- What holds of no gap holds of solid characters only. -/
theorem isSolid_of {p : Char → Bool} (apart : gaps.any p = false) {c : Char} (holds : p c = true) :
    IsSolid c :=
  isSolid_iff.2 fun gap => List.any_eq_false.1 apart c gap holds

theorem isSolid_of_digit? {c : Char} (digit : (Decimal.digit? c).isSome = true) : IsSolid c :=
  isSolid_of (p := fun c => (Decimal.digit? c).isSome) (by decide) digit

/-- A text without gaps in which there is something. -/
structure IsPart (s : String) : Prop where
  nonempty : s.toList ≠ []
  solid : ∀ c ∈ s.toList, IsSolid c

theorem isPart_ofList {cs : List Char} (nonempty : cs ≠ []) (solid : ∀ c ∈ cs, IsSolid c) :
    IsPart (String.ofList cs) where
  nonempty := by rwa [String.toList_ofList]
  solid := by rwa [String.toList_ofList]

theorem isPart_of_all {s : String} (nonempty : s.toList ≠ [])
    (apart : s.toList.all (!gaps.contains ·) = true) : IsPart s where
  nonempty := nonempty
  solid c mem := isSolid_iff.2 (by simpa using List.all_eq_true.1 apart c mem)

namespace IsPart

variable {s : String}

theorem trim_eq (h : IsPart s) : trim s = s :=
  trim_of_isTrimmed ⟨fun c first => (h.solid c (List.mem_of_mem_head? first)).1,
    fun c last => (h.solid c (List.mem_of_mem_getLast? last)).1⟩

theorem isEmpty_eq (h : IsPart s) : s.isEmpty = false := by
  rw [Bool.eq_false_iff, ne_eq, String.isEmpty_iff]
  rintro rfl
  exact h.nonempty rfl

theorem split_eq (h : IsPart s) {isSeparator : Char → Bool}
    (solid : ∀ c, IsSolid c → isSeparator c = false) : split isSeparator s = [s] := by
  rw [split, pieces_of_none fun c mem => solid c (h.solid c mem), List.map_singleton,
    String.ofList_toList]

theorem nonBlank?_eq (h : IsPart s) : Settings.nonBlank? s = some s := by
  rw [Settings.nonBlank?, h.trim_eq, Option.filter_some, h.isEmpty_eq]
  rfl

theorem partsOf_eq (h : IsPart s) {isSeparator : Char → Bool}
    (solid : ∀ c, IsSolid c → isSeparator c = false) : Settings.partsOf isSeparator s = [s] := by
  rw [Settings.partsOf, h.trim_eq, h.split_eq solid, List.map_singleton, h.trim_eq,
    List.filter_cons_of_pos (by rw [h.isEmpty_eq]; rfl), List.filter_nil]

end IsPart

/-! ## Lower case -/

/-- A gap is no capital letter. -/
theorem lower_of_gap {c : Char} (gap : c ∈ gaps) :
    c.toLower = c ∧ lowerChar c = [c] ∧ c.toNat ≠ 0x3A3 := by
  have all :
      gaps.all (fun c => c.toLower == c && lowerChar c == [c] && c.toNat != 0x3A3) = true := by
    decide +kernel
  simpa [and_assoc] using List.all_eq_true.1 all c gap

theorem mem_lowerAfter_of_gap {c : Char} (gap : c ∈ gaps) {cs : List Char} (mem : c ∈ cs)
    (before : List Char) : c ∈ lowerAfter before cs := by
  induction cs generalizing before with
  | nil => cases mem
  | cons first cs ih =>
    rw [lowerAfter]
    rcases List.mem_cons.1 mem with rfl | mem
    · obtain ⟨-, self, notSigma⟩ := lower_of_gap gap
      rw [if_neg notSigma, self]
      exact List.mem_append_left _ List.mem_cons_self
    · exact List.mem_append_right _ (ih mem _)

/-- A text with a lower-case form that is a part is one itself. -/
theorem isPart_of_lowercase {s : String} (h : IsPart (lowercase s)) : IsPart s where
  nonempty empty := h.nonempty (by rw [lowercase, empty, lowerAfter, String.toList_ofList])
  solid c mem := by
    refine isSolid_iff.2 fun gap => ?_
    have kept : c ∈ (lowercase s).toList := by
      rw [lowercase, String.toList_ofList]
      exact mem_lowerAfter_of_gap gap mem []
    exact isSolid_iff.1 (h.solid c kept) gap

end Text

namespace Decimal

open Text (IsSolid IsPart isSolid_of isSolid_of_digit? isPart_ofList isPart_of_all)

/-! ## Numbers that are read -/

theorem solid_of_natural? {cs : List Char} (read : (natural? cs).isSome = true) :
    cs ≠ [] ∧ ∀ c ∈ cs, IsSolid c := by
  rw [natural?] at read
  split at read
  next => cases read
  next nonempty =>
    refine ⟨fun empty => nonempty (List.isEmpty_iff.2 empty), fun c mem => ?_⟩
    exact isSolid_of_digit? (isSome_digit? read c mem)

/-- A sign may lead the digits. -/
theorem solid_of_integer? {cs : List Char} {i : Int} (read : integer? cs = some i) :
    cs ≠ [] ∧ ∀ c ∈ cs, IsSolid c := by
  have signed {sign : Char} (solid : IsSolid sign) {ds : List Char}
      (read : (natural? ds).isSome = true) :
      sign :: ds ≠ [] ∧ ∀ c ∈ sign :: ds, IsSolid c :=
    ⟨List.cons_ne_nil _ _, List.forall_mem_cons.2 ⟨solid, (solid_of_natural? read).2⟩⟩
  unfold integer? at read
  split at read
  next ds =>
    refine signed (isSolid_of (p := (· == '-')) (by decide) rfl) ?_
    cases digits : natural? ds <;> simp [digits] at read ⊢
  next ds =>
    refine signed (isSolid_of (p := (· == '+')) (by decide) rfl) ?_
    cases digits : natural? ds <;> simp [digits] at read ⊢
  next =>
    refine solid_of_natural? ?_
    cases digits : natural? cs <;> simp [digits] at read ⊢

theorem isPart_of_int64? {s : String} {i : Int} (read : int64? s = some i) : IsPart s := by
  obtain ⟨nonempty, solid⟩ := solid_of_integer? (Option.filter_eq_some_iff.1 read).1
  exact ⟨nonempty, solid⟩

theorem solid_of_exponent? {cs : List Char} {i : Int} (read : exponent? cs = some i) :
    ∀ c ∈ cs, IsSolid c := by
  cases cs with
  | nil => nofun
  | cons c cs =>
    rw [exponent?] at read
    split at read
    next sign =>
      have solid := isSolid_of (p := fun c => c == 'e' || c == 'E') (by decide) sign
      exact List.forall_mem_cons.2 ⟨solid, (solid_of_integer? read).2⟩
    next => cases read

/-- What is split off are digits, and the rest stays as it is. -/
theorem solid_of_spanDigits {cs : List Char} (rest : ∀ c ∈ (spanDigits cs).2, IsSolid c) :
    ∀ c ∈ cs, IsSolid c := by
  intro c mem
  rw [spanDigits, List.span_eq_takeWhile_dropWhile] at rest
  rw [← List.takeWhile_append_dropWhile (p := fun c => (digit? c).isSome) (l := cs)] at mem
  rcases List.mem_append.1 mem with mem | mem
  · exact isSolid_of_digit? (List.all_eq_true.1 List.all_takeWhile c mem)
  · exact rest c mem

theorem solid_of_spanFraction {cs : List Char} (rest : ∀ c ∈ (spanFraction cs).2, IsSolid c) :
    ∀ c ∈ cs, IsSolid c := by
  unfold spanFraction at rest
  split at rest
  · exact List.forall_mem_cons.2
      ⟨isSolid_of (p := (· == '.')) (by decide) rfl, solid_of_spanDigits rest⟩
  · exact rest

/-- A text that is a part once its capital letters are replaced is one itself. -/
theorem solid_of_map_toLower {cs : List Char} {word : String} (h : IsPart word)
    (eq : String.ofList (cs.map Char.toLower) = word) : cs ≠ [] ∧ ∀ c ∈ cs, IsSolid c := by
  subst eq
  obtain ⟨nonempty, solid⟩ := h
  rw [String.toList_ofList] at nonempty solid
  refine ⟨fun empty => nonempty (by rw [empty, List.map_nil]), fun c mem => ?_⟩
  refine Text.isSolid_iff.2 fun gap => ?_
  have kept : c ∈ cs.map Char.toLower := List.mem_map.2 ⟨c, mem, (Text.lower_of_gap gap).1⟩
  exact Text.isSolid_iff.1 (solid c kept) gap

theorem solid_of_unsigned? {negative : Bool} {cs : List Char} {x : Binary64}
    (read : unsigned? negative cs = some x) : cs ≠ [] ∧ ∀ c ∈ cs, IsSolid c := by
  rw [unsigned?] at read
  dsimp only at read
  split at read
  next nan => exact solid_of_map_toLower (isPart_of_all (by decide) (by decide)) (beq_iff_eq.1 nan)
  next =>
    split at read
    next infinite =>
      rcases Bool.or_eq_true_iff.1 infinite with inf | infinity
      · exact solid_of_map_toLower (isPart_of_all (by decide) (by decide)) (beq_iff_eq.1 inf)
      · exact solid_of_map_toLower (isPart_of_all (by decide) (by decide)) (beq_iff_eq.1 infinity)
    next =>
      split at read
      next => cases read
      next digits =>
        obtain ⟨exponent, spelled, -⟩ := Option.map_eq_some_iff.1 read
        refine ⟨?_, solid_of_spanDigits (solid_of_spanFraction (solid_of_exponent? spelled))⟩
        rintro rfl
        exact digits rfl

theorem isPart_of_binary64? {s : String} {x : Binary64} (read : binary64? s = some x) :
    IsPart s := by
  unfold binary64? at read
  split at read
  next cs eq =>
    refine ⟨eq ▸ List.cons_ne_nil _ _,
      eq ▸ List.forall_mem_cons.2 ⟨?_, (solid_of_unsigned? read).2⟩⟩
    exact isSolid_of (p := (· == '-')) (by decide) rfl
  next cs eq =>
    refine ⟨eq ▸ List.cons_ne_nil _ _,
      eq ▸ List.forall_mem_cons.2 ⟨?_, (solid_of_unsigned? read).2⟩⟩
    exact isSolid_of (p := (· == '+')) (by decide) rfl
  next => exact ⟨(solid_of_unsigned? read).1, (solid_of_unsigned? read).2⟩

/-! ## Numbers that are written -/

theorem solid_toDigits (n : Nat) : ∀ c ∈ Nat.toDigits 10 n, IsSolid c :=
  fun _ mem => isSolid_of (p := Char.isDigit) (by decide) (isDigit_toDigits _ mem)

theorem isPart_toString (i : Int) : IsPart (toString i) := by
  constructor
  · rw [toList_toString]
    exact List.append_ne_nil_of_right_ne_nil _ Nat.toDigits_ne_nil
  · rw [toList_toString]
    refine List.forall_mem_append.2 ⟨?_, solid_toDigits _⟩
    split
    · exact List.forall_mem_singleton.2 (isSolid_of (p := (· == '-')) (by decide) rfl)
    · nofun

theorem solid_replicate_zero (n : Nat) : ∀ c ∈ List.replicate n '0', IsSolid c := by
  intro c mem
  rw [(List.mem_replicate.1 mem).2]
  exact isSolid_of (p := (· == '0')) (by decide) rfl

theorem isPart_positional (n : Nat) (power : Int) : IsPart (positional n power) := by
  rw [positional]
  dsimp only
  split
  · exact isPart_ofList (List.append_ne_nil_of_left_ne_nil Nat.toDigits_ne_nil _)
      (List.forall_mem_append.2 ⟨solid_toDigits n, solid_replicate_zero _⟩)
  · -- zeros in front make the digits more than the places behind the point
    generalize padded_eq : List.replicate ((-power).toNat + 1 - (Nat.toDigits 10 n).length) '0' ++
      Nat.toDigits 10 n = padded
    generalize places_eq : (-power).toNat = places
    have solid : ∀ c ∈ padded, IsSolid c :=
      padded_eq ▸ List.forall_mem_append.2 ⟨solid_replicate_zero _, solid_toDigits n⟩
    have long : places < padded.length := by
      rw [← padded_eq, List.length_append, List.length_replicate]
      omega
    have whole : padded.take (padded.length - places) ≠ [] := by
      rw [ne_eq, List.take_eq_nil_iff, not_or]
      exact ⟨by omega, List.ne_nil_of_length_pos (by omega)⟩
    have whole_solid : ∀ c ∈ padded.take (padded.length - places), IsSolid c :=
      fun c mem => solid c (List.mem_of_mem_take mem)
    split
    · exact isPart_ofList whole whole_solid
    · refine isPart_ofList (List.append_ne_nil_of_left_ne_nil whole _) ?_
      refine List.forall_mem_append.2 ⟨whole_solid, List.forall_mem_cons.2 ⟨?_, fun c mem => ?_⟩⟩
      · exact isSolid_of (p := (· == '.')) (by decide) rfl
      · have dropped := (List.dropWhile_suffix _).subset (List.mem_reverse.1 mem)
        exact solid c (List.mem_of_mem_drop (List.mem_reverse.1 dropped))

theorem isPart_render (x : Binary64) : IsPart x.render := by
  cases x with
  | nan => exact isPart_of_all (by decide) (by decide)
  | infinity negative => cases negative <;> exact Text.isPart_of_all (by decide) (by decide)
  | finite negative significand exponent =>
    have magnitude : IsPart (if significand = 0 then "0" else
        positional (shortest significand exponent).1 (shortest significand exponent).2) := by
      split
      · exact Text.isPart_of_all (by decide) (by decide)
      · exact isPart_positional _ _
    constructor
    · rw [Binary64.render, String.toList_append]
      exact List.append_ne_nil_of_right_ne_nil _ magnitude.nonempty
    · rw [Binary64.render, String.toList_append]
      refine List.forall_mem_append.2 ⟨?_, magnitude.solid⟩
      cases negative
      · nofun
      · exact List.forall_mem_singleton.2 (isSolid_of (p := (· == '-')) (by decide) rfl)

end Decimal

namespace Server

open Settings (Value Wording)
open Text (IsPart)

/-! ## Texts of variables -/

namespace Environment

/-- A text is kept as it is, or both it and the text of the value that it spells are parts. -/
theorem value_cases (s : String) : value s = .text s ∨
    ∃ written, (value s).toText? = some written ∧ IsPart s ∧ IsPart written := by
  have word {b : Bool} (spelled : Text.lowercase s = if b then "true" else "false") :
      ∃ written, (Value.bool b).toText? = some written ∧ IsPart s ∧ IsPart written := by
    have part : IsPart (if b then "true" else "false") := by
      cases b <;> exact Text.isPart_of_all (by decide) (by decide)
    exact ⟨_, rfl, Text.isPart_of_lowercase (spelled ▸ part), part⟩
  rw [value]
  split
  next yes => exact .inr (word (b := true) (beq_iff_eq.1 yes))
  next =>
    split
    next no => exact .inr (word (b := false) (beq_iff_eq.1 no))
    next =>
      split
      next i read =>
        exact .inr ⟨_, rfl, Decimal.isPart_of_int64? read, Decimal.isPart_toString i⟩
      next =>
        rcases read : Decimal.binary64? s with _ | x
        · exact .inl rfl
        · exact .inr ⟨_, rfl, Decimal.isPart_of_binary64? read, Decimal.isPart_render x⟩

/-- What a variable sets replaces whatever it is laid over. -/
theorem overlay_value (s : String) (below : Value) : Value.overlay below (value s) = value s := by
  rcases value_cases s with kept | ⟨written, read, -⟩
  · rw [kept]
    rfl
  · generalize value s = new at read
    cases new with
    | table entries => cases read
    | _ => rfl

end Environment

/-! ## The same text on the command line and in the environment -/

/-- A line of one option with its value attached. -/
theorem CommandLine.parse_attached {option value : String} {name : CommandLine.Name}
    {line : CommandLine} (nonempty : option.toList ≠ []) (clean : '=' ∉ option.toList)
    (known : CommandLine.ofLong? option = some (.option name))
    (taken : CommandLine.take {} value name = .ok line) :
    CommandLine.parse ["--" ++ option ++ "=" ++ value] = .ok line := by
  obtain ⟨first, rest, chars⟩ := List.exists_cons_of_ne_nil nonempty
  have word : ("--" ++ option ++ "=" ++ value).toList =
      '-' :: '-' :: first :: (rest ++ '=' :: value.toList) := by
    simp [String.toList_append, chars]
  have cut : Text.cutFirst '=' (first :: (rest ++ '=' :: value.toList)) =
      some (option.toList, value.toList) := by
    rw [Text.cutFirst_eq_some_iff, chars]
    exact ⟨rfl, chars ▸ clean⟩
  have long : CommandLine.Reading.long {} (first :: (rest ++ '=' :: value.toList)) =
      .ok { line, seen := [name] } := by
    rw [CommandLine.Reading.long, cut]
    dsimp only
    rw [String.ofList_toList, String.ofList_toList, known]
    simp only [CommandLine.Reading.name, CommandLine.Reading.settle, CommandLine.Reading.give,
      taken, Except.bind, Except.map, List.contains_nil, Bool.false_eq_true, if_false]
  rw [CommandLine.parse, CommandLine.readFrom, word]
  exact congrArg (Except.bind · _) long

/-- The settings that are lists of texts or words and have both a flag and a variable. -/
inductive Spoken
  | peerDiscovery | peerUrls | caches
  deriving DecidableEq

namespace Spoken

def wording : Spoken → Wording
  | peerDiscovery => .peerDiscovery
  | peerUrls => .peerUrls
  | caches => .caches

/-- The option of the command line. -/
def option : Spoken → String
  | peerDiscovery => "discovery"
  | peerUrls => "peers"
  | caches => "caches"

/-- The command line that has just the flag. -/
def line (s : String) : Spoken → CommandLine
  | peerDiscovery => { discovery := some s }
  | peerUrls => { peers := some s }
  | caches => { caches := some s }

variable {spoken other : Spoken} {s written : String}

theorem apart (ne : spoken ≠ other) :
    Settings.Apart (Settings.pathOf spoken.wording.key) (Settings.pathOf other.wording.key) := by
  refine CommandLine.apart_keys {} ?_ ?_ ?_
  · cases spoken <;> decide +kernel
  · cases other <;> decide +kernel
  · revert ne
    cases spoken <;> cases other <;> decide +kernel

theorem key?_variableFor (spoken : Spoken) :
    Environment.key? (Environment.variableFor spoken.wording.key) = some spoken.wording.key := by
  cases spoken <;> decide +kernel

theorem parse_line (spoken : Spoken) (s : String) :
    CommandLine.parse ["--" ++ spoken.option ++ "=" ++ s] = .ok (spoken.line s) := by
  cases spoken <;> exact CommandLine.parse_attached (by decide) (by decide) rfl rfl

theorem build_line (spoken : Spoken) (s : String) :
    Configuration.build (spoken.line s) [] [] =
      .ok ⟨⟨(Value.table []).setKey spoken.wording.key (.text s)⟩⟩ := by
  cases spoken <;> rfl

theorem build_variable (spoken : Spoken) (s : String) :
    Configuration.build {} [] [(Environment.variableFor spoken.wording.key, s)] =
      .ok ⟨⟨(Value.table []).setKey spoken.wording.key (Environment.value s)⟩⟩ := by
  have entries : Environment.entries [(Environment.variableFor spoken.wording.key, s)] =
      [(spoken.wording.key, Environment.value s)] := by
    rw [Environment.entries, List.filterMap_cons]
    dsimp only
    rw [key?_variableFor]
    rfl
  have bare : CommandLine.entries {} = .ok [] := rfl
  refine (Configuration.build_eq_ok_iff bare).2 ⟨[], rfl, ?_⟩
  rw [Configuration.belowFlags, entries]
  rfl

/-- What is answered to a text that is one part. -/
def shown (s : String) : Spoken → Value
  | peerDiscovery => .text s
  | peerUrls | caches => .ofTexts [s]

theorem shown_inj : spoken.shown s = spoken.shown written ↔ s = written := by
  cases spoken <;> simp [shown, Value.ofTexts]

theorem read_of_isPart {config : Settings.Configuration} {value : Value}
    (known : config.tree.get? (Settings.pathOf spoken.wording.key) = some value)
    (read : value.toText? = some s) (part : IsPart s) :
    spoken.wording.read config = spoken.shown s := by
  cases spoken with
  | peerDiscovery =>
    have text : config.peerDiscovery = (Settings.nonBlank? s).getD "automatic" :=
      congrArg (·.getD "automatic") (Settings.Configuration.text?_of_known known read)
    rw [wording, Wording.read, text, part.nonBlank?_eq]
    rfl
  | peerUrls =>
    have texts : config.peerUrls = Settings.partsOf (· == '|') s :=
      Settings.Configuration.parts_of_known known read _
    rw [wording, Wording.read, texts, part.partsOf_eq fun c solid => by simpa using solid.2.1]
    rfl
  | caches =>
    have texts : config.caches = Settings.partsOf (fun c => c == '|' || c == ',') s :=
      Settings.Configuration.parts_of_known known read _
    rw [wording, Wording.read, texts, part.partsOf_eq fun c solid => by simpa using solid.2]
    rfl

/-- A getter answers a text and what it was written anew as alike just if they are the same. -/
theorem read_setKey_iff (spoken : Spoken) (s : String) :
    spoken.wording.read ⟨(Value.table []).setKey spoken.wording.key (.text s)⟩ =
        spoken.wording.read ⟨(Value.table []).setKey spoken.wording.key (Environment.value s)⟩ ↔
      (Environment.value s).toText? = some s := by
  rcases Environment.value_cases s with kept | ⟨written, read, part, part_written⟩
  · rw [kept]
    exact iff_of_true rfl rfl
  · have text : spoken.wording.read ⟨(Value.table []).setKey spoken.wording.key (.text s)⟩ =
        spoken.shown s := read_of_isPart (Value.get?_set (fun _ => rfl) _ _) rfl part
    have typed : spoken.wording.read
        ⟨(Value.table []).setKey spoken.wording.key (Environment.value s)⟩ = spoken.shown written :=
      read_of_isPart (Value.get?_set (Environment.overlay_value s) _ _) read part_written
    rw [text, typed, shown_inj, read, Option.some_inj, eq_comm]

theorem read_setKey_of_ne (ne : spoken ≠ other) (value new : Value) :
    other.wording.read ⟨(Value.table []).setKey spoken.wording.key value⟩ =
      other.wording.read ⟨(Value.table []).setKey spoken.wording.key new⟩ := by
  refine Wording.read_congr ?_
  exact (Value.get?_set_of_apart (apart ne) _ _).trans (Value.get?_set_of_apart (apart ne) _ _).symm

end Spoken

namespace Configuration

/-- Two configurations give a node the same way to find peers, the same peers and the same
caches. -/
structure Agree (config other : Configuration) : Prop where
  peerDiscovery : config.core.peerDiscovery = other.core.peerDiscovery
  peerUrls : config.core.peerUrls = other.core.peerUrls
  caches : config.core.caches = other.core.caches

theorem agree_iff {config other : Configuration} : Agree config other ↔
    ∀ spoken : Spoken, spoken.wording.read config.core = spoken.wording.read other.core := by
  have texts_inj {texts others : List String} :
      Value.ofTexts texts = Value.ofTexts others ↔ texts = others := by
    rw [Value.ofTexts, Value.ofTexts, Value.list.injEq]
    exact (List.map_injective_iff.2 fun _ _ eq => Value.text.inj eq).eq_iff
  constructor
  · rintro ⟨discovery, urls, caches⟩ spoken
    cases spoken
    · exact congrArg Value.text discovery
    · exact congrArg Value.ofTexts urls
    · exact congrArg Value.ofTexts caches
  · intro same
    exact ⟨Value.text.inj (same .peerDiscovery), texts_inj.1 (same .peerUrls),
      texts_inj.1 (same .caches)⟩

/-- Any text can be given by a flag and by a variable. Without other settings the two configurations
agree just if the value that the environment takes the text for is written as the text: so for every
text that spells neither a truth value nor a number, and for those that are spelled as they are
written. -/
theorem variable_agrees_with_flag_iff (spoken : Spoken) (s : String) :
    ∃ line fromLine fromEnvironment,
      CommandLine.parse ["--" ++ spoken.option ++ "=" ++ s] = .ok line ∧
      build line [] [] = .ok fromLine ∧
      build {} [] [(Environment.variableFor spoken.wording.key, s)] = .ok fromEnvironment ∧
      (Agree fromLine fromEnvironment ↔ (Environment.value s).toText? = some s) := by
  refine ⟨_, _, _, spoken.parse_line s, spoken.build_line s, spoken.build_variable s, ?_⟩
  rw [agree_iff, ← spoken.read_setKey_iff s]
  constructor
  · intro same
    exact same spoken
  · intro own other
    by_cases ne : spoken = other
    · exact ne ▸ own
    · exact Spoken.read_setKey_of_ne ne _ _

/-- A cache with a name of digits loses its leading zeros in the environment. -/
theorem variable_respells_cache_name :
    ∃ line fromLine fromEnvironment,
      CommandLine.parse ["--caches=007"] = .ok line ∧ build line [] [] = .ok fromLine ∧
      build {} [] [("CACHEMESH__CACHES", "007")] = .ok fromEnvironment ∧
      fromLine.core.caches = ["007"] ∧ fromEnvironment.core.caches = ["7"] ∧
      ¬ Agree fromLine fromEnvironment := by
  obtain ⟨line, fromLine, fromEnvironment, parsed, built, built_variable, alike⟩ :=
    variable_agrees_with_flag_iff .caches "007"
  obtain rfl := Except.ok.inj (parsed.symm.trans (Spoken.parse_line .caches "007"))
  obtain rfl := Except.ok.inj (built.symm.trans (Spoken.build_line .caches "007"))
  obtain rfl := Except.ok.inj (built_variable.symm.trans (Spoken.build_variable .caches "007"))
  have name : Environment.variableFor Spoken.caches.wording.key = "CACHEMESH__CACHES" := by
    decide +kernel
  rw [name] at built_variable
  exact ⟨_, _, _, parsed, built, built_variable, by decide +kernel, by decide +kernel,
    alike.not.2 (by decide +kernel)⟩

end Configuration

end Server

end CacheCluster
