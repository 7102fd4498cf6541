import CacheCluster.Node.Basic
import CacheCluster.Proofs.JsonReading

/-! # Reading urls

A connection takes for the name of a cache what follows the first slash of a url, a lookup what
follows the last. A url that is made for a cache has one slash after its host, and the last colon
before that slash is the one in front of the port, so that the host, the port and the name can be
read off it.
-/

namespace CacheCluster

/-! ## Addresses -/

def Address.format (host : String) (port : Nat) : String :=
  host ++ ":" ++ toString port

namespace Address

variable {host other : String} {port port' : Nat}

theorem toList_format (host : String) (port : Nat) :
    (format host port).toList = host.toList ++ ':' :: (toString port).toList := by
  simp [format]

theorem notMem_port {c : Char} (noDigit : c.isDigit = false) (port : Nat) :
    c ∉ (toString port).toList := by
  intro mem
  have digit := Decimal.isDigit_toDigits c (by simpa using mem)
  simp [noDigit] at digit

/-- Only the last colon of an address stands in front of the port. -/
theorem cutLast_format (host : String) (port : Nat) :
    Text.cutLast ':' (format host port).toList = some (host.toList, (toString port).toList) :=
  Text.cutLast_eq_some_iff.2 ⟨toList_format host port, notMem_port (by decide) port⟩

theorem format_inj : format host port = format other port' ↔ host = other ∧ port = port' := by
  constructor
  · intro same
    have cut := cutLast_format host port
    rw [same, cutLast_format, Option.some.injEq, Prod.mk.injEq] at cut
    have digits : Nat.toDigits 10 port = Nat.toDigits 10 port' := by simpa using cut.2.symm
    have read := congrArg (Decimal.readDigits 0) digits
    rw [Decimal.readDigits_toDigits, Decimal.readDigits_toDigits] at read
    exact ⟨String.toList_injective cut.1.symm, Option.some.inj read⟩
  · rintro ⟨rfl, rfl⟩
    rfl

theorem notMem_format {c : Char} (clean : c ∉ host.toList) (noColon : c ≠ ':')
    (noDigit : c.isDigit = false) (port : Nat) : c ∉ (format host port).toList := by
  rw [toList_format]
  simp only [List.mem_append, List.mem_cons, not_or]
  exact ⟨clean, noColon, notMem_port noDigit port⟩

theorem cutFirst_format (clean : '/' ∉ host.toList) (port : Nat) (rest : List Char) :
    Text.cutFirst '/' ((format host port).toList ++ '/' :: rest) =
      some ((format host port).toList, rest) :=
  Text.cutFirst_eq_some_iff.2 ⟨rfl, notMem_format clean (by decide) (by decide) port⟩

end Address

theorem Node.isCacheName_iff {name : String} :
    isCacheName name = true ↔
      name ≠ "" ∧ Heartbeat.delimiter ∉ name.toList ∧ '/' ∉ name.toList := by
  simp [isCacheName, and_assoc]

namespace PeerUrl

/-! ## What a connection reads -/

theorem parts?_eq_some_iff {url address cache : List Char} :
    parts? url = some (address, cache) ↔
      url = lead ++ (address ++ '/' :: cache) ∧ '/' ∉ address ∧ ':' ∈ address ∧ cache ≠ [] := by
  rw [parts?, Option.filter_eq_some_iff, Option.bind_eq_some_iff]
  simp only [Text.dropStart_eq_some_iff, Text.cutFirst_eq_some_iff, Bool.and_eq_true,
    Bool.not_eq_true', List.isEmpty_eq_false_iff, List.contains_iff_mem]
  constructor
  · rintro ⟨⟨rest, rfl, rfl, clean⟩, ⟨-, named⟩, colon⟩
    exact ⟨rfl, clean, colon, named⟩
  · rintro ⟨rfl, clean, colon, named⟩
    exact ⟨⟨_, rfl, rfl, clean⟩, ⟨List.ne_nil_of_mem colon, named⟩, colon⟩

theorem parse_eq_ok_iff {url address cache : String} :
    parse url = .ok (address, cache) ↔
      url.toList = lead ++ (address.toList ++ '/' :: cache.toList) ∧ '/' ∉ address.toList ∧
        ':' ∈ address.toList ∧ cache ≠ "" := by
  have named : cache ≠ "" ↔ cache.toList ≠ [] := by simp
  rw [named, ← parts?_eq_some_iff, parse]
  cases parts? url.toList with
  | none => simp
  | some parts =>
    obtain ⟨place, name⟩ := parts
    simp [← String.toList_inj]

/-! ## What a lookup reads -/

theorem cacheName_eq_self_iff {s : String} : cacheName s = s ↔ '/' ∉ s.toList := by
  rw [cacheName]
  cases cut : Text.cutLast '/' s.toList with
  | none => simpa using Text.cutLast_eq_none_iff.1 cut
  | some parts =>
    obtain ⟨before, name⟩ := parts
    obtain ⟨chars, -⟩ := Text.cutLast_eq_some_iff.1 cut
    have shorter : name ≠ before ++ '/' :: name := by
      intro same
      have length := congrArg List.length same
      simp only [List.length_append, List.length_cons] at length
      omega
    simpa [chars, ← String.toList_inj] using shorter

/-- What stands before a slash does not matter to a lookup. -/
theorem cacheName_of_toList_eq {url rest : String} {before : List Char}
    (chars : url.toList = before ++ '/' :: rest.toList) : cacheName url = cacheName rest := by
  rw [cacheName, cacheName, chars]
  cases cut : Text.cutLast '/' rest.toList with
  | none =>
    have clean := Text.cutLast_eq_none_iff.1 cut
    simp [Text.cutLast_eq_some_iff.2 ⟨rfl, clean⟩]
  | some parts =>
    obtain ⟨between, name⟩ := parts
    obtain ⟨split, clean⟩ := Text.cutLast_eq_some_iff.1 cut
    have whole : before ++ '/' :: rest.toList = (before ++ '/' :: between) ++ '/' :: name := by
      simp [split]
    simp [Text.cutLast_eq_some_iff.2 ⟨whole, clean⟩]

/-- A lookup takes a url for one of the last piece of the name that a connection takes from it. -/
theorem cacheName_of_parse {url address cache : String} (read : parse url = .ok (address, cache)) :
    cacheName url = cacheName cache := by
  obtain ⟨chars, -⟩ := parse_eq_ok_iff.1 read
  rw [← List.append_assoc] at chars
  exact cacheName_of_toList_eq chars

/-! ## The url of a cache -/

variable {host host' cache cache' : String} {port port' : Nat}

theorem toList_format (host : String) (port : Nat) (cache : String) :
    (format host port cache).toList =
      lead ++ ((Address.format host port).toList ++ '/' :: cache.toList) := by
  simp [format, Address.format, lead, String.toList_append]

theorem parse_format_eq_ok (clean : '/' ∉ host.toList) (named : cache ≠ "") :
    parse (format host port cache) = .ok (Address.format host port, cache) := by
  refine parse_eq_ok_iff.2 ⟨toList_format host port cache, ?_, ?_, named⟩
  · exact Address.notMem_format clean (by decide) (by decide) port
  · simp [Address.toList_format]

theorem cacheName_format (host : String) (port : Nat) (clean : '/' ∉ cache.toList) :
    cacheName (format host port cache) = cache := by
  have chars := toList_format host port cache
  rw [← List.append_assoc] at chars
  rw [cacheName_of_toList_eq chars, cacheName_eq_self_iff.2 clean]

theorem isFor_format_iff (host : String) (port : Nat) (clean : '/' ∉ cache.toList) :
    isFor cache' (format host port cache) = true ↔ cache' = cache := by
  rw [isFor, cacheName_format host port clean, beq_iff_eq, eq_comm]

theorem format_injective (host : String) (port : Nat) :
    Function.Injective (format host port) := by
  intro cache other same
  have chars := congrArg String.toList same
  rw [toList_format, toList_format] at chars
  have rest := List.append_cancel_left (List.append_cancel_left chars)
  exact String.toList_injective (List.cons.inj rest).2

theorem format_inj (clean : '/' ∉ host.toList) (clean' : '/' ∉ host'.toList) :
    format host port cache = format host' port' cache' ↔
      host = host' ∧ port = port' ∧ cache = cache' := by
  constructor
  · intro same
    have chars := congrArg String.toList same
    rw [toList_format, toList_format] at chars
    have first := Address.cutFirst_format clean port cache.toList
    rw [List.append_cancel_left chars, Address.cutFirst_format clean'] at first
    obtain ⟨address, name⟩ := Prod.mk.inj (Option.some.inj first.symm)
    obtain ⟨rfl, rfl⟩ := Address.format_inj.1 (String.toList_injective address)
    exact ⟨rfl, rfl, String.toList_injective name⟩
  · rintro ⟨rfl, rfl, rfl⟩
    rfl

/-- The url of a cache leads back to it, for a connection and for a lookup: both read off the name
that it was made for, and no other host, port or name has the same url. Colons do not matter, nor
does it whether the host or the name begins like a url. -/
theorem urls_identify_caches (clean : '/' ∉ host.toList) (valid : Node.isCacheName cache = true)
    (port : Nat) :
    let url := format host port cache
    parse url = .ok (Address.format host port, cache) ∧ cacheName url = cache ∧
      (∀ other, isFor other url = true ↔ other = cache) ∧
      ∀ host' port' cache', '/' ∉ host'.toList → format host' port' cache' = url →
        host' = host ∧ port' = port ∧ cache' = cache := by
  intro url
  obtain ⟨named, -, slashless⟩ := Node.isCacheName_iff.1 valid
  refine ⟨parse_format_eq_ok clean named, cacheName_format host port slashless,
    fun other => isFor_format_iff host port slashless, ?_⟩
  intro host' port' cache' clean' same
  exact (format_inj clean' clean).1 same

/-- The host and the name begin like urls, and another port shifts the colon in front of it. -/
theorem urls_identify_caches_colons :
    '/' ∉ "tcp:a:1".toList ∧ Node.isCacheName "tcp:b:2" = true ∧
      parse (format "tcp:a:1" 2 "tcp:b:2") = .ok ("tcp:a:1:2", "tcp:b:2") ∧
      isFor "b:2" (format "tcp:a:1" 2 "tcp:b:2") = false ∧
      format "tcp:a" 12 "tcp:b:2" ≠ format "tcp:a:1" 2 "tcp:b:2" := by
  have clean : '/' ∉ "tcp:a:1".toList := by decide +kernel
  have valid : Node.isCacheName "tcp:b:2" = true := by decide +kernel
  obtain ⟨read, -, named, distinct⟩ := urls_identify_caches clean valid 2
  refine ⟨clean, valid, read, ?_, ?_⟩
  · rw [← Bool.not_eq_true, named]
    decide
  · intro same
    have hosts := (distinct "tcp:a" 12 "tcp:b:2" (by decide +kernel) same).1
    exact absurd hosts (by decide)

end PeerUrl

end CacheCluster
