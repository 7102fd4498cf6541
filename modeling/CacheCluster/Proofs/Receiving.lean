import CacheCluster.Peer.Provider
import CacheCluster.Proofs.Hearing

/-! # Receiving heartbeats

A datagram is taken in as a whole or not at all. What is taken in adds to the live urls those that
were read and are not the node's own, and what is counted is how many more there are, however often
a url stands in the datagram and whether it was unknown or stale before.
-/

namespace CacheCluster

open Heartbeat

namespace Registry

/-- A url that is known for good. -/
def IsPermanent (registry : Registry) (url : String) : Prop :=
  (registry.peers.get? url).map (·.expiring) = some false

variable {before after : Registry} {now : Nat} {urls : List String}

/-- Hearing of a url makes it neither permanent nor expiring if it was known. -/
theorem Notes.isPermanent_iff (h : Notes now urls before after) {url : String} :
    after.IsPermanent url ↔ before.IsPermanent url := by
  unfold IsPermanent
  rw [h.known]
  split
  · cases before.peers.get? url <;> simp
  · rfl

theorem Notes.get?_of_notMem (h : Notes now urls before after) {url : String}
    (unheard : url ∉ urls) :
    after.peers.get? url = before.peers.get? url := by
  rw [h.known, if_neg unheard]

end Registry

namespace Provider

open Registry

/-- A datagram that does not read is refused for its fault and leaves the provider as it is. From
one that reads the urls that are not the node's own become live beside those that were; the count is
the number of urls that became live. What is permanent stays so and nothing else becomes it, and of
other urls the registry keeps what it knew. -/
theorem receive_takes_all_or_nothing (provider : Provider) (now : Nat) (own : List String)
    (datagram : List UInt8) (metrics : Metrics) :
    let registry := provider.registry
    (∀ error, disassemble datagram = .error error →
      registry.hear now own datagram = .error error ∧
      (provider.receive now own datagram metrics).1 = provider) ∧
    ∀ urls, disassemble datagram = .ok urls → ∃ count after,
      registry.hear now own datagram = .ok (count, after) ∧
      (provider.receive now own datagram metrics).1 = { provider with registry := after } ∧
      (after.live now).Pairwise (· < ·) ∧
      (∀ url, url ∈ after.live now ↔ url ∈ registry.live now ∨ url ∈ urls ∧ url ∉ own) ∧
      (registry.live now).length + count = (after.live now).length ∧
      count = ((after.live now).filter (· ∉ registry.live now)).length ∧
      (∀ url, after.IsPermanent url ↔ registry.IsPermanent url) ∧
      ∀ url, url ∉ urls ∨ url ∈ own → after.peers.get? url = registry.peers.get? url := by
  intro registry
  refine ⟨fun error unread => ?_, fun urls read => ?_⟩
  · have refused : registry.hear now own datagram = .error error := hear_of_error unread
    exact ⟨refused, by rw [receive, refused]⟩
  · have heard : registry.hear now own datagram = _ := hear_of_ok read
    obtain ⟨notes, counted⟩ := hearUrls_notes now own urls 0 registry
    have news := notes.length_news
    generalize hearUrls now own urls (0, registry) = result at heard notes counted news
    obtain ⟨count, after⟩ := result
    dsimp only at notes counted news
    refine ⟨count, after, heard, by rw [receive, heard], sorted_live after now, fun url => ?_, ?_,
      ?_, fun url => notes.isPermanent_iff, fun url other => notes.get?_of_notMem fun mem => ?_⟩
    · rw [notes.mem_live_iff, mem_foreign_iff]
    · omega
    · omega
    · obtain ⟨told, foreign⟩ := mem_foreign_iff.1 mem
      exact other.elim (absurd told) foreign

/-- A registry with a permanent url, one heard of a while ago, and two stale ones. -/
def mixed : Registry :=
  (((({ staleTimeout := some 100 } : Registry).register 0 "tcp://p:1/c").refresh 950
    "tcp://l:1/c").refresh 0 "tcp://s:1/c").refresh 0 "tcp://o:1/c"

/-- Of the urls that are told of, a stale one that stands there twice and an unknown one are news.
The node's own url stays stale, and a datagram of one byte changes nothing. -/
theorem stale_url_is_counted_once :
    let told := ["tcp://s:1/c", "tcp://n:1/c", "tcp://s:1/c ", "tcp://p:1/c", "tcp://o:1/c"]
    let read := ["tcp://s:1/c", "tcp://n:1/c", "tcp://s:1/c", "tcp://p:1/c", "tcp://o:1/c"]
    let provider : Provider := { registry := mixed }
    disassemble (payload told) = .ok read ∧
    disassemble [0x1F] = .error (.corruptPayload "unexpected end of file") ∧
    (∃ after, provider.registry.hear 1000 ["tcp://o:1/c"] (payload told) = .ok (2, after) ∧
      after.live 1000 = ["tcp://l:1/c", "tcp://n:1/c", "tcp://p:1/c", "tcp://s:1/c"] ∧
      after.peers.get? "tcp://o:1/c" = some ⟨0, true⟩) ∧
    (provider.receive 1000 ["tcp://o:1/c"] [0x1F] {}).1 = provider := by
  intro told read provider
  have unread : disassemble [0x1F] = .error (.corruptPayload "unexpected end of file") := rfl
  have reads : disassemble (payload told) = .ok read := by
    rw [disassemble_payload (by decide +kernel)]
    exact congrArg _ (by decide +kernel)
  obtain ⟨-, taken⟩ := receive_takes_all_or_nothing provider 1000 ["tcp://o:1/c"] (payload told) {}
  obtain ⟨refused, -⟩ := receive_takes_all_or_nothing provider 1000 ["tcp://o:1/c"] [0x1F] {}
  obtain ⟨count, after, heard, -, -, -, counted, -, -, kept⟩ := taken read reads
  have same := Except.ok.inj (heard.symm.trans (hear_of_ok reads))
  have live : after.live 1000 = ["tcp://l:1/c", "tcp://n:1/c", "tcp://p:1/c", "tcp://s:1/c"] := by
    rw [show after = _ from congrArg Prod.snd same]
    decide +kernel
  have two : count = 2 := by
    rw [live, show (provider.registry.live 1000).length = 2 by decide +kernel] at counted
    exact Nat.add_left_cancel counted
  subst two
  refine ⟨reads, unread, ⟨after, heard, live, ?_⟩, (refused _ unread).2⟩
  rw [kept "tcp://o:1/c" (.inr List.mem_cons_self)]
  decide +kernel

end Provider

end CacheCluster
