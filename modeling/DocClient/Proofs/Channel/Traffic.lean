import DocClient.Login.Handshake
import DocClient.Proofs.Channel.Exchange
import DocClient.Proofs.Wire.RequestStream

/-!
What the sink is told of a connection: first that it was made, then what passes over it, line by
line, and last that it was closed, if that is told at all.
-/
namespace DocClient

open Text (Bytes)

/-- The login request as the sink sees it. -/
def redactedLogin : String := "\x7b\"Command\":\"LOGIN\",\"Data\":\"<redacted>\"\x7d"

theorem shownLogin_eq : Session.shownLogin = redactedLogin := by decide +kernel

/-- What the sink may see of a line: all of it, unless it is a login. -/
inductive Shows : String → String → Prop
  | plain {line : String} (h : ∀ data, line ≠ (Request.login data).line) : Shows line line
  | login (data : String) : Shows (Request.login data).line redactedLogin

/-- Lines that end with `d` have passed, and the sink has been told of them: of each frame that
was written, and of each line that was handed out. -/
inductive Reported (d : UInt8) : List Transfer → List Event → Prop
  | nothing : Reported d [] []
  | sent {t : List Transfer} {told : List Event} {line shown : String} (h : Reported d t told)
      (hs : Shows line shown) :
      Reported d (t ++ [.wrote (Text.utf8 line ++ [d])]) (told ++ [.sent shown])
  | received {t : List Transfer} {told : List Event} {content : Bytes} {text : String}
      (h : Reported d t told) (ht : Endpoint.lineText content = .ok text) :
      Reported d (t ++ [.took content]) (told ++ [.received text])
  | illegible {t : List Transfer} {told : List Event} {content : Bytes} {f : Failure}
      (h : Reported d t told) (ht : Endpoint.lineText content = .error f) :
      Reported d (t ++ [.took content]) told

theorem shows_request {r : Request} (h : r.keyword ≠ .login) : Shows r.line r.line := by
  apply Shows.plain
  intro data he
  have hr : Request.frame 0 r = Request.frame 0 (.login data) := by rw [Request.frame, he]; rfl
  exact h (Request.keyword_of_frame hr)

def Event.isClosing : Event → Bool
  | closed _ => true
  | connected _ | sent _ | received _ | stderr _ => false

theorem Reported.not_closing {d : UInt8} {t : List Transfer} {told : List Event}
    (h : Reported d t told) : ∀ event ∈ told, event.isClosing = false := by
  induction h with
  | nothing => simp
  | sent h hs ih | received h ht ih =>
    intro event he
    rcases List.mem_append.mp he with he | he
    · exact ih event he
    · obtain rfl := List.mem_singleton.mp he
      rfl
  | illegible h ht ih => exact ih

namespace Endpoint

variable {e e' : Endpoint} {w : Window} {line shown target : String}
  {result : Except Halt String} {outcome : Except Halt Unit} {ending : List Event}

/-- The events that have been reported to a sink that keeps them. -/
def events (e : Endpoint) : List Event := Sink.collect.events e.journal

theorem events_record (event : Event) (e : Endpoint) :
    (e.record event).events = e.events ++ [event] := by
  simp [events, record, Sink.events]

theorem events_note (n : Note) (e : Endpoint) : (e.note n).events = e.events := by
  simp [events, note, Sink.events]

/-- A channel that is closed while it is of use has its closing told, whatever comes of it. -/
theorem events_closeQuietly (ho : e.closed = false) (source : Source) (message : String) :
    (e.closeQuietly source message).events = e.events ++ [.closed e.peer] := by
  obtain ⟨notes, h⟩ := closeQuietly_open ho source message
  simp [h, events, Sink.events]

/-- A frame that is written is told of as it is to be shown; nothing is told of any other. -/
theorem Sent.events (h : e.Sent line shown outcome e') :
    (outcome = .ok () ∧ e'.events = e.events ++ [.sent shown]) ∨
      (outcome ≠ .ok () ∧ e'.events = e.events) := by
  cases h with
  | shut h => exact Or.inr ⟨by simp, rfl⟩
  | unwritten cause h => exact Or.inr ⟨by simp, rfl⟩
  | written h hw => exact Or.inl ⟨rfl, events_record (.sent shown) e⟩

/-- A line that is handed out is told of as it is; nothing is told of any other. -/
theorem Received.events (h : Received w e result e') :
    (∃ text, result = .ok text ∧ e'.events = e.events ++ [.received text]) ∨
      ((∀ text, result ≠ .ok text) ∧ e'.events = e.events) := by
  cases h with
  | shut h => exact Or.inr ⟨by simp, rfl⟩
  | @taken content l h hr =>
    cases ht : lineText content with
    | ok text =>
      refine Or.inl ⟨text, by simp [halted], ?_⟩
      simp [Endpoint.events, lineEvents, ht, Sink.events]
    | error f =>
      refine Or.inr ⟨by simp [halted], ?_⟩
      simp [Endpoint.events, lineEvents, ht]
  | spoiled fault h hr hf => exact Or.inr ⟨by simp, rfl⟩
  | expired h hr | unfinished h hr => exact Or.inr ⟨by simp, rfl⟩

/-- The sink has been told of the connection to `target`, of all that has passed over it, and then
of its ending: nothing, or that it was closed. -/
structure Account (e : Endpoint) (target : String) (ending : List Event) : Prop where
  peer : e.peer = target
  told : ∃ told, Reported e.link.delimiter e.link.transcript told ∧
    e.events = .connected target :: (told ++ ending)
  ending : ending = [] ∨ e.closed = true ∧ ending = [.closed target]

theorem Account.of_open (h : Account e target ending) (ho : e.closed = false) : ending = [] := by
  rcases h.ending with hn | ⟨hc, -⟩
  · exact hn
  · simp [ho] at hc

/-- Apart from the ending, the events are the connection and its traffic. -/
theorem Account.traffic (h : Account e target ending) :
    ∃ told, Reported e.link.delimiter e.link.transcript told ∧
      e.events.filter (!·.isClosing) = .connected target :: told := by
  obtain ⟨told, ht, he⟩ := h.told
  refine ⟨told, ht, ?_⟩
  have hkept : told.filter (!·.isClosing) = told := by
    rw [List.filter_eq_self]
    intro event hm
    simp [ht.not_closing event hm]
  have hend : ending.filter (!·.isClosing) = [] := by
    rcases h.ending with rfl | ⟨-, rfl⟩ <;> rfl
  rw [he, List.filter_cons_of_pos (by rfl), List.filter_append, hkept, hend, List.append_nil]

/-- An open channel over which something passes, and what the sink is told of it. -/
theorem Account.grow (news : List Event) (h : Account e target []) (hp : e'.peer = e.peer)
    (hd : e'.link.delimiter = e.link.delimiter)
    (ht : ∀ told, Reported e.link.delimiter e.link.transcript told →
      Reported e.link.delimiter e'.link.transcript (told ++ news))
    (he : e'.events = e.events ++ news) : Account e' target [] := by
  obtain ⟨told, htold, hevents⟩ := h.told
  refine ⟨hp.trans h.peer, ⟨told ++ news, ?_, ?_⟩, Or.inl rfl⟩
  · rw [hd]
    exact ht told htold
  · simp [he, hevents]

theorem Account.same (h : Account e target []) (hp : e'.peer = e.peer)
    (hd : e'.link.delimiter = e.link.delimiter)
    (ht : e'.link.transcript = e.link.transcript) (he : e'.events = e.events) :
    Account e' target [] := by
  refine h.grow [] hp hd ?_ ?_
  · intro told htold
    rw [ht, List.append_nil]
    exact htold
  · rw [he, List.append_nil]

theorem Account.sent (ha : Account e target ending) (hs : Shows line shown)
    (h : e.Sent line shown outcome e') : Account e' target ending := by
  cases h with
  | shut h => exact ha
  | unwritten cause h =>
    obtain rfl := ha.of_open h
    exact ha.same rfl rfl rfl rfl
  | @written l h hw =>
    obtain rfl := ha.of_open h
    refine ha.grow [.sent shown] rfl (Link.write_delimiter hw) ?_ ?_
    · intro told htold
      rw [Link.write_transcript hw]
      exact htold.sent hs
    · exact events_record (.sent shown) e

theorem Account.received (ha : Account e target ending) (h : Received w e result e') :
    Account e' target ending := by
  cases h with
  | shut h => exact ha
  | @taken content l h hr =>
    obtain rfl := ha.of_open h
    have htr : l.transcript = e.link.transcript ++ [.took content] := Link.read_transcript hr
    cases ht : lineText content with
    | ok text =>
      refine ha.grow [.received text] rfl (Link.read_delimiter hr) ?_ ?_
      · intro told htold
        rw [htr]
        exact htold.received ht
      · simp [Endpoint.events, lineEvents, ht, Sink.events]
    | error f =>
      refine ha.grow [] rfl (Link.read_delimiter hr) ?_ ?_
      · intro told htold
        rw [htr, List.append_nil]
        exact htold.illegible ht
      · simp [Endpoint.events, lineEvents, ht]
  | spoiled fault h hr hf =>
    obtain rfl := ha.of_open h
    have htr := Link.read_transcript hr
    rw [Reading.transfers_of_fault hf, List.append_nil] at htr
    exact ha.same rfl (Link.read_delimiter hr) htr rfl
  | expired h hr | unfinished h hr =>
    obtain rfl := ha.of_open h
    have htr := Link.read_transcript hr
    simp only [Reading.transfers, List.append_nil] at htr
    exact ha.same rfl (Link.read_delimiter hr) htr rfl

theorem Account.note (ha : Account e target ending) (n : Note) :
    Account (e.note n) target ending := by
  obtain ⟨told, htold, hevents⟩ := ha.told
  exact ⟨ha.peer, ⟨told, htold, (events_note n e).trans hevents⟩, ha.ending⟩

/-- The close of an open channel is told of, and none of a channel given up. -/
theorem Account.closeQuietly (ha : Account e target ending) (source : Source) (message : String) :
    Account (e.closeQuietly source message) target
      (if e.closed then ending else [.closed target]) := by
  cases hc : e.closed with
  | true => simpa [Endpoint.closeQuietly, close, hc] using ha
  | false =>
    obtain rfl := ha.of_open hc
    obtain ⟨told, htold, hevents⟩ := ha.told
    have he := events_closeQuietly hc source message
    obtain ⟨notes, h⟩ := closeQuietly_open hc source message
    rw [if_neg (by simp)]
    rw [h] at he ⊢
    refine ⟨ha.peer, ⟨told, htold, ?_⟩, Or.inr ⟨rfl, rfl⟩⟩
    rw [he, hevents, ha.peer, List.append_nil, List.cons_append]

theorem Account.release (ha : Account e target ending) : Account e.release target ending :=
  ⟨ha.peer, ha.told, ha.ending⟩

end Endpoint

end DocClient
