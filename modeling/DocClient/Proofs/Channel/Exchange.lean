import DocClient.Channel.Endpoint
import DocClient.Proofs.Channel.Stream

/-!
What sending and receiving can do, case by case. Whoever follows a conversation cites `Sent` and
`Received` and does not look into the endpoint.
-/
namespace DocClient

open Text (Bytes)

/-- A failure ends a conversation. -/
def halted {α : Type} : Except Failure α → Except Halt α
  | .ok a => .ok a
  | .error f => .error (.failed f)

/-- The fault of the stream that a reading has met. -/
def Reading.fault? : Reading → Option ChannelFault
  | .overlong => some .overlong
  | .ended true => some .closedMidLine
  | .ended false => some .closedByPeer
  | .reset => some (.readFailed .connectionReset)
  | .line _ | .expired | .unfinished => none

theorem Reading.transfers_of_fault {reading : Reading} {fault : ChannelFault}
    (h : reading.fault? = some fault) : reading.transfers = [] := by
  cases reading <;> simp_all [fault?, transfers]

namespace Endpoint

variable {e e' : Endpoint} {w : Window} {reading : Reading} {l : Link} {line shown : String}
  {result : Except Halt String}

/-- There is room for a line that is as long as the limit, unless the limit is the largest number
that fits a word; then there is room for nothing. -/
theorem room_eq (e : Endpoint) :
    e.room = if e.maxLineBytes.toNat + 1 < UInt64.size then e.maxLineBytes.toNat + 1 else 0 := by
  have hlt : e.maxLineBytes.toNat < UInt64.size := e.maxLineBytes.toNat_lt_size
  have hsum : e.room = (e.maxLineBytes.toNat + 1) % UInt64.size := UInt64.toNat_add _ _
  rw [hsum]
  split
  · next h => exact Nat.mod_eq_of_lt h
  · next h =>
    have hfull : e.maxLineBytes.toNat + 1 = UInt64.size := Nat.le_antisymm hlt (Nat.not_lt.mp h)
    rw [hfull, Nat.mod_self]

theorem room_of_fits (h : e.maxLineBytes.toNat + 1 < UInt64.size) :
    e.room = e.maxLineBytes.toNat + 1 := by
  rw [room_eq, if_pos h]

theorem room_pos_iff : 0 < e.room ↔ e.maxLineBytes.toNat + 1 < UInt64.size := by
  rw [room_eq]
  split <;> simp [*]

theorem room_congr (h : e'.maxLineBytes = e.maxLineBytes) : e'.room = e.room := by
  rw [room, room, h]

/-- A complete line as its receiver sees it: without one carriage return, if it is UTF-8. -/
def lineText (content : Bytes) : Except Failure String :=
  match Text.decode (Text.dropReturn content) with
  | .ok text => .ok text
  | .error fault => .error (.protocol ("Response is not valid UTF-8: " ++ fault.message))

/-- What the journal shows of a line received. -/
def lineEvents (content : Bytes) : Journal :=
  match lineText content with
  | .ok text => [.event (.received text)]
  | .error _ => []

/-- What an attempt to receive a line can come to. -/
inductive Received (w : Window) (e : Endpoint) : Except Halt String → Endpoint → Prop
  | shut (h : e.closed = true) : Received w e (.error (.failed .channelClosed)) e
  | taken {content : Bytes} {l : Link} (h : e.closed = false)
      (hr : e.link.read e.room w = (.line content, l)) :
      Received w e (halted (lineText content))
        { e with link := l, journal := e.journal ++ lineEvents content }
  | spoiled {reading : Reading} {l : Link} (fault : ChannelFault) (h : e.closed = false)
      (hr : e.link.read e.room w = (reading, l)) (hf : reading.fault? = some fault) :
      Received w e (.error (.failed (e.failure fault))) { e with link := l, closed := true }
  | expired {l : Link} (h : e.closed = false)
      (hr : e.link.read e.room w = (.expired, l)) :
      Received w e (.error .expired) { e with link := l }
  | unfinished {l : Link} (h : e.closed = false)
      (hr : e.link.read e.room w = (.unfinished, l)) :
      Received w e (.error .unfinished) { e with link := l }

theorem receive_closed (h : e.closed = true) :
    e.receive w = (.error (.failed .channelClosed), e) := by
  simp [receive, h]

theorem receive_open (ho : e.closed = false)
    (hr : e.link.read e.room w = (reading, l)) :
    e.receive w = { e with link := l }.digest reading := by
  unfold receive
  rw [if_neg (by simp [ho]), hr]

theorem accept_eq (content : Bytes) (e : Endpoint) :
    e.accept content
      = (halted (lineText content), { e with journal := e.journal ++ lineEvents content }) := by
  unfold accept lineEvents lineText
  cases Text.decode (Text.dropReturn content) with
  | ok text => rfl
  | error fault => simp [halted, failure]

theorem received_of_receive (h : e.receive w = (result, e')) : Received w e result e' := by
  cases ho : e.closed with
  | true =>
    rw [receive_closed ho, Prod.mk.injEq] at h
    obtain ⟨rfl, rfl⟩ := h
    exact .shut ho
  | false =>
    rcases hr : e.link.read e.room w with ⟨reading, l⟩
    rw [receive_open ho hr] at h
    cases reading with
    | line content =>
      rw [digest, accept_eq, Prod.mk.injEq] at h
      obtain ⟨rfl, rfl⟩ := h
      exact .taken ho hr
    | overlong =>
      rw [digest, giveUp, Prod.mk.injEq] at h
      obtain ⟨rfl, rfl⟩ := h
      exact .spoiled .overlong ho hr rfl
    | ended midLine =>
      cases midLine with
      | false =>
        rw [digest, giveUp, Prod.mk.injEq] at h
        obtain ⟨rfl, rfl⟩ := h
        exact .spoiled .closedByPeer ho hr rfl
      | true =>
        rw [digest, giveUp, Prod.mk.injEq] at h
        obtain ⟨rfl, rfl⟩ := h
        exact .spoiled .closedMidLine ho hr rfl
    | reset =>
      rw [digest, giveUp, Prod.mk.injEq] at h
      obtain ⟨rfl, rfl⟩ := h
      exact .spoiled (.readFailed .connectionReset) ho hr rfl
    | expired =>
      rw [digest, Prod.mk.injEq] at h
      obtain ⟨rfl, rfl⟩ := h
      exact .expired ho hr
    | unfinished =>
      rw [digest, Prod.mk.injEq] at h
      obtain ⟨rfl, rfl⟩ := h
      exact .unfinished ho hr

/-- What an attempt to send a line can come to. -/
inductive Sent (line shown : String) (e : Endpoint) : Except Halt Unit → Endpoint → Prop
  | shut (h : e.closed = true) : Sent line shown e (.error (.failed .channelClosed)) e
  | unwritten (cause : SystemFault) (h : e.closed = false) :
      Sent line shown e (.error (.failed (e.failure (.writeFailed cause))))
        { e with closed := true }
  | written {l : Link} (h : e.closed = false) (hw : e.link.write (e.frame line) = (.ok (), l)) :
      Sent line shown e (.ok ())
        { e with link := l, journal := e.journal ++ [.event (.sent shown)] }

theorem sent_of_send {result : Except Halt Unit} (h : e.send line shown = (result, e')) :
    Sent line shown e result e' := by
  cases ho : e.closed with
  | true =>
    simp only [send, ho, if_true, Prod.mk.injEq] at h
    obtain ⟨rfl, rfl⟩ := h
    exact .shut ho
  | false =>
    rcases hw : e.link.write (e.frame line) with ⟨outcome, l⟩
    unfold send at h
    rw [if_neg (by simp [ho]), hw] at h
    rcases Link.write_eq hw with ⟨cause, rfl, rfl⟩ | ⟨rfl, -⟩
    · simp only [Prod.mk.injEq] at h
      obtain ⟨rfl, rfl⟩ := h
      exact .unwritten cause ho
    · simp only [Prod.mk.injEq] at h
      obtain ⟨rfl, rfl⟩ := h
      exact .written ho hw

/-- A text comes from a line that has been read. -/
theorem Received.read {text : String} (h : Received w e (.ok text) e') :
    ∃ content, e.link.read e.room w = (.line content, e'.link) := by
  generalize htext : (Except.ok text : Except Halt String) = result at h
  cases h with
  | taken h hr => exact ⟨_, hr⟩
  | _ => simp at htext

theorem Sent.write (h : Sent line shown e (.ok ()) e') :
    e.link.write (e.frame line) = (.ok (), e'.link) := by
  cases h with
  | written h hw => exact hw

theorem Received.maxLineBytes (h : Received w e result e') : e'.maxLineBytes = e.maxLineBytes := by
  cases h <;> rfl

theorem Sent.maxLineBytes {sent : Except Halt Unit} (h : Sent line shown e sent e') :
    e'.maxLineBytes = e.maxLineBytes := by
  cases h <;> rfl

theorem Received.delimiter (h : Received w e result e') : e'.link.delimiter = e.link.delimiter := by
  cases h with
  | shut h => rfl
  | taken h hr | spoiled fault h hr hf | expired h hr | unfinished h hr =>
    exact Link.read_delimiter hr

theorem Sent.delimiter {sent : Except Halt Unit} (h : Sent line shown e sent e') :
    e'.link.delimiter = e.link.delimiter := by
  cases h with
  | shut h => rfl
  | unwritten cause h => rfl
  | written h hw => exact Link.write_delimiter hw

/-- A complete line has been taken wherever there is a text, and at most one in any case. -/
theorem Received.transcript (h : Received w e result e') :
    (∃ line, e'.link.transcript = e.link.transcript ++ [.took line]) ∨
      (e'.link.transcript = e.link.transcript ∧ ∀ text, result ≠ .ok text) := by
  cases h with
  | shut h => exact Or.inr ⟨rfl, by simp⟩
  | taken h hr => exact Or.inl ⟨_, Link.read_transcript hr⟩
  | spoiled fault h hr hf =>
    have ht := Link.read_transcript hr
    rw [Reading.transfers_of_fault hf, List.append_nil] at ht
    exact Or.inr ⟨ht, by simp⟩
  | expired h hr | unfinished h hr =>
    exact Or.inr ⟨by simpa [Reading.transfers] using Link.read_transcript hr, by simp⟩

/-- A frame has been written if sending has succeeded, and none otherwise. -/
theorem Sent.transcript {sent : Except Halt Unit} (h : Sent line shown e sent e') :
    (sent = .ok () ∧ e'.link.transcript = e.link.transcript ++ [.wrote (e.frame line)]) ∨
      (sent ≠ .ok () ∧ e'.link.transcript = e.link.transcript) := by
  cases h with
  | shut h => exact Or.inr ⟨by simp, rfl⟩
  | unwritten cause h => exact Or.inr ⟨by simp, rfl⟩
  | written h hw => exact Or.inl ⟨rfl, Link.write_transcript hw⟩

theorem closeQuietly_closed (h : e.closed = true) (source : Source) (message : String) :
    e.closeQuietly source message = e := by
  simp [closeQuietly, close, h]

/-- A channel that is of use is shut, and the journal shows that it is closed, and perhaps what went
wrong. -/
theorem closeQuietly_open (h : e.closed = false) (source : Source) (message : String) :
    ∃ notes : List Note, e.closeQuietly source message
      = { e with
          closed := true
          link := e.link.shutDown.2
          journal := e.journal ++ .event (.closed e.peer) :: notes.map .note } := by
  unfold closeQuietly close
  rw [if_neg (by simp [h])]
  rcases hl : e.link.shutDown with ⟨outcome, l⟩
  cases outcome with
  | ok _ => exact ⟨[], rfl⟩
  | error cause =>
    refine ⟨[⟨.debug, source, message,
      [("error", (e.failure (.closeFailed cause)).message)]⟩], ?_⟩
    exact congrArg (fun journal => ({ e with closed := true, link := l, journal } : Endpoint))
      (List.append_assoc e.journal [_] [_])

/-- Closing changes nothing but the journal and the marks that the channel is closed and the link
shut. -/
theorem closeQuietly_eq (source : Source) (message : String) (e : Endpoint) :
    ∃ journal, e.closeQuietly source message = { e with
      closed := true, link := if e.closed then e.link else e.link.shutDown.2, journal } := by
  cases hc : e.closed with
  | true => exact ⟨e.journal, by rw [closeQuietly_closed hc, if_pos rfl, ← hc]⟩
  | false =>
    obtain ⟨notes, h⟩ := closeQuietly_open hc source message
    exact ⟨_, by rw [h, if_neg (by simp)]⟩

theorem link_closeQuietly (source : Source) (message : String) (e : Endpoint) :
    (e.closeQuietly source message).link = if e.closed then e.link else e.link.shutDown.2 := by
  obtain ⟨journal, h⟩ := closeQuietly_eq source message e
  rw [h]

/-- Who lets the channel go shuts the link in any case. -/
theorem release_closeQuietly (source : Source) (message : String) (e : Endpoint) :
    ∃ journal, (e.closeQuietly source message).release
      = { e with closed := true, link := e.link.shutDown.2, journal } := by
  obtain ⟨journal, h⟩ := closeQuietly_eq source message e
  refine ⟨journal, ?_⟩
  rw [h, release]
  cases e.closed <;> simp

theorem release_note (n : Note) (e : Endpoint) : (e.note n).release = e.release.note n := rfl

end Endpoint

namespace Exchange

variable {α β : Type}

theorem bind_apply (x : Exchange α) (f : α → Exchange β) (e : Endpoint) :
    (x >>= f) e =
      match x e with
      | (.ok a, e') => f a e'
      | (.error halt, e') => (.error halt, e') := by
  change ExceptT.bind x f e = _
  simp only [ExceptT.bind, ExceptT.mk, bind, StateT.bind]
  rcases x e with ⟨_ | _, _⟩ <;> rfl

theorem check_apply (r : Except Failure α) (e : Endpoint) : check r e = (halted r, e) := by
  cases r <;> rfl

/-- Of a conversation of two parts that succeeds both do. -/
theorem bind_ok {x : Exchange α} {f : α → Exchange β} {e e' : Endpoint} {b : β}
    (h : (x >>= f) e = (.ok b, e')) : ∃ a e₁, x e = (.ok a, e₁) ∧ f a e₁ = (.ok b, e') := by
  rw [bind_apply] at h
  rcases hx : x e with ⟨result, e₁⟩
  rw [hx] at h
  cases result with
  | error halt => exact absurd (Prod.mk.inj h).1 (by simp)
  | ok a => exact ⟨a, e₁, rfl, h⟩

theorem check_ok {r : Except Failure α} {e e' : Endpoint} {a : α}
    (h : check r e = (.ok a, e')) : r = .ok a ∧ e = e' := by
  rw [check_apply] at h
  obtain ⟨hr, he⟩ := Prod.mk.inj h
  cases r with
  | error f => exact absurd hr (by simp [halted])
  | ok b => exact ⟨congrArg _ (Except.ok.inj hr), he⟩

end Exchange

end DocClient
