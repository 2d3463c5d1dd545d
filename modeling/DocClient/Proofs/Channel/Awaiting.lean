import DocClient.Proofs.Channel.Exchange
import DocClient.Proofs.Channel.Hearing

/-!
What a receiver gets who waits for as long as it takes: the next line of the stream, or what is
wrong with it. Only a stream that falls silent keeps such a receiver waiting.
-/
namespace DocClient

open Text (Bytes)

namespace Link

variable {d : UInt8} {now now' room : Nat} {taken content rest : Bytes}
  {inbox inbox' : Schedule Emission} {reading : Reading} {l l' : Link}

/-- Without a line, a reading that has no limit of time has seen all that the stream holds. -/
theorem gather_patient (hroom : 0 < room)
    (h : gather d {} now room taken inbox = (reading, now', inbox')) :
    reading ≠ .expired ∧ (reading = .reset → d ∉ stream inbox) ∧
      (reading = .unfinished → ¬ Halts inbox ∧ d ∉ stream inbox ∧ (stream inbox).length < room) := by
  induction inbox generalizing now room taken with
  | nil =>
    obtain ⟨rfl, -⟩ : Reading.unfinished = reading ∧ _ := Prod.mk.inj h
    simp [Halts, stream, hroom]
  | cons arrival later ih =>
    obtain ⟨moment, emission⟩ := arrival
    have hw : ({} : Window).stopBefore moment = none := rfl
    cases emission with
    | hangUp | reset =>
      simp only [gather, hw, Prod.mk.injEq] at h
      obtain ⟨rfl, -⟩ := h
      simp [stream]
    | bytes bs =>
      have hc := cut_spec d room bs
      cases hcut : cut d room bs with
      | found content left =>
        simp only [gather, hw, hcut, Prod.mk.injEq] at h
        obtain ⟨rfl, -⟩ := h
        simp
      | full =>
        simp only [gather, hw, hcut, Prod.mk.injEq] at h
        obtain ⟨rfl, -⟩ := h
        simp
      | short =>
        simp only [gather, hw, hcut] at h hc
        obtain ⟨hexpired, hreset, hunfinished⟩ := ih (by omega) h
        refine ⟨hexpired, ?_, ?_⟩
        · intro hr
          simp [stream, hc.2, hreset hr]
        · intro hr
          obtain ⟨hhalts, hclean, hlength⟩ := hunfinished hr
          refine ⟨hhalts, by simp [stream, hc.2, hclean], ?_⟩
          simp only [stream, List.length_append]
          omega

theorem read_patient (h : l.read room {} = (reading, l')) :
    reading ≠ .expired ∧ (reading = .reset → l.delimiter ∉ stream l.inbox) ∧
      (reading = .unfinished → ¬ Halts l.inbox ∧ l.delimiter ∉ stream l.inbox ∧
        (stream l.inbox).length < room) := by
  by_cases hne : reading = .ended false
  · simp [hne]
  · have hroom := room_of_read h hne
    exact gather_patient hroom (read_gather hroom h)

/-- What comes later does not matter to a line that is complete. -/
theorem gather_append {w : Window}
    (h : gather d w now room taken inbox = (.line content, now', inbox'))
    (later : Schedule Emission) :
    gather d w now room taken (inbox ++ later) = (.line content, now', inbox' ++ later) := by
  induction inbox generalizing now room taken with
  | nil =>
    cases hw : w.stop with
    | none => simp [gather, hw] at h
    | some stop =>
      simp only [gather, hw, Prod.mk.injEq] at h
      rcases Window.stop_reading hw with he | he <;> simp [he] at h
  | cons arrival rest ih =>
    obtain ⟨moment, emission⟩ := arrival
    cases hw : w.stopBefore moment with
    | some stop =>
      simp only [gather, hw, Prod.mk.injEq] at h
      rcases Window.stopBefore_reading hw with he | he <;> simp [he] at h
    | none =>
      cases emission with
      | hangUp | reset => simp [gather, hw] at h
      | bytes bs =>
        cases hcut : cut d room bs with
        | found frame left =>
          simp only [gather, hw, hcut, Prod.mk.injEq] at h
          obtain ⟨hline, rfl, rfl⟩ := h
          simp [gather, hw, hcut, hline]
        | full => simp [gather, hw, hcut] at h
        | short =>
          simp only [gather, hw, hcut] at h
          simp only [List.cons_append, gather, hw, hcut]
          exact ih h

/-- A line that has been read stands before what is left, and before what comes later. -/
theorem stream_of_read {w : Window} (h : l.read room w = (.line content, l'))
    (later : Schedule Emission) :
    stream (l.inbox ++ later) = content ++ l.delimiter :: stream (l'.inbox ++ later) := by
  have hroom := room_of_read h (by simp)
  have hdrawn := gather_drawn hroom (gather_append (read_gather hroom h) later)
  generalize hr : Reading.line content = reading at hdrawn
  cases hdrawn with
  | line joined clean fits =>
    rw [Reading.line.inj hr, List.nil_append]
    exact joined
  | _ => simp at hr

/-- There is one way to cut the first line from a stream. -/
theorem first_line_eq {content' rest' : Bytes} (hc : d ∉ content) (hc' : d ∉ content')
    (h : content ++ d :: rest = content' ++ d :: rest') : content = content' ∧ rest = rest' := by
  have hf := congrArg (Text.frames d) h
  rw [Text.frames_append hc, Text.frames_append hc', Prod.mk.injEq, List.cons.injEq] at hf
  obtain ⟨⟨rfl, -⟩, -⟩ := hf
  exact ⟨rfl, (List.cons.inj (List.append_cancel_left h)).2⟩

/-- A complete line that there is room for is read. -/
theorem read_line (hs : stream l.inbox = content ++ l.delimiter :: rest)
    (hc : l.delimiter ∉ content) (hl : content.length < room) :
    ∃ l', l.read room {} = (.line content, l') ∧ stream l'.inbox = rest := by
  rcases hr : l.read room {} with ⟨reading, l'⟩
  have hm : l.delimiter ∈ stream l.inbox := by simp [hs]
  obtain ⟨hexpired, hreset, hunfinished⟩ := read_patient hr
  cases read_drawn (Nat.zero_lt_of_lt hl) hr with
  | @line frame joined clean fits =>
    rw [List.nil_append]
    obtain ⟨rfl, rfl⟩ := first_line_eq hc clean (hs.symm.trans joined)
    exact ⟨l', rfl, rfl⟩
  | overlong long clean =>
    refine absurd ?_ clean
    rw [hs, List.take_append]
    obtain ⟨k, hk⟩ : ∃ k, room - content.length = k + 1 := ⟨room - content.length - 1, by omega⟩
    simp [hk]
  | ended short clean => exact absurd hm clean
  | reset => exact absurd hm (hreset rfl)
  | expired => exact absurd rfl hexpired
  | unfinished => exact absurd hm (hunfinished rfl).2.1

end Link

namespace Endpoint

variable {e e' : Endpoint} {text : String} {rest : Bytes} {halt : Halt} {f : Failure} {w : Window}

/-- The next line that is on its way is complete and there is room for it, and this is its text; the
bytes after it are the rest. -/
def Offers (e : Endpoint) (text : String) (rest : Bytes) : Prop :=
  ∃ content, Link.stream e.link.inbox = content ++ e.link.delimiter :: rest ∧
    e.link.delimiter ∉ content ∧ content.length < e.room ∧ lineText content = .ok text

/-- No more is on its way than an unfinished line, and the stream does not end after it. -/
structure Silent (e : Endpoint) : Prop where
  endless : ¬ Link.Halts e.link.inbox
  unfinished : e.link.delimiter ∉ Link.stream e.link.inbox
  fits : (Link.stream e.link.inbox).length < e.room

/-- A line that is offered is received, and nothing beyond it is used up. -/
theorem receive_offers (ho : e.closed = false) (h : e.Offers text rest) :
    ∃ e', e.receive {} = (.ok text, e') ∧ Link.stream e'.link.inbox = rest := by
  obtain ⟨content, hs, hc, hl, ht⟩ := h
  obtain ⟨l, hr, hrest⟩ := Link.read_line hs hc hl
  refine ⟨{ e with link := l, journal := e.journal ++ lineEvents content }, ?_, hrest⟩
  rw [receive_open ho hr, digest, accept_eq, ht]
  rfl

theorem offers_of_receive (h : e.receive {} = (.ok text, e')) :
    e.Offers text (Link.stream e'.link.inbox) ∧ e'.closed = false := by
  have hreceived := received_of_receive h
  generalize htext : (Except.ok text : Except Halt String) = result at hreceived
  cases hreceived with
  | @taken content l ho hr =>
    cases ht : lineText content with
    | error f => simp [ht, halted] at htext
    | ok text' =>
      obtain rfl : text = text' := by simpa [ht, halted] using htext
      cases Link.read_drawn (Link.room_of_read hr (by simp)) hr with
      | @line frame joined clean fits =>
        exact ⟨⟨frame, joined, clean, fits, by simpa using ht⟩, ho⟩
  | _ => simp at htext

/-- Who receives no line is told of a failure, or waits at a stream that is silent. -/
theorem receive_error (ho : e.closed = false) (h : e.receive {} = (.error halt, e')) :
    (∃ f, halt = .failed f) ∨ halt = .unfinished ∧ e.Silent := by
  have hreceived := received_of_receive h
  generalize hhalt : (Except.error halt : Except Halt String) = result at hreceived
  cases hreceived with
  | shut hc => simp [ho] at hc
  | @taken content l _ hr =>
    cases ht : lineText content with
    | ok text => simp [ht, halted] at hhalt
    | error f => exact Or.inl ⟨f, by simpa [ht, halted] using hhalt⟩
  | spoiled fault _ hr hf => exact Or.inl ⟨_, Except.error.inj hhalt⟩
  | expired _ hr => exact absurd rfl (Link.read_patient hr).1
  | unfinished _ hr =>
    obtain ⟨hhalts, hclean, hlength⟩ := (Link.read_patient hr).2.2 rfl
    exact Or.inr ⟨Except.error.inj hhalt, hhalts, hclean, hlength⟩

/-- Over a connection that has not broken a line is sent. -/
theorem send_whole (line shown : String) (ho : e.closed = false) (h : e.link.isReset = false) :
    ∃ e', e.send line shown = (.ok (), e') ∧ e'.closed = false := by
  simp [send, ho, Link.write, h, record]

theorem send_reset (line shown : String) (ho : e.closed = false) (h : e.link.isReset = true) :
    e.send line shown
      = (.error (.failed (e.failure (.writeFailed .connectionReset))), { e with closed := true }) := by
  simp [send, ho, Link.write, h]

/-- A channel does not speak of logins. -/
theorem failure_ne_authentication (fault : ChannelFault) (detail : String) :
    e.failure fault ≠ .authentication detail := by
  cases fault <;> simp [failure]

theorem receive_ne_authentication (h : e.receive w = (.error (.failed f), e')) (detail : String) :
    f ≠ .authentication detail := by
  have hreceived := received_of_receive h
  generalize hhalt : (Except.error (Halt.failed f) : Except Halt String) = result at hreceived
  cases hreceived with
  | shut hc =>
    obtain rfl := Halt.failed.inj (Except.error.inj hhalt)
    simp
  | @taken content l _ hr =>
    unfold lineText at hhalt
    split at hhalt
    · simp [halted] at hhalt
    · obtain rfl := Halt.failed.inj (Except.error.inj hhalt)
      simp
  | spoiled fault _ hr hf =>
    obtain rfl := Halt.failed.inj (Except.error.inj hhalt)
    exact failure_ne_authentication fault detail
  | expired | unfinished => simp at hhalt

end Endpoint

end DocClient
