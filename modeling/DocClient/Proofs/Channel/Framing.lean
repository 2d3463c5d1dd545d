import DocClient.Proofs.Channel.Exchange

/-! What the receiver of lines gets of a stream: line after line, and then one failure for good. -/
namespace DocClient.Endpoint

open Text (Bytes)

variable {d : UInt8} {e e' : Endpoint} {line rest bs : Bytes} {lines : List Bytes}
  {reading : Reading} {l : Link}
  {result : Except Halt String} {w : Window}

/-- The results of so many attempts to receive a line, one after the other. -/
def receives : Nat → Endpoint → List (Except Halt String) × Endpoint
  | 0, e => ([], e)
  | n + 1, e =>
    let (result, e) := e.receive {}
    let (results, e) := receives n e
    (result :: results, e)

/-- The same end, open, of a connection over which the peer sends the segments, each at a moment
of its own, and then closes its side. -/
def facing (segments : List (Nat × Bytes)) (moment : Nat) (e : Endpoint) : Endpoint :=
  { e with
    closed := false
    link := { e.link with
      inbox := segments.map (fun s => (s.1, .bytes s.2)) ++ [(moment, .hangUp)] } }

/-- What is said of a line that is too long. -/
def overlongResult (e : Endpoint) : Except Halt String :=
  .error (.failed (.protocol ("Response exceeds " ++ toString e.maxLineBytes.toNat ++ " bytes")))

/-- What is said of the end of the stream. -/
def closedByPeerResult (e : Endpoint) : Except Halt String :=
  .error (.failed (.transport ("Connection closed by " ++ e.peer)))

/-- What is said of an unfinished line when the stream ends. -/
def endResult (e : Endpoint) (rest : Bytes) : Except Halt String :=
  if e.maxLineBytes.toNat < rest.length then e.overlongResult
  else if rest = [] then e.closedByPeerResult
  else .error (.failed (.transport ("Connection closed by " ++ e.peer ++ " mid-message")))

/-- The results that lines and an unfinished one stand for. -/
def lineResults (e : Endpoint) (rest : Bytes) : List Bytes → List (Except Halt String)
  | [] => [e.endResult rest]
  | line :: lines =>
    if e.maxLineBytes.toNat < line.length then [e.overlongResult]
    else halted (lineText line) :: lineResults e rest lines

/-- The results that a stream of lines and an unfinished one stands for. Of the largest limit that
fits a word there is no next number, and nothing of the stream is read. -/
def streamResults (e : Endpoint) (rest : Bytes) (lines : List Bytes) :
    List (Except Halt String) :=
  if e.maxLineBytes.toNat + 1 < UInt64.size then e.lineResults rest lines else [e.closedByPeerResult]

def closedResult : Except Halt String := .error (.failed .channelClosed)

theorem receives_closed (h : e.closed = true) (n : Nat) :
    e.receives n = (List.replicate n closedResult, e) := by
  induction n with
  | zero => rfl
  | succ n ih => simp [receives, receive_closed h, closedResult, ih, List.replicate_succ]

/-- The peer still sends the lines and the unfinished one, and then closes its side. -/
structure Sends (e : Endpoint) (lines : List Bytes) (rest : Bytes) : Prop where
  opened : e.closed = false
  ends : Link.Ends e.link.inbox
  cut : Text.Lines e.link.delimiter (Link.stream e.link.inbox) lines rest

theorem streamResults_congr (hm : e'.maxLineBytes = e.maxLineBytes) (hp : e'.peer = e.peer)
    (rest : Bytes) (lines : List Bytes) :
    e'.streamResults rest lines = e.streamResults rest lines := by
  have hlines : e'.lineResults rest lines = e.lineResults rest lines := by
    induction lines with
    | nil => simp [lineResults, endResult, overlongResult, closedByPeerResult, hm, hp]
    | cons line lines ih => simp [lineResults, overlongResult, hm, ih]
  simp only [streamResults, hlines, closedByPeerResult, hm, hp]

theorem streamResults_ne_nil (e : Endpoint) (rest : Bytes) (lines : List Bytes) :
    e.streamResults rest lines ≠ [] := by
  unfold streamResults
  split
  · cases lines with
    | nil => simp [lineResults]
    | cons line lines =>
      unfold lineResults
      split <;> simp
  · simp

/-- One attempt takes the next line, or says what ends the stream. -/
theorem receive_sends (hs : Sends e lines rest) (h : e.receive {} = (result, e')) :
    (∃ more, e.streamResults rest lines = result :: e.streamResults rest more ∧
      Sends e' more rest ∧ e'.maxLineBytes = e.maxLineBytes ∧ e'.peer = e.peer) ∨
    (e.streamResults rest lines = [result] ∧ e'.closed = true) := by
  obtain ⟨ho, he, hc⟩ := hs
  rcases hr : e.link.read e.room {} with ⟨reading, l⟩
  have hl := Link.read_eq hr
  have hf := Text.frames_eq hc
  rw [receive_open ho hr] at h
  by_cases hfits : e.maxLineBytes.toNat + 1 < UInt64.size
  case neg =>
    rw [room_eq, if_neg hfits, Link.read_zero] at hr
    obtain ⟨rfl, rfl⟩ := Prod.mk.inj hr
    obtain ⟨rfl, rfl⟩ := Prod.mk.inj h
    exact Or.inr ⟨by simp [streamResults, hfits, closedByPeerResult, failure], rfl⟩
  have hroom : e.room = e.maxLineBytes.toNat + 1 := room_of_fits hfits
  have hdrawn := Link.read_drawn (room_pos_iff.mpr hfits) hr
  simp only [streamResults, if_pos hfits]
  rcases Link.read_ends he hr with ⟨content, rfl, he'⟩ | rfl | ⟨midLine, rfl⟩
  · rw [digest, accept_eq, Prod.mk.injEq] at h
    obtain ⟨rfl, rfl⟩ := h
    cases hdrawn with
    | @line frame joined clean fits =>
      rw [joined, Text.frames_append clean, Prod.mk.injEq] at hf
      have hm : ¬ e.maxLineBytes.toNat < frame.length := by omega
      refine Or.inl ⟨(Text.frames e.link.delimiter (Link.stream l.inbox)).1, ?_, ⟨ho, he', ?_⟩, rfl,
        rfl⟩
      · rw [← hf.1, lineResults, if_neg hm, List.nil_append]
      · rw [← hf.2, hl]
        exact Text.lines_frames _ _
  · rw [digest, giveUp, Prod.mk.injEq] at h
    obtain ⟨rfl, rfl⟩ := h
    cases hdrawn with
    | overlong long clean =>
      refine Or.inr ⟨?_, rfl⟩
      cases lines with
      | nil =>
        have hm : e.maxLineBytes.toNat < rest.length := by
          rw [hc.joined, hroom] at long
          simpa using Nat.lt_of_succ_le long
        simp [lineResults, endResult, hm, overlongResult, failure]
      | cons line lines =>
        have hm : e.maxLineBytes.toNat < line.length := by
          apply Nat.lt_of_not_le
          intro hle
          apply clean
          obtain ⟨k, hk⟩ : ∃ k, e.room - line.length = k + 1 :=
            ⟨e.maxLineBytes.toNat - line.length, by omega⟩
          rw [hc.joined]
          simp [List.take_append, hk]
        simp [lineResults, hm, overlongResult, failure]
  · cases hdrawn with
    | ended short clean =>
      rw [Text.frames_of_not_mem clean, Prod.mk.injEq] at hf
      obtain ⟨rfl, rfl⟩ := hf
      have hm : ¬ e.maxLineBytes.toNat < (Link.stream e.link.inbox).length := by omega
      simp only [lineResults, endResult, hm, if_false]
      cases hb : Link.stream e.link.inbox with
      | nil =>
        simp only [hb, List.append_nil, List.isEmpty_nil, Bool.not_true, digest, giveUp,
          Prod.mk.injEq] at h
        obtain ⟨rfl, rfl⟩ := h
        exact Or.inr ⟨by simp [closedByPeerResult, failure], rfl⟩
      | cons b bs =>
        simp only [hb, List.nil_append, List.isEmpty_cons, Bool.not_false, digest, giveUp,
          Prod.mk.injEq] at h
        obtain ⟨rfl, rfl⟩ := h
        exact Or.inr ⟨by simp [failure], rfl⟩

theorem receives_sends (hs : Sends e lines rest) (n : Nat) :
    (e.receives n).1 = (e.streamResults rest lines).take n
        ++ List.replicate (n - (e.streamResults rest lines).length) closedResult ∧
      ((e.streamResults rest lines).length ≤ n → (e.receives n).2.closed = true) := by
  induction n generalizing e lines with
  | zero =>
    refine ⟨by simp [receives], ?_⟩
    intro hl
    exact absurd (List.eq_nil_of_length_eq_zero (Nat.le_zero.mp hl))
      (streamResults_ne_nil e rest lines)
  | succ n ih =>
    rcases hr : e.receive {} with ⟨result, e'⟩
    rcases receive_sends hs hr with ⟨more, he, hs', hmax, hp⟩ | ⟨he, hc⟩
    · have hi := ih hs'
      rw [streamResults_congr hmax hp] at hi
      simp only [receives, hr, he, List.take_succ_cons, List.length_cons, Nat.add_sub_add_right,
        List.cons_append, hi.1, true_and]
      intro hl
      exact hi.2 (Nat.le_of_succ_le_succ hl)
    · simp [receives, hr, he, receives_closed hc, hc]

theorem facing_sends (e : Endpoint) (segments : List (Nat × Bytes)) (moment : Nat)
    (h : Text.Lines e.link.delimiter (segments.map Prod.snd).flatten lines rest) :
    Sends (e.facing segments moment) lines rest := by
  have hs : ∀ segments : List (Nat × Bytes),
      Link.Ends (segments.map (fun s => (s.1, .bytes s.2)) ++ [(moment, .hangUp)]) ∧
      Link.stream (segments.map (fun s => (s.1, .bytes s.2)) ++ [(moment, .hangUp)])
        = (segments.map Prod.snd).flatten := by
    intro segments
    induction segments with
    | nil => exact ⟨trivial, rfl⟩
    | cons s segments ih => exact ⟨ih.1, by simp [Link.stream, ih.2]⟩
  refine ⟨rfl, (hs segments).1, ?_⟩
  rw [← (hs segments).2] at h
  exact h

/-- Nothing can be sent or received any more. -/
structure GivenUp (e : Endpoint) : Prop where
  closed : e.closed = true
  receives_nothing : ∀ w, e.receive w = (closedResult, e)
  sends_nothing : ∀ line shown, e.send line shown = (.error (.failed .channelClosed), e)

theorem givenUp_of_closed (h : e.closed = true) : GivenUp e where
  closed := h
  receives_nothing w := receive_closed h
  sends_nothing line shown := by simp [send, h]

end DocClient.Endpoint
