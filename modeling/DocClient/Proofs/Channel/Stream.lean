import DocClient.Channel.Link
import DocClient.Proofs.Text.Frame

/-! What a reader gets of the bytes on their way, however they are cut into pieces. -/
namespace DocClient

open Text (Bytes)

namespace Window

variable {w : Window} {moment : Nat} {reading : Reading}

theorem stop_reading (h : w.stop = some (moment, reading)) :
    reading = .expired ∨ reading = .unfinished := by
  unfold stop at h
  split at h <;> (try split at h) <;> simp_all

theorem stopBefore_reading {stop : Nat} (h : w.stopBefore moment = some (stop, reading)) :
    reading = .expired ∨ reading = .unfinished :=
  stop_reading (Option.filter_eq_some_iff.mp h).1

end Window

/-- What a reading adds to the transcript. -/
def Reading.transfers : Reading → List Transfer
  | .line content => [.took content]
  | _ => []

def Transfer.frame? : Transfer → Option Bytes
  | .wrote frame => some frame
  | .took _ => none

/-- The frames written, in order. -/
def written (transcript : List Transfer) : List Bytes := transcript.filterMap Transfer.frame?

@[simp] theorem written_nil : written [] = [] := rfl

@[simp] theorem written_append (t t' : List Transfer) :
    written (t ++ t') = written t ++ written t' := List.filterMap_append

@[simp] theorem written_wrote (frame : Bytes) (t : List Transfer) :
    written (.wrote frame :: t) = frame :: written t := rfl

@[simp] theorem written_took (line : Bytes) (t : List Transfer) :
    written (.took line :: t) = written t := rfl

@[simp] theorem written_transfers (reading : Reading) : written reading.transfers = [] := by
  cases reading <;> rfl

namespace Link

variable {d : UInt8} {w : Window} {now now' room moment : Nat}
  {taken bs content left : Bytes} {emission : Emission} {inbox inbox' rest : Schedule Emission}
  {reading : Reading}

/-- The bytes that a reader can still get: those before the stream ends or breaks. -/
def stream : Schedule Emission → Bytes
  | [] => []
  | (_, .bytes bs) :: rest => bs ++ stream rest
  | (_, .hangUp) :: _ => []
  | (_, .reset) :: _ => []

/-- Whether the stream ends, after some bytes, and does not break before. -/
def Ends : Schedule Emission → Prop
  | [] => False
  | (_, .bytes _) :: rest => Ends rest
  | (_, .hangUp) :: _ => True
  | (_, .reset) :: _ => False

/-- Where a stretch of bytes meets the delimiter, or how it does not. -/
theorem cut_spec (d : UInt8) (room : Nat) (bs : Bytes) :
    match cut d room bs with
    | .found content left => bs = content ++ d :: left ∧ d ∉ content ∧ content.length < room
    | .full => room ≤ bs.length ∧ d ∉ bs.take room
    | .short => bs.length < room ∧ d ∉ bs := by
  induction room generalizing bs with
  | zero => simp [cut]
  | succ room ih =>
    cases bs with
    | nil => simp [cut]
    | cons b bs =>
      by_cases hb : b = d
      · simp [cut, hb]
      · have hs := ih bs
        cases hc : cut d room bs <;> simp_all [cut, Ne.symm hb]

/-- What a reading says about the stream: which bytes have been taken, and what is left. -/
inductive Drawn (d : UInt8) (room : Nat) (taken : Bytes) (inbox inbox' : Schedule Emission) :
    Reading → Prop
  | line {frame : Bytes} (joined : stream inbox = frame ++ d :: stream inbox')
      (clean : d ∉ frame) (fits : frame.length < room) :
      Drawn d room taken inbox inbox' (.line (taken ++ frame))
  | overlong (long : room ≤ (stream inbox).length) (clean : d ∉ (stream inbox).take room) :
      Drawn d room taken inbox inbox' .overlong
  | ended (short : (stream inbox).length < room) (clean : d ∉ stream inbox) :
      Drawn d room taken inbox inbox' (.ended !(taken ++ stream inbox).isEmpty)
  | reset : Drawn d room taken inbox inbox' .reset
  | expired : Drawn d room taken inbox inbox' .expired
  | unfinished : Drawn d room taken inbox inbox' .unfinished

/-- Bytes without the delimiter go before what is drawn later. -/
theorem Drawn.cons {inbox'' : Schedule Emission} (hl : bs.length < room) (hd : d ∉ bs)
    (hs : stream inbox'' = bs ++ stream inbox)
    (h : Drawn d (room - bs.length) (taken ++ bs) inbox inbox' reading) :
    Drawn d room taken inbox'' inbox' reading := by
  cases h with
  | @line frame joined clean fits =>
    rw [List.append_assoc]
    refine .line (by simp [hs, joined]) (by simp [hd, clean]) ?_
    simp only [List.length_append]
    omega
  | overlong long clean =>
    refine .overlong (by simp only [hs, List.length_append]; omega) ?_
    rw [hs, List.take_append, List.take_of_length_le (by omega)]
    simp [hd, clean]
  | ended short clean =>
    rw [List.append_assoc, ← hs]
    exact .ended (by simp only [hs, List.length_append]; omega) (by simp [hs, hd, clean])
  | reset => exact .reset
  | expired => exact .expired
  | unfinished => exact .unfinished

theorem gather_drawn (hr : 0 < room)
    (h : gather d w now room taken inbox = (reading, now', inbox')) :
    Drawn d room taken inbox inbox' reading := by
  induction inbox generalizing now room taken with
  | nil =>
    cases hw : w.stop with
    | none =>
      simp only [gather, hw, Prod.mk.injEq] at h
      obtain ⟨rfl, -⟩ := h
      exact .unfinished
    | some s =>
      simp only [gather, hw, Prod.mk.injEq] at h
      obtain ⟨rfl, -⟩ := h
      rcases Window.stop_reading hw with he | he
      · exact he ▸ .expired
      · exact he ▸ .unfinished
  | cons arrival rest ih =>
    obtain ⟨moment, emission⟩ := arrival
    cases hw : w.stopBefore moment with
    | some s =>
      simp only [gather, hw, Prod.mk.injEq] at h
      obtain ⟨rfl, -⟩ := h
      rcases Window.stopBefore_reading hw with he | he
      · exact he ▸ .expired
      · exact he ▸ .unfinished
    | none =>
      cases emission with
      | hangUp =>
        simp only [gather, hw, Prod.mk.injEq] at h
        obtain ⟨rfl, -, rfl⟩ := h
        have he : Drawn d room taken ((moment, .hangUp) :: rest) ((moment, .hangUp) :: rest)
            (.ended !(taken ++ stream ((moment, .hangUp) :: rest)).isEmpty) :=
          .ended (by simpa [stream] using hr) (by simp [stream])
        simpa [stream] using he
      | reset =>
        simp only [gather, hw, Prod.mk.injEq] at h
        obtain ⟨rfl, -⟩ := h
        exact .reset
      | bytes bs =>
        have hc := cut_spec d room bs
        cases hcut : cut d room bs with
        | found content left =>
          simp only [gather, hw, hcut, Prod.mk.injEq] at h hc
          obtain ⟨rfl, -, rfl⟩ := h
          obtain ⟨rfl, hd, hl⟩ := hc
          exact .line (by simp [stream]) hd hl
        | full =>
          simp only [gather, hw, hcut, Prod.mk.injEq] at h hc
          obtain ⟨rfl, -⟩ := h
          obtain ⟨hl, hd⟩ := hc
          refine .overlong (by simp only [stream, List.length_append]; omega) ?_
          simpa [stream, List.take_append_of_le_length hl] using hd
        | short =>
          simp only [gather, hw, hcut] at h hc
          obtain ⟨hl, hd⟩ := hc
          exact .cons hl hd rfl (ih (by omega) h)

/-- Somebody who waits for as long as it takes finds the end of a stream that has one. -/
theorem gather_ends (he : Ends inbox)
    (h : gather d {} now room taken inbox = (reading, now', inbox')) :
    (∃ content, reading = .line content ∧ Ends inbox') ∨ reading = .overlong ∨
      ∃ midLine, reading = .ended midLine := by
  induction inbox generalizing now room taken with
  | nil => exact he.elim
  | cons arrival rest ih =>
    obtain ⟨moment, emission⟩ := arrival
    have hw : ({} : Window).stopBefore moment = none := rfl
    cases emission with
    | hangUp =>
      simp only [gather, hw, Prod.mk.injEq] at h
      exact Or.inr (Or.inr ⟨_, h.1.symm⟩)
    | reset => exact he.elim
    | bytes bs =>
      cases hcut : cut d room bs with
      | found content left =>
        simp only [gather, hw, hcut, Prod.mk.injEq] at h
        exact Or.inl ⟨_, h.1.symm, h.2.2 ▸ he⟩
      | full =>
        simp only [gather, hw, hcut, Prod.mk.injEq] at h
        exact Or.inr (Or.inl h.1.symm)
      | short =>
        simp only [gather, hw, hcut] at h
        exact ih he h

variable {l l' : Link} {frame : Bytes} {outcome : Except SystemFault Unit}

theorem read_of_room (h : 0 < room) (w : Window) (l : Link) :
    l.read room w =
      let taken := gather l.delimiter w l.clock room [] l.inbox
      (taken.1, { l with clock := taken.2.1, inbox := taken.2.2,
                         transcript := l.transcript ++ taken.1.transfers }) := by
  rcases hg : gather l.delimiter w l.clock room [] l.inbox with ⟨reading, clock, inbox⟩
  simp only [read, if_neg (Nat.pos_iff_ne_zero.mp h), hg]
  cases reading <;> simp [Reading.transfers]

/-- Without any room a reading ends at once. -/
@[simp] theorem read_zero (w : Window) (l : Link) : l.read 0 w = (.ended false, l) := rfl

/-- What is read is what is gathered, where there is room for it. -/
theorem read_gather (hr : 0 < room) (h : l.read room w = (reading, l')) :
    gather l.delimiter w l.clock room [] l.inbox = (reading, l'.clock, l'.inbox) := by
  rw [read_of_room hr] at h
  obtain ⟨rfl, rfl⟩ := Prod.mk.inj h
  rfl

/-- There has been room for whatever is not the end of the stream. -/
theorem room_of_read (h : l.read room w = (reading, l')) (hne : reading ≠ .ended false) :
    0 < room := by
  refine Nat.pos_of_ne_zero ?_
  rintro rfl
  rw [read_zero] at h
  exact hne (Prod.mk.inj h).1.symm

theorem read_drawn (hr : 0 < room) (h : l.read room w = (reading, l')) :
    Drawn l.delimiter room [] l.inbox l'.inbox reading :=
  gather_drawn hr (read_gather hr h)

theorem read_ends (he : Ends l.inbox) (h : l.read room {} = (reading, l')) :
    (∃ content, reading = .line content ∧ Ends l'.inbox) ∨ reading = .overlong ∨
      ∃ midLine, reading = .ended midLine := by
  by_cases hne : reading = .ended false
  · exact Or.inr (Or.inr ⟨false, hne⟩)
  · exact gather_ends he (read_gather (room_of_read h hne) h)

/-- Reading moves the clock, takes from the stream and notes a line that it completes. -/
theorem read_eq (h : l.read room w = (reading, l')) :
    l' = { l with clock := l'.clock, inbox := l'.inbox,
                  transcript := l.transcript ++ reading.transfers } := by
  rcases Nat.eq_zero_or_pos room with rfl | hr
  · rw [read_zero] at h
    obtain ⟨rfl, rfl⟩ := Prod.mk.inj h
    simp [Reading.transfers]
  · rw [read_of_room hr] at h
    obtain ⟨rfl, rfl⟩ := Prod.mk.inj h
    rfl

/-- All that a reading finds and leaves, apart from the transcript, depends on what is on its way. -/
theorem read_alike {m m' : Link} {reading' : Reading} (hd : m.delimiter = l.delimiter)
    (hc : m.clock = l.clock) (hi : m.inbox = l.inbox) (h : l.read room w = (reading, l'))
    (h' : m.read room w = (reading', m')) :
    reading' = reading ∧ m'.clock = l'.clock ∧ m'.inbox = l'.inbox := by
  rcases Nat.eq_zero_or_pos room with rfl | hr
  · rw [read_zero] at h h'
    obtain ⟨rfl, rfl⟩ := Prod.mk.inj h
    obtain ⟨rfl, rfl⟩ := Prod.mk.inj h'
    exact ⟨rfl, hc, hi⟩
  · have hsame := read_gather hr h'
    rw [hd, hc, hi, read_gather hr h] at hsame
    obtain ⟨rfl, hclock, hinbox⟩ := by simpa only [Prod.mk.injEq] using hsame
    exact ⟨rfl, hclock.symm, hinbox.symm⟩

theorem hear_eq (l : Link) (line : Bytes) :
    l.hear line = { l with heard := (l.hear line).heard, inbox := (l.hear line).inbox } := by
  unfold hear
  split <;> rfl

theorem foldl_hear_eq (lines : List Bytes) (l : Link) :
    lines.foldl hear l
      = { l with heard := (lines.foldl hear l).heard, inbox := (lines.foldl hear l).inbox } := by
  induction lines generalizing l with
  | nil => rfl
  | cons line lines ih =>
    rw [List.foldl_cons, ih, hear_eq]

theorem read_transcript (h : l.read room w = (reading, l')) :
    l'.transcript = l.transcript ++ reading.transfers :=
  congrArg Link.transcript (read_eq h)

theorem read_written (h : l.read room w = (reading, l')) :
    written l'.transcript = written l.transcript := by
  rw [read_transcript h, written_append, written_transfers, List.append_nil]

theorem read_delimiter (h : l.read room w = (reading, l')) : l'.delimiter = l.delimiter := by
  rw [read_eq h]

@[simp] theorem transcript_shutDown (l : Link) : l.shutDown.2.transcript = l.transcript := rfl

/-- The client has ended its half of the connection, unless that has broken: the server reads the
end of the stream. -/
def Ended (l : Link) : Prop := l.shut = true ∨ l.isReset = true

theorem ended_shutDown (l : Link) : l.shutDown.2.Ended := by
  cases hr : l.isReset with
  | true => exact Or.inr hr
  | false => exact Or.inl (by simp [shutDown, hr])

@[simp] theorem shutDown_shutDown (l : Link) : l.shutDown.2.shutDown.2 = l.shutDown.2 := by
  have hsame : (l.shut || !l.isReset || !l.isReset) = (l.shut || !l.isReset) := by
    rw [Bool.or_assoc, Bool.or_self]
  exact congrArg (fun shut => { l with shut }) hsame

/-- A frame that is not written whole is not written at all. -/
theorem write_eq (h : l.write frame = (outcome, l')) :
    (∃ cause, outcome = .error cause ∧ l' = l) ∨
      (outcome = .ok () ∧
        l' = { l with halfLine := l'.halfLine, heard := l'.heard, inbox := l'.inbox,
                      transcript := l.transcript ++ [.wrote frame] }) := by
  unfold write at h
  split at h
  · simp only [Prod.mk.injEq] at h
    exact Or.inl ⟨_, h.1.symm, h.2.symm⟩
  · simp only [Prod.mk.injEq] at h
    obtain ⟨rfl, rfl⟩ := h
    refine Or.inr ⟨rfl, ?_⟩
    rw [foldl_hear_eq]

theorem written_eq (h : l.write frame = (.ok (), l')) :
    l' = { l with halfLine := l'.halfLine, heard := l'.heard, inbox := l'.inbox,
                  transcript := l.transcript ++ [.wrote frame] } := by
  rcases write_eq h with ⟨cause, hc, -⟩ | ⟨-, he⟩
  · simp at hc
  · exact he

theorem write_transcript (h : l.write frame = (.ok (), l')) :
    l'.transcript = l.transcript ++ [.wrote frame] :=
  congrArg Link.transcript (written_eq h)

theorem write_delimiter (h : l.write frame = (.ok (), l')) : l'.delimiter = l.delimiter := by
  rw [written_eq h]

end Link

end DocClient
