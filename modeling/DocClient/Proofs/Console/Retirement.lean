import DocClient.Proofs.Channel.Traffic
import DocClient.Proofs.Console.Transcript

/-!
What closing does to a console that nobody else uses. It is asked to quit if that can still be done,
its input ends, and it has the time of its grace to end by itself before it is killed; then its
readers are told to stop and it is told that the console is closed.
-/
namespace DocClient

open Text (Bytes)

namespace Outlet

/-- The events that tell of lines of the outputs. -/
def events (lines : List (Outlet × String)) : List Event :=
  lines.map fun entry => entry.1.event entry.2

@[simp] theorem events_append (lines lines' : List (Outlet × String)) :
    events (lines ++ lines') = events lines ++ events lines' := List.map_append

end Outlet

namespace Pipe

variable {p q r : Pipe} {line : String} {sent : Except Failure Unit} {moment : Nat} {o : Outlet}

/-- All that a sink has been told of. -/
def events (p : Pipe) : List Event := Sink.collect.events p.journal

@[simp] theorem events_record (e : Event) (p : Pipe) : (p.record e).events = p.events ++ [e] := by
  simp [events, record, Sink.events]

@[simp] theorem events_note (level : Level) (message : String) (fields : List (String × String))
    (p : Pipe) : (p.note level message fields).events = p.events := by
  simp [events, note, Sink.events]

/-- Nobody has been told that the console is closed. -/
def Unclosed (p : Pipe) : Prop := ∀ event ∈ p.events, event.isClosing = false

/-- No reader is at work. -/
def Calm (p : Pipe) : Prop := ∀ o, (p.reader o).phase ≠ .busy

theorem events_read (o : Outlet) (line : String) (p : Pipe) :
    (p.read o line).events = p.events ++ Outlet.events [(o, line)] := by
  cases o <;> exact events_record _ p

theorem events_tend? {a : Reader.Act} (h : p.tend? o a = some q) : q.events = p.events := by
  obtain ⟨reader, notes, -, rfl⟩ := tend?_eq_some h
  exact Sink.events_notes _ _

/-- When a line is sent it is told of, or nothing is. -/
theorem events_send (h : p.send line = (sent, q)) :
    (q.events = p.events ∨ q.events = p.events ++ [.sent line]) ∧ q.label = p.label := by
  cases delivers_of_send h with
  | written => exact ⟨Or.inr (events_record _ _), rfl⟩
  | lost => exact ⟨Or.inl (Sink.events_notes _ _), rfl⟩

section Prints

/-- Readers have done their work: output has been told of, and nothing else. -/
structure Prints (p q : Pipe) : Prop where
  told : ∃ lines, q.events = p.events ++ Outlet.events lines
  aside : Aside p q
  calm : p.Calm → q.Calm

theorem Prints.refl (p : Pipe) : Prints p p := ⟨⟨[], by simp [Outlet.events]⟩, .refl p, id⟩

theorem Prints.trans (h : Prints p q) (h' : Prints q r) : Prints p r := by
  obtain ⟨lines, hl⟩ := h.told
  obtain ⟨lines', hl'⟩ := h'.told
  exact ⟨⟨lines ++ lines', by simp [hl, hl']⟩, h.aside.trans h'.aside, h'.calm ∘ h.calm⟩

theorem prints_read (o : Outlet) (line : String) (p : Pipe) : Prints p (p.read o line) := by
  refine ⟨⟨_, events_read o line p⟩, aside_read o line p, ?_⟩
  intro hcalm o'
  rw [reader_read]
  exact hcalm o'

theorem prints_withReader (o : Outlet) {reader : Reader} (h : reader.phase ≠ .busy) (p : Pipe) :
    Prints p (p.withReader o reader) := by
  refine ⟨⟨[], ?_⟩, aside_withReader o reader p, ?_⟩
  · cases o <;> exact (List.append_nil _).symm
  · intro hcalm o'
    by_cases heq : o' = o
    · rwa [heq, reader_withReader]
    · rw [reader_withReader_of_ne heq]
      exact hcalm o'

theorem prints_lines (o : Outlet) (lines : List String) {reader : Reader}
    (h : reader.phase ≠ .busy) (p : Pipe) :
    Prints p ((lines.foldl (read o) p).withReader o reader) := by
  induction lines generalizing p with
  | nil => exact prints_withReader o h p
  | cons line lines ih => exact (prints_read o line p).trans (ih _)

theorem prints_take (chunk : Chunk) (p : Pipe) : Prints p (p.take chunk) := by
  unfold take
  split
  · exact prints_lines _ _ (by simp) p
  · exact .refl p

theorem prints_takes (chunks : List Chunk) (p : Pipe) : Prints p (chunks.foldl take p) := by
  induction chunks generalizing p with
  | nil => exact .refl p
  | cons chunk chunks ih => exact (prints_take chunk p).trans (ih _)

theorem prints_takeTail (o : Outlet) (p : Pipe) : Prints p (p.takeTail o) := by
  unfold takeTail
  split
  · exact prints_lines _ _ (by simp) p
  · exact .refl p

/-- While time passes the console goes on, and readers do their work. -/
theorem prints_advance (moment : Nat) (p : Pipe) :
    Prints { p with child := (p.child.run moment).1, clock := max p.clock moment }
      (p.advance moment) := by
  have htaken := prints_takes (p.child.run moment).2
    { p with child := (p.child.run moment).1, clock := max p.clock moment }
  simp only [advance]
  split
  · exact htaken.trans ((prints_takeTail .standard _).trans (prints_takeTail .error _))
  · exact htaken

end Prints

section HangUp

/-- What neither a line that is written nor the end of the input concerns. -/
structure Kept (p q : Pipe) : Prop where
  label : q.label = p.label
  grace : q.grace = p.grace
  clock : q.clock = p.clock
  status : q.child.status = p.child.status
  reader : ∀ o, q.reader o = p.reader o
  readersTold : q.readersTold = p.readersTold

theorem Kept.refl (p : Pipe) : Kept p p := ⟨rfl, rfl, rfl, rfl, fun _ => rfl, rfl⟩

/-- A console that runs, and whose input is open at both ends, is asked to quit; no other is. -/
structure Asks (p q : Pipe) : Prop where
  kept : Kept p q
  asked : p.Open → q.child.input = p.child.input ++ framed [quitLine] ∧
    q.events = p.events ++ [.sent quitLine]
  unasked : ¬ p.Open → q.child.input = p.child.input ∧ q.events = p.events
  inputEnd : q.child.inputEnd = p.child.inputEnd

theorem asks_askQuit (p : Pipe) : Asks p p.askQuit := by
  by_cases h : p.Open
  · rw [askQuit_of_open h]
    refine ⟨⟨rfl, rfl, rfl, rfl, by rintro (_ | _) <;> rfl, rfl⟩, fun _ => ⟨?_, events_record _ _⟩,
      fun hn => absurd h hn, rfl⟩
    exact (Child.write_input _ _ _).trans
      (congrArg (p.child.input ++ ·) (List.append_nil _).symm)
  · obtain ⟨notes, hquit⟩ := askQuit_of_not_open h
    rw [hquit]
    exact ⟨⟨rfl, rfl, rfl, rfl, by rintro (_ | _) <;> rfl, rfl⟩, fun ho => absurd ho h,
      fun _ => ⟨rfl, Sink.events_notes _ _⟩, rfl⟩

theorem asks_sendQuit (p : Pipe) : Asks p p.sendQuit := by
  unfold sendQuit
  split
  · exact asks_askQuit p
  · next hshut =>
    have hclosed : ¬ p.Open := fun h => hshut (by simp [h.held, h.running])
    exact ⟨.refl p, fun ho => absurd ho hclosed, fun _ => ⟨rfl, rfl⟩, rfl⟩

/-- The input of the console ends. -/
structure HangsUp (p q : Pipe) : Prop where
  kept : Kept p q
  input : q.child.input = p.child.input
  told : q.events = p.events
  shut : q.inputOpen = false
  ended : q.child.inputEnd = some (p.child.inputEnd.getD p.clock)

theorem hangsUp_endInput (p : Pipe) : HangsUp p p.endInput :=
  ⟨⟨rfl, rfl, rfl, rfl, by rintro (_ | _) <;> rfl, rfl⟩, rfl, rfl, rfl, rfl⟩

end HangUp

section Retire

/-- What has not ended is killed, the readers are told to stop, and this is told. -/
structure Retires (p q : Pipe) : Prop where
  status : q.child.status = some (p.child.status.getD .killed)
  input : q.child.input = p.child.input
  told : q.events = p.events ++ [.closed p.label]
  readersTold : q.readersTold = true
  reader : ∀ o, q.reader o = p.reader o
  label : q.label = p.label
  inputOpen : q.inputOpen = p.inputOpen

theorem retires_retire (p : Pipe) : Retires p p.retire := by
  have hinput := retire_input p
  have htold (p : Pipe) : (({ p with readersTold := true } : Pipe).record (.closed p.label)).events
      = p.events ++ [.closed p.label] := events_record _ _
  unfold retire at hinput ⊢
  split at hinput
  · next status hs =>
    refine ⟨?_, hinput, (htold _).trans ?_, rfl, by rintro (_ | _) <;> rfl, rfl, rfl⟩
    · exact hs.trans (by rw [hs]; rfl)
    · rw [events_note]
      rfl
  · next hs =>
    refine ⟨?_, hinput, (htold _).trans ?_, rfl, by rintro (_ | _) <;> rfl, rfl, rfl⟩
    · simp [record, note, Child.kill, Child.hasEnded, hs]
    · exact congrArg (· ++ _) (events_note _ _ _ p)

theorem Retires.noted (h : Retires p q) (n : Note) :
    Retires p { q with journal := q.journal ++ [.note n] } :=
  ⟨h.status, h.input, (Sink.events_notes q.journal [n]).trans h.told, h.readersTold,
    fun o => (by cases o <;> rfl : Pipe.reader _ o = q.reader o).trans (h.reader o), h.label,
    h.inputOpen⟩

end Retire

/-- What comes of closing a console that nobody else uses, whatever it does meanwhile. -/
structure Closes (p q : Pipe) : Prop where
  /-- It is asked to quit if it runs and its input can be written to, and all else that is told
  before the end are lines that it prints. -/
  told : ∃ quits lines, (p.Open ∧ quits = [quitLine] ∨ ¬ p.Open ∧ quits = []) ∧
    q.child.input = p.child.input ++ framed quits ∧
    q.events = p.events ++ quits.map .sent ++ Outlet.events lines ++ [.closed p.label]
  shut : q.inputOpen = false
  readersTold : q.readersTold = true
  calm : p.Calm → q.Calm
  ended : q.child.hasEnded = true
  /-- If it ends by itself within the grace, it is left to it. -/
  spared : ∀ moment ≤ p.clock + p.grace.microseconds, ∀ status,
    (p.hangUp.child.run moment).1.status = some status → q.child.status = some status
  killed : (∀ moment ≤ p.clock + p.grace.microseconds,
    (p.hangUp.child.run moment).1.status = none) → q.child.status = some .killed

theorem closes_close (p : Pipe) : Closes p p.close := by
  have hasks := asks_sendQuit p
  have hup := hangsUp_endInput p.sendQuit
  have hdeadline : p.hangUp.deadline = p.clock + p.grace.microseconds := by
    rw [deadline, hangUp, hup.kept.clock, hup.kept.grace, hasks.kept.clock, hasks.kept.grace]
  have hprints := prints_advance p.hangUp.deadline p.hangUp
  have hretires := retires_retire (p.hangUp.advance p.hangUp.deadline)
  have hstatus : p.close.child.status
      = some (((p.hangUp.child.run p.hangUp.deadline).1.status).getD .killed) := by
    rw [← child_advance]
    exact hretires.status
  obtain ⟨lines, hlines⟩ := hprints.told
  refine ⟨?_, ?_, hretires.readersTold, ?_, ?_, ?_, ?_⟩
  · have hinput : p.close.child.input = p.sendQuit.child.input :=
      (hretires.input.trans (advance_input _ p.hangUp)).trans hup.input
    have hlabel : (p.hangUp.advance p.hangUp.deadline).label = p.label :=
      hprints.aside.label.trans (hup.kept.label.trans hasks.kept.label)
    have hevents : p.close.events = p.sendQuit.events ++ Outlet.events lines ++ [.closed p.label] := by
      rw [close, hretires.told, hlines, hlabel]
      exact congrArg (· ++ Outlet.events lines ++ [.closed p.label]) hup.told
    by_cases ho : p.Open
    · obtain ⟨hasked, htold⟩ := hasks.asked ho
      exact ⟨[quitLine], lines, Or.inl ⟨ho, rfl⟩, hinput.trans hasked,
        hevents.trans (by simp [htold])⟩
    · obtain ⟨hasked, htold⟩ := hasks.unasked ho
      refine ⟨[], lines, Or.inr ⟨ho, rfl⟩, ?_, hevents.trans (by simp [htold])⟩
      rw [hinput, hasked]
      exact (List.append_nil _).symm
  · exact hretires.inputOpen.trans (hprints.aside.inputOpen.trans hup.shut)
  · intro hcalm o
    have hhung : Calm { p.hangUp with
        child := (p.hangUp.child.run p.hangUp.deadline).1
        clock := max p.hangUp.clock p.hangUp.deadline } := by
      intro o
      have hreader : p.hangUp.reader o = p.reader o :=
        (hup.kept.reader o).trans (hasks.kept.reader o)
      exact fun hbusy => hcalm o (by rw [← hreader]; cases o <;> exact hbusy)
    exact (hretires.reader o).symm ▸ hprints.calm hhung o
  · rw [Child.hasEnded, hstatus]
    rfl
  · intro moment hle status hm
    have hended : (p.hangUp.child.run moment).1.hasEnded = true := by simp [Child.hasEnded, hm]
    rw [hstatus, Child.run_of_ended (hdeadline ▸ hle) hended, hm]
    rfl
  · intro hnever
    rw [hstatus, hnever _ (Nat.le_of_eq hdeadline)]
    rfl

theorem Closes.noted (h : Closes p q) (n : Note) :
    Closes p { q with journal := q.journal ++ [.note n] } := by
  have hevents : ({ q with journal := q.journal ++ [.note n] } : Pipe).events = q.events :=
    Sink.events_notes q.journal [n]
  refine ⟨?_, h.shut, h.readersTold, ?_, h.ended, h.spared, h.killed⟩
  · rw [hevents]
    exact h.told
  · intro hcalm o
    have hbusy := h.calm hcalm o
    cases o <;> exact hbusy

end Pipe

end DocClient
