import DocClient.Proofs.Console.Input
import DocClient.Proofs.Console.Windows
import DocClient.Proofs.Journal
import DocClient.Proofs.Text.Utf8

/-!
What is written to a console over a whole run: the lines that calls send, and after them at most the
line that asks it to quit. Once its input is given up, or is to be next, nothing more is written.
-/
namespace DocClient

open Text (Bytes)

/-- The line that an event tells of as sent. -/
def Event.sent? : Event → Option String
  | .sent line => some line
  | .connected _ | .received _ | .stderr _ | .closed _ => none

namespace Journal

/-- The lines that a sink has been told of as sent. -/
def sentLines (journal : Journal) : List String :=
  (Sink.collect.events journal).filterMap Event.sent?

@[simp] theorem sentLines_event (journal : Journal) (event : Event) :
    sentLines (journal ++ [.event event]) = sentLines journal ++ event.sent?.toList := by
  cases h : event.sent? <;> simp [sentLines, Sink.events, h]

@[simp] theorem sentLines_note (journal : Journal) (n : Note) :
    sentLines (journal ++ [.note n]) = sentLines journal := by
  simp [sentLines, Sink.events]

@[simp] theorem sentLines_notes (journal : Journal) (notes : List Note) :
    sentLines (journal ++ notes.map .note) = sentLines journal := by
  simp [sentLines]

end Journal

namespace Pipe

variable {p p' : Pipe} {line : String} {sent : Except Failure Unit}

/-- Lines as they are written, each with its end. -/
def framed (lines : List String) : Bytes :=
  lines.flatMap fun line => Text.utf8 line ++ [Child.lineFeed]

@[simp] theorem framed_append (lines lines' : List String) :
    framed (lines ++ lines') = framed lines ++ framed lines' := List.flatMap_append

theorem lineFeed_not_mem_utf8 (h : '\n' ∉ line.toList) : Child.lineFeed ∉ Text.utf8 line := by
  intro hm
  obtain ⟨c, hc, hb⟩ := List.mem_flatMap.mp hm
  rcases Text.mem_charBytes hb with ⟨he, -⟩ | hle
  · have hfeed : c = '\n' := Char.ext (UInt32.toNat_inj.mp he.symm)
    exact h (hfeed ▸ hc)
  · exact absurd hle (by decide)

/-- Lines that have no line feed in them are found again. -/
theorem frames_framed {lines : List String} (h : ∀ line ∈ lines, '\n' ∉ line.toList) :
    Text.frames Child.lineFeed (framed lines) = (lines.map Text.utf8, []) := by
  apply Text.frames_eq
  refine ⟨by simp [framed, List.flatMap_map], ?_, by simp⟩
  intro bytes hb
  obtain ⟨line, hl, rfl⟩ := List.mem_map.mp hb
  exact lineFeed_not_mem_utf8 (h line hl)

/-- A line is written whole and told of, or nothing is written and the input is given up. -/
theorem send_cases (h : p.send line = (sent, p')) :
    sent = .ok () ∧ p.inputOpen = true ∧ p'.child.input = p.child.input ++ framed [line] ∧
        p'.journal.sentLines = p.journal.sentLines ++ [line] ∨
      sent = .error .channelClosed ∧ p'.inputOpen = false ∧ p'.child = p.child ∧
        p'.journal.sentLines = p.journal.sentLines := by
  cases delivers_of_send h with
  | written ho =>
    refine Or.inl ⟨rfl, ho.held, ?_, Journal.sentLines_event _ _⟩
    exact (Child.write_input _ _ _).trans (by simp [framed])
  | lost => exact Or.inr ⟨rfl, rfl, rfl, Journal.sentLines_notes _ _⟩

/-- What comes of asking the console to quit. -/
theorem askQuit_cases (p : Pipe) :
    p.inputOpen = true ∧ p.askQuit.child.input = p.child.input ++ framed [quitLine] ∧
        p.askQuit.journal.sentLines = p.journal.sentLines ++ [quitLine] ∨
      p.askQuit.inputOpen = false ∧ p.askQuit.child.input = p.child.input ∧
        p.askQuit.journal.sentLines = p.journal.sentLines := by
  by_cases ho : p.Open
  · rw [askQuit_of_open ho]
    refine Or.inl ⟨ho.held, ?_, Journal.sentLines_event _ _⟩
    exact (Child.write_input _ _ _).trans (by simp [framed])
  · obtain ⟨notes, hquit⟩ := askQuit_of_not_open ho
    rw [hquit]
    exact Or.inr ⟨rfl, rfl, Journal.sentLines_notes _ _⟩

theorem kill_input (c : Child) : c.kill.input = c.input := by
  unfold Child.kill
  split <;> rfl

theorem retire_input (p : Pipe) : p.retire.child.input = p.child.input := by
  unfold retire
  split
  · rfl
  · exact kill_input _

theorem abandon_input (p : Pipe) : p.abandon.child.input = p.child.input := kill_input _

theorem retire_sentLines (p : Pipe) : p.retire.journal.sentLines = p.journal.sentLines := by
  have hclosed (p : Pipe) : (p.record (.closed p.label)).journal.sentLines
      = p.journal.sentLines := by
    simp [record, Event.sent?]
  unfold retire
  split
  · exact (hclosed _).trans (Journal.sentLines_note _ _)
  · exact (hclosed _).trans (Journal.sentLines_note _ _)

end Pipe

namespace ConsoleClient

variable {c : ConsoleClient} {s t u : Scene} {turn : Turn} {turns past : List Turn} {place : Nat}
  {call : Call} {line : String} {bytes : Bytes} {a : Answer}

/-- The line that a turn sends. -/
def Turn.sent? : Turn → Option String
  | sent _ line => some line
  | pushed _ | remarked _ | tended _ | passed | queued _ _ | cleared _ _ | answered _ _ _
  | left _ _ | vacated _ | asked _ | hungUp _ => none

/-- The lines that calls send, in the order of the turns. -/
def sentIn (turns : List Turn) : List String := turns.filterMap Turn.sent?

namespace Scene

/-- All that has been given to the console to read. -/
def input (s : Scene) : Bytes := s.client.pipe.child.input

/-- The lines that the sink has been told of as sent. -/
def toldSent (s : Scene) : List String := s.client.pipe.journal.sentLines

end Scene

/-- Lines that a turn gives the console to read, and of which the sink is told. What the console
does by itself gives it nothing to read. -/
structure Speaks (s : Scene) (turn : Turn) (lines : List String) (t : Scene) : Prop where
  input : turn ≠ .passed → t.input = s.input ++ Pipe.framed lines
  told : t.toldSent = s.toldSent ++ lines

theorem Speaks.silent (hi : t.input = s.input) (ht : t.toldSent = s.toldSent) :
    Speaks s turn [] t := by
  refine ⟨fun _ => ?_, ?_⟩
  · simp [Pipe.framed, hi]
  · simp [ht]

/-- A caller that goes away says nothing more. -/
theorem release_input (holder : Holder) (p : Pipe) :
    (holder.release p).child.input = p.child.input := by
  cases holder with
  | asking | settling => rfl
  | parting => exact Pipe.abandon_input p

theorem release_journal (holder : Holder) (p : Pipe) : (holder.release p).journal = p.journal := by
  cases holder <;> rfl

/-- A turn says what its call is to send; only a close that asks the console to quit, and finds its
input open, says something else. -/
theorem speaks_of_step (h : Step s turn t) : Speaks s turn turn.sent?.toList t ∨
    s.client.pipe.inputOpen = true ∧ (∃ place, turn = .asked place) ∧
      Speaks s turn [Pipe.quitLine] t := by
  cases h with
  | pushes line h | remarks line h =>
    refine Or.inl (.silent rfl ?_)
    exact (Journal.sentLines_event _ _).trans (List.append_nil _)
  | tends h =>
    obtain ⟨reader, notes, -, hpipe⟩ := Pipe.tend?_eq_some h
    refine Or.inl (.silent (congrArg Child.input (Pipe.aside_tend? h).child) ?_)
    exact (congrArg (·.journal.sentLines) hpipe).trans (Journal.sentLines_notes _ _)
  | passes child clock => exact Or.inl ⟨fun h => absurd rfl h, (List.append_nil _).symm⟩
  | queues | refuses | rejects | clears | leaves | probes | closesAgain | vacates | hangsUp =>
    exact Or.inl (.silent rfl rfl)
  | forsakes hh =>
    exact Or.inl (.silent (release_input _ _) (congrArg Journal.sentLines (release_journal _ _)))
  | harvests hh h =>
    obtain ⟨rfl, rfl⟩ := Prod.mk.inj h
    exact Or.inl (.silent rfl rfl)
  | sends hh h =>
    rcases Pipe.send_cases h with ⟨-, -, hinput, htold⟩ | ⟨hsent, -⟩
    · exact Or.inl ⟨fun _ => hinput, htold⟩
    · simp at hsent
  | fails hh h =>
    rcases Pipe.send_cases h with ⟨hsent, -⟩ | ⟨-, -, hchild, htold⟩
    · simp at hsent
    · exact Or.inl (.silent (congrArg Child.input hchild) htold)
  | asks hh =>
    rcases Pipe.askQuit_cases s.client.pipe with ⟨hheld, hinput, htold⟩ | ⟨-, hinput, htold⟩
    · exact Or.inr ⟨hheld, ⟨_, rfl⟩, fun _ => hinput, htold⟩
    · exact Or.inl (.silent hinput htold)
  | parts hh =>
    refine Or.inl (.silent (Pipe.retire_input _) ?_)
    exact (Journal.sentLines_note _ _).trans (Pipe.retire_sentLines _)

/-- A run, and all the bytes that are given to the console to read in it. -/
inductive Feeds : Scene → List Turn → Bytes → Scene → Prop
  | nil (s : Scene) : Feeds s [] [] s
  | passed {s t u : Scene} {turns : List Turn} {bytes : Bytes} (h : Step s .passed t)
      (hf : Feeds t turns bytes u) : Feeds s (.passed :: turns) bytes u
  | cons {s t u : Scene} {turn : Turn} {turns : List Turn} {written bytes : Bytes}
      (hp : turn ≠ .passed) (h : Step s turn t) (hw : t.input = s.input ++ written)
      (hf : Feeds t turns bytes u) : Feeds s (turn :: turns) (written ++ bytes) u

/-- Something definite is written in every run. -/
theorem exists_feeds (hr : Run s turns t) : ∃ bytes, Feeds s turns bytes t := by
  induction hr with
  | nil s => exact ⟨[], .nil s⟩
  | @cons s t u turn turns h hr ih =>
    obtain ⟨bytes, hf⟩ := ih
    by_cases hp : turn = .passed
    · subst hp
      exact ⟨bytes, .passed h hf⟩
    · rcases speaks_of_step h with hs | ⟨-, -, hs⟩
      · exact ⟨_, .cons hp h (hs.input hp) hf⟩
      · exact ⟨_, .cons hp h (hs.input hp) hf⟩

theorem Feeds.run (h : Feeds s turns bytes t) : Run s turns t := by
  induction h with
  | nil s => exact .nil s
  | passed h _ ih => exact .cons h ih
  | cons hp h hw _ ih => exact .cons h ih

/-- What is written in a run is what its turns say, one after the other. -/
theorem Feeds.cons_inv (h : Feeds s (turn :: turns) bytes u) : ∃ t rest, Step s turn t ∧
    Feeds t turns rest u ∧ ∀ lines, Speaks s turn lines t → (turn = .passed → lines = []) →
      bytes = Pipe.framed lines ++ rest := by
  cases h with
  | passed h hf =>
    refine ⟨_, _, h, hf, ?_⟩
    intro lines hs hn
    simp [hn rfl, Pipe.framed]
  | cons hp h hw hf =>
    refine ⟨_, _, h, hf, ?_⟩
    intro lines hs hn
    rw [List.append_cancel_left (hw.symm.trans (hs.input hp))]

/-- A close has taken the console away, and has not yet ended its input. -/
def Scene.Leaving (s : Scene) : Prop :=
  ∃ place, s.holder = some (.parting place .quitting) ∨ s.holder = some (.parting place .ending)

/-- Who has the console has found the client open, and has a line for it; a client that is closed
has given the console's input up, or is about to. -/
structure Scene.Poised (s : Scene) : Prop where
  asking : ∀ {place call line}, s.holder = some (.asking place call line) →
    s.client.isOpen = true ∧ call.line = .ok (some line) ∧ isSingleLine line = true
  settling : ∀ {place call}, s.holder = some (.settling place call) →
    s.client.isOpen = true ∧ ∃ line, call.line = .ok (some line)
  parting : ∀ {place stage}, s.holder = some (.parting place stage) → s.client.isOpen = false
  shut : s.client.isOpen = false → s.client.pipe.inputOpen = false ∨ s.Leaving

/-- Input that is given up stays so. -/
theorem shut_of_step (h : Step s turn t) (hs : s.client.pipe.inputOpen = false) :
    t.client.pipe.inputOpen = false := by
  cases h with
  | pushes | remarks | passes | queues | refuses | rejects | clears | leaves | probes | closesAgain
  | vacates => exact hs
  | hangsUp => rfl
  | tends h => exact (Pipe.aside_tend? h).inputOpen.trans hs
  | @forsakes holder hh => cases holder <;> first | exact hs | rfl
  | harvests hh h =>
    obtain ⟨-, rfl⟩ := Prod.mk.inj h
    exact hs
  | sends hh h =>
    rcases Pipe.send_cases h with ⟨-, hheld, -⟩ | ⟨hsent, -⟩
    · simp [hs] at hheld
    · simp at hsent
  | fails hh h =>
    rcases Pipe.send_cases h with ⟨hsent, -⟩ | ⟨-, hshut, -⟩
    · simp at hsent
    · exact hshut
  | asks =>
    rcases Pipe.askQuit_cases s.client.pipe with ⟨hheld, -⟩ | ⟨hshut, -⟩
    · simp [hs] at hheld
    · exact hshut
  | parts =>
    simp only [note, Pipe.retire]
    split <;> exact hs

/-- The console is not asked anything any more: its input is given up, or that comes next. -/
def Scene.Hushed (s : Scene) : Prop :=
  s.client.pipe.inputOpen = false ∨ ∃ place, s.holder = some (.parting place .ending)

/-- What comes next when a close ends the input is that, unless the caller goes away first. -/
theorem hushed_of_ending (h : Step s turn t) (hs : s.holder = some (.parting place .ending)) :
    t.Hushed ∧ turn.sent? = none ∧ ∀ place, turn ≠ .asked place := by
  cases h with
  | pushes | remarks | tends | passes | queues | leaves =>
    exact ⟨Or.inr ⟨place, hs⟩, rfl, by simp⟩
  | refuses _ hh => simp [hs] at hh
  | rejects hh | clears hh | probes hh | closesAgain hh | vacates hh => simp [hs] at hh
  | sends hh | fails hh | harvests hh | asks hh | parts hh => simp [hs] at hh
  | forsakes hh =>
    obtain rfl := Option.some.inj (hh.symm.trans hs)
    exact ⟨Or.inl rfl, rfl, by simp⟩
  | hangsUp => exact ⟨Or.inl rfl, rfl, by simp⟩

/-- Nothing more is written. -/
theorem hushed_of_step (h : Step s turn t) (hs : s.Hushed) :
    t.Hushed ∧ turn.sent? = none ∧ Speaks s turn [] t := by
  have hkept : t.Hushed ∧ turn.sent? = none ∧
      (s.client.pipe.inputOpen = false ∨ ∀ place, turn ≠ .asked place) := by
    rcases hs with hs | ⟨place, hs⟩
    · refine ⟨Or.inl (shut_of_step h hs), ?_, Or.inl hs⟩
      cases h with
      | sends hh h =>
        rcases Pipe.send_cases h with ⟨-, hheld, -⟩ | ⟨hsent, -⟩
        · simp [hs] at hheld
        · simp at hsent
      | _ => rfl
    · obtain ⟨hhushed, hnone, hasked⟩ := hushed_of_ending h hs
      exact ⟨hhushed, hnone, Or.inr hasked⟩
  obtain ⟨hhushed, hnone, hquiet⟩ := hkept
  refine ⟨hhushed, hnone, ?_⟩
  rcases speaks_of_step h with hspeaks | ⟨hheld, ⟨place, rfl⟩, -⟩
  · rw [hnone] at hspeaks
    exact hspeaks
  · rcases hquiet with hs | hasked
    · simp [hs] at hheld
    · exact absurd rfl (hasked place)

theorem hushed_of_asked (h : Step s (.asked place) t) : t.Hushed := by
  cases h with
  | asks => exact Or.inr ⟨place, rfl⟩

theorem Scene.Poised.start (ho : c.isOpen = true) : Scene.Poised { client := c } where
  asking h := by simp at h
  settling h := by simp at h
  parting h := by simp at h
  shut h := by simp [ho] at h

theorem poised_of_step (h : Step s turn t) (hs : s.Poised) : t.Poised := by
  have hfree (hopen : t.client.isOpen = s.client.isOpen) (hn : t.holder = none)
      (hshut : s.Leaving → t.client.pipe.inputOpen = false) : t.Poised := by
    refine ⟨fun h => by simp [hn] at h, fun h => by simp [hn] at h, fun h => by simp [hn] at h, ?_⟩
    intro hc
    exact Or.inl ((hs.shut (hopen ▸ hc)).elim (shut_of_step h) hshut)
  have hheld (hopen : t.client.isOpen = s.client.isOpen) (hn : t.holder = s.holder) : t.Poised := by
    refine ⟨?_, ?_, ?_, ?_⟩
    · intro place call line hh
      rw [hopen]
      exact hs.asking (hn ▸ hh)
    · intro place call hh
      rw [hopen]
      exact hs.settling (hn ▸ hh)
    · intro place stage hh
      exact hopen.trans (hs.parting (hn ▸ hh))
    · intro hc
      refine (hs.shut (hopen ▸ hc)).imp (shut_of_step h) ?_
      rintro ⟨place, hl⟩
      exact ⟨place, hn ▸ hl⟩
  have hleaving {holder : Holder} (hh : s.holder = some holder)
      (hn : ∀ place, holder ≠ .parting place .quitting ∧ holder ≠ .parting place .ending) :
      ¬ s.Leaving := by
    rintro ⟨place, hl | hl⟩
    · exact (hn place).1 (Option.some.inj (hh.symm.trans hl))
    · exact (hn place).2 (Option.some.inj (hh.symm.trans hl))
  cases h with
  | pushes | remarks | tends | passes | queues | refuses | leaves => exact hheld rfl rfl
  | rejects hh | probes hh | closesAgain hh => exact hheld rfl rfl
  | fails hh | harvests hh | parts hh =>
    exact hfree rfl rfl fun hl => absurd hl (hleaving hh (by simp))
  | @forsakes holder hh =>
    refine hfree rfl rfl fun hl => ?_
    cases holder with
    | asking | settling => exact absurd hl (hleaving hh (by simp))
    | parting => rfl
  | clears hh hq hl ho hsingle =>
    refine ⟨?_, fun h => by simp at h, fun h => by simp at h,
      fun hc => absurd (ho.symm.trans hc) (by simp)⟩
    intro place call line h
    obtain ⟨rfl, rfl, rfl⟩ := Holder.asking.inj (Option.some.inj h)
    exact ⟨ho, hl, hsingle⟩
  | sends hh h =>
    obtain ⟨ho, hline, -⟩ := hs.asking hh
    refine ⟨fun h => by simp at h, ?_, fun h => by simp at h,
      fun hc => absurd (ho.symm.trans hc) (by simp)⟩
    intro place call h
    obtain ⟨rfl, rfl⟩ := Holder.settling.inj (Option.some.inj h)
    exact ⟨ho, _, hline⟩
  | @vacates place =>
    refine ⟨fun h => by simp at h, fun h => by simp at h, fun _ => rfl,
      fun _ => Or.inr ⟨place, ?_⟩⟩
    unfold Stage.first
    split
    · exact Or.inl rfl
    · exact Or.inr rfl
  | asks hh =>
    exact ⟨fun h => by simp at h, fun h => by simp at h, fun _ => hs.parting hh,
      fun _ => Or.inr ⟨_, Or.inr rfl⟩⟩
  | hangsUp hh =>
    exact ⟨fun h => by simp at h, fun h => by simp at h, fun _ => hs.parting hh,
      fun _ => Or.inl rfl⟩

theorem poised_of_run (hr : Run s turns t) (hs : s.Poised) : t.Poised := by
  induction hr with
  | nil => exact hs
  | cons h _ ih => exact ih (poised_of_step h hs)

theorem sentIn_cons (turn : Turn) (turns : List Turn) :
    sentIn (turn :: turns) = turn.sent?.toList ++ sentIn turns := by
  cases h : turn.sent? <;> simp [sentIn, h]

/-- No call of a closed client sends anything. -/
theorem unsent_of_closed (hr : Run s turns t) (hs : s.Poised) (hc : s.client.isOpen = false) :
    sentIn turns = [] := by
  induction hr with
  | nil => rfl
  | @cons s t u turn turns h hr ih =>
    have hclosed : t.client.isOpen = false := by
      cases h with
      | vacates => rfl
      | _ => exact hc
    have hnone : turn.sent? = none := by
      cases h with
      | sends hh => simp [(hs.asking hh).1] at hc
      | _ => rfl
    rw [sentIn_cons, hnone, ih (poised_of_step h hs) hclosed]
    rfl

/-- Nothing is written any more, and the sink is told of nothing. -/
theorem silent_of_feeds (hf : Feeds s turns bytes t) (hs : s.Hushed) :
    bytes = [] ∧ sentIn turns = [] ∧ t.toldSent = s.toldSent := by
  induction turns generalizing s bytes with
  | nil =>
    cases hf
    exact ⟨rfl, rfl, rfl⟩
  | cons turn turns ih =>
    obtain ⟨t', rest, h, hrest, hbytes⟩ := hf.cons_inv
    obtain ⟨hshut, hnone, hspeaks⟩ := hushed_of_step h hs
    obtain ⟨rfl, hsent, htold⟩ := ih hrest hshut
    refine ⟨hbytes [] hspeaks fun _ => rfl, ?_, ?_⟩
    · simp [sentIn_cons, hnone, hsent]
    · rw [htold, hspeaks.told, List.append_nil]

/-- What is written in a run are the lines of its calls, and after them at most the one that asks
the console to quit, if a close comes to it. -/
theorem stream_of_feeds (hf : Feeds s turns bytes t) : ∃ quits,
    (quits = [] ∨ quits = [Pipe.quitLine] ∧ ∃ place, .asked place ∈ turns) ∧
      bytes = Pipe.framed (sentIn turns ++ quits) ∧
      t.toldSent = s.toldSent ++ (sentIn turns ++ quits) := by
  induction turns generalizing s bytes with
  | nil =>
    cases hf
    exact ⟨[], Or.inl rfl, rfl, by simp [sentIn]⟩
  | cons turn turns ih =>
    obtain ⟨t', rest, h, hrest, hbytes⟩ := hf.cons_inv
    rcases speaks_of_step h with hspeaks | ⟨-, ⟨place, rfl⟩, hspeaks⟩
    · obtain ⟨quits, hquits, rfl, htold⟩ := ih hrest
      refine ⟨quits, ?_, ?_, ?_⟩
      · rcases hquits with hnone | ⟨hquit, place, hm⟩
        · exact Or.inl hnone
        · exact Or.inr ⟨hquit, place, List.mem_cons_of_mem turn hm⟩
      · rw [hbytes _ hspeaks (fun hp => by simp [hp, Turn.sent?]), ← Pipe.framed_append,
          sentIn_cons, List.append_assoc]
      · rw [htold, hspeaks.told, sentIn_cons]
        simp
    · obtain ⟨rfl, hsent, htold⟩ := silent_of_feeds hrest (hushed_of_asked h)
      refine ⟨[Pipe.quitLine], Or.inr ⟨rfl, place, List.mem_cons_self⟩, ?_, ?_⟩
      · rw [hbytes _ hspeaks (by simp), sentIn_cons, hsent]
        simp [Turn.sent?]
      · rw [htold, hspeaks.told, sentIn_cons, hsent]
        simp [Turn.sent?]

/-- Whoever is closing the client has taken the console away before. -/
def Vacated (past : List Turn) (s : Scene) : Prop :=
  ∀ place stage, s.holder = some (.parting place stage) → .vacated place ∈ past

theorem vacated_of_step (h : Step s turn t) (hs : Vacated past s) : Vacated (past ++ [turn]) t := by
  intro place stage ht
  have hbefore {stage : Stage} (hh : s.holder = some (.parting place stage)) :
      .vacated place ∈ past ++ [turn] :=
    List.mem_append_left _ (hs place stage hh)
  cases h with
  | pushes | remarks | tends | passes | queues | refuses | leaves => exact hbefore ht
  | rejects hh | probes hh | closesAgain hh => simp [hh] at ht
  | clears | sends | fails | harvests | forsakes | parts => simp at ht
  | vacates =>
    obtain ⟨rfl, -⟩ := Holder.parting.inj (Option.some.inj ht)
    simp
  | asks hh | hangsUp hh =>
    obtain ⟨rfl, -⟩ := Holder.parting.inj (Option.some.inj ht)
    exact hbefore hh

theorem vacated_of_run (hr : Run s turns t) (hs : Vacated past s) : Vacated (past ++ turns) t := by
  induction hr generalizing past with
  | nil => simpa using hs
  | cons h _ ih => simpa using ih (vacated_of_step h hs)

theorem vacated_of_asked (hr : Run { client := c } turns s) (h : .asked place ∈ turns) :
    .vacated place ∈ turns := by
  obtain ⟨before, after, rfl⟩ := List.append_of_mem h
  obtain ⟨s', hbefore, hafter⟩ := hr.split
  have hvacated : Vacated ([] ++ before) s' := by
    apply vacated_of_run hbefore
    intro place stage hh
    simp at hh
  cases hafter with
  | cons hstep _ =>
    cases hstep with
    | asks hh => exact List.mem_append_left _ (hvacated place _ hh)

end ConsoleClient

end DocClient
