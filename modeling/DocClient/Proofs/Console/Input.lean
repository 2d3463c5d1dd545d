import DocClient.Console.Client
import DocClient.Proofs.Console.Readers
import DocClient.Proofs.Text.Frame

/-!
What a console has been given to read. Whatever it does, and whenever it is watched, only a line
that is sent to it adds to its input.
-/
namespace DocClient

open Text (Bytes)

namespace Child

variable {c : Child} {limit : Nat}

/-- All bytes that have been written to it, whether it has read them or not. -/
def input (c : Child) : Bytes :=
  (c.heard ++ c.queue.map Prod.snd).flatMap (· ++ [lineFeed]) ++ c.halfLine

/-- The agenda reads nothing. -/
theorem act_input (limit : Nat) (c : Child) (agenda : Schedule Deed) :
    (c.act limit agenda).1.heard = c.heard ∧ (c.act limit agenda).1.queue = c.queue ∧
      (c.act limit agenda).1.halfLine = c.halfLine := by
  induction agenda generalizing c with
  | nil => exact ⟨rfl, rfl, rfl⟩
  | cons entry rest ih =>
    obtain ⟨moment, deed⟩ := entry
    unfold act
    split
    · exact ⟨rfl, rfl, rfl⟩
    · cases deed with
      | exit code => exact ⟨rfl, rfl, rfl⟩
      | stdout | stderr | closeInput | stopReading => exact ih _

/-- Lines go from the queue to what has been heard, in order. -/
theorem serve_input (limit : Nat) (c : Child) (queue : List (Nat × Bytes)) :
    (c.serve limit queue).1.heard ++ (c.serve limit queue).1.queue.map Prod.snd
        = c.heard ++ queue.map Prod.snd ∧
      (c.serve limit queue).1.halfLine = c.halfLine := by
  induction queue generalizing c with
  | nil => simp [serve]
  | cons entry more ih =>
    obtain ⟨arrival, line⟩ := entry
    unfold serve
    split
    · obtain ⟨hheard, -, hhalf⟩ := act_input limit { c with heard := c.heard ++ [line] }
        ((c.console.answer (c.heard ++ [line])).begin (max c.clock arrival))
      obtain ⟨hlines, hrest⟩ := ih (c := ({ c with heard := c.heard ++ [line] }.act limit
        ((c.console.answer (c.heard ++ [line])).begin (max c.clock arrival))).1)
      rw [hheard] at hlines
      refine ⟨?_, hrest.trans hhalf⟩
      simpa using hlines
    · exact ⟨rfl, rfl⟩

theorem meetEnd_input (limit : Nat) (c : Child) : (c.meetEnd limit).1.input = c.input := by
  unfold meetEnd
  split
  · rfl
  · next moment _ =>
    split
    · obtain ⟨hheard, hqueue, hhalf⟩ := act_input limit { c with sawEnd := true }
        (c.console.atEnd.begin (max c.clock moment))
      rw [input, hheard, hqueue, hhalf, input]
    · rfl

theorem run_input (limit : Nat) (c : Child) : (c.run limit).1.input = c.input := by
  obtain ⟨hheard, hqueue, hhalf⟩ := act_input limit c c.agenda
  obtain ⟨hlines, hrest⟩ := serve_input limit (c.act limit c.agenda).1 (c.act limit c.agenda).1.queue
  unfold run
  split
  · rfl
  · simp only [meetEnd_input]
    rw [input, hlines, hrest, hheard, hqueue, hhalf, input]

theorem write_input (now : Nat) (bytes : Bytes) (c : Child) :
    (c.write now bytes).input = c.input ++ bytes := by
  have hjoined := (Text.lines_frames lineFeed (c.halfLine ++ bytes)).joined
  simp only [input, write, List.map_append, List.map_map, Function.comp_def, List.map_id',
    List.flatMap_append, List.append_assoc]
  rw [← hjoined]

end Child

namespace Pipe

variable {p p' : Pipe} {line : String}

/-- Time that passes adds nothing to the input. -/
theorem advance_input (moment : Nat) (p : Pipe) :
    (p.advance moment).child.input = p.child.input := by
  rw [child_advance, Child.run_input]

/-- A pipe to a console that can be written to. -/
structure Open (p : Pipe) : Prop where
  running : p.hasEnded = false
  held : p.inputOpen = true
  readable : p.child.inputOpen = true

theorem send_of_open (h : p.Open) (line : String) : p.send line = (.ok (), ({ p with
    child := p.child.write p.clock (Text.utf8 line ++ [Child.lineFeed]) } : Pipe).record
      (.sent line)) := by
  have hrunning : p.child.hasEnded = false := h.running
  simp [send, hasEnded, hrunning, h.held, h.readable]

/-- Where there is nobody to read a line the input is given up, and at most a note is left of it. -/
theorem send_of_not_open (h : ¬ p.Open) (line : String) : ∃ notes : List Note,
    p.send line = (.error .channelClosed,
      { p with inputOpen := false, journal := p.journal ++ notes.map .note }) := by
  unfold send
  split
  · exact ⟨[], by simp⟩
  · next hrunning =>
    split
    · next hshut =>
      obtain ⟨⟩ := p
      obtain rfl := Bool.not_eq_true' _ |>.mp hshut
      exact ⟨[], by simp⟩
    · next hheld =>
      rw [if_pos]
      · exact ⟨[_], rfl⟩
      · refine Bool.not_eq_true' _ |>.mpr (Bool.eq_false_iff.mpr fun hread => h ?_)
        exact ⟨by simpa using hrunning, by simpa using hheld, hread⟩

/-- What sending a line comes to: it is written and told of, or the input is given up. -/
inductive Delivers (p : Pipe) (line : String) : Except Failure Unit → Pipe → Prop
  | written (h : p.Open) : Delivers p line (.ok ()) (({ p with
      child := p.child.write p.clock (Text.utf8 line ++ [Child.lineFeed]) } : Pipe).record
        (.sent line))
  | lost (h : ¬ p.Open) (notes : List Note) : Delivers p line (.error .channelClosed)
      { p with inputOpen := false, journal := p.journal ++ notes.map .note }

theorem delivers_of_send {sent : Except Failure Unit} (h : p.send line = (sent, p')) :
    p.Delivers line sent p' := by
  by_cases ho : p.Open
  · rw [send_of_open ho] at h
    obtain ⟨rfl, rfl⟩ := Prod.mk.inj h
    exact .written ho
  · obtain ⟨notes, hsend⟩ := send_of_not_open ho line
    rw [hsend] at h
    obtain ⟨rfl, rfl⟩ := Prod.mk.inj h
    exact .lost ho notes

theorem ask_open (h : p.Open) (line : String) : ∃ p', p.ask line = (.ok (), p') ∧
    p'.child.input = p.child.input ++ (Text.utf8 line ++ [Child.lineFeed]) := by
  have hopen : Open { p with buffer := p.buffer.clear } := ⟨h.running, h.held, h.readable⟩
  exact ⟨_, send_of_open hopen line, Child.write_input _ _ _⟩

theorem askQuit_of_open (h : p.Open) : p.askQuit = ({ p with
    child := p.child.write p.clock (Text.utf8 quitLine ++ [Child.lineFeed]) } : Pipe).record
      (.sent quitLine) := by
  unfold askQuit
  rw [send_of_open h]

theorem askQuit_of_not_open (h : ¬ p.Open) : ∃ notes : List Note, p.askQuit =
    { p with inputOpen := false, journal := p.journal ++ notes.map .note } := by
  obtain ⟨notes, hsend⟩ := send_of_not_open h quitLine
  unfold askQuit
  rw [hsend]
  exact ⟨notes ++ [_], by simp [note]; rfl⟩

end Pipe

namespace ConsoleClient

variable {s s' : ConsoleClient} {a : Answer} {patience : Option Nat} {line : String}

/-- A client whose console can be written to. -/
structure Working (s : ConsoleClient) : Prop where
  isOpen : s.isOpen = true
  pipe : s.pipe.Open

/-- What comes of a line that is sent to a working console: a line break keeps it back, any other
line is written as it is. -/
theorem send_working (hs : s.Working) (h : s.send line patience = (a, s')) :
    (isSingleLine line = false →
      a = .failed (.invalidArgument "shell commands must be a single line") ∧ s' = s) ∧
    (isSingleLine line = true → (∀ f, a ≠ .failed f) ∧
      s'.pipe.child.input = s.pipe.child.input ++ (Text.utf8 line ++ [Child.lineFeed])) := by
  unfold send at h
  rw [if_neg (by simp [hs.isOpen])] at h
  cases hline : isSingleLine line with
  | false =>
    rw [if_pos (by simp [hline])] at h
    obtain ⟨rfl, rfl⟩ := Prod.mk.inj h
    simp
  | true =>
    obtain ⟨p, hask, hinput⟩ := Pipe.ask_open hs.pipe line
    rw [if_neg (by simp [hline]), hask] at h
    refine ⟨by simp, fun _ => ?_⟩
    dsimp only at h
    split at h
    · obtain ⟨rfl, rfl⟩ := Prod.mk.inj h
      exact ⟨by simp, (Pipe.advance_input _ p).trans hinput⟩
    · obtain ⟨rfl, rfl⟩ := Prod.mk.inj h
      exact ⟨by simp, (Pipe.advance_input _ p).trans hinput⟩

end ConsoleClient

end DocClient
