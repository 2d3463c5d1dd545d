import DocClient.Proofs.Console.Schedule
import DocClient.Proofs.Journal
import DocClient.Proofs.Statement.Password

/-!
What the runs at a console make known of the passwords of profiles that are created. Two runs that
differ in nothing else, and in which the console does the same at the same times, tell the same but
for the lines of these very statements.
-/
namespace DocClient

variable {P : String → String → Prop}

namespace Pipe

variable {p p' : Pipe} {Lines : String → String → Prop} {line line' : String}

/-- Pipes of two runs to consoles that have done the same, as far as their parent sees it. -/
structure Parallel (Lines : String → String → Prop) (p p' : Pipe) : Prop where
  label : p'.label = p.label
  grace : p'.grace = p.grace
  clock : p'.clock = p.clock
  inputOpen : p'.inputOpen = p.inputOpen
  stdoutReader : p'.stdoutReader = p.stdoutReader
  stderrReader : p'.stderrReader = p.stderrReader
  readersTold : p'.readersTold = p.readersTold
  buffer : p'.buffer = p.buffer
  status : p'.child.status = p.child.status
  reads : p'.child.inputOpen = p.child.inputOpen
  journal : Journal.Beside Lines p.journal p'.journal

namespace Parallel

variable (h : Parallel Lines p p')
include h

theorem hasEnded : p'.hasEnded = p.hasEnded := by
  simp only [Pipe.hasEnded, Child.hasEnded, h.status]

theorem record {event event' : Event} (hevent : Event.Beside Lines event event') :
    Parallel Lines (p.record event) (p'.record event') :=
  { h with journal := h.journal.append (.event hevent) }

theorem note (level : Level) (message : String) (fields : List (String × String)) :
    Parallel Lines (p.note level message fields) (p'.note level message fields) := by
  refine { h with journal := ?_ }
  simp only [Pipe.note, h.label]
  exact h.journal.append (.note _)

theorem takeLine (line : String) : Parallel Lines (p.takeLine line) (p'.takeLine line) := by
  refine { h.record (.same (.received line)) with buffer := ?_ }
  simp only [Pipe.takeLine, h.buffer]

theorem takeErrorLine (line : String) :
    Parallel Lines (p.takeErrorLine line) (p'.takeErrorLine line) :=
  h.record (.same (.stderr line))

theorem reader (o : Outlet) : p'.reader o = p.reader o := by
  cases o
  · exact h.stdoutReader
  · exact h.stderrReader

theorem withReader (o : Outlet) (r : Reader) :
    Parallel Lines (p.withReader o r) (p'.withReader o r) := by
  cases o
  · exact { h with stdoutReader := rfl }
  · exact { h with stderrReader := rfl }

theorem noteFault (o : Outlet) (a : Reader.Act) :
    Parallel Lines (p.noteFault o a) (p'.noteFault o a) := by
  unfold Pipe.noteFault
  split
  · exact { h with journal := h.journal.append (.note _) }
  · exact h

theorem tend? (o : Outlet) (a : Reader.Act) :
    Option.Rel (Parallel Lines) (p.tend? o a) (p'.tend? o a) := by
  unfold Pipe.tend?
  rw [h.reader, h.readersTold]
  cases (p.reader o).act? p.readersTold a with
  | none => exact .none
  | some r => exact .some ((h.withReader o r).noteFault o a)

theorem closeInput :
    Parallel Lines { p with inputOpen := false } { p' with inputOpen := false } :=
  { h with inputOpen := rfl }

theorem clear : Parallel Lines { p with buffer := p.buffer.clear }
    { p' with buffer := p'.buffer.clear } :=
  { h with buffer := rfl }

theorem collect : Parallel Lines p.collect.2 p'.collect.2 := { h with buffer := rfl }

theorem send (hl : Lines line line') :
    (p'.send line').1 = (p.send line).1 ∧ Parallel Lines (p.send line).2 (p'.send line').2 := by
  have hwrites : Parallel Lines
      { p with child := p.child.write p.clock (Text.utf8 line ++ [Child.lineFeed]) }
      { p' with child := p'.child.write p'.clock (Text.utf8 line' ++ [Child.lineFeed]) } :=
    { h with }
  unfold Pipe.send
  by_cases he : p.hasEnded = true
  · rw [if_pos he, if_pos (h.hasEnded.trans he)]
    exact ⟨rfl, h.closeInput⟩
  rw [if_neg he, if_neg (by rwa [h.hasEnded])]
  by_cases ho : (!p.inputOpen) = true
  · rw [if_pos ho, if_pos (by rwa [h.inputOpen])]
    exact ⟨rfl, h⟩
  rw [if_neg ho, if_neg (by rwa [h.inputOpen])]
  by_cases hr : (!p.child.inputOpen) = true
  · rw [if_pos hr, if_pos (by rwa [h.reads])]
    exact ⟨rfl, (h.note _ _ _).closeInput⟩
  · rw [if_neg hr, if_neg (by rwa [h.reads])]
    exact ⟨rfl, hwrites.record (.sent hl)⟩

theorem askQuit (hl : ∀ line, Lines line line) : Parallel Lines p.askQuit p'.askQuit := by
  obtain ⟨hsent, hp⟩ := h.send (hl quitLine)
  unfold Pipe.askQuit
  rcases hs : p.send quitLine with ⟨sent, q⟩
  rcases hs' : p'.send quitLine with ⟨sent', q'⟩
  simp only [hs, hs'] at hsent hp
  subst hsent
  cases sent' with
  | ok _ => exact hp
  | error f => exact hp.note _ _ _

theorem endInput : Parallel Lines p.endInput p'.endInput := { h with inputOpen := rfl }

theorem deadline : p'.deadline = p.deadline := by
  simp only [Pipe.deadline, h.clock, h.grace]

theorem first : ConsoleClient.Stage.first p' = ConsoleClient.Stage.first p := by
  simp only [ConsoleClient.Stage.first, h.inputOpen, h.hasEnded]

/-- What is killed has been killed in both runs, or had ended in both. -/
theorem kill : p'.child.kill.status = p.child.kill.status ∧
    p'.child.kill.inputOpen = p.child.kill.inputOpen := by
  have hended : p'.child.hasEnded = p.child.hasEnded := h.hasEnded
  unfold Child.kill
  rw [hended]
  split
  · exact ⟨h.status, h.reads⟩
  · exact ⟨rfl, h.reads⟩

theorem abandon : Parallel Lines p.abandon p'.abandon :=
  { h.endInput with status := h.endInput.kill.1, reads := h.endInput.kill.2 }

theorem stop : Parallel Lines ({ p with readersTold := true }.record (.closed p.label))
    ({ p' with readersTold := true }.record (.closed p'.label)) := by
  have htold : Parallel Lines { p with readersTold := true } { p' with readersTold := true } :=
    { h with readersTold := rfl }
  apply htold.record
  rw [h.label]
  exact .same _

theorem retire : Parallel Lines p.retire p'.retire := by
  unfold Pipe.retire
  cases hs : p.child.status with
  | some status =>
    simp only [h.status.trans hs]
    exact (h.note .debug "process exited" [("status", status.text)]).stop
  | none =>
    have hnoted : Parallel Lines
        { p.note .debug "process still running after grace period, killing" [] with
          child := p.child.kill }
        { p'.note .debug "process still running after grace period, killing" [] with
          child := p'.child.kill } :=
      { h.note .debug "process still running after grace period, killing" [] with
        status := h.kill.1, reads := h.kill.2 }
    simp only [h.status.trans hs]
    exact hnoted.stop

end Parallel

end Pipe

namespace ConsoleClient

/-- Calls that are the same but for the password of a profile that they create. -/
inductive Call.Apart (P : String → String → Prop) : Call → Call → Prop
  | same (call : Call) : Apart P call call
  | command {c c' : Command} (h : c.Apart P c') : Apart P (.command c) (.command c')
  | execute {s s' : Statement} (h : s.Apart P s') : Apart P (.execute s) (.execute s')

/-- Lines that are shown in two runs at a time. -/
abbrev Lines (P : String → String → Prop) : String → String → Prop :=
  Statement.Shown P Statement.line

/-- The caller of a call and the caller of one that is apart from it in a password. -/
inductive Callers (P : String → String → Prop) : Nat × Call → Nat × Call → Prop
  | mk (place : Nat) {call call' : Call} (h : call.Apart P call') :
      Callers P (place, call) (place, call')

inductive Turn.Apart (P : String → String → Prop) : Turn → Turn → Prop
  | same (turn : Turn) : Apart P turn turn
  | queued (place : Nat) {call call' : Call} (h : call.Apart P call') :
      Apart P (.queued place call) (.queued place call')
  | cleared (place : Nat) {call call' : Call} (h : call.Apart P call') :
      Apart P (.cleared place call) (.cleared place call')
  | sent (place : Nat) {line line' : String} (h : Lines P line line') :
      Apart P (.sent place line) (.sent place line')
  | answered (place : Nat) {call call' : Call} (h : call.Apart P call') (a : Answer) :
      Apart P (.answered place call a) (.answered place call' a)
  | left (place : Nat) {call call' : Call} (h : call.Apart P call') :
      Apart P (.left place call) (.left place call')

/-- Moves of two runs. The console does the same in both, as far as the client can see it. -/
inductive Move.Apart (P : String → String → Prop) : Move → Move → Prop
  | same (move : Move) : Apart P move move
  | come (place : Nat) {call call' : Call} (h : call.Apart P call') :
      Apart P (.come place call) (.come place call')
  | pass {child child' : Child} (clock : Nat) (hs : child'.status = child.status)
      (hi : child'.inputOpen = child.inputOpen) : Apart P (.pass child clock) (.pass child' clock)

inductive Holder.Apart (P : String → String → Prop) : Holder → Holder → Prop
  | asking (place : Nat) {call call' : Call} {line line' : String} (h : call.Apart P call')
      (hl : Lines P line line') : Apart P (.asking place call line) (.asking place call' line')
  | settling (place : Nat) {call call' : Call} (h : call.Apart P call') :
      Apart P (.settling place call) (.settling place call')
  | parting (place : Nat) (stage : Stage) : Apart P (.parting place stage) (.parting place stage)

/-- Clients of consoles that have done the same. -/
structure Parallel (P : String → String → Prop) (c c' : ConsoleClient) : Prop where
  isOpen : c'.isOpen = c.isOpen
  pipe : Pipe.Parallel (Lines P) c.pipe c'.pipe

structure Scene.Parallel (P : String → String → Prop) (s s' : Scene) : Prop where
  client : s.client.Parallel P s'.client
  queue : List.Forall₂ (Callers P) s.queue s'.queue
  holder : Option.Rel (Holder.Apart P) s.holder s'.holder

/-- What two moves lead to in two runs. -/
structure Plays (P : String → String → Prop) (o o' : Option Turn × Scene) : Prop where
  turn : Option.Rel (Turn.Apart P) o.1 o'.1
  scene : o.2.Parallel P o'.2

variable {call call' : Call} {s s' : Scene} {line line' : String} {position place : Nat}
  {c c' : ConsoleClient}

/-- What calls that are apart are to send, if anything. -/
inductive Sends (P : String → String → Prop) :
    Except Failure (Option String) → Except Failure (Option String) → Prop
  | refused (f : Failure) : Sends P (.error f) (.error f)
  | nothing : Sends P (.ok none) (.ok none)
  | asked {line line' : String} (hl : Lines P line line')
      (hs : isSingleLine line' = isSingleLine line) : Sends P (.ok (some line)) (.ok (some line'))

theorem Sends.same (o : Except Failure (Option String)) : Sends P o o := by
  rcases o with f | _ | line
  · exact .refused f
  · exact .nothing
  · exact .asked (.same line) rfl

theorem Call.Apart.sends (h : call.Apart P call') : Sends P call.line call'.line := by
  cases h with
  | same => exact .same _
  | @command c c' h =>
    have hstated := h.stated
    simp only [Call.line]
    generalize c.statement = stated at hstated
    generalize c'.statement = stated' at hstated
    cases hstated with
    | refused f => exact .refused f
    | stated h => exact .asked (.statement h) h.isSingleLine
  | execute h => exact .asked (.statement h) h.isSingleLine

theorem Call.Apart.isGuarded (h : call.Apart P call') : call'.isGuarded = call.isGuarded := by
  cases h with
  | same => rfl
  | command h => exact h.hasArguments
  | execute h => rfl

theorem Parallel.rejection? (h : c.Parallel P c') (hs : isSingleLine line' = isSingleLine line) :
    c'.rejection? line' = c.rejection? line := by
  simp only [ConsoleClient.rejection?, h.isOpen, hs]

namespace Scene.Parallel

variable (h : s.Parallel P s')
include h

theorem still : Plays P (none, s) (none, s') := ⟨.none, h⟩

theorem withPipe {p p' : Pipe} (hp : p.Parallel (Lines P) p') :
    (s.withPipe p).Parallel P (s'.withPipe p') :=
  ⟨⟨h.client.isOpen, hp⟩, h.queue, h.holder⟩

/-- The caller at a position leaves the queue. -/
theorem erase (position : Nat) :
    Scene.Parallel P { s with queue := s.queue.eraseIdx position }
      { s' with queue := s'.queue.eraseIdx position } :=
  ⟨h.client, Client.rel_eraseIdx h.queue position, h.holder⟩

theorem release {holder holder' : Option Holder} (hh : Option.Rel (Holder.Apart P) holder holder') :
    Scene.Parallel P { s with holder } { s' with holder := holder' } :=
  ⟨h.client, h.queue, hh⟩

theorem enter (place : Nat) (hc : call.Apart P call') :
    Plays P (Move.enter place call s) (Move.enter place call' s') := by
  have hsome {holder holder' : Option Holder} (hh : Option.Rel (Holder.Apart P) holder holder') :
      holder'.isSome = holder.isSome := by
    cases hh <;> rfl
  have hsends := hc.sends
  unfold Move.enter
  rw [hc.isGuarded, hsome h.holder, h.client.isOpen]
  split
  · exact h.still
  split
  · exact ⟨.some (.answered place hc _), h⟩
  generalize call.line = o at hsends
  generalize call'.line = o' at hsends
  cases hsends with
  | refused f => exact ⟨.some (.answered place hc _), h⟩
  | nothing | asked =>
    exact ⟨.some (.queued place hc), h.client, List.rel_append h.queue (.cons (.mk place hc) .nil),
      h.holder⟩

theorem ask (position place : Nat) (hc : call.Apart P call') (hl : Lines P line line')
    (hs : isSingleLine line' = isSingleLine line) :
    Plays P (Move.ask position place call line s) (Move.ask position place call' line' s') := by
  unfold Move.ask
  rw [h.client.rejection? hs]
  cases s.client.rejection? line with
  | some f => exact ⟨.some (.answered place hc _), h.erase position⟩
  | none =>
    exact ⟨.some (.cleared place hc),
      ((h.withPipe h.client.pipe.clear).erase position).release (.some (.asking place hc hl))⟩

theorem askFor (position place : Nat) (hc : call.Apart P call')
    {o o' : Except Failure (Option String)} (ho : Sends P o o') :
    Plays P (Move.askFor position place call o s) (Move.askFor position place call' o' s') := by
  cases ho with
  | refused f => exact h.still
  | nothing => exact h.still
  | asked hl hs => exact h.ask position place hc hl hs

theorem attend (position place : Nat) (hc : call.Apart P call') :
    Plays P (Move.attend position place call s) (Move.attend position place call' s') := by
  cases hc with
  | command hc => exact h.askFor position place (.command hc) (Call.Apart.command hc).sends
  | execute hc => exact h.askFor position place (.execute hc) (Call.Apart.execute hc).sends
  | same =>
    cases call with
    | command c => exact h.askFor position place (.same (.command c)) (.same (Call.command c).line)
    | execute statement =>
      exact h.askFor position place (.same (.execute statement))
        (.same (Call.execute statement).line)
    | raw line => exact h.askFor position place (.same (.raw line)) (.same (Call.raw line).line)
    | probe =>
      refine ⟨.some ?_, h.erase position⟩
      rw [h.client.isOpen]
      exact .same _
    | close =>
      unfold Move.attend
      simp only [h.client.isOpen]
      split
      · rw [h.client.pipe.first]
        exact ⟨.some (.same _), ⟨rfl, h.client.pipe⟩, (h.erase position).queue,
          .some (.parting place _)⟩
      · exact ⟨.some (.same _), h.erase position⟩

theorem turnTo (position : Nat) : Plays P (Move.turnTo position s.holder s.queue[position]? s)
    (Move.turnTo position s'.holder s'.queue[position]? s') := by
  have hcaller := Client.rel_getElem? h.queue position
  have hholder := h.holder
  generalize s.queue[position]? = next at hcaller
  generalize s'.queue[position]? = next' at hcaller
  generalize s.holder = holder at hholder
  generalize s'.holder = holder' at hholder
  cases hholder with
  | some hh => cases hcaller <;> exact h.still
  | none =>
    cases hcaller with
    | none => exact h.still
    | some hc =>
      obtain ⟨place, hc⟩ := hc
      exact h.attend position place hc

theorem wind (place : Nat) (stage : Stage) :
    Plays P (Move.wind place stage s) (Move.wind place stage s') := by
  cases stage with
  | quitting =>
    exact ⟨.some (.same _), (h.withPipe (h.client.pipe.askQuit .same)).release
      (.some (.parting place .ending))⟩
  | ending =>
    simp only [Move.wind, h.client.pipe.deadline]
    exact ⟨.some (.same _), (h.withPipe h.client.pipe.endInput).release
      (.some (.parting place _))⟩
  | waiting deadline =>
    simp only [Move.wind, h.client.pipe.hasEnded, h.client.pipe.clock]
    split
    · refine ⟨.some (.same _), ⟨h.client.isOpen, ?_⟩, h.queue, .none⟩
      have hretired := h.client.pipe.retire
      exact { hretired with journal := hretired.journal.append (.note _) }
    · exact h.still

theorem goOn : Plays P (Move.goOn s.holder s) (Move.goOn s'.holder s') := by
  have hholder := h.holder
  generalize s.holder = holder at hholder
  generalize s'.holder = holder' at hholder
  cases hholder with
  | none => exact h.still
  | some hh =>
    cases hh with
    | asking place hc hl =>
      obtain ⟨hsent, hp⟩ := h.client.pipe.send hl
      rename_i call call' line line'
      rcases hs : s.client.pipe.send line with ⟨sent, pipe⟩
      rcases hs' : s'.client.pipe.send line' with ⟨sent', pipe'⟩
      simp only [hs, hs'] at hsent hp
      subst hsent
      simp only [Move.goOn, hs, hs']
      cases sent' with
      | ok _ =>
        exact ⟨.some (.sent place hl), (h.withPipe hp).release (.some (.settling place hc))⟩
      | error f => exact ⟨.some (.answered place hc _), (h.withPipe hp).release .none⟩
    | settling place hc =>
      have hlines : s'.client.pipe.buffer.lines = s.client.pipe.buffer.lines := by
        rw [h.client.pipe.buffer]
      refine ⟨.some ?_, (h.withPipe h.client.pipe.collect).release .none⟩
      rw [hlines]
      exact .answered place hc _
    | parting place stage => exact h.wind place stage

theorem giveUp : Plays P (Move.giveUp s.holder s) (Move.giveUp s'.holder s') := by
  have hholder := h.holder
  generalize s.holder = holder at hholder
  generalize s'.holder = holder' at hholder
  cases hholder with
  | none => exact h.still
  | some hh =>
    cases hh with
    | asking place hc hl | settling place hc =>
      exact ⟨.some (.answered place hc _), h.release .none⟩
    | parting place stage =>
      exact ⟨.some (.same _), (h.withPipe h.client.pipe.abandon).release .none⟩

theorem depart (position : Nat) : Plays P (Move.depart position s.queue[position]? s)
    (Move.depart position s'.queue[position]? s') := by
  have hcaller := Client.rel_getElem? h.queue position
  generalize s.queue[position]? = next at hcaller
  generalize s'.queue[position]? = next' at hcaller
  cases hcaller with
  | none => exact h.still
  | some hc =>
    obtain ⟨place, hc⟩ := hc
    exact ⟨.some (.left place hc), h.erase position⟩

theorem pass {child child' : Child} (clock : Nat) (hs : child'.status = child.status)
    (hi : child'.inputOpen = child.inputOpen) :
    Plays P ((Move.pass child clock).play s) ((Move.pass child' clock).play s') := by
  have hp : Pipe.Parallel (Lines P) { s.client.pipe with child, clock }
      { s'.client.pipe with child := child', clock } :=
    { h.client.pipe with status := hs, reads := hi, clock := rfl }
  simp only [Move.play, h.client.pipe.clock, h.client.pipe.hasEnded, hs, h.client.pipe.status]
  split
  · exact ⟨.some (.same _), h.withPipe hp⟩
  · exact h.still

theorem tend (o : Outlet) (act : Reader.Act) :
    Plays P ((Move.tend o act).play s) ((Move.tend o act).play s') := by
  have htend := h.client.pipe.tend? o act
  simp only [Move.play]
  generalize s.client.pipe.tend? o act = q at htend
  generalize s'.client.pipe.tend? o act = q' at htend
  cases htend with
  | none => exact h.still
  | some hq => exact ⟨.some (.same _), h.withPipe hq⟩

/-- Moves that are apart in a password lead to turns that are. -/
theorem play {move move' : Move} (hm : move.Apart P move') :
    Plays P (move.play s) (move'.play s') := by
  cases hm with
  | come place hc => exact h.enter place hc
  | pass clock hs hi => exact h.pass clock hs hi
  | same =>
    cases move with
    | push line =>
      simp only [Move.play, h.client.pipe.stdoutReader]
      split
      · exact ⟨.some (.same _), h.withPipe (h.client.pipe.takeLine line)⟩
      · exact h.still
    | remark line =>
      simp only [Move.play, h.client.pipe.stderrReader]
      split
      · exact ⟨.some (.same _), h.withPipe (h.client.pipe.takeErrorLine line)⟩
      · exact h.still
    | tend o act => exact h.tend o act
    | pass child clock => exact h.pass clock rfl rfl
    | come place call => exact h.enter place (.same call)
    | serve position => exact h.turnTo position
    | proceed => exact h.goOn
    | forsake => exact h.giveUp
    | leave position => exact h.depart position

end Scene.Parallel

theorem toList_apart {turn turn' : Option Turn} (h : Option.Rel (Turn.Apart P) turn turn') :
    List.Forall₂ (Turn.Apart P) turn.toList turn'.toList := by
  cases h with
  | none => exact .nil
  | some h => exact .cons h .nil

theorem perform_parallel {moves moves' : List Move} (hm : List.Forall₂ (Move.Apart P) moves moves')
    (h : s.Parallel P s') :
    List.Forall₂ (Turn.Apart P) (perform moves s).1 (perform moves' s').1 ∧
      (perform moves s).2.Parallel P (perform moves' s').2 := by
  induction hm generalizing s s' with
  | nil => exact ⟨.nil, h⟩
  | @cons move move' moves moves' hmove _ ih =>
    obtain ⟨hturn, hscene⟩ := h.play hmove
    obtain ⟨hturns, hlast⟩ := ih hscene
    exact ⟨List.rel_append (toList_apart hturn) hturns, hlast⟩

end ConsoleClient

end DocClient
