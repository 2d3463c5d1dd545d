import DocClient.Proofs.Client.Schedule
import DocClient.Proofs.Console.Turns

/-!
What happens at a shared console as a matter of who does what and when: the moves of the callers, of
the readers and of the console determine the turns, and every run comes about by some moves.
-/
namespace DocClient.ConsoleClient

inductive Move where
  /-- A reader takes a line of the standard output. -/
  | push (line : String)
  /-- A reader takes a line of the error output. -/
  | remark (line : String)
  /-- A reader does something else. -/
  | tend (o : Outlet) (act : Reader.Act)
  /-- The console goes on, to what it then is. -/
  | pass (child : Child) (clock : Nat)
  | come (place : Nat) (call : Call)
  /-- The caller at a position of the queue takes the console. -/
  | serve (position : Nat)
  /-- The call that has the console goes on. -/
  | proceed
  /-- The caller that has the console goes away. -/
  | forsake
  | leave (position : Nat)

/-- Why a line is not sent at all, if it is not. -/
def rejection? (c : ConsoleClient) (line : String) : Option Failure :=
  if !c.isOpen then some .closed
  else if isSingleLine line then none
  else some (.invalidArgument "shell commands must be a single line")

namespace Move

/-- A caller comes. If it is to look first it waits until nobody has the console, and may then be
refused. -/
def enter (place : Nat) (call : Call) (s : Scene) : Option Turn × Scene :=
  if call.isGuarded && s.holder.isSome then (none, s)
  else if call.isGuarded && !s.client.isOpen then
    (some (.answered place call (.failed .closed)), s)
  else
    match call.line with
    | .ok _ => (some (.queued place call), { s with queue := s.queue ++ [(place, call)] })
    | .error f => (some (.answered place call (.failed f)), s)

/-- A call that is to send a line takes the console. -/
def ask (position place : Nat) (call : Call) (line : String) (s : Scene) : Option Turn × Scene :=
  match s.client.rejection? line with
  | some f =>
    (some (.answered place call (.failed f)), { s with queue := s.queue.eraseIdx position })
  | none =>
    (some (.cleared place call),
      { s.withPipe { s.client.pipe with buffer := s.client.pipe.buffer.clear } with
        queue := s.queue.eraseIdx position
        holder := some (.asking place call line) })

/-- The same for a call of which it is known what it is to send. -/
def askFor (position place : Nat) (call : Call) :
    Except Failure (Option String) → Scene → Option Turn × Scene
  | .ok (some line), s => ask position place call line s
  | .ok none, s | .error _, s => (none, s)

def attend (position place : Nat) (call : Call) (s : Scene) : Option Turn × Scene :=
  match call with
  | .probe =>
    (some (.answered place .probe (if s.client.isOpen then .opened else .failed .closed)),
      { s with queue := s.queue.eraseIdx position })
  | .close =>
    if s.client.isOpen then
      (some (.vacated place),
        { client := { s.client with isOpen := false }
          queue := s.queue.eraseIdx position
          holder := some (.parting place (.first s.client.pipe)) })
    else (some (.answered place .close .done), { s with queue := s.queue.eraseIdx position })
  | .command _ | .execute _ | .raw _ => askFor position place call call.line s

/-- The console is for the caller at a position of the queue, if there is one and nobody has it. -/
def turnTo (position : Nat) : Option Holder → Option (Nat × Call) → Scene → Option Turn × Scene
  | none, some (place, call), s => attend position place call s
  | none, none, s | some _, _, s => (none, s)

/-- A close that has the console goes on, unless it has to wait. -/
def wind (place : Nat) (stage : Stage) (s : Scene) : Option Turn × Scene :=
  match stage with
  | .quitting =>
    (some (.asked place),
      { s.withPipe s.client.pipe.askQuit with holder := some (.parting place .ending) })
  | .ending =>
    (some (.hungUp place),
      { s.withPipe s.client.pipe.endInput with
        holder := some (.parting place (.waiting s.client.pipe.deadline)) })
  | .waiting deadline =>
    if s.client.pipe.hasEnded || decide (deadline ≤ s.client.pipe.clock) then
      (some (.answered place .close .done),
        { s with
          client := { s.client with pipe := s.client.pipe.retire }.note "ProtonDB shell stopped" []
          holder := none })
    else (none, s)

/-- The call that has the console goes on, if one has. -/
def goOn : Option Holder → Scene → Option Turn × Scene
  | none, s => (none, s)
  | some (.asking place call line), s =>
    match s.client.pipe.send line with
    | (.ok (), pipe) =>
      (some (.sent place line), { s.withPipe pipe with holder := some (.settling place call) })
    | (.error f, pipe) =>
      (some (.answered place call (.failed f)), { s.withPipe pipe with holder := none })
  | some (.settling place call), s =>
    let (lines, pipe) := s.client.pipe.collect
    (some (.answered place call (.output ⟨lines⟩)), { s.withPipe pipe with holder := none })
  | some (.parting place stage), s => wind place stage s

def giveUp : Option Holder → Scene → Option Turn × Scene
  | none, s => (none, s)
  | some holder, s =>
    (some (.answered holder.caller.1 holder.caller.2 .unfinished),
      { s.withPipe (holder.release s.client.pipe) with holder := none })

def depart (position : Nat) : Option (Nat × Call) → Scene → Option Turn × Scene
  | none, s => (none, s)
  | some (place, call), s =>
    (some (.left place call), { s with queue := s.queue.eraseIdx position })

/-- The turn that a move leads to, if it can be made. -/
def play (move : Move) (s : Scene) : Option Turn × Scene :=
  match move with
  | push line =>
    if s.client.pipe.stdoutReader.phase = .busy then
      (some (.pushed line), s.withPipe (s.client.pipe.takeLine line))
    else (none, s)
  | remark line =>
    if s.client.pipe.stderrReader.phase = .busy then
      (some (.remarked line), s.withPipe (s.client.pipe.takeErrorLine line))
    else (none, s)
  | tend o act =>
    match s.client.pipe.tend? o act with
    | some pipe => (some (.tended o), s.withPipe pipe)
    | none => (none, s)
  | pass child clock =>
    if s.client.pipe.clock ≤ clock ∧
        (s.client.pipe.hasEnded = true → child.status = s.client.pipe.child.status) then
      (some .passed, s.withPipe { s.client.pipe with child, clock })
    else (none, s)
  | come place call => enter place call s
  | serve position => turnTo position s.holder s.queue[position]? s
  | proceed => goOn s.holder s
  | forsake => giveUp s.holder s
  | leave position => depart position s.queue[position]? s

end Move

/-- The turns that moves lead to, one after the other; a move that cannot be made is left out. -/
def perform : List Move → Scene → List Turn × Scene
  | [], s => ([], s)
  | move :: moves, s =>
    let (turn, s) := move.play s
    let (turns, s) := perform moves s
    (turn.toList ++ turns, s)

variable {s t : Scene} {turn : Turn} {turns : List Turn} {c : ConsoleClient} {call : Call}
  {line : String} {f : Failure} {move : Move} {moves : List Move} {position place : Nat}

theorem rejection?_eq_some : c.rejection? line = some f ↔ Rejects c line f := by
  unfold rejection?
  constructor
  · intro h
    cases ho : c.isOpen with
    | false =>
      obtain rfl : Failure.closed = f := by simpa [ho] using h
      exact .closed ho
    | true =>
      cases hs : isSingleLine line with
      | true => simp [ho, hs] at h
      | false =>
        obtain rfl : Failure.invalidArgument "shell commands must be a single line" = f := by
          simpa [ho, hs] using h
        exact .broken ho hs
  · intro h
    cases h with
    | closed ho => simp [ho]
    | broken ho hs => simp [ho, hs]

theorem rejection?_eq_none : c.rejection? line = none ↔
    c.isOpen = true ∧ isSingleLine line = true := by
  unfold rejection?
  cases c.isOpen <;> cases isSingleLine line <;> simp

/-- A call that is wrong in its arguments looks first. -/
theorem guarded_of_line_error (h : call.line = .error f) : call.isGuarded = true := by
  cases call with
  | command c => exact (Command.statement_error (map_error h)).1
  | execute | raw | probe | close => simp [Call.line] at h

theorem attend_asks (h : call.line = .ok (some line)) :
    Move.attend position place call = Move.ask position place call line := by
  funext s
  cases call with
  | probe | close => simp [Call.line] at h
  | command | execute | raw => simp only [Move.attend, h, Move.askFor]

/-- What a move leads to is a step, or nothing. -/
def Leads (s : Scene) (o : Option Turn × Scene) : Prop :=
  match o.1 with
  | some turn => Step s turn o.2
  | none => o.2 = s

theorem leads_enter (place : Nat) (call : Call) (s : Scene) :
    Leads s (Move.enter place call s) := by
  unfold Move.enter
  split
  · rfl
  · next hfree =>
    have hh (hg : call.isGuarded = true) : s.holder = none := by simpa [hg] using hfree
    split
    · next hshut =>
      obtain ⟨hg, ho⟩ : call.isGuarded = true ∧ s.client.isOpen = false := by simpa using hshut
      exact Step.refuses place (hh hg) hg (Or.inl ⟨ho, rfl⟩)
    · next hshut =>
      have ho (hg : call.isGuarded = true) : s.client.isOpen = true := by simpa [hg] using hshut
      cases hl : call.line with
      | ok line => exact Step.queues place hl fun hg => ⟨hh hg, ho hg⟩
      | error f =>
        have hg := guarded_of_line_error hl
        exact Step.refuses place (hh hg) hg (Or.inr ⟨ho hg, hl⟩)

theorem leads_ask (hh : s.holder = none) (hq : s.queue[position]? = some (place, call))
    (hl : call.line = .ok (some line)) : Leads s (Move.ask position place call line s) := by
  have hqueue := Client.queue_split hq
  unfold Move.ask
  rw [List.eraseIdx_eq_take_drop_succ]
  cases hr : s.client.rejection? line with
  | some f => exact Step.rejects hh hqueue hl (rejection?_eq_some.mp hr)
  | none =>
    obtain ⟨ho, hs⟩ := rejection?_eq_none.mp hr
    exact Step.clears hh hqueue hl ho hs

theorem leads_attend (hh : s.holder = none) (hq : s.queue[position]? = some (place, call)) :
    Leads s (Move.attend position place call s) := by
  have hqueue := Client.queue_split hq
  have hasks {line : String} (hl : call.line = .ok (some line)) :
      Leads s (Move.attend position place call s) := by
    rw [attend_asks hl]
    exact leads_ask hh hq hl
  cases call with
  | probe =>
    unfold Move.attend
    rw [List.eraseIdx_eq_take_drop_succ]
    exact Step.probes hh hqueue
  | close =>
    unfold Move.attend
    rw [List.eraseIdx_eq_take_drop_succ]
    cases ho : s.client.isOpen with
    | true => exact Step.vacates hh hqueue ho
    | false => exact Step.closesAgain hh hqueue ho
  | execute | raw => exact hasks rfl
  | command c =>
    cases hl : (Call.command c).line with
    | ok o =>
      obtain ⟨statement, -, rfl⟩ := map_ok hl
      exact hasks hl
    | error f =>
      simp only [Move.attend, hl]
      rfl

theorem leads_goOn (s : Scene) : Leads s (Move.goOn s.holder s) := by
  cases hh : s.holder with
  | none => rfl
  | some holder =>
    cases holder with
    | asking place call line =>
      rcases hs : s.client.pipe.send line with ⟨sent, pipe⟩
      simp only [Move.goOn, hs]
      cases sent with
      | ok _ => exact Step.sends hh hs
      | error f => exact Step.fails hh hs
    | settling place call => exact Step.harvests hh rfl
    | parting place stage =>
      cases stage with
      | quitting => exact Step.asks hh
      | ending => exact Step.hangsUp hh
      | waiting deadline =>
        simp only [Move.goOn, Move.wind]
        split
        · next h => exact Step.parts hh (by simpa using h)
        · rfl

theorem leads_turnTo (position : Nat) (s : Scene) :
    Leads s (Move.turnTo position s.holder s.queue[position]? s) := by
  cases hh : s.holder with
  | some holder => rfl
  | none =>
    rcases hq : s.queue[position]? with _ | ⟨place, call⟩
    · rfl
    · exact leads_attend hh hq

theorem leads_giveUp (s : Scene) : Leads s (Move.giveUp s.holder s) := by
  cases hh : s.holder with
  | none => rfl
  | some holder => exact Step.forsakes hh

theorem leads_depart (position : Nat) (s : Scene) :
    Leads s (Move.depart position s.queue[position]? s) := by
  rcases hq : s.queue[position]? with _ | ⟨place, call⟩
  · rfl
  · rw [Move.depart, List.eraseIdx_eq_take_drop_succ]
    exact Step.leaves (Client.queue_split hq)

theorem leads_play (move : Move) (s : Scene) : Leads s (move.play s) := by
  cases move with
  | push line =>
    simp only [Move.play]
    split
    · next h => exact Step.pushes line h
    · rfl
  | remark line =>
    simp only [Move.play]
    split
    · next h => exact Step.remarks line h
    · rfl
  | tend o act =>
    simp only [Move.play]
    split
    · next h => exact Step.tends h
    · rfl
  | pass child clock =>
    simp only [Move.play]
    split
    · next h => exact Step.passes child clock h.1 h.2
    · rfl
  | come place call => exact leads_enter place call s
  | serve position => exact leads_turnTo position s
  | proceed => exact leads_goOn s
  | forsake => exact leads_giveUp s
  | leave position => exact leads_depart position s

theorem play_of_step (h : Step s turn t) : ∃ move : Move, move.play s = (some turn, t) := by
  cases h with
  | pushes line h => exact ⟨.push line, if_pos h⟩
  | remarks line h => exact ⟨.remark line, if_pos h⟩
  | @tends o act pipe h => exact ⟨.tend o act, by simp [Move.play, h]⟩
  | passes child clock hc he => exact ⟨.pass child clock, if_pos ⟨hc, he⟩⟩
  | @queues call line place hl hg =>
    refine ⟨.come place call, ?_⟩
    cases hguard : call.isGuarded with
    | false => simp [Move.play, Move.enter, hguard, hl]
    | true =>
      obtain ⟨hh, ho⟩ := hg hguard
      simp [Move.play, Move.enter, hguard, hh, ho, hl]
  | @refuses call f place hh hg hf =>
    refine ⟨.come place call, ?_⟩
    rcases hf with ⟨ho, rfl⟩ | ⟨ho, hl⟩
    · simp [Move.play, Move.enter, hg, hh, ho]
    · simp [Move.play, Move.enter, hg, hh, ho, hl]
  | @rejects place call line f before after hh hq hl hr =>
    obtain ⟨hget, herase⟩ := Client.eraseIdx_split hq
    have hr := rejection?_eq_some.mpr hr
    refine ⟨.serve before.length, ?_⟩
    simp [Move.play, Move.turnTo, attend_asks hl, Move.ask, hh, hget, herase, hr]
  | @clears place call line before after hh hq hl ho hs =>
    obtain ⟨hget, herase⟩ := Client.eraseIdx_split hq
    have hr := rejection?_eq_none.mpr ⟨ho, hs⟩
    refine ⟨.serve before.length, ?_⟩
    simp [Move.play, Move.turnTo, attend_asks hl, Move.ask, hh, hget, herase, hr]
  | @sends place call line pipe hh h => exact ⟨.proceed, by simp [Move.play, Move.goOn, hh, h]⟩
  | @fails place call line f pipe hh h => exact ⟨.proceed, by simp [Move.play, Move.goOn, hh, h]⟩
  | @harvests place call lines pipe hh h => exact ⟨.proceed, by simp [Move.play, Move.goOn, hh, h]⟩
  | forsakes hh => exact ⟨.forsake, by simp [Move.play, Move.giveUp, hh]⟩
  | @leaves place call before after hq =>
    obtain ⟨hget, herase⟩ := Client.eraseIdx_split hq
    exact ⟨.leave before.length, by simp [Move.play, Move.depart, hget, herase]⟩
  | @probes place before after hh hq =>
    obtain ⟨hget, herase⟩ := Client.eraseIdx_split hq
    exact ⟨.serve before.length, by simp [Move.play, Move.turnTo, Move.attend, hh, hget, herase]⟩
  | @closesAgain place before after hh hq ho =>
    obtain ⟨hget, herase⟩ := Client.eraseIdx_split hq
    refine ⟨.serve before.length, ?_⟩
    simp [Move.play, Move.turnTo, Move.attend, hh, hget, herase, ho]
  | @vacates place before after hh hq ho =>
    obtain ⟨hget, herase⟩ := Client.eraseIdx_split hq
    refine ⟨.serve before.length, ?_⟩
    simp [Move.play, Move.turnTo, Move.attend, hh, hget, herase, ho]
  | @asks place hh => exact ⟨.proceed, by simp [Move.play, Move.goOn, Move.wind, hh]⟩
  | @hangsUp place hh => exact ⟨.proceed, by simp [Move.play, Move.goOn, Move.wind, hh]⟩
  | @parts place deadline hh h => exact ⟨.proceed, by simp [Move.play, Move.goOn, Move.wind, hh, h]⟩

theorem run_of_perform (h : perform moves s = (turns, t)) : Run s turns t := by
  induction moves generalizing s turns with
  | nil =>
    obtain ⟨rfl, rfl⟩ := Prod.mk.inj h
    exact .nil s
  | cons move moves ih =>
    have hleads := leads_play move s
    rcases hplay : move.play s with ⟨turn?, s₁⟩
    rcases hrest : perform moves s₁ with ⟨turns₁, t₁⟩
    simp only [perform, hplay, hrest] at h
    obtain ⟨rfl, rfl⟩ := Prod.mk.inj h
    rw [hplay] at hleads
    cases turn? with
    | some turn => exact .cons hleads (ih hrest)
    | none =>
      have hs : s₁ = s := hleads
      rw [hs] at hrest
      exact ih hrest

/-- The runs at a shared console are what moves lead to. -/
theorem run_iff_perform : Run s turns t ↔ ∃ moves, perform moves s = (turns, t) := by
  constructor
  · intro h
    induction h with
    | nil s => exact ⟨[], rfl⟩
    | cons h _ ih =>
      obtain ⟨move, hplay⟩ := play_of_step h
      obtain ⟨moves, hrest⟩ := ih
      exact ⟨move :: moves, by simp [perform, hplay, hrest]⟩
  · rintro ⟨moves, h⟩
    exact run_of_perform h

end DocClient.ConsoleClient
