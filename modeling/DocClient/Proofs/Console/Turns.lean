import DocClient.Console.Client
import DocClient.Proofs.Command
import DocClient.Proofs.Console.Ending
import DocClient.Proofs.Console.Readers

/-!
A console's client and the callers that share it, while the readers take the console's output as it
comes. One caller after the other has the console for itself, for as long as its call lasts; the
readers never wait for any of them. A turn is what one task does before another can come in, or the
console do something. Where tasks run on several threads, callers go on while a reader is at work;
on one thread they do not.
-/
namespace DocClient

namespace ConsoleClient

namespace Call

/-- Whether the call looks first if the client is open. -/
def isGuarded : Call → Bool
  | command c => c.hasArguments
  | execute _ | raw _ | probe | close => false

/-- The line that the call sends, if it is to send one, or what is wrong with its arguments. -/
def line : Call → Except Failure (Option String)
  | command c => (fun s => some s.line) <$> c.statement
  | execute s => .ok (some s.line)
  | raw line => .ok (some line)
  | probe | close => .ok none

end Call

/-- What happens around a shared console, one thing at a time. Callers are told apart by their
place. -/
inductive Turn where
  /-- A reader takes a line of the standard output. -/
  | pushed (line : String)
  /-- A reader takes a line of the error output. -/
  | remarked (line : String)
  /-- A reader wakes, waits again or stops. -/
  | tended (o : Outlet)
  /-- The console goes on, and time passes. -/
  | passed
  /-- A call has found its arguments in order, and the client open if it looks, and now waits. -/
  | queued (place : Nat) (call : Call)
  /-- A call has the console for itself, and throws away what has been captured. -/
  | cleared (place : Nat) (call : Call)
  | sent (place : Nat) (line : String)
  | answered (place : Nat) (call : Call) (a : Answer)
  /-- A caller goes away before its turn. -/
  | left (place : Nat) (call : Call)
  /-- A close takes the console away, and looks whether it can still be asked to quit. -/
  | vacated (place : Nat)
  /-- A close asks the console to quit. -/
  | asked (place : Nat)
  /-- A close ends the input of the console, which has yet to end itself. -/
  | hungUp (place : Nat)

/-- What comes next in a close that has the console for itself. -/
inductive Stage where
  /-- The console is to be asked to quit. -/
  | quitting
  /-- Its input is to end. -/
  | ending
  /-- It is left to end by itself, until the grace is over. -/
  | waiting (deadline : Nat)
  deriving DecidableEq, Repr

/-- What a close has to do first. -/
def Stage.first (p : Pipe) : Stage := if p.inputOpen && !p.hasEnded then .quitting else .ending

/-- How far the call has come that has the console for itself. -/
inductive Holder where
  | asking (place : Nat) (call : Call) (line : String)
  | settling (place : Nat) (call : Call)
  | parting (place : Nat) (stage : Stage)

structure Scene where
  client : ConsoleClient
  /-- The calls that wait for the console. -/
  queue : List (Nat × Call) := []
  holder : Option Holder := none

namespace Holder

/-- The call that holds the console. -/
def caller : Holder → Nat × Call
  | asking place call _ | settling place call => (place, call)
  | parting place _ => (place, .close)

/-- The holder's call, if it is one that captures output. -/
def capturing? : Holder → Option (Nat × Call)
  | asking place call _ | settling place call => some (place, call)
  | parting _ _ => none

/-- What becomes of the console when the holder goes away. A close has taken it away already. -/
def release (p : Pipe) : Holder → Pipe
  | asking _ _ _ | settling _ _ => p
  | parting _ _ => p.abandon

end Holder

def Scene.withPipe (p : Pipe) (s : Scene) : Scene := { s with client := { s.client with pipe := p } }

/-- Why a line is not sent at all: there is no console any more, or a line break is in it. -/
inductive Rejects (c : ConsoleClient) (line : String) : Failure → Prop
  | closed (h : c.isOpen = false) : Rejects c line .closed
  | broken (h : c.isOpen = true) (hl : isSingleLine line = false) :
      Rejects c line (.invalidArgument "shell commands must be a single line")

inductive Step (s : Scene) : Turn → Scene → Prop
  | pushes (line : String) (h : s.client.pipe.stdoutReader.phase = .busy) :
      Step s (.pushed line) (s.withPipe (s.client.pipe.takeLine line))
  | remarks (line : String) (h : s.client.pipe.stderrReader.phase = .busy) :
      Step s (.remarked line) (s.withPipe (s.client.pipe.takeErrorLine line))
  | tends {o : Outlet} {act : Reader.Act} {pipe : Pipe} (h : s.client.pipe.tend? o act = some pipe) :
      Step s (.tended o) (s.withPipe pipe)
  -- The console may do anything meanwhile, until it has ended: whatever a reader takes of it is a
  -- turn of its own.
  | passes (child : Child) (clock : Nat) (hc : s.client.pipe.clock ≤ clock)
      (he : s.client.pipe.hasEnded = true → child.status = s.client.pipe.child.status) :
      Step s .passed (s.withPipe { s.client.pipe with child, clock })
  | queues {call : Call} {line : Option String} (place : Nat) (hl : call.line = .ok line)
      (hg : call.isGuarded = true → s.holder = none ∧ s.client.isOpen = true) :
      Step s (.queued place call) { s with queue := s.queue ++ [(place, call)] }
  | refuses {call : Call} {f : Failure} (place : Nat) (hh : s.holder = none)
      (hg : call.isGuarded = true)
      (hf : s.client.isOpen = false ∧ f = .closed ∨ s.client.isOpen = true ∧ call.line = .error f) :
      Step s (.answered place call (.failed f)) s
  | rejects {place : Nat} {call : Call} {line : String} {f : Failure}
      {before after : List (Nat × Call)} (hh : s.holder = none)
      (hq : s.queue = before ++ (place, call) :: after) (hl : call.line = .ok (some line))
      (hr : Rejects s.client line f) :
      Step s (.answered place call (.failed f)) { s with queue := before ++ after }
  | clears {place : Nat} {call : Call} {line : String} {before after : List (Nat × Call)}
      (hh : s.holder = none) (hq : s.queue = before ++ (place, call) :: after)
      (hl : call.line = .ok (some line)) (ho : s.client.isOpen = true)
      (hs : isSingleLine line = true) :
      Step s (.cleared place call)
        { s.withPipe { s.client.pipe with buffer := s.client.pipe.buffer.clear } with
          queue := before ++ after
          holder := some (.asking place call line) }
  | sends {place : Nat} {call : Call} {line : String} {pipe : Pipe}
      (hh : s.holder = some (.asking place call line))
      (h : s.client.pipe.send line = (.ok (), pipe)) :
      Step s (.sent place line) { s.withPipe pipe with holder := some (.settling place call) }
  | fails {place : Nat} {call : Call} {line : String} {f : Failure} {pipe : Pipe}
      (hh : s.holder = some (.asking place call line))
      (h : s.client.pipe.send line = (.error f, pipe)) :
      Step s (.answered place call (.failed f)) { s.withPipe pipe with holder := none }
  | harvests {place : Nat} {call : Call} {lines : List String} {pipe : Pipe}
      (hh : s.holder = some (.settling place call)) (h : s.client.pipe.collect = (lines, pipe)) :
      Step s (.answered place call (.output ⟨lines⟩)) { s.withPipe pipe with holder := none }
  | forsakes {holder : Holder} (hh : s.holder = some holder) :
      Step s (.answered holder.caller.1 holder.caller.2 .unfinished)
        { s.withPipe (holder.release s.client.pipe) with holder := none }
  | leaves {place : Nat} {call : Call} {before after : List (Nat × Call)}
      (hq : s.queue = before ++ (place, call) :: after) :
      Step s (.left place call) { s with queue := before ++ after }
  | probes {place : Nat} {before after : List (Nat × Call)} (hh : s.holder = none)
      (hq : s.queue = before ++ (place, .probe) :: after) :
      Step s (.answered place .probe (if s.client.isOpen then .opened else .failed .closed))
        { s with queue := before ++ after }
  | closesAgain {place : Nat} {before after : List (Nat × Call)} (hh : s.holder = none)
      (hq : s.queue = before ++ (place, .close) :: after) (ho : s.client.isOpen = false) :
      Step s (.answered place .close .done) { s with queue := before ++ after }
  | vacates {place : Nat} {before after : List (Nat × Call)} (hh : s.holder = none)
      (hq : s.queue = before ++ (place, .close) :: after) (ho : s.client.isOpen = true) :
      Step s (.vacated place)
        { client := { s.client with isOpen := false }
          queue := before ++ after
          holder := some (.parting place (.first s.client.pipe)) }
  | asks {place : Nat} (hh : s.holder = some (.parting place .quitting)) :
      Step s (.asked place)
        { s.withPipe s.client.pipe.askQuit with holder := some (.parting place .ending) }
  | hangsUp {place : Nat} (hh : s.holder = some (.parting place .ending)) :
      Step s (.hungUp place)
        { s.withPipe s.client.pipe.endInput with
          holder := some (.parting place (.waiting s.client.pipe.deadline)) }
  | parts {place deadline : Nat} (hh : s.holder = some (.parting place (.waiting deadline)))
      (h : s.client.pipe.hasEnded = true ∨ deadline ≤ s.client.pipe.clock) :
      Step s (.answered place .close .done)
        { s with
          client := { s.client with pipe := s.client.pipe.retire }.note "ProtonDB shell stopped" []
          holder := none }

/-- Any number of turns, one after the other. -/
inductive Run : Scene → List Turn → Scene → Prop
  | nil (s : Scene) : Run s [] s
  | cons {s t u : Scene} {turn : Turn} {turns : List Turn} (h : Step s turn t)
      (hr : Run t turns u) : Run s (turn :: turns) u

variable {s t u : Scene} {turn : Turn} {turns turns' : List Turn} {p : Pipe}

theorem Run.trans (h : Run s turns t) (h' : Run t turns' u) : Run s (turns ++ turns') u := by
  induction h with
  | nil => exact h'
  | cons h _ ih => exact .cons h (ih h')

theorem Run.split (h : Run s (turns ++ turns') u) : ∃ t, Run s turns t ∧ Run t turns' u := by
  induction turns generalizing s with
  | nil => exact ⟨s, .nil s, h⟩
  | cons turn turns ih =>
    cases h with
    | cons hstep hr =>
      obtain ⟨t, hr₁, hr₂⟩ := ih hr
      exact ⟨t, .cons hstep hr₁, hr₂⟩

def Turn.answer? : Turn → Option (Nat × Answer)
  | .answered place _ a => some (place, a)
  | .pushed _ | .remarked _ | .tended _ | .passed | .queued _ _ | .cleared _ _ | .sent _ _
  | .left _ _ | .vacated _ | .asked _ | .hungUp _ => none

/-- Who has been answered, in order. -/
def answersOf (turns : List Turn) : List (Nat × Answer) := turns.filterMap Turn.answer?

@[simp] theorem answersOf_append (turns turns' : List Turn) :
    answersOf (turns ++ turns') = answersOf turns ++ answersOf turns' := List.filterMap_append

section Idle

/-- A line that a reader takes. -/
def Turn.taken : Outlet → String → Turn
  | .standard => .pushed
  | .error => .remarked

theorem step_taken {o : Outlet} (line : String) (h : (s.client.pipe.reader o).phase = .busy) :
    Step s (.taken o line) (s.withPipe (s.client.pipe.read o line)) := by
  cases o with
  | standard => exact .pushes line h
  | error => exact .remarks line h

theorem run_taken {o : Outlet} (lines : List String)
    (h : (s.client.pipe.reader o).phase = .busy) :
    Run s (lines.map (.taken o)) (s.withPipe (lines.foldl (Pipe.read o) s.client.pipe)) := by
  induction lines generalizing s with
  | nil => exact .nil s
  | cons line lines ih =>
    refine .cons (step_taken line h) (ih (s := s.withPipe (s.client.pipe.read o line)) ?_)
    simpa [Scene.withPipe] using h

theorem answersOf_taken (o : Outlet) (lines : List String) :
    answersOf (lines.map (.taken o)) = [] := by
  cases o <;> simp [answersOf, Turn.taken, Turn.answer?]

/-- A reader wakes, takes some lines, and waits again or stops. -/
theorem run_of_reading {o : Outlet} {r : Reader} (act : Reader.Act) (lines : List String)
    (s : Scene) (h : s.client.pipe.listens o = true)
    (hact : ∀ p : Pipe, p.reader o = ⟨.busy, (s.client.pipe.reader o).tail⟩ →
      p.tend? o act = some (p.withReader o r)) :
    ∃ turns, Run s turns (s.withPipe
        ((lines.foldl (Pipe.read o) s.client.pipe).withReader o r)) ∧ answersOf turns = [] := by
  obtain ⟨hwaiting, htold⟩ := Pipe.listens_iff.mp h
  have hwakes : Step s (.tended o) (s.withPipe (s.client.pipe.withReader o
      ⟨.busy, (s.client.pipe.reader o).tail⟩)) := by
    refine @Step.tends _ o .wake _ ?_
    cases o <;> simp [Pipe.tend?, Reader.act?, hwaiting, htold, Pipe.noteFault]
  have htakes := run_taken (o := o) (s := s.withPipe (s.client.pipe.withReader o
    ⟨.busy, (s.client.pipe.reader o).tail⟩)) lines (by simp [Scene.withPipe])
  have hrests : Step (s.withPipe (lines.foldl (Pipe.read o) (s.client.pipe.withReader o
      ⟨.busy, (s.client.pipe.reader o).tail⟩))) (.tended o)
      (s.withPipe ((lines.foldl (Pipe.read o) s.client.pipe).withReader o r)) := by
    refine @Step.tends _ o act _ ((hact _ (by simp [Scene.withPipe])).trans ?_)
    simp [Scene.withPipe, Pipe.foldl_read_withReader]
  refine ⟨_, .cons hwakes (htakes.trans (.cons hrests (.nil _))), ?_⟩
  change answersOf (lines.map (Turn.taken o) ++ [.tended o]) = []
  rw [answersOf_append, answersOf_taken]
  rfl

/-- Output is read in turns that answer nobody. -/
theorem run_of_take (chunk : Chunk) (s : Scene) :
    ∃ turns, Run s turns (s.withPipe (s.client.pipe.take chunk)) ∧ answersOf turns = [] := by
  unfold Pipe.take
  split
  · next h =>
    refine run_of_reading (.rest (Text.frames Child.lineFeed
      ((s.client.pipe.reader chunk.outlet).tail ++ chunk.bytes)).2) _ s h ?_
    intro p hp
    cases hchunk : chunk.outlet <;> simp_all [Pipe.tend?, Reader.act?, Pipe.noteFault]
  · exact ⟨[], .nil s, rfl⟩

theorem run_of_takes (chunks : List Chunk) (s : Scene) :
    ∃ turns, Run s turns (s.withPipe (chunks.foldl Pipe.take s.client.pipe)) ∧
      answersOf turns = [] := by
  induction chunks generalizing s with
  | nil => exact ⟨[], .nil s, rfl⟩
  | cons chunk chunks ih =>
    obtain ⟨turns, hr, ha⟩ := run_of_take chunk s
    obtain ⟨turns', hr', ha'⟩ := ih (s.withPipe (s.client.pipe.take chunk))
    exact ⟨_, hr.trans hr', by simp [ha, ha']⟩

theorem run_of_takeTail (o : Outlet) (s : Scene) :
    ∃ turns, Run s turns (s.withPipe (s.client.pipe.takeTail o)) ∧ answersOf turns = [] := by
  unfold Pipe.takeTail
  split
  · next h =>
    refine run_of_reading .finish _ s h ?_
    intro p hp
    cases o <;> simp_all [Pipe.tend?, Reader.act?, Pipe.noteFault]
  · exact ⟨[], .nil s, rfl⟩

theorem run_of_takeTails (s : Scene) :
    ∃ turns, Run s turns (s.withPipe s.client.pipe.takeTails) ∧ answersOf turns = [] := by
  obtain ⟨turns, hr, ha⟩ := run_of_takeTail .standard s
  obtain ⟨turns', hr', ha'⟩ := run_of_takeTail .error (s.withPipe (s.client.pipe.takeTail .standard))
  exact ⟨_, hr.trans hr', by simp [ha, ha']⟩

/-- Time passes in turns that answer nobody. -/
theorem run_of_advance (moment : Nat) (s : Scene) :
    ∃ turns, Run s turns (s.withPipe (s.client.pipe.advance moment)) ∧ answersOf turns = [] := by
  rcases hrun : s.client.pipe.child.run moment with ⟨child, out⟩
  obtain ⟨turns, hr, ha⟩ := run_of_takes out (s.withPipe { s.client.pipe with
    child, clock := max s.client.pipe.clock moment })
  have hpassed : Step s .passed (s.withPipe { s.client.pipe with
      child, clock := max s.client.pipe.clock moment }) := by
    refine .passes _ _ (Nat.le_max_left _ _) fun hended => ?_
    have hstatus := Child.status_run hended moment
    rwa [hrun] at hstatus
  simp only [Pipe.advance, hrun]
  split
  · obtain ⟨turns', hr', ha'⟩ := run_of_takeTails (s.withPipe (out.foldl Pipe.take
      { s.client.pipe with child, clock := max s.client.pipe.clock moment }))
    refine ⟨_, .cons hpassed (hr.trans hr'), ?_⟩
    change answersOf (turns ++ turns') = []
    rw [answersOf_append, ha, ha', List.append_nil]
  · exact ⟨_, .cons hpassed hr, ha⟩

end Idle

section Alone

variable {c c' : ConsoleClient} {call : Call} {a : Answer} {line : String}
  {patience : Option Nat}

/-- A line that is sent while nobody else is there. -/
theorem run_of_send (place : Nat) (hl : call.line = .ok (some line))
    (h : c.send line patience = (a, c')) :
    ∃ turns, Run { client := c, queue := [(place, call)] } turns { client := c' } ∧
      answersOf turns = [(place, a)] := by
  have hrejects {f : Failure} (hf : Rejects c line f) :
      Step { client := c, queue := [(place, call)] } (.answered place call (.failed f))
        { client := c } :=
    @Step.rejects { client := c, queue := [(place, call)] } place call line f [] [] rfl rfl hl hf
  unfold send at h
  cases ho : c.isOpen with
  | false =>
    rw [if_pos (by simp [ho])] at h
    obtain ⟨rfl, rfl⟩ := Prod.mk.inj h
    exact ⟨_, .cons (hrejects (.closed ho)) (.nil _), rfl⟩
  | true =>
    rw [if_neg (by simp [ho])] at h
    cases hs : isSingleLine line with
    | false =>
      rw [if_pos (by simp [hs])] at h
      obtain ⟨rfl, rfl⟩ := Prod.mk.inj h
      exact ⟨_, .cons (hrejects (.broken ho hs)) (.nil _), rfl⟩
    | true =>
      rw [if_neg (by simp [hs])] at h
      have hclears : Step { client := c, queue := [(place, call)] } (.cleared place call)
          { client := { c with pipe := { c.pipe with buffer := c.pipe.buffer.clear } }
            holder := some (.asking place call line) } :=
        @Step.clears { client := c, queue := [(place, call)] } place call line [] [] rfl rfl hl ho hs
      rcases hask : c.pipe.ask line with ⟨asked, pipe⟩
      simp only [hask] at h
      cases asked with
      | error f =>
        obtain ⟨rfl, rfl⟩ := Prod.mk.inj h
        exact ⟨_, .cons hclears (.cons (.fails rfl hask) (.nil _)), rfl⟩
      | ok sent =>
        have hsends : Step
            { client := { c with pipe := { c.pipe with buffer := c.pipe.buffer.clear } }
              holder := some (.asking place call line) } (.sent place line)
            { client := { c with pipe }, holder := some (.settling place call) } :=
          .sends rfl hask
        have hasked := Run.cons hclears (.cons hsends (.nil _))
        dsimp only at h
        split at h
        · next moment _ =>
          obtain ⟨rfl, rfl⟩ := Prod.mk.inj h
          obtain ⟨turns, hr, ha⟩ := run_of_advance moment
            { client := { c with pipe }, holder := some (.settling place call) }
          refine ⟨_, hasked.trans (hr.trans (.cons (.forsakes rfl) (.nil _))), ?_⟩
          simp only [answersOf_append, ha]
          rfl
        · obtain ⟨rfl, rfl⟩ := Prod.mk.inj h
          obtain ⟨turns, hr, ha⟩ := run_of_advance pipe.settled
            { client := { c with pipe }, holder := some (.settling place call) }
          refine ⟨_, hasked.trans (hr.trans (.cons (.harvests rfl rfl) (.nil _))), ?_⟩
          simp only [answersOf_append, ha]
          rfl

/-- A close that nobody comes between asks the console to quit if it can be asked, and ends its
input. -/
theorem run_of_hangUp (place : Nat) (ho : c.isOpen = true) :
    ∃ turns, Run { client := c, queue := [(place, .close)] } turns
        { client := { pipe := c.pipe.hangUp, isOpen := false }
          holder := some (.parting place (.waiting c.pipe.hangUp.deadline)) } ∧
      answersOf turns = [] := by
  have hvacates : Step { client := c, queue := [(place, .close)] } (.vacated place)
      { client := { c with isOpen := false }, holder := some (.parting place (.first c.pipe)) } :=
    @Step.vacates { client := c, queue := [(place, .close)] } place [] [] rfl rfl ho
  have hends (p : Pipe) : Step
      { client := { pipe := p, isOpen := false }, holder := some (.parting place .ending) }
      (.hungUp place)
      { client := { pipe := p.endInput, isOpen := false }
        holder := some (.parting place (.waiting p.endInput.deadline)) } := .hangsUp rfl
  unfold Pipe.hangUp Pipe.sendQuit
  unfold Stage.first at hvacates
  split at hvacates
  · next hasked =>
    have hasks : Step
        { client := { c with isOpen := false }, holder := some (.parting place .quitting) }
        (.asked place)
        { client := { pipe := c.pipe.askQuit, isOpen := false }
          holder := some (.parting place .ending) } := .asks rfl
    rw [if_pos hasked]
    exact ⟨_, .cons hvacates (.cons hasks (.cons (hends _) (.nil _))), rfl⟩
  · next hasked =>
    rw [if_neg hasked]
    exact ⟨_, .cons hvacates (.cons (hends _) (.nil _)), rfl⟩

theorem run_of_close (place : Nat) (c : ConsoleClient) :
    ∃ turns, Run { client := c, queue := [(place, .close)] } turns { client := c.close } ∧
      answersOf turns = [(place, .done)] := by
  unfold close
  cases ho : c.isOpen with
  | false =>
    have hstep : Step { client := c, queue := [(place, .close)] } (.answered place .close .done)
        { client := c } :=
      @Step.closesAgain { client := c, queue := [(place, .close)] } place [] [] rfl rfl ho
    exact ⟨_, .cons hstep (.nil _), rfl⟩
  | true =>
    obtain ⟨turns, hr, ha⟩ := run_of_hangUp place ho
    obtain ⟨turns', hr', ha'⟩ := run_of_advance c.pipe.hangUp.deadline
      { client := { pipe := c.pipe.hangUp, isOpen := false }
        holder := some (.parting place (.waiting c.pipe.hangUp.deadline)) }
    have hlate : c.pipe.hangUp.deadline ≤ (c.pipe.hangUp.advance c.pipe.hangUp.deadline).clock := by
      rw [Pipe.clock_advance]
      exact Nat.le_max_right _ _
    refine ⟨_, hr.trans (hr'.trans (.cons (.parts rfl (Or.inr hlate)) (.nil _))), ?_⟩
    simp only [answersOf_append, ha, ha']
    rfl

/-- A call that nobody comes between is a run, whatever the console does in the meantime. -/
theorem run_of_call (place : Nat) (h : c.call call patience = (a, c')) :
    ∃ turns, Run { client := c } turns { client := c' } ∧ answersOf turns = [(place, a)] := by
  have hqueues {line : Option String} (hl : call.line = .ok line)
      (hg : call.isGuarded = true → c.isOpen = true) :
      Step { client := c } (.queued place call) { client := c, queue := [(place, call)] } :=
    .queues place hl fun hguarded => ⟨rfl, hg hguarded⟩
  have hsend {line : String} (hl : call.line = .ok (some line))
      (hg : call.isGuarded = true → c.isOpen = true) (h : c.send line patience = (a, c')) :
      ∃ turns, Run { client := c } turns { client := c' } ∧ answersOf turns = [(place, a)] := by
    obtain ⟨turns, hr, ha⟩ := run_of_send place hl h
    exact ⟨_, .cons (hqueues hl hg) hr, ha⟩
  cases call with
  | raw line => exact hsend rfl (by simp [Call.isGuarded]) h
  | execute statement => exact hsend rfl (by simp [Call.isGuarded]) h
  | probe =>
    obtain ⟨rfl, rfl⟩ := Prod.mk.inj h
    have hprobe : Step { client := c, queue := [(place, .probe)] }
        (.answered place .probe (if c.isOpen then .opened else .failed .closed)) { client := c } :=
      @Step.probes { client := c, queue := [(place, .probe)] } place [] [] rfl rfl
    exact ⟨_, .cons (hqueues rfl (by simp [Call.isGuarded])) (.cons hprobe (.nil _)), rfl⟩
  | close =>
    obtain ⟨rfl, rfl⟩ := Prod.mk.inj h
    obtain ⟨turns, hr, ha⟩ := run_of_close place c
    exact ⟨_, .cons (hqueues rfl (by simp [Call.isGuarded])) hr, ha⟩
  | command command =>
    simp only [ConsoleClient.call] at h
    have hline {s : Statement} (hs : command.statement = .ok s) :
        (Call.command command).line = .ok (some s.line) := by
      simp only [Call.line, hs]
      rfl
    cases ho : c.isOpen with
    | false =>
      rw [if_pos (by simp [ho])] at h
      obtain ⟨rfl, rfl⟩ := Prod.mk.inj h
      cases hg : command.hasArguments with
      | true =>
        have hrefuses : Step { client := c } (.answered place (.command command) (.failed .closed))
            { client := c } :=
          .refuses place rfl hg (Or.inl ⟨ho, rfl⟩)
        exact ⟨_, .cons hrefuses (.nil _), rfl⟩
      | false =>
        cases hs : command.statement with
        | error f => simp [(Command.statement_error hs).1] at hg
        | ok s =>
          refine hsend (hline hs) (by simp [Call.isGuarded, hg]) ?_
          simp [send, ho]
    | true =>
      rw [if_neg (by simp [ho])] at h
      cases hs : command.statement with
      | error f =>
        simp only [hs] at h
        obtain ⟨rfl, rfl⟩ := Prod.mk.inj h
        have herror : (Call.command command).line = .error f := by
          simp only [Call.line, hs]
          rfl
        have hrefuses : Step { client := c } (.answered place (.command command) (.failed f))
            { client := c } :=
          .refuses place rfl (Command.statement_error hs).1 (Or.inr ⟨ho, herror⟩)
        exact ⟨_, .cons hrefuses (.nil _), rfl⟩
      | ok s =>
        simp only [hs] at h
        exact hsend (hline hs) (fun _ => ho) h

end Alone

end ConsoleClient

end DocClient
