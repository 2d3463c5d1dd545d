import DocClient.Proofs.Client.Turns
import DocClient.Proofs.Console.Turns
import DocClient.Proofs.Login.Handshake
import DocClient.Proofs.Validation

/-!
Calls whose arguments are found bad. Such a call is answered with the first fault of its arguments,
and whoever erases it from the life of a client finds the life of a client.
-/
namespace DocClient

namespace Client

variable {s t u : Scene} {turn : Turn} {turns : List Turn} {call : Call} {f : Failure} {a : Answer}
  {place : Nat}

/-- What is wrong with the arguments of a call. -/
def Call.fault? : Call → Option Failure
  | command c => c.fault?
  | execute _ | raw _ | fetch | debug _ | profile | probe | close => none

theorem work_error_iff : call.work = .error f ↔ call.fault? = some f := by
  rw [← failureOf_eq_some_iff]
  cases call with
  | command c => rw [Call.work, failureOf_map, Command.failureOf_statement, Call.fault?]
  | _ => simp [Call.work, failureOf, Call.fault?]

/-- Whether the turn is the answer to a call with bad arguments. -/
def Turn.isRejected : Turn → Bool
  | answered _ call _ => call.fault?.isSome
  | queued _ _ | left _ _ | vacated _ | rested _ => false

/-- A call with bad arguments never waits for the client, and its answer changes nothing. -/
theorem answer_of_fault (h : Step s (.answered place call a) t) (hf : call.fault? = some f) :
    t = s ∧ (s.client.isClosed = false → a = .failed f) := by
  have hw := work_error_iff.mpr hf
  cases h with
  | refuses _ h =>
    refine ⟨rfl, ?_⟩
    intro ho
    rcases prepare_error h with ⟨-, hc⟩ | ⟨hw', -⟩
    · simp [ho] at hc
    · rw [Except.error.inj (hw'.symm.trans hw)]
  | works hq hw' hc h => simp [hw] at hw'
  | parts patience hp h => simp [Call.fault?] at hf
  | forsakesGoodbye hp hc => simp [Call.fault?] at hf

theorem not_queued_of_fault (hf : call.fault? = some f) : ¬ Step s (.queued place call) t := by
  intro h
  cases h with
  | queues _ hp =>
    have hw := (prepare_ok hp).1
    simp [work_error_iff.mpr hf] at hw

theorem same_of_rejected (h : Step s turn t) (hr : turn.isRejected = true) : t = s := by
  cases turn with
  | answered place call a =>
    obtain ⟨f, hf⟩ := Option.isSome_iff_exists.mp hr
    exact (answer_of_fault h hf).1
  | queued | left | vacated | rested => simp [Turn.isRejected] at hr

/-- What has been rejected might as well not have been asked for. -/
theorem Run.erase (h : Run s turns t) : Run s (turns.filter fun turn => !turn.isRejected) t := by
  induction h with
  | nil s => exact .nil s
  | @cons s t u turn turns h hr ih =>
    cases hrejected : turn.isRejected with
    | false =>
      rw [List.filter_cons_of_pos (by simp [hrejected])]
      exact .cons h ih
    | true =>
      obtain rfl := same_of_rejected h hrejected
      rw [List.filter_cons_of_neg (by simp [hrejected])]
      exact ih

/-- What becomes of a call with bad arguments. -/
structure Rejected (s : Scene) (call : Call) (f : Failure) : Prop where
  /-- Who calls alone gets the fault, and the client stays as it is. -/
  returns : ∀ patience, s.client.call call patience = (.failed f, s.client)
  answered : ∀ place, Step s (.answered place call (.failed f)) s
  only : ∀ place a t, Step s (.answered place call a) t → a = .failed f ∧ t = s
  unqueued : ∀ place t, ¬ Step s (.queued place call) t
  /-- What can happen afterwards is what could have happened anyway. -/
  later : ∀ place turns t, Run s (.answered place call (.failed f) :: turns) t ↔ Run s turns t

theorem rejected_of_fault (ho : s.client.isClosed = false) (hf : call.fault? = some f) :
    Rejected s call f := by
  have hw := work_error_iff.mpr hf
  have hprepare : s.client.prepare call = .error f := by
    rw [prepare, if_neg (by simp [ho])]
    exact hw
  have hanswered (place : Nat) : Step s (.answered place call (.failed f)) s :=
    .refuses place hprepare
  refine ⟨?_, hanswered, ?_, ?_, ?_⟩
  · intro patience
    simp only [Client.call, hprepare]
  · intro place a t h
    obtain ⟨ht, ha⟩ := answer_of_fault h hf
    exact ⟨ha ho, ht⟩
  · intro place t
    exact not_queued_of_fault hf
  · intro place turns t
    constructor
    · intro h
      cases h with
      | cons hstep hr =>
        obtain rfl := (answer_of_fault hstep hf).1
        exact hr
    · intro hr
      exact .cons (hanswered place) hr

end Client

namespace ConsoleClient

variable {c : ConsoleClient} {s t u : Scene} {turn : Turn} {turns : List Turn} {call : Call}
  {f : Failure} {a : Answer} {place : Nat} {line : String}

/-- What is wrong with the arguments of a call: those of a command come first, then the line that
it would send. -/
def Call.fault? (call : Call) : Option Failure :=
  match call.line with
  | .error f => some f
  | .ok none => none
  | .ok (some line) =>
    if isSingleLine line then none
    else some (.invalidArgument "shell commands must be a single line")

namespace Turn

/-- The call that a turn is about, until the call has the console for itself. -/
def call? : Turn → Option Call
  | queued _ call | cleared _ call | answered _ call _ | left _ call => some call
  | pushed _ | remarked _ | tended _ | passed | sent _ _ | vacated _ | asked _ | hungUp _ => none

/-- Whether the turn is about a call with bad arguments. -/
def isRejected (turn : Turn) : Bool := (turn.call?.bind Call.fault?).isSome

end Turn

/-- The calls in line that have good arguments. -/
def goodCalls (queue : List (Nat × Call)) : List (Nat × Call) :=
  queue.filter fun entry => entry.2.fault?.isNone

namespace Scene

/-- The scene without the calls in line that have bad arguments. -/
def spare (s : Scene) : Scene := { s with queue := goodCalls s.queue }

/-- Who has the console for itself has good arguments. -/
def Proper (s : Scene) : Prop := ∀ holder, s.holder = some holder → holder.caller.2.fault? = none

end Scene

theorem fault?_of_line (hl : call.line = .ok (some line)) (hs : isSingleLine line = true) :
    call.fault? = none := by
  simp [Call.fault?, hl, hs]

theorem fault?_of_broken (hl : call.line = .ok (some line)) (hs : isSingleLine line = false) :
    call.fault? = some (.invalidArgument "shell commands must be a single line") := by
  simp [Call.fault?, hl, hs]

theorem fault?_probe : Call.probe.fault? = none := rfl

theorem fault?_close : Call.close.fault? = none := rfl

theorem rejected_of_bad (hc : turn.call? = some call) (hf : call.fault? = some f) :
    turn.isRejected = true := by
  simp [Turn.isRejected, hc, hf]

theorem kept_of_good (hc : turn.call? = some call) (hf : call.fault? = none) :
    turn.isRejected = false := by
  simp [Turn.isRejected, hc, hf]

theorem proper_of_step (h : Step s turn t) (hs : s.Proper) : t.Proper := by
  cases h with
  | pushes | remarks | tends | passes | queues | refuses | rejects | leaves | probes
  | closesAgain => exact hs
  | clears hh hq hl ho hsingle =>
    rintro holder hholder
    obtain rfl := Option.some.inj hholder
    exact fault?_of_line hl hsingle
  | @sends place call line pipe hh h =>
    rintro holder hholder
    obtain rfl := Option.some.inj hholder
    have hproper := hs _ hh
    exact hproper
  | fails | harvests | forsakes | parts => simp [Scene.Proper]
  | vacates | asks | hangsUp =>
    rintro holder hholder
    obtain rfl := Option.some.inj hholder
    rfl

theorem goodCalls_append (queue later : List (Nat × Call)) :
    goodCalls (queue ++ later) = goodCalls queue ++ goodCalls later := by
  simp [goodCalls]

theorem goodCalls_good (before after : List (Nat × Call)) (hf : call.fault? = none) :
    goodCalls (before ++ (place, call) :: after)
      = goodCalls before ++ (place, call) :: goodCalls after := by
  simp [goodCalls, hf]

theorem goodCalls_bad (before after : List (Nat × Call)) (hf : call.fault? = some f) :
    goodCalls (before ++ (place, call) :: after) = goodCalls (before ++ after) := by
  simp [goodCalls, hf]

theorem spare_queue {before after : List (Nat × Call)}
    (hq : s.queue = before ++ (place, call) :: after) (hf : call.fault? = none) :
    s.spare.queue = goodCalls before ++ (place, call) :: goodCalls after := by
  rw [Scene.spare, hq, goodCalls_good before after hf]

/-- A call with bad arguments is not missed in the line. -/
theorem spare_left {before after : List (Nat × Call)}
    (hq : s.queue = before ++ (place, call) :: after) (hf : call.fault? = some f) :
    { s with queue := before ++ after }.spare = s.spare := by
  rw [Scene.spare, Scene.spare, hq, goodCalls_bad before after hf]

/-- A turn about a call with bad arguments leaves what is about others as it is, and any other turn
can be taken without those calls. -/
theorem spare_of_step (h : Step s turn t) (hs : s.Proper) :
    (turn.isRejected = true ∧ t.spare = s.spare) ∨
      turn.isRejected = false ∧ Step s.spare turn t.spare := by
  cases h with
  | pushes line h => exact Or.inr ⟨rfl, .pushes line h⟩
  | remarks line h => exact Or.inr ⟨rfl, .remarks line h⟩
  | tends h => exact Or.inr ⟨rfl, .tends h⟩
  | passes child clock hc he => exact Or.inr ⟨rfl, .passes child clock hc he⟩
  | @queues call line place hl hg =>
    cases hf : call.fault? with
    | some f =>
      refine Or.inl ⟨rejected_of_bad rfl hf, ?_⟩
      simp [Scene.spare, goodCalls_bad _ _ hf]
    | none =>
      refine Or.inr ⟨kept_of_good rfl hf, ?_⟩
      have hqueue : goodCalls (s.queue ++ [(place, call)]) = s.spare.queue ++ [(place, call)] :=
        goodCalls_good s.queue [] hf
      have hstep : Step s.spare (.queued place call) _ := .queues place hl hg
      rw [← hqueue] at hstep
      exact hstep
  | @refuses call f place hh hg hf' =>
    cases hf : call.fault? with
    | some f => exact Or.inl ⟨rejected_of_bad rfl hf, rfl⟩
    | none => exact Or.inr ⟨kept_of_good rfl hf, .refuses place hh hg hf'⟩
  | @rejects place call line f before after hh hq hl hr =>
    cases hf : call.fault? with
    | some f =>
      exact Or.inl ⟨rejected_of_bad rfl hf, spare_left hq hf⟩
    | none =>
      refine Or.inr ⟨kept_of_good rfl hf, ?_⟩
      have hstep := Step.rejects (s := s.spare) hh (spare_queue hq hf) hl hr
      rw [← goodCalls_append] at hstep
      exact hstep
  | @clears place call line before after hh hq hl ho hsingle =>
    have hf := fault?_of_line hl hsingle
    refine Or.inr ⟨kept_of_good rfl hf, ?_⟩
    have hstep := Step.clears (s := s.spare) hh (spare_queue hq hf) hl ho hsingle
    rw [← goodCalls_append] at hstep
    exact hstep
  | sends hh h => exact Or.inr ⟨rfl, .sends hh h⟩
  | fails hh h => exact Or.inr ⟨kept_of_good rfl (hs _ hh), .fails hh h⟩
  | harvests hh h => exact Or.inr ⟨kept_of_good rfl (hs _ hh), .harvests hh h⟩
  | forsakes hh => exact Or.inr ⟨kept_of_good rfl (hs _ hh), .forsakes hh⟩
  | @leaves place call before after hq =>
    cases hf : call.fault? with
    | some f =>
      exact Or.inl ⟨rejected_of_bad rfl hf, spare_left hq hf⟩
    | none =>
      refine Or.inr ⟨kept_of_good rfl hf, ?_⟩
      have hstep := Step.leaves (s := s.spare) (spare_queue hq hf)
      rw [← goodCalls_append] at hstep
      exact hstep
  | @probes place before after hh hq =>
    refine Or.inr ⟨kept_of_good rfl fault?_probe, ?_⟩
    have hstep := Step.probes (s := s.spare) hh (spare_queue hq fault?_probe)
    rw [← goodCalls_append] at hstep
    exact hstep
  | @closesAgain place before after hh hq ho =>
    refine Or.inr ⟨kept_of_good rfl fault?_close, ?_⟩
    have hstep := Step.closesAgain (s := s.spare) hh (spare_queue hq fault?_close) ho
    rw [← goodCalls_append] at hstep
    exact hstep
  | @vacates place before after hh hq ho =>
    refine Or.inr ⟨rfl, ?_⟩
    have hstep := Step.vacates (s := s.spare) hh (spare_queue hq fault?_close) ho
    rw [← goodCalls_append] at hstep
    exact hstep
  | asks hh => exact Or.inr ⟨rfl, .asks hh⟩
  | hangsUp hh => exact Or.inr ⟨rfl, .hangsUp hh⟩
  | parts hh h => exact Or.inr ⟨kept_of_good rfl fault?_close, .parts hh h⟩

/-- Without the calls that have bad arguments, a run is the same run for all others. -/
theorem Run.spare (h : Run s turns t) (hs : s.Proper) :
    Run s.spare (turns.filter fun turn => !turn.isRejected) t.spare := by
  induction h with
  | nil s => exact .nil s.spare
  | @cons s t u turn turns h hr ih =>
    have hrest := ih (proper_of_step h hs)
    rcases spare_of_step h hs with ⟨hrejected, he⟩ | ⟨hkept, hstep⟩
    · rw [List.filter_cons_of_neg (by simp [hrejected]), ← he]
      exact hrest
    · rw [List.filter_cons_of_pos (by simp [hkept])]
      exact .cons hstep hrest

theorem proper_of_run (h : Run s turns t) (hs : s.Proper) : t.Proper := by
  induction h with
  | nil => exact hs
  | cons h _ ih => exact ih (proper_of_step h hs)

/-- A call with bad arguments that is answered gets its fault, and only its place in the line, if it
has had one, is lost. -/
theorem answer_of_fault (h : Step s (.answered place call a) t) (hs : s.Proper)
    (ho : s.client.isOpen = true) (hf : call.fault? = some f) :
    a = .failed f ∧ t.client = s.client ∧ t.holder = s.holder ∧ t.spare = s.spare := by
  have hnone {holder : Holder} (hh : s.holder = some holder) : holder.caller.2.fault? = none :=
    hs holder hh
  have hspare : t.spare = s.spare := by
    rcases spare_of_step h hs with ⟨-, he⟩ | ⟨hkept, -⟩
    · exact he
    · simp [Turn.isRejected, Turn.call?, hf] at hkept
  cases h with
  | refuses _ hh hg hf' =>
    rcases hf' with ⟨hc, -⟩ | ⟨-, hl⟩
    · simp [ho] at hc
    · simp only [Call.fault?, hl, Option.some.injEq] at hf
      exact ⟨by rw [hf], rfl, rfl, rfl⟩
  | rejects hh hq hl hr =>
    cases hr with
    | closed hc => simp [ho] at hc
    | broken _ hbroken =>
      obtain rfl := Option.some.inj ((fault?_of_broken hl hbroken).symm.trans hf)
      exact ⟨rfl, rfl, rfl, hspare⟩
  | fails hh h | harvests hh h | forsakes hh =>
    have hfault := hf.symm.trans (hnone hh)
    simp at hfault
  | probes | closesAgain | parts => simp [Call.fault?, Call.line] at hf

/-- A caller with bad arguments who finds nobody there is answered, and nothing is left of it. -/
theorem run_of_fault (place : Nat) (hh : s.holder = none) (ho : s.client.isOpen = true)
    (hf : call.fault? = some f) :
    ∃ turns, Run s turns s ∧ answersOf turns = [(place, .failed f)] ∧
      ∀ turn ∈ turns, turn.isRejected = true := by
  cases hl : call.line with
  | error g =>
    obtain rfl : g = f := by simpa [Call.fault?, hl] using hf
    have hg : call.isGuarded = true := by
      cases call with
      | command c => exact (Command.statement_error (map_error hl)).1
      | _ => simp [Call.line] at hl
    have hstep : Step s (.answered place call (.failed g)) s :=
      .refuses place hh hg (Or.inr ⟨ho, hl⟩)
    refine ⟨_, .cons hstep (.nil s), rfl, ?_⟩
    intro turn hm
    obtain rfl := List.mem_singleton.mp hm
    exact rejected_of_bad rfl hf
  | ok line =>
    cases line with
    | none => simp [Call.fault?, hl] at hf
    | some line =>
      cases hsingle : isSingleLine line with
      | true => simp [fault?_of_line hl hsingle] at hf
      | false =>
        obtain rfl := Option.some.inj ((fault?_of_broken hl hsingle).symm.trans hf)
        have hqueues : Step s (.queued place call) { s with queue := s.queue ++ [(place, call)] } :=
          .queues place hl fun _ => ⟨hh, ho⟩
        have hrejects := Step.rejects (s := { s with queue := s.queue ++ [(place, call)] }) hh rfl hl
          (.broken ho hsingle)
        rw [List.append_nil] at hrejects
        refine ⟨_, .cons hqueues (.cons hrejects (.nil s)), rfl, ?_⟩
        intro turn hm
        simp only [List.mem_cons, List.not_mem_nil, or_false] at hm
        rcases hm with rfl | rfl <;> exact rejected_of_bad rfl hf

theorem call_of_fault (ho : c.isOpen = true) (hf : call.fault? = some f) (patience : Option Nat) :
    c.call call patience = (.failed f, c) := by
  have hsend {line : String} (hl : call.line = .ok (some line)) :
      c.send line patience = (.failed f, c) := by
    cases hsingle : isSingleLine line with
    | true => simp [fault?_of_line hl hsingle] at hf
    | false =>
      obtain rfl := Option.some.inj ((fault?_of_broken hl hsingle).symm.trans hf)
      rw [send, if_neg (by simp [ho]), if_pos (by simp [hsingle])]
  cases call with
  | raw line => exact hsend rfl
  | execute statement => exact hsend rfl
  | probe | close => simp [Call.fault?, Call.line] at hf
  | command command =>
    rw [ConsoleClient.call, if_neg (by simp [ho])]
    cases hs : command.statement with
    | ok statement =>
      apply hsend
      simp only [Call.line, hs]
      rfl
    | error g =>
      have hl : (Call.command command).line = .error g := by
        simp only [Call.line, hs]
        rfl
      simp only [Call.fault?, hl, Option.some.injEq] at hf
      rw [hf]

/-- What becomes of a call with bad arguments. -/
structure Rejected (s : Scene) (call : Call) (f : Failure) : Prop where
  /-- Who calls alone gets the fault, and the client stays as it is. -/
  returns : ∀ patience, s.client.call call patience = (.failed f, s.client)
  answered : s.holder = none → ∀ place, ∃ turns, Run s turns s ∧
    answersOf turns = [(place, .failed f)] ∧ ∀ turn ∈ turns, turn.isRejected = true
  only : ∀ place a t, Step s (.answered place call a) t →
    a = .failed f ∧ t.client = s.client ∧ t.holder = s.holder ∧ t.spare = s.spare
  /-- It waits in line at most, and neither clears the buffer nor sends anything. -/
  uncleared : ∀ place t, ¬ Step s (.cleared place call) t

theorem rejected_of_fault (hs : s.Proper) (ho : s.client.isOpen = true)
    (hf : call.fault? = some f) : Rejected s call f := by
  refine ⟨call_of_fault ho hf, ?_, ?_, ?_⟩
  · intro hh place
    exact run_of_fault place hh ho hf
  · intro place a t h
    exact answer_of_fault h hs ho hf
  · intro place t h
    cases h with
    | clears hh hq hl _ hsingle => simp [fault?_of_line hl hsingle] at hf

end ConsoleClient

/-- Calls with bad arguments have no effect: at an open client such a call is answered with the
first fault of its arguments, whatever else goes on, and all that happens to others could happen
without it. -/
theorem rejected_calls :
    (∀ (command : Command) f, command.statement = .error f ↔ command.fault? = some f) ∧
    (∀ (s : Client.Scene) call f, s.client.isClosed = false → call.fault? = some f →
      Client.Rejected s call f) ∧
    (∀ (s t : Client.Scene) turns, Client.Run s turns t →
      Client.Run s (turns.filter fun turn => !turn.isRejected) t) ∧
    ∀ (c : ConsoleClient) turns s, ConsoleClient.Run { client := c } turns s →
      (∀ call f, s.client.isOpen = true → call.fault? = some f →
        ConsoleClient.Rejected s call f) ∧
      ∀ turns t, ConsoleClient.Run s turns t →
        ConsoleClient.Run s.spare (turns.filter fun turn => !turn.isRejected) t.spare := by
  refine ⟨?_, ?_, ?_, ?_⟩
  · intro command f
    exact Command.statement_error_iff
  · intro s call f ho hf
    exact Client.rejected_of_fault ho hf
  · intro s t turns h
    exact h.erase
  · intro c turns s hr
    have hs : s.Proper := ConsoleClient.proper_of_run hr (by simp [ConsoleClient.Scene.Proper])
    refine ⟨?_, ?_⟩
    · intro call f ho hf
      exact ConsoleClient.rejected_of_fault hs ho hf
    · intro turns t h
      exact h.spare hs

/-- Both the name and the password are bad, and the password is reported. -/
theorem rejected_calls_profile :
    ∃ c, Client.connectTo "db" (.reaching Client.obliging) Client.ungreeted = .ready c ∧
      c.call (.command (.createProfile "two words" "" none)) none =
        (.failed (.invalidArgument
          "password must be non-empty and free of quotes, commas and line breaks"), c) := by
  obtain ⟨c, hc⟩ := Client.connectTo_obliging
  obtain ⟨server, now, session, e, journal, -, -, hready⟩ := Client.connectTo_ready hc
  have ho : c.isClosed = false := by rw [hready]; rfl
  have hf : (Client.Call.command (.createProfile "two words" "" none)).fault? = some (.invalidArgument
      "password must be non-empty and free of quotes, commas and line breaks") := by
    decide +kernel
  exact ⟨c, hc, (rejected_calls.2.1 { client := c } _ _ ho hf).returns none⟩

end DocClient
