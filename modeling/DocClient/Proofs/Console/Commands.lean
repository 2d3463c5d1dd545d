import DocClient.Proofs.Console.Stream

/-!
What a console is given to read over a whole run: the lines that calls send, in the order in which
the calls have it for themselves, and after them at most the line that asks it to quit. Once its
input is given up, or the client closed, it is given nothing more.
-/
namespace DocClient

open Text (Bytes)

namespace ConsoleClient

variable {c : ConsoleClient} {s t u : Scene} {turn : Turn} {turns past : List Turn} {place : Nat}
  {call : Call} {line : String} {bytes : Bytes} {a : Answer}

section Origin

/-- Since the call that is about to write has come to have the console for itself, nothing has been
written. -/
def Awaiting (past : List Turn) (s : Scene) : Prop :=
  ∀ place call line, s.holder = some (.asking place call line) → ∃ earlier since,
    past = earlier ++ .cleared place call :: since ∧ Quiet since ∧ sentIn since = []

/-- Who is about to write was so before the turn, or has come to it in this one. -/
theorem asking_of_step (h : Step s turn t) (ht : t.holder = some (.asking place call line)) :
    turn = .cleared place call ∨
      s.holder = t.holder ∧ turn.isQuiet = true ∧ turn.sent? = none := by
  cases h with
  | pushes | remarks | tends | passes | queues | leaves => exact Or.inr ⟨rfl, rfl, rfl⟩
  | refuses place hh => simp [hh] at ht
  | rejects hh | probes hh | closesAgain hh => simp [hh] at ht
  | fails | harvests | forsakes | parts | sends | vacates | asks | hangsUp => simp at ht
  | clears =>
    obtain ⟨rfl, rfl, -⟩ := Holder.asking.inj (Option.some.inj ht)
    exact Or.inl rfl

theorem awaiting_of_step (h : Step s turn t) (hs : Awaiting past s) :
    Awaiting (past ++ [turn]) t := by
  intro place call line ht
  rcases asking_of_step h ht with rfl | ⟨hsame, hq, hn⟩
  · exact ⟨past, [], rfl, by simp [Quiet], rfl⟩
  · obtain ⟨earlier, since, rfl, hquiet, hsent⟩ := hs place call line (hsame.trans ht)
    refine ⟨earlier, since ++ [turn], by simp, ?_, ?_⟩
    · intro turn' hm
      rcases List.mem_append.mp hm with hm | hm
      · exact hquiet turn' hm
      · exact List.mem_singleton.mp hm ▸ hq
    · simpa [sentIn, hn] using hsent

theorem awaiting_of_run (hr : Run s turns t) (hs : Awaiting past s) :
    Awaiting (past ++ turns) t := by
  induction hr generalizing past with
  | nil => simpa using hs
  | cons h _ ih => simpa using ih (awaiting_of_step h hs)

/-- A line is sent by the call that has come to have the console for itself last, once. -/
theorem origin_of_run {before after : List Turn} (ho : c.isOpen = true)
    (hr : Run { client := c } turns s) (h : turns = before ++ .sent place line :: after) :
    ∃ call earlier since, before = earlier ++ .cleared place call :: since ∧ Quiet since ∧
      sentIn since = [] ∧ call.line = .ok (some line) ∧ isSingleLine line = true := by
  subst h
  obtain ⟨s', hbefore, hafter⟩ := hr.split
  have hawaiting : Awaiting ([] ++ before) s' := by
    apply awaiting_of_run hbefore
    intro place call line h
    simp at h
  have hpoised := poised_of_run hbefore (.start ho)
  cases hafter with
  | cons hstep _ =>
    cases hstep with
    | @sends _ call _ _ hh h =>
      obtain ⟨earlier, since, hpast, hquiet, hsent⟩ := hawaiting place call line hh
      obtain ⟨-, hline, hsingle⟩ := hpoised.asking hh
      exact ⟨call, earlier, since, hpast, hquiet, hsent, hline, hsingle⟩

end Origin

section Answers

/-- Of a console whose input is given up no call can get an answer out. -/
structure Scene.Spent (s : Scene) : Prop where
  shut : s.client.pipe.inputOpen = false
  unsettled : ∀ place call, s.holder ≠ some (.settling place call)

theorem spent_of_step (h : Step s turn t) (hs : s.Spent) : t.Spent := by
  refine ⟨shut_of_step h hs.shut, ?_⟩
  intro place call ht
  have hn := (hushed_of_step h (Or.inl hs.shut)).2.1
  cases h with
  | pushes | remarks | tends | passes | queues | refuses | leaves => exact hs.unsettled _ _ ht
  | rejects hh | probes hh | closesAgain hh => simp [hh] at ht
  | fails | harvests | forsakes | parts | vacates | clears | asks | hangsUp => simp at ht
  | sends => simp [Turn.sent?] at hn

/-- A line that could be sent is told that there is nobody to read it, as long as the client is
open. -/
theorem answer_of_spent (h : Step s (.answered place call a) t) (hs : s.Spent)
    (ho : s.client.isOpen = true) (hl : call.line = .ok (some line))
    (hsingle : isSingleLine line = true) : a = .failed .channelClosed ∨ a = .unfinished := by
  generalize hturn : Turn.answered place call a = turn at h
  cases h with
  | refuses place hh hg hf =>
    obtain ⟨rfl, rfl, rfl⟩ := Turn.answered.inj hturn
    rcases hf with ⟨hc, -⟩ | ⟨-, herror⟩
    · simp [ho] at hc
    · simp [hl] at herror
  | rejects hh hq hl' hr =>
    obtain ⟨rfl, rfl, rfl⟩ := Turn.answered.inj hturn
    obtain rfl := Option.some.inj (Except.ok.inj (hl.symm.trans hl'))
    cases hr with
    | closed hc => simp [ho] at hc
    | broken _ hbroken => simp [hsingle] at hbroken
  | fails hh h =>
    obtain ⟨rfl, rfl, rfl⟩ := Turn.answered.inj hturn
    exact Or.inl (congrArg Answer.failed (Pipe.send_error h))
  | harvests hh =>
    exact absurd hh (hs.unsettled _ _)
  | forsakes hh =>
    obtain ⟨rfl, rfl, rfl⟩ := Turn.answered.inj hturn
    exact Or.inr rfl
  | probes | closesAgain | parts =>
    obtain ⟨rfl, rfl, rfl⟩ := Turn.answered.inj hturn
    simp [Call.line] at hl
  | pushes | remarks | tends | passes | queues | clears | sends | leaves | vacates | asks
  | hangsUp => simp at hturn

theorem isOpen_of_step (h : Step s turn t) (hv : ∀ place, turn ≠ .vacated place) :
    t.client.isOpen = s.client.isOpen := by
  cases h with
  | vacates => exact absurd rfl (hv _)
  | _ => rfl

theorem answers_of_spent {turns : List Turn} (hr : Run s turns t) (hs : s.Spent)
    (ho : s.client.isOpen = true) (hv : ∀ place, .vacated place ∉ turns)
    (hm : .answered place call a ∈ turns) (hl : call.line = .ok (some line))
    (hsingle : isSingleLine line = true) : a = .failed .channelClosed ∨ a = .unfinished := by
  induction hr with
  | nil => simp at hm
  | @cons s t u turn turns h hr ih =>
    rcases List.mem_cons.mp hm with rfl | hm
    · exact answer_of_spent h hs ho hl hsingle
    · have hturn : ∀ place, turn ≠ .vacated place := by
        rintro place rfl
        exact hv place List.mem_cons_self
      refine ih (spent_of_step h hs) ((isOpen_of_step h hturn).trans ho) ?_ hm
      intro place hmem
      exact hv place (List.mem_cons_of_mem turn hmem)

/-- A closed client tells every caller so, and has nothing to close. -/
theorem answer_of_closed (h : Step s (.answered place call a) t) (hs : s.Poised)
    (hc : s.client.isOpen = false) :
    call ≠ .close ∧ a = .failed .closed ∨ call = .close ∧ (a = .done ∨ a = .unfinished) := by
  have hasking {place : Nat} {call : Call} {line : String}
      (h : s.holder = some (.asking place call line)) : False := by
    simpa [hc] using (hs.asking h).1
  have hsettling {place : Nat} {call : Call} (h : s.holder = some (.settling place call)) :
      False := by
    simpa [hc] using (hs.settling h).1
  generalize hturn : Turn.answered place call a = turn at h
  cases h with
  | refuses place hh hg hf =>
    obtain ⟨rfl, rfl, rfl⟩ := Turn.answered.inj hturn
    rcases hf with ⟨-, rfl⟩ | ⟨ho, -⟩
    · refine Or.inl ⟨?_, rfl⟩
      rintro rfl
      simp [Call.isGuarded] at hg
    · simp [hc] at ho
  | rejects hh hq hl hr =>
    obtain ⟨rfl, rfl, rfl⟩ := Turn.answered.inj hturn
    cases hr with
    | closed =>
      refine Or.inl ⟨?_, rfl⟩
      rintro rfl
      simp [Call.line] at hl
    | broken ho => simp [hc] at ho
  | fails hh => exact (hasking hh).elim
  | harvests hh => exact (hsettling hh).elim
  | @forsakes holder hh =>
    obtain ⟨rfl, rfl, rfl⟩ := Turn.answered.inj hturn
    cases holder with
    | asking => exact (hasking hh).elim
    | settling => exact (hsettling hh).elim
    | parting place stage => exact Or.inr ⟨rfl, Or.inr rfl⟩
  | probes =>
    obtain ⟨rfl, rfl, rfl⟩ := Turn.answered.inj hturn
    exact Or.inl ⟨by simp, by simp [hc]⟩
  | closesAgain | parts =>
    obtain ⟨rfl, rfl, rfl⟩ := Turn.answered.inj hturn
    exact Or.inr ⟨rfl, Or.inl rfl⟩
  | pushes | remarks | tends | passes | queues | clears | sends | leaves | vacates | asks
  | hangsUp => simp at hturn

theorem isOpen_of_run (hr : Run s turns t) (hc : s.client.isOpen = false) :
    t.client.isOpen = false := by
  induction hr with
  | nil => exact hc
  | cons h _ ih =>
    apply ih
    cases h with
    | vacates => rfl
    | _ => exact hc

theorem answers_of_closed (hr : Run s turns t) (hs : s.Poised) (hc : s.client.isOpen = false)
    (hm : .answered place call a ∈ turns) :
    call ≠ .close ∧ a = .failed .closed ∨ call = .close ∧ (a = .done ∨ a = .unfinished) := by
  induction hr with
  | nil => simp at hm
  | cons h _ ih =>
    rcases List.mem_cons.mp hm with rfl | hm
    · exact answer_of_closed h hs hc
    · exact ih (poised_of_step h hs) (isOpen_of_run (.cons h (.nil _)) hc) hm

/-- A close that is answered without having had the console has found the client closed. -/
theorem closes_again (h : Step s (.answered place .close a) t) (hh : s.holder = none) :
    s.client.isOpen = false ∧ a = .done ∧ t.client = s.client := by
  generalize hturn : Turn.answered place .close a = turn at h
  cases h with
  | refuses place _ hg =>
    obtain ⟨-, rfl, -⟩ := Turn.answered.inj hturn
    simp [Call.isGuarded] at hg
  | rejects _ hq hl =>
    obtain ⟨-, rfl, -⟩ := Turn.answered.inj hturn
    simp [Call.line] at hl
  | fails hh' | harvests hh' | forsakes hh' | parts hh' => simp [hh] at hh'
  | probes => simp at hturn
  | closesAgain _ hq ho => exact ⟨ho, (Turn.answered.inj hturn).2.2, rfl⟩
  | pushes | remarks | tends | passes | queues | clears | sends | leaves | vacates | asks
  | hangsUp => simp at hturn

/-- A probe is answered by whether the client is open, whatever has become of the console. -/
theorem answer_of_probe (h : Step s (.answered place .probe a) t) (hs : s.Poised) :
    a = (if s.client.isOpen then .opened else .failed .closed) ∧ t.client = s.client := by
  generalize hturn : Turn.answered place .probe a = turn at h
  cases h with
  | refuses place _ hg =>
    obtain ⟨-, rfl, -⟩ := Turn.answered.inj hturn
    simp [Call.isGuarded] at hg
  | rejects _ hq hl =>
    obtain ⟨-, rfl, -⟩ := Turn.answered.inj hturn
    simp [Call.line] at hl
  | fails hh =>
    obtain ⟨-, rfl, -⟩ := Turn.answered.inj hturn
    simpa [Call.line] using (hs.asking hh).2.1
  | harvests hh =>
    obtain ⟨-, rfl, -⟩ := Turn.answered.inj hturn
    simpa [Call.line] using (hs.settling hh).2
  | @forsakes holder hh =>
    obtain ⟨-, hcall, -⟩ := Turn.answered.inj hturn
    cases holder with
    | asking =>
      obtain rfl : Call.probe = _ := hcall
      simpa [Call.line] using (hs.asking hh).2.1
    | settling =>
      obtain rfl : Call.probe = _ := hcall
      simpa [Call.line] using (hs.settling hh).2
    | parting => simp [Holder.caller] at hcall
  | probes => exact ⟨(Turn.answered.inj hturn).2.2, rfl⟩
  | closesAgain | parts => simp at hturn
  | pushes | remarks | tends | passes | queues | clears | sends | leaves | vacates | asks
  | hangsUp => simp at hturn

theorem line_error {f : Failure} (h : call.line = .error f) : f.ofArguments = true := by
  cases call with
  | command command =>
    cases hs : command.statement with
    | error f' =>
      simp only [Call.line, hs] at h
      obtain rfl := Except.error.inj h
      exact (Command.statement_error hs).2
    | ok s =>
      simp only [Call.line, hs] at h
      cases h
  | _ => simp [Call.line] at h

/-- A call is told that the console is gone if its line cannot be written. -/
theorem spent_of_failure (h : Step s (.answered place call (.failed .channelClosed)) t)
    (hs : s.Poised) : t.Spent ∧ t.client.isOpen = true := by
  generalize hturn : Turn.answered place call (.failed .channelClosed) = turn at h
  cases h with
  | refuses place hh hg hf =>
    obtain ⟨rfl, rfl, hfailure⟩ := Turn.answered.inj hturn
    obtain rfl := Answer.failed.inj hfailure
    rcases hf with ⟨-, hf⟩ | ⟨-, hf⟩
    · simp at hf
    · simpa [Failure.ofArguments] using line_error hf
  | rejects hh hq hl hr =>
    obtain ⟨rfl, rfl, hfailure⟩ := Turn.answered.inj hturn
    obtain rfl := Answer.failed.inj hfailure
    cases hr
  | fails hh h =>
    rcases Pipe.send_cases h with ⟨hsent, -⟩ | ⟨-, hshut, -⟩
    · simp at hsent
    · exact ⟨⟨hshut, by simp⟩, (hs.asking hh).1⟩
  | harvests | forsakes | closesAgain | parts => simp at hturn
  | probes => cases ho : s.client.isOpen <;> simp [ho] at hturn
  | pushes | remarks | tends | passes | queues | clears | sends | leaves | vacates | asks
  | hangsUp => simp at hturn

end Answers

/-- What a run that has led to `s` has given the console to read, and what more it can be given. -/
structure Commanded (turns : List Turn) (bytes : Bytes) (s : Scene) : Prop where
  /-- The lines of the calls in the order of their turns, and then at most a close's request to
  quit, are what is written, what the sink is told of and what a reader of lines finds. -/
  stream : ∃ quits, (quits = [] ∨ quits = [Pipe.quitLine] ∧
      ∃ place, .vacated place ∈ turns ∧ .asked place ∈ turns) ∧
    bytes = Pipe.framed (sentIn turns ++ quits) ∧ s.toldSent = sentIn turns ++ quits ∧
    Text.frames Child.lineFeed bytes = ((sentIn turns ++ quits).map Text.utf8, [])
  /-- A line that is sent is that of the call which has come to have the console last. -/
  origin : ∀ {before place line after}, turns = before ++ .sent place line :: after →
    ∃ call earlier since, before = earlier ++ .cleared place call :: since ∧ Quiet since ∧
      sentIn since = [] ∧ call.line = .ok (some line)
  singleLine : ∀ line ∈ sentIn turns, '\n' ∉ line.toList ∧ '\r' ∉ line.toList
  /-- Once a call has found nobody to write to, no later one finds anybody. -/
  spent : ∀ {place call t}, Step s (.answered place call (.failed .channelClosed)) t →
    ∀ later written u, Feeds t later written u → written = [] ∧ u.toldSent = t.toldSent ∧
      ((∀ place, .vacated place ∉ later) → ∀ place call a line, .answered place call a ∈ later →
        call.line = .ok (some line) → isSingleLine line = true →
          a = .failed .channelClosed ∨ a = .unfinished)
  /-- A closed client writes nothing, but for the request to quit if its close has yet to end the
  input, and every caller is told that it is closed. -/
  closed : s.client.isOpen = false → ∀ later written u, Feeds s later written u →
    (∃ quits, (quits = [] ∨ quits = [Pipe.quitLine] ∧ s.Leaving) ∧
      written = Pipe.framed quits ∧ u.toldSent = s.toldSent ++ quits) ∧
    ∀ place call a, .answered place call a ∈ later →
      call ≠ .close ∧ a = .failed .closed ∨ call = .close ∧ (a = .done ∨ a = .unfinished)
  /-- A probe only tells whether the client is open: also when the console is gone. -/
  probed : ∀ {place a t}, Step s (.answered place .probe a) t →
    a = (if s.client.isOpen then .opened else .failed .closed) ∧ t.client = s.client
  /-- A close that does not itself take the console away has found it gone, and does nothing. -/
  again : ∀ {place a t}, Step s (.answered place .close a) t → s.holder = none →
    s.client.isOpen = false ∧ a = .done ∧ t.client = s.client

theorem not_mem_of_isSingleLine (h : isSingleLine line = true) :
    '\n' ∉ line.toList ∧ '\r' ∉ line.toList := by
  simp only [isSingleLine, List.all_eq_true, Bool.not_eq_true', Bool.or_eq_false_iff,
    beq_eq_false_iff_ne] at h
  exact ⟨fun hm => (h _ hm).1 rfl, fun hm => (h _ hm).2 rfl⟩

theorem mem_sentIn (h : line ∈ sentIn turns) :
    ∃ before place after, turns = before ++ .sent place line :: after := by
  obtain ⟨turn, hm, hsent⟩ := List.mem_filterMap.mp h
  obtain ⟨before, after, rfl⟩ := List.append_of_mem hm
  cases turn with
  | sent place line' =>
    obtain rfl := Option.some.inj hsent
    exact ⟨before, place, after, rfl⟩
  | _ => simp [Turn.sent?] at hsent

/-- The console reads the commands that are sent to it, one a line, and nothing else. -/
theorem input_commanded {settings : ConsoleSettings} {label : String} {console : Launch}
    (hc : ConsoleClient.spawn settings label console = .ok c) (hr : Run { client := c } turns s) :
    (∃ bytes, Feeds { client := c } turns bytes s) ∧
      ∀ bytes, Feeds { client := c } turns bytes s → Commanded turns bytes s := by
  obtain ⟨ho, htold⟩ : c.isOpen = true ∧ Scene.toldSent { client := c } = [] := by
    cases console with
    | error fault => cases hc
    | ok console =>
      obtain rfl := Except.ok.inj hc
      exact ⟨rfl, rfl⟩
  have hs : s.Poised := poised_of_run hr (.start ho)
  have hsingle : ∀ line ∈ sentIn turns, '\n' ∉ line.toList ∧ '\r' ∉ line.toList := by
    intro line hl
    obtain ⟨before, place, after, hturns⟩ := mem_sentIn hl
    obtain ⟨-, -, -, -, -, -, -, h⟩ := origin_of_run ho hr hturns
    exact not_mem_of_isSingleLine h
  refine ⟨exists_feeds hr, fun bytes hf => ⟨?_, ?_, hsingle, ?_, ?_, ?_, ?_⟩⟩
  · obtain ⟨quits, hquits, rfl, hlines⟩ := stream_of_feeds hf
    have hquits' := hquits.imp_right fun ⟨hquit, place, hm⟩ =>
      (⟨hquit, place, vacated_of_asked hr hm, hm⟩ : quits = [Pipe.quitLine] ∧
        ∃ place, Turn.vacated place ∈ turns ∧ Turn.asked place ∈ turns)
    refine ⟨quits, hquits', rfl, by simpa [htold] using hlines, Pipe.frames_framed ?_⟩
    intro line hl
    rcases List.mem_append.mp hl with hl | hl
    · exact (hsingle line hl).1
    · rcases hquits with rfl | ⟨rfl, -⟩
      · simp at hl
      · obtain rfl := List.mem_singleton.mp hl
        decide
  · intro before place line after hturns
    obtain ⟨call, earlier, since, hpast, hquiet, hsent, hline, -⟩ := origin_of_run ho hr hturns
    exact ⟨call, earlier, since, hpast, hquiet, hsent, hline⟩
  · intro place call t h later written u hfeeds
    obtain ⟨hspent, hopen⟩ := spent_of_failure h hs
    obtain ⟨hnone, -, hsilent⟩ := silent_of_feeds hfeeds (Or.inl hspent.shut)
    refine ⟨hnone, hsilent, ?_⟩
    intro hv place call a line hm hl hsingle
    exact answers_of_spent hfeeds.run hspent hopen hv hm hl hsingle
  · intro hclosed later written u hfeeds
    refine ⟨?_, fun place call a hm => answers_of_closed hfeeds.run hs hclosed hm⟩
    rcases hs.shut hclosed with hshut | hleaving
    · obtain ⟨rfl, -, hsilent⟩ := silent_of_feeds hfeeds (Or.inl hshut)
      exact ⟨[], Or.inl rfl, rfl, by simp [hsilent]⟩
    · obtain ⟨quits, hquits, hwritten, hsaid⟩ := stream_of_feeds hfeeds
      rw [unsent_of_closed hfeeds.run hs hclosed, List.nil_append] at hwritten hsaid
      exact ⟨quits, hquits.imp_right fun hquit => ⟨hquit.1, hleaving⟩, hwritten, hsaid⟩
  · intro place a t h
    exact answer_of_probe h hs
  · intro place a t h hh
    exact closes_again h hh

/-- A call is answered, a close asks the console to quit, and a later caller is told so. -/
def quitting : List Turn :=
  [.queued 0 (.raw "a"), .cleared 0 (.raw "a"), .sent 0 "a", .answered 0 (.raw "a") (.output ⟨[]⟩),
    .queued 1 .close, .vacated 1, .asked 1, .hungUp 1, .passed, .answered 1 .close .done,
    .queued 2 (.raw "x\ny"), .answered 2 (.raw "x\ny") (.failed .closed)]

/-- A console that has ended. -/
def gone : Child := { Child.start ⟨[], fun _ => [], []⟩ 0 with status := some (.code 0) }

/-- The console has ended when a call comes to it. -/
def ending : List Turn := [.queued 0 (.raw "b"), .cleared 0 (.raw "b"), .passed]

/-- Of a console that quits when it is asked to, and of one that is gone before. -/
theorem input_commanded_quitting : ∃ c,
    ConsoleClient.spawn { executable := "console" } "console" (.ok ⟨[], fun _ => [], []⟩) = .ok c ∧
      (∃ s bytes, Feeds { client := c } quitting bytes s ∧ s.client.isOpen = false ∧
        Text.frames Child.lineFeed bytes = (["a", ":q"].map Text.utf8, [])) ∧
      ∃ s t, Run { client := c } ending s ∧
        Step s (.answered 0 (.raw "b") (.failed .channelClosed)) t ∧
        ∀ later written u, Feeds t later written u → written = [] := by
  obtain ⟨c, hc⟩ : ∃ c, ConsoleClient.spawn { executable := "console" } "console"
      (.ok ⟨[], fun _ => [], []⟩) = .ok c := ⟨_, rfl⟩
  refine ⟨c, hc, ?_, ?_⟩
  · obtain ⟨s, hr, hclosed, htold⟩ : ∃ s, Run { client := c } quitting s ∧
        s.client.isOpen = false ∧ s.toldSent = ["a", ":q"] := by
      obtain rfl := Except.ok.inj hc
      apply Exists.intro
      apply And.intro
      · apply Run.cons (.queues 0 rfl (by simp [Call.isGuarded]))
        apply Run.cons (@Step.clears _ 0 (.raw "a") "a" [] [] rfl rfl rfl rfl rfl)
        apply Run.cons (.sends rfl rfl)
        apply Run.cons (.harvests rfl rfl)
        apply Run.cons (.queues 1 rfl (by simp [Call.isGuarded]))
        apply Run.cons (@Step.vacates _ 1 [] [] rfl rfl rfl)
        apply Run.cons (.asks rfl)
        apply Run.cons (.hangsUp rfl)
        apply Run.cons (.passes gone 0 (Nat.le_refl 0) (fun h => absurd h (by decide)))
        apply Run.cons (.parts rfl (Or.inl rfl))
        apply Run.cons (.queues 2 rfl (by simp [Call.isGuarded]))
        apply Run.cons
          (@Step.rejects _ 2 (.raw "x\ny") "x\ny" .closed [] [] rfl rfl rfl (.closed rfl))
        exact .nil _
      · exact ⟨rfl, rfl⟩
    obtain ⟨⟨bytes, hf⟩, hall⟩ := input_commanded hc hr
    obtain ⟨quits, -, -, hlines, hframes⟩ := (hall bytes hf).stream
    refine ⟨s, bytes, hf, hclosed, ?_⟩
    rw [hframes, ← hlines, htold]
  · obtain ⟨s, t, hr, hstep⟩ : ∃ s t, Run { client := c } ending s ∧
        Step s (.answered 0 (.raw "b") (.failed .channelClosed)) t := by
      obtain rfl := Except.ok.inj hc
      apply Exists.intro
      apply Exists.intro
      apply And.intro
      · apply Run.cons (.queues 0 rfl (by simp [Call.isGuarded]))
        apply Run.cons (@Step.clears _ 0 (.raw "b") "b" [] [] rfl rfl rfl rfl rfl)
        apply Run.cons (.passes gone 0 (Nat.le_refl 0) (fun h => absurd h (by decide)))
        exact .nil _
      · exact .fails rfl rfl
    obtain ⟨⟨bytes, hf⟩, hall⟩ := input_commanded hc hr
    refine ⟨s, t, hr, hstep, ?_⟩
    intro later written u hlater
    exact ((hall bytes hf).spent hstep later written u hlater).1

end ConsoleClient

end DocClient
