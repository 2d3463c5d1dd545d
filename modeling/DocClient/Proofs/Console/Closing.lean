import DocClient.Proofs.Console.Retirement

/-!
How a shared console is closed, whatever its readers, the console itself and other callers do
meanwhile. A close looks whether the console can be asked to quit, asks it, ends its input, leaves it
the time of its grace, kills it if it has not ended by then, and tells the readers to stop, for which
it does not wait. That the console is closed is told once. Where tasks run on one thread nothing is
told after it; where they run on several, a reader may be at work at that moment, and only that one
tells of a few lines more.
-/
namespace DocClient.ConsoleClient

open Text (Bytes)

variable {c : ConsoleClient} {s t u : Scene} {turn : Turn} {turns : List Turn}
  {place deadline : Nat} {stage : Stage} {call : Call} {a : Answer} {label : String}

namespace Scene

/-- All that the sink has been told of. -/
def reported (s : Scene) : List Event := s.client.pipe.events

/-- A close has taken the console away, and is not answered yet. -/
def Parting (s : Scene) : Prop := ∃ place stage, s.holder = some (.parting place stage)

/-- No reader is at work. -/
abbrev Calm (s : Scene) : Prop := s.client.pipe.Calm

end Scene

/-- Whether a caller has the turn. -/
def Turn.isCallers : Turn → Bool
  | pushed _ | remarked _ | tended _ | passed => false
  | queued _ _ | cleared _ _ | sent _ _ | answered _ _ _ | left _ _ | vacated _ | asked _
  | hungUp _ => true

/-- A run on one thread: no caller has a turn while a reader is at work. -/
inductive Solo : Scene → List Turn → Scene → Prop
  | nil (s : Scene) : Solo s [] s
  | cons {s t u : Scene} {turn : Turn} {turns : List Turn} (h : Step s turn t)
      (hc : turn.isCallers = true → s.Calm) (hr : Solo t turns u) : Solo s (turn :: turns) u

theorem Solo.run (h : Solo s turns t) : Run s turns t := by
  induction h with
  | nil s => exact .nil s
  | cons h _ _ ih => exact .cons h ih

section Parting

/-- A close that has the console goes from stage to stage, or somebody else has a turn. -/
inductive Proceeds (place : Nat) (s : Scene) : Stage → Turn → Scene → Prop
  | asks {t : Scene} (hp : s.client.pipe.Asks t.client.pipe)
      (ht : t.holder = some (.parting place .ending)) :
      Proceeds place s .quitting (.asked place) t
  | hangsUp {t : Scene} (hp : s.client.pipe.HangsUp t.client.pipe)
      (ht : t.holder = some (.parting place (.waiting s.client.pipe.deadline))) :
      Proceeds place s .ending (.hungUp place) t
  | returns {deadline : Nat} {t : Scene} (hp : s.client.pipe.Retires t.client.pipe)
      (hd : s.client.pipe.hasEnded = true ∨ deadline ≤ s.client.pipe.clock)
      (ht : t.holder = none) :
      Proceeds place s (.waiting deadline) (.answered place .close .done) t
  | leaves {stage : Stage} {t : Scene} (hp : t.client.pipe = s.client.pipe.abandon)
      (ht : t.holder = none) : Proceeds place s stage (.answered place .close .unfinished) t
  | aside {stage : Stage} {turn : Turn} {t : Scene} (ha : ∀ place, turn ≠ .asked place)
      (hw : ∀ place call a, turn ≠ .answered place call a) (ht : t.holder = s.holder)
      (hi : t.client.pipe.inputOpen = s.client.pipe.inputOpen)
      (he : s.client.pipe.hasEnded = true →
        t.client.pipe.child.status = s.client.pipe.child.status) :
      Proceeds place s stage turn t

theorem retires_of_parts (s : Scene) : s.client.pipe.Retires
    ({ s.client with pipe := s.client.pipe.retire }.note "ProtonDB shell stopped" []).pipe :=
  (Pipe.retires_retire s.client.pipe).noted _

theorem proceeds_of_step (h : Step s turn t) (hs : s.holder = some (.parting place stage)) :
    Proceeds place s stage turn t := by
  cases h with
  | pushes | remarks | queues | leaves =>
    exact .aside (by simp) (by simp) rfl rfl fun _ => rfl
  | tends h =>
    have haside := Pipe.aside_tend? h
    exact .aside (by simp) (by simp) rfl haside.inputOpen
      fun _ => congrArg Child.status haside.child
  | passes child clock hc he => exact .aside (by simp) (by simp) rfl rfl he
  | refuses _ hh => simp [hs] at hh
  | rejects hh | clears hh | probes hh | closesAgain hh | vacates hh => simp [hs] at hh
  | sends hh | fails hh | harvests hh => simp [hs] at hh
  | forsakes hh =>
    obtain rfl := Option.some.inj (hh.symm.trans hs)
    exact .leaves rfl rfl
  | asks hh =>
    obtain ⟨rfl, rfl⟩ := Holder.parting.inj (Option.some.inj (hh.symm.trans hs))
    exact .asks (Pipe.asks_askQuit _) rfl
  | hangsUp hh =>
    obtain ⟨rfl, rfl⟩ := Holder.parting.inj (Option.some.inj (hh.symm.trans hs))
    exact .hangsUp (Pipe.hangsUp_endInput _) rfl
  | parts hh hd =>
    obtain ⟨rfl, rfl⟩ := Holder.parting.inj (Option.some.inj (hh.symm.trans hs))
    exact .returns (retires_of_parts s) hd rfl

/-- A close that has the console still has it at the end of a run, or has been given up, or has
returned. Before it returns it has ended the input, and asked the console to quit if it was to. -/
theorem course_of_run (hr : Run s turns t) (hs : s.holder = some (.parting place stage)) :
    (∃ stage, t.holder = some (.parting place stage)) ∨
      .answered place .close .unfinished ∈ turns ∨
      ∃ before after, turns = before ++ .answered place .close .done :: after ∧
        ((∀ deadline, stage ≠ .waiting deadline) → .hungUp place ∈ before) ∧
        (.asked place ∈ before ↔ stage = .quitting) := by
  induction hr generalizing stage with
  | nil => exact Or.inl ⟨stage, hs⟩
  | @cons s t u turn turns h hr ih =>
    cases proceeds_of_step h hs with
    | asks _ ht =>
      rcases ih ht with hstill | hleft | ⟨before, after, rfl, hhung, hasked⟩
      · exact Or.inl hstill
      · exact Or.inr (Or.inl (List.mem_cons_of_mem _ hleft))
      · exact Or.inr (Or.inr ⟨_ :: before, after, rfl,
          fun _ => List.mem_cons_of_mem _ (hhung (by simp)), by simp⟩)
    | hangsUp _ ht =>
      rcases ih ht with hstill | hleft | ⟨before, after, rfl, -, hasked⟩
      · exact Or.inl hstill
      · exact Or.inr (Or.inl (List.mem_cons_of_mem _ hleft))
      · exact Or.inr (Or.inr ⟨_ :: before, after, rfl, fun _ => List.mem_cons_self,
          by simpa using hasked⟩)
    | returns _ _ ht => exact Or.inr (Or.inr ⟨[], turns, rfl, by simp, by simp⟩)
    | leaves => exact Or.inr (Or.inl List.mem_cons_self)
    | aside ha _ ht =>
      rcases ih (ht.trans hs) with hstill | hleft | ⟨before, after, rfl, hhung, hasked⟩
      · exact Or.inl hstill
      · exact Or.inr (Or.inl (List.mem_cons_of_mem _ hleft))
      · refine Or.inr (Or.inr ⟨turn :: before, after, rfl,
          fun hn => List.mem_cons_of_mem _ (hhung hn), ?_⟩)
        rw [← hasked, List.mem_cons]
        exact or_iff_right fun heq => ha place heq.symm

end Parting

section Once

/-- A close has come to its end. -/
structure Retired (s : Scene) (turn : Turn) (t : Scene) : Prop where
  answer : ∃ place deadline, s.holder = some (.parting place (.waiting deadline)) ∧
    turn = .answered place .close .done
  holder : t.holder = none
  client : t.client.isOpen = s.client.isOpen
  pipe : s.client.pipe.Retires t.client.pipe

/-- What a turn adds to what is told, unless it ends a close. -/
structure Continues (s t : Scene) : Prop where
  told : ∃ more, t.reported = s.reported ++ more ∧ ∀ event ∈ more, event.isClosing = false
  label : t.client.pipe.label = s.client.pipe.label

theorem Continues.same (he : t.reported = s.reported)
    (hl : t.client.pipe.label = s.client.pipe.label) : Continues s t :=
  ⟨⟨[], by simp [he], by simp⟩, hl⟩

theorem Continues.unclosed (h : Continues s t) (hs : s.client.pipe.Unclosed) :
    t.client.pipe.Unclosed := by
  obtain ⟨more, htold, hmore⟩ := h.told
  intro event hm
  have hm' : event ∈ s.reported ++ more := htold ▸ hm
  rcases List.mem_append.mp hm' with hm' | hm'
  · exact hs event hm'
  · exact hmore event hm'

theorem continues_of_step (h : Step s turn t) : Retired s turn t ∨ Continues s t := by
  cases h with
  | parts hh => exact Or.inl ⟨⟨_, _, hh, rfl⟩, rfl, rfl, retires_of_parts s⟩
  | pushes line h =>
    exact Or.inr ⟨⟨[.received line], Pipe.events_record _ _, by simp [Event.isClosing]⟩, rfl⟩
  | remarks line h =>
    exact Or.inr ⟨⟨[.stderr line], Pipe.events_record _ _, by simp [Event.isClosing]⟩, rfl⟩
  | tends h => exact Or.inr (.same (Pipe.events_tend? h) (Pipe.aside_tend? h).label)
  | passes | queues | refuses | rejects | clears | leaves | probes | closesAgain | vacates =>
    exact Or.inr (.same rfl rfl)
  | @forsakes holder hh => cases holder <;> exact Or.inr (.same rfl rfl)
  | harvests hh h =>
    obtain ⟨-, rfl⟩ := Prod.mk.inj h
    exact Or.inr (.same rfl rfl)
  | sends hh h | fails hh h =>
    obtain ⟨htold, hlabel⟩ := Pipe.events_send h
    refine Or.inr ⟨?_, hlabel⟩
    rcases htold with he | he
    · exact ⟨[], he.trans (List.append_nil _).symm, by simp⟩
    · exact ⟨_, he, by simp [Event.isClosing]⟩
  | asks hh =>
    have hasks := Pipe.asks_askQuit s.client.pipe
    refine Or.inr ⟨?_, hasks.kept.label⟩
    by_cases hopen : s.client.pipe.Open
    · exact ⟨_, (hasks.asked hopen).2, by simp [Event.isClosing]⟩
    · exact ⟨[], ((hasks.unasked hopen).2).trans (List.append_nil _).symm, by simp⟩
  | hangsUp hh =>
    have hup := Pipe.hangsUp_endInput s.client.pipe
    exact Or.inr (.same hup.told hup.kept.label)

/-- Whoever is parting has just closed the client, or was parting before. -/
theorem pending_of_step (h : Step s turn t) (ht : t.client.isOpen = true ∨ t.Parting) :
    s.client.isOpen = true ∨ s.Parting := by
  cases h with
  | pushes | remarks | tends | passes | queues | refuses | leaves => exact ht
  | rejects hh | probes hh | closesAgain hh =>
    exact ht.imp id fun ⟨place, stage, hp⟩ => by simp [hh] at hp
  | clears | sends | fails | harvests | forsakes | parts =>
    exact ht.imp id fun ⟨place, stage, hp⟩ => by simp at hp
  | vacates _ _ ho => exact Or.inl ho
  | asks hh | hangsUp hh => exact Or.inr ⟨_, _, hh⟩

/-- The console is closed, and nobody has anything more to do with it but its readers, which have
been told to stop. -/
structure Scene.Over (s : Scene) : Prop where
  closed : s.client.isOpen = false
  free : s.holder = none
  shut : s.client.pipe.inputOpen = false
  told : s.client.pipe.readersTold = true

/-- Only readers that were at work have gone on, and have told of some lines at most. -/
structure Fades (s t : Scene) : Prop where
  after : t.Over
  told : ∃ lines, t.reported = s.reported ++ Outlet.events lines ∧
    ∀ entry ∈ lines, (s.client.pipe.reader entry.1).phase = .busy
  busy : ∀ o, (t.client.pipe.reader o).phase = .busy → (s.client.pipe.reader o).phase = .busy

theorem Fades.refl (hs : s.Over) : Fades s s := ⟨hs, ⟨[], by simp [Outlet.events]⟩, fun _ => id⟩

theorem Fades.trans (h : Fades s t) (h' : Fades t u) : Fades s u := by
  obtain ⟨lines, he, hl⟩ := h.told
  obtain ⟨lines', he', hl'⟩ := h'.told
  refine ⟨h'.after, ⟨lines ++ lines', by simp [he, he'], ?_⟩, fun o hb => h.busy o (h'.busy o hb)⟩
  intro entry hm
  rcases List.mem_append.mp hm with hm | hm
  · exact hl entry hm
  · exact h.busy _ (hl' entry hm)

theorem Fades.of_calm (h : Fades s t) (hs : s.Calm) : t.Calm ∧ t.reported = s.reported := by
  obtain ⟨lines, he, hl⟩ := h.told
  obtain rfl : lines = [] :=
    List.eq_nil_iff_forall_not_mem.mpr fun entry hm => hs entry.1 (hl entry hm)
  exact ⟨fun o hb => hs o (h.busy o hb), by simpa [Outlet.events] using he⟩

theorem fades_of_read {o : Outlet} {line : String} (hs : s.Over)
    (hb : (s.client.pipe.reader o).phase = .busy) :
    Fades s (s.withPipe (s.client.pipe.read o line)) := by
  have haside := Pipe.aside_read o line s.client.pipe
  refine ⟨⟨hs.closed, hs.free, haside.inputOpen.trans hs.shut, haside.readersTold.trans hs.told⟩,
    ⟨_, Pipe.events_read o line s.client.pipe, ?_⟩, ?_⟩
  · intro entry hm
    obtain rfl := List.mem_singleton.mp hm
    exact hb
  · intro o' hbusy
    simpa [Scene.withPipe] using hbusy

theorem fades_of_step (h : Step s turn t) (hs : s.Over) : Fades s t := by
  cases h with
  | pushes line hb => exact fades_of_read (o := .standard) hs hb
  | remarks line hb => exact fades_of_read (o := .error) hs hb
  | tends h =>
    have haside := Pipe.aside_tend? h
    refine ⟨⟨hs.closed, hs.free, haside.inputOpen.trans hs.shut,
      haside.readersTold.trans hs.told⟩, ⟨[], ?_, by simp⟩, ?_⟩
    · exact (Pipe.events_tend? h).trans (List.append_nil _).symm
    · exact fun o hbusy => Pipe.busy_of_tend? h hs.told hbusy
  | passes => exact ⟨⟨hs.closed, hs.free, hs.shut, hs.told⟩,
      ⟨[], (List.append_nil _).symm, by simp⟩, by rintro (_ | _) hb <;> exact hb⟩
  | queues | refuses | leaves | rejects | probes | closesAgain =>
    exact ⟨⟨hs.closed, hs.free, hs.shut, hs.told⟩, ⟨[], (List.append_nil _).symm, by simp⟩,
      fun _ => id⟩
  | clears _ _ _ ho | vacates _ _ ho => exact absurd (ho.symm.trans hs.closed) (by simp)
  | sends hh | fails hh | harvests hh | forsakes hh | asks hh | hangsUp hh | parts hh =>
    exact absurd (hs.free.symm.trans hh) (by simp)

theorem fades_of_run (hr : Run s turns t) (hs : s.Over) : Fades s t := by
  induction hr with
  | nil => exact .refl hs
  | cons h _ ih =>
    have hfades := fades_of_step h hs
    exact hfades.trans (ih hfades.after)

theorem over_of_retired (h : Retired s turn t) (hs : s.Poised) : t.Over := by
  obtain ⟨place, deadline, hh, -⟩ := h.answer
  have hclosed := hs.parting hh
  refine ⟨h.client.trans hclosed, h.holder, h.pipe.inputOpen.trans ?_, h.pipe.readersTold⟩
  rcases hs.shut hclosed with hshut | ⟨place', hl | hl⟩
  · exact hshut
  · simp [hh] at hl
  · simp [hh] at hl

/-- The end is not told while it can still come, and it is told at most once; what is told after it
are lines that readers were at work on. -/
structure Scene.Tidy (label : String) (s : Scene) : Prop where
  poised : s.Poised
  named : s.client.pipe.label = label
  pending : s.client.isOpen = true ∨ s.Parting → s.client.pipe.Unclosed
  settled : s.client.pipe.Unclosed ∨ s.Over ∧ ∃ told lines,
    s.reported = told ++ [.closed label] ++ Outlet.events lines ∧
      ∀ event ∈ told, event.isClosing = false

theorem tidy_of_step (h : Step s turn t) (hs : s.Tidy label) : t.Tidy label := by
  have hpoised := poised_of_step h hs.poised
  rcases continues_of_step h with hretired | hcontinues
  · have hover := over_of_retired hretired hs.poised
    obtain ⟨place, deadline, hh, -⟩ := hretired.answer
    refine ⟨hpoised, hretired.pipe.label.trans hs.named, ?_, Or.inr ⟨hover, s.reported, [], ?_, ?_⟩⟩
    · rintro (ho | ⟨place', stage', hp⟩)
      · simp [hover.closed] at ho
      · simp [hover.free] at hp
    · rw [Scene.reported, hretired.pipe.told, hs.named]
      exact (List.append_nil _).symm
    · exact hs.pending (Or.inr ⟨place, _, hh⟩)
  · refine ⟨hpoised, hcontinues.label.trans hs.named,
      fun ht => hcontinues.unclosed (hs.pending (pending_of_step h ht)), ?_⟩
    rcases hs.settled with hun | ⟨hover, told, lines, htold, hnone⟩
    · exact Or.inl (hcontinues.unclosed hun)
    · have hfades := fades_of_step h hover
      obtain ⟨more, hmore, -⟩ := hfades.told
      refine Or.inr ⟨hfades.after, told, lines ++ more, ?_, hnone⟩
      rw [hmore, htold, Outlet.events_append]
      simp

theorem tidy_of_run (hr : Run s turns t) (hs : s.Tidy label) : t.Tidy label := by
  induction hr with
  | nil => exact hs
  | cons h _ ih => exact ih (tidy_of_step h hs)

theorem unclosed_of_spawn {settings : ConsoleSettings} {console : Launch}
    (hc : spawn settings label console = .ok c) :
    c.isOpen = true ∧ c.pipe.label = label ∧ c.pipe.Unclosed := by
  cases console with
  | error fault => cases hc
  | ok console =>
    obtain rfl := Except.ok.inj hc
    refine ⟨rfl, rfl, ?_⟩
    intro event hm
    obtain rfl := List.mem_singleton.mp hm
    rfl

theorem tidy_of_spawn {settings : ConsoleSettings} {console : Launch}
    (hc : spawn settings label console = .ok c) : Scene.Tidy label { client := c } := by
  obtain ⟨ho, hlabel, hun⟩ := unclosed_of_spawn hc
  exact ⟨.start ho, hlabel, fun _ => hun, Or.inl hun⟩

end Once

section Last

/-- The end has not been told, or is the last that is told. -/
def Scene.Last (label : String) (s : Scene) : Prop :=
  s.client.pipe.Unclosed ∨ s.Over ∧ s.Calm ∧ ∃ told, s.reported = told ++ [.closed label] ∧
    ∀ event ∈ told, event.isClosing = false

theorem last_of_step (h : Step s turn t) (hc : turn.isCallers = true → s.Calm)
    (ht : s.Tidy label) (hs : s.Last label) : t.Last label := by
  rcases continues_of_step h with hretired | hcontinues
  · obtain ⟨place, deadline, hh, rfl⟩ := hretired.answer
    have hun := ht.pending (Or.inr ⟨place, _, hh⟩)
    refine Or.inr ⟨over_of_retired hretired ht.poised, ?_, s.reported, ?_, hun⟩
    · intro o
      rw [hretired.pipe.reader]
      exact hc rfl o
    · rw [Scene.reported, hretired.pipe.told, ht.named]
      rfl
  · rcases hs with hun | ⟨hover, hcalm, told, htold, hnone⟩
    · exact Or.inl (hcontinues.unclosed hun)
    · have hfades := fades_of_step h hover
      obtain ⟨hcalm', he⟩ := hfades.of_calm hcalm
      exact Or.inr ⟨hfades.after, hcalm', told, he.trans htold, hnone⟩

theorem last_of_solo (hr : Solo s turns t) (ht : s.Tidy label) (hs : s.Last label) :
    t.Last label := by
  induction hr with
  | nil => exact hs
  | cons h hc _ ih => exact ih (tidy_of_step h ht) (last_of_step h hc ht hs)

end Last

/-- Who makes a close in this turn. -/
def Turn.closer? : Turn → Option Nat
  | queued place .close | answered place .close _ | left place .close | vacated place | asked place
  | hungUp place => some place
  | _ => none

/-- A close of a client that is closed already changes nothing, but for the one that is under way. -/
theorem idle_of_step (h : Step s turn t) (hs : s.Poised) (hc : s.client.isOpen = false)
    (hcloser : turn.closer?.isSome = true) : t.client = s.client ∨
      ∃ place stage, s.holder = some (.parting place stage) ∧
        (turn = .asked place ∨ turn = .hungUp place ∨ ∃ a, turn = .answered place .close a) := by
  cases h with
  | queues | refuses | rejects | leaves | probes | closesAgain => exact Or.inl rfl
  | clears _ _ _ ho | vacates _ _ ho => simp [hc] at ho
  | sends hh | fails hh => simp [(hs.asking hh).1] at hc
  | harvests hh => simp [(hs.settling hh).1] at hc
  | pushes | remarks | tends | passes => simp [Turn.closer?] at hcloser
  | asks hh => exact Or.inr ⟨_, _, hh, Or.inl rfl⟩
  | hangsUp hh => exact Or.inr ⟨_, _, hh, Or.inr (Or.inl rfl)⟩
  | parts hh => exact Or.inr ⟨_, _, hh, Or.inr (Or.inr ⟨_, rfl⟩)⟩
  | @forsakes holder hh =>
    cases holder with
    | asking place call line => simp [(hs.asking hh).1] at hc
    | settling place call => simp [(hs.settling hh).1] at hc
    | parting place stage => exact Or.inr ⟨place, stage, hh, Or.inr (Or.inr ⟨_, rfl⟩)⟩

/-- A close returns that has taken the console away. -/
structure Returns (label : String) (place : Nat) (s t : Scene) : Prop where
  /-- A console that has ended is left as it is; any other has had all of the grace, and is killed. -/
  ended : ∃ deadline, s.holder = some (.parting place (.waiting deadline)) ∧
    (s.client.pipe.hasEnded = true ∧ t.client.pipe.child.status = s.client.pipe.child.status ∨
      s.client.pipe.hasEnded = false ∧ deadline ≤ s.client.pipe.clock ∧
        t.client.pipe.child.status = some .killed)
  unclosed : s.client.pipe.Unclosed
  told : t.reported = s.reported ++ [.closed label]
  /-- Nothing more is written, and only readers that were at work at this moment can tell of lines. -/
  later : ∀ {later bytes u}, Feeds t later bytes u → bytes = [] ∧ ∃ lines,
    u.reported = t.reported ++ Outlet.events lines ∧
      ∀ entry ∈ lines, (s.client.pipe.reader entry.1).phase = .busy

/-- What a shared console's end is like, from some moment of a run on. -/
structure Ends (label : String) (s : Scene) : Prop where
  /-- A close that is made now, and that nobody comes between. -/
  closes : s.client.isOpen = true → s.client.pipe.Closes s.client.close.pipe ∧
    s.client.pipe.Unclosed ∧
    (∀ patience, s.client.close.call .close patience = (.done, s.client.close)) ∧
    (s.Calm → ∀ {later bytes u}, Feeds { client := s.client.close } later bytes u →
      bytes = [] ∧ u.reported = s.client.close.pipe.events)
  /-- A close that comes to have the console for itself looks whether it is to ask it to quit. -/
  vacates : ∀ {place t}, Step s (.vacated place) t → s.client.isOpen = true ∧
    t.client = { s.client with isOpen := false } ∧
    t.holder = some (.parting place (if s.client.pipe.inputOpen && !s.client.pipe.hasEnded
      then .quitting else .ending))
  /-- From then on it has the console for itself, and goes on stage by stage, with anything between
  them that the console, the readers and other callers do. -/
  proceeds : ∀ {place stage}, s.holder = some (.parting place stage) → ∀ {turn t},
    Step s turn t → Proceeds place s stage turn t
  course : ∀ {place t}, Step s (.vacated place) t → ∀ {later u}, Run t later u →
    (∃ stage, u.holder = some (.parting place stage)) ∨
      .answered place .close .unfinished ∈ later ∨
      ∃ before after, later = before ++ .answered place .close .done :: after ∧
        .hungUp place ∈ before ∧ (.asked place ∈ before ↔
          s.client.pipe.inputOpen = true ∧ s.client.pipe.hasEnded = false)
  /-- A close that returns has brought the console to its end, or has found it closed. -/
  returns : ∀ {place t}, Step s (.answered place .close .done) t →
    Returns label place s t ∨ s.holder = none ∧ s.client.isOpen = false ∧ t.client = s.client
  /-- Any other close of a client that is closed leaves everything as it is. -/
  again : s.client.isOpen = false → ∀ {turn t}, Step s turn t → turn.closer?.isSome = true →
    t.client = s.client ∨ ∃ place stage, s.holder = some (.parting place stage) ∧
      (turn = .asked place ∨ turn = .hungUp place ∨ ∃ a, turn = .answered place .close a)
  /-- The end is told at most once, and after it nothing but lines that readers take. -/
  once : s.client.pipe.Unclosed ∨ ∃ told lines,
    s.reported = told ++ [.closed label] ++ Outlet.events lines ∧
      ∀ event ∈ told, event.isClosing = false

theorem close_of_open (ho : c.isOpen = true) : c.close =
    { c with isOpen := false, pipe := c.pipe.close }.note "ProtonDB shell stopped" [] := if_pos ho

theorem close_of_closed (hc : c.isOpen = false) : c.close = c := by
  unfold close
  rw [if_neg (by simp [hc])]

theorem closes_of_tidy (hs : s.Tidy label) (ho : s.client.isOpen = true) :
    s.client.pipe.Closes s.client.close.pipe ∧ s.client.pipe.Unclosed ∧
      (∀ patience, s.client.close.call .close patience = (.done, s.client.close)) ∧
      (s.Calm → ∀ {later bytes u}, Feeds { client := s.client.close } later bytes u →
        bytes = [] ∧ u.reported = s.client.close.pipe.events) := by
  have hcloses : s.client.pipe.Closes s.client.close.pipe := by
    rw [close_of_open ho]
    exact (Pipe.closes_close s.client.pipe).noted _
  have hclosed : s.client.close.isOpen = false := by
    rw [close_of_open ho]
    rfl
  have hover : Scene.Over { client := s.client.close } :=
    ⟨hclosed, rfl, hcloses.shut, hcloses.readersTold⟩
  refine ⟨hcloses, hs.pending (Or.inl ho), ?_, ?_⟩
  · intro patience
    exact congrArg (Prod.mk Answer.done) (close_of_closed hclosed)
  · intro hcalm later bytes u hf
    exact ⟨(silent_of_feeds hf (Or.inl hcloses.shut)).1,
      ((fades_of_run hf.run hover).of_calm (hcloses.calm hcalm)).2⟩

theorem returns_of_tidy (hs : s.Tidy label) (h : Step s (.answered place .close .done) t) :
    Returns label place s t ∨ s.holder = none ∧ s.client.isOpen = false ∧ t.client = s.client := by
  rcases continues_of_step h with hretired | hcontinues
  · obtain ⟨place', deadline, hh, hanswer⟩ := hretired.answer
    obtain ⟨rfl, -, -⟩ := Turn.answered.inj hanswer
    have hover := over_of_retired hretired hs.poised
    refine Or.inl ⟨⟨deadline, hh, ?_⟩, hs.pending (Or.inr ⟨_, _, hh⟩), ?_, ?_⟩
    · have hstatus := hretired.pipe.status
      cases proceeds_of_step h hh with
      | aside _ hw => exact absurd rfl (hw _ _ _)
      | returns _ hd _ =>
        cases hended : s.client.pipe.child.status with
        | some status =>
          refine Or.inl ⟨by simp [Pipe.hasEnded, Child.hasEnded, hended], ?_⟩
          rw [hstatus, hended]
          rfl
        | none =>
          have hgoing : s.client.pipe.hasEnded = false := by
            simp [Pipe.hasEnded, Child.hasEnded, hended]
          refine Or.inr ⟨hgoing, hd.resolve_left (by simp [hgoing]), ?_⟩
          rw [hstatus, hended]
          rfl
    · rw [Scene.reported, hretired.pipe.told, hs.named]
      rfl
    · intro later bytes u hf
      obtain ⟨lines, htold, hbusy⟩ := (fades_of_run hf.run hover).told
      refine ⟨(silent_of_feeds hf (Or.inl hover.shut)).1, lines, htold, ?_⟩
      intro entry hm
      rw [← hretired.pipe.reader]
      exact hbusy entry hm
  · generalize hturn : Turn.answered place .close .done = turn at h
    cases h with
    | closesAgain hh hq ho => exact Or.inr ⟨hh, ho, rfl⟩
    | parts hh =>
      have hun := hcontinues.unclosed (hs.pending (Or.inr ⟨_, _, hh⟩))
      have htold : .closed s.client.pipe.label ∈
          Pipe.events ({ s.client with pipe := s.client.pipe.retire }.note
            "ProtonDB shell stopped" []).pipe := by
        rw [(retires_of_parts s).told]
        simp
      simpa [Event.isClosing] using hun _ htold
    | refuses | rejects | fails | harvests | forsakes | probes => simp at hturn
    | pushes | remarks | tends | passes | queues | clears | sends | leaves | vacates | asks
    | hangsUp => simp at hturn

theorem ends_of_tidy (hs : s.Tidy label) : Ends label s where
  closes := closes_of_tidy hs
  vacates := by
    intro place t h
    cases h with
    | vacates _ _ ho => exact ⟨ho, rfl, rfl⟩
  proceeds hh _ _ h := proceeds_of_step h hh
  course := by
    intro place t h later u hr
    cases h with
    | vacates _ _ ho =>
      rcases course_of_run hr rfl with hstill | hleft | ⟨before, after, hlater, hhung, hasked⟩
      · exact Or.inl hstill
      · exact Or.inr (Or.inl hleft)
      · refine Or.inr (Or.inr ⟨before, after, hlater, hhung ?_, hasked.trans ?_⟩)
        · intro deadline
          unfold Stage.first
          split <;> simp
        · unfold Stage.first
          split <;> simp_all
  returns := returns_of_tidy hs
  again := by
    intro hc turn t h hcloser
    exact idle_of_step h hs.poised hc hcloser
  once := hs.settled.imp id And.right

section Attended

variable {written : List Chunk} {d : ConsoleClient} {patience : Option Nat} {line : String}

theorem isOpen_of_send (h : c.send line patience = (a, d)) : d.isOpen = c.isOpen := by
  unfold send at h
  split at h
  · obtain ⟨-, rfl⟩ := Prod.mk.inj h
    rfl
  · split at h
    · obtain ⟨-, rfl⟩ := Prod.mk.inj h
      rfl
    · split at h
      · obtain ⟨-, rfl⟩ := Prod.mk.inj h
        rfl
      · split at h
        · obtain ⟨-, rfl⟩ := Prod.mk.inj h
          rfl
        · obtain ⟨-, rfl⟩ := Prod.mk.inj h
          rfl

theorem isOpen_of_call (hn : call ≠ .close) (h : c.call call patience = (a, d)) :
    d.isOpen = c.isOpen := by
  cases call with
  | raw line | execute statement => exact isOpen_of_send h
  | probe =>
    obtain ⟨-, rfl⟩ := Prod.mk.inj h
    rfl
  | close => exact absurd rfl hn
  | command command =>
    simp only [ConsoleClient.call] at h
    split at h
    · obtain ⟨-, rfl⟩ := Prod.mk.inj h
      rfl
    · split at h
      · obtain ⟨-, rfl⟩ := Prod.mk.inj h
        rfl
      · exact isOpen_of_send h

/-- Calls one after the other are a run. -/
theorem run_of_attended (h : Attended c written d) :
    (∃ turns, Run { client := c } turns { client := d }) ∧ d.isOpen = c.isOpen := by
  induction h with
  | begins => exact ⟨⟨[], .nil _⟩, rfl⟩
  | @waits written d moment _ ih =>
    obtain ⟨⟨turns, hr⟩, ho⟩ := ih
    obtain ⟨more, hr', -⟩ := run_of_advance moment { client := d }
    exact ⟨⟨_, hr.trans hr'⟩, ho⟩
  | calls _ hn hcall ih =>
    obtain ⟨⟨turns, hr⟩, ho⟩ := ih
    obtain ⟨more, hr', -⟩ := run_of_call 0 hcall
    exact ⟨⟨_, hr.trans hr'⟩, (isOpen_of_call hn hcall).trans ho⟩

/-- It takes its time to quit when it is asked to. -/
def obedient : Console where
  start := []
  answer _ := [(400000, .exit 3)]
  atEnd := []

/-- It reads everything and goes on. -/
def stubborn : Console where
  start := []
  answer _ := []
  atEnd := [(600000, .exit 0)]

/-- The console ends by itself after the close has looked, and before it is asked to quit. -/
def crossing : List Turn :=
  [.queued 0 .close, .vacated 0, .passed, .asked 0, .hungUp 0, .answered 0 .close .done]

end Attended

end DocClient.ConsoleClient
