import DocClient.Proofs.Console.Input
import DocClient.Proofs.Console.Turns

/-!
What becomes of each line that the console prints: it is returned by the call in whose window it
was read, if that call returns its window, and by no call otherwise.
-/
namespace DocClient

namespace Pipe

variable {p p' : Pipe} {line : String}

theorem send_buffer {sent : Except Failure Unit} (h : p.send line = (sent, p')) :
    p'.buffer = p.buffer := by
  cases delivers_of_send h <;> rfl

theorem buffer_askQuit (p : Pipe) : p.askQuit.buffer = p.buffer := by
  by_cases ho : p.Open
  · rw [askQuit_of_open ho]
    rfl
  · obtain ⟨notes, hquit⟩ := askQuit_of_not_open ho
    rw [hquit]

theorem send_error {f : Failure} (h : p.send line = (.error f, p')) : f = .channelClosed := by
  cases delivers_of_send h
  rfl

end Pipe

namespace ConsoleClient

variable {c : ConsoleClient} {s t u : Scene} {turn : Turn} {turns past : List Turn} {place : Nat}
  {call : Call} {w : OutputWindow}

namespace Turn

/-- Whether the turn begins no capture and ends none, and answers nobody. -/
def isQuiet : Turn → Bool
  | pushed _ | remarked _ | tended _ | passed | queued _ _ | sent _ _ | left _ _ | asked _
  | hungUp _ => true
  | cleared _ _ | answered _ _ _ | vacated _ => false

def pushed? : Turn → Option String
  | pushed line => some line
  | _ => none

/-- The window with which a call is answered. -/
def window? : Turn → Option OutputWindow
  | answered _ _ (.output w) => some w
  | _ => none

end Turn

def Quiet (turns : List Turn) : Prop := ∀ turn ∈ turns, turn.isQuiet = true

/-- The lines that the reader takes, in order. -/
def pushedIn (turns : List Turn) : List String := turns.filterMap Turn.pushed?

/-- All that calls return, one window after the other. -/
def returned (turns : List Turn) : List String :=
  (turns.filterMap Turn.window?).flatMap OutputWindow.lines

/-- Whether a line read just before these turns is returned: they are quiet until a call is answered
with its window. -/
def isCaught : List Turn → Bool
  | [] => false
  | turn :: rest => turn.window?.isSome || turn.isQuiet && isCaught rest

/-- The lines read that are returned, in the order in which they are read. -/
def caught : List Turn → List String
  | [] => []
  | turn :: rest => (if isCaught rest then turn.pushed?.toList else []) ++ caught rest

theorem Turn.window?_of_quiet (h : turn.isQuiet = true) : turn.window? = none := by
  cases turn <;> simp_all [isQuiet, window?]

theorem isCaught_quiet (h : turn.isQuiet = true) (rest : List Turn) :
    isCaught (turn :: rest) = isCaught rest := by
  simp [isCaught, h, Turn.window?_of_quiet h]

theorem isCaught_append {ahead : List Turn} (h : Quiet ahead) (rest : List Turn) :
    isCaught (ahead ++ rest) = isCaught rest := by
  induction ahead with
  | nil => rfl
  | cons turn ahead ih =>
    obtain ⟨hq, hquiet⟩ := List.forall_mem_cons.mp h
    rw [List.cons_append, isCaught_quiet hq, ih hquiet]

theorem isCaught_iff : isCaught turns = true ↔ ∃ ahead place call w later,
    turns = ahead ++ .answered place call (.output w) :: later ∧ Quiet ahead := by
  constructor
  · intro h
    induction turns with
    | nil => simp [isCaught] at h
    | cons turn rest ih =>
      cases hq : turn.isQuiet with
      | true =>
        rw [isCaught_quiet hq] at h
        obtain ⟨ahead, place, call, w, later, rfl, hquiet⟩ := ih h
        exact ⟨turn :: ahead, place, call, w, later, rfl, List.forall_mem_cons.mpr ⟨hq, hquiet⟩⟩
      | false =>
        have hw : turn.window?.isSome = true := by simpa [isCaught, hq] using h
        cases turn with
        | answered place call a =>
          cases a with
          | output w => exact ⟨[], place, call, w, rest, rfl, by simp [Quiet]⟩
          | _ => simp [Turn.window?] at hw
        | _ => simp [Turn.window?] at hw
  · rintro ⟨ahead, place, call, w, later, rfl, hquiet⟩
    rw [isCaught_append hquiet]
    rfl

theorem caught_sublist (turns : List Turn) : (caught turns).Sublist (pushedIn turns) := by
  induction turns with
  | nil => exact .slnil
  | cons turn rest ih =>
    have hturn : (if isCaught rest then turn.pushed?.toList else []).Sublist turn.pushed?.toList := by
      split
      · exact .refl _
      · exact List.nil_sublist _
    have hpushed : pushedIn (turn :: rest) = turn.pushed?.toList ++ pushedIn rest := by
      cases h : turn.pushed? <;> simp [pushedIn, h]
    rw [caught, hpushed]
    exact hturn.append ih

theorem returned_cons (turn : Turn) (turns : List Turn) :
    returned (turn :: turns) = turn.window?.toList.flatMap OutputWindow.lines ++ returned turns := by
  cases h : turn.window? <;> simp [returned, h]

namespace Scene

/-- The call that is capturing output. -/
def capturing? (s : Scene) : Option (Nat × Call) := s.holder.bind Holder.capturing?

/-- The lines in the buffer. -/
def buffered (s : Scene) : List String := s.client.pipe.buffer.lines

end Scene

/-- What a turn does to the buffer and to the capture in progress. -/
inductive Effect (s : Scene) : Turn → Scene → Prop
  | quiet {turn : Turn} {t : Scene} (hq : turn.isQuiet = true) (hc : t.capturing? = s.capturing?)
      (hb : t.buffered = s.buffered ++ turn.pushed?.toList) : Effect s turn t
  | clears {place : Nat} {call : Call} {t : Scene} (hc : t.capturing? = some (place, call))
      (hb : t.buffered = []) : Effect s (.cleared place call) t
  | returns {place : Nat} {call : Call} {w : OutputWindow} {t : Scene}
      (hs : s.capturing? = some (place, call)) (hw : w.lines = s.buffered)
      (hc : t.capturing? = none) (hb : t.buffered = []) :
      Effect s (.answered place call (.output w)) t
  | ends {turn : Turn} {t : Scene} (hq : turn.isQuiet = false) (hw : turn.window? = none)
      (hc : t.capturing? = none) : Effect s turn t

theorem effect_of_step (h : Step s turn t) : Effect s turn t := by
  cases h with
  | pushes line h => exact .quiet rfl rfl rfl
  | remarks line h => exact .quiet rfl rfl (List.append_nil _).symm
  | passes | queues | leaves => exact .quiet rfl rfl (List.append_nil _).symm
  | @tends o act pipe h =>
    have hb : pipe.buffer = s.client.pipe.buffer := Pipe.buffer_tend? h
    refine .quiet rfl rfl ?_
    simp [Scene.buffered, Scene.withPipe, hb, Turn.pushed?]
  | asks hh =>
    refine .quiet rfl ?_ ?_
    · simp [Scene.capturing?, hh, Holder.capturing?]
    · simp [Scene.buffered, Scene.withPipe, Pipe.buffer_askQuit, Turn.pushed?]
  | hangsUp hh =>
    refine .quiet rfl ?_ (List.append_nil _).symm
    simp [Scene.capturing?, hh, Holder.capturing?]
  | sends hh h =>
    have hb := Pipe.send_buffer h
    refine .quiet rfl ?_ ?_
    · simp [Scene.capturing?, hh, Holder.capturing?]
    · simp [Scene.buffered, Scene.withPipe, hb, Turn.pushed?]
  | clears => exact .clears rfl rfl
  | harvests hh h =>
    obtain ⟨rfl, rfl⟩ := Prod.mk.inj h
    refine .returns ?_ rfl rfl rfl
    simp [Scene.capturing?, hh, Holder.capturing?]
  | refuses place hh => exact .ends rfl rfl (by simp [Scene.capturing?, hh])
  | rejects hh | closesAgain hh => exact .ends rfl rfl (by simp [Scene.capturing?, hh])
  | probes hh =>
    refine .ends rfl ?_ (by simp [Scene.capturing?, hh])
    cases s.client.isOpen <;> rfl
  | fails | forsakes | vacates | parts => exact .ends rfl rfl rfl

/-- A call that is capturing has cleared the buffer, nothing but quiet turns has come since, and the
buffer holds what has been read in them. -/
def Windowed (past : List Turn) (s : Scene) : Prop :=
  ∀ place call, s.capturing? = some (place, call) → ∃ earlier between,
    past = earlier ++ .cleared place call :: between ∧ Quiet between ∧
      s.buffered = pushedIn between

theorem windowed_of_step (h : Step s turn t) (hs : Windowed past s) :
    Windowed (past ++ [turn]) t := by
  intro place call hc
  cases effect_of_step h with
  | quiet hq hsame hb =>
    obtain ⟨earlier, between, rfl, hquiet, hbuffer⟩ := hs place call (hsame ▸ hc)
    refine ⟨earlier, between ++ [turn], by simp, ?_, ?_⟩
    · intro turn' hm
      rcases List.mem_append.mp hm with hm | hm
      · exact hquiet turn' hm
      · exact List.mem_singleton.mp hm ▸ hq
    · rw [hb, hbuffer]
      cases hp : turn.pushed? <;> simp [pushedIn, hp]
  | clears hc' hb =>
    obtain ⟨rfl, rfl⟩ := Prod.mk.inj (Option.some.inj (hc'.symm.trans hc))
    exact ⟨past, [], rfl, by simp [Quiet], hb⟩
  | returns _ _ hnone | ends _ _ hnone => simp [hnone] at hc

theorem windowed_of_run (hr : Run s turns t) (hs : Windowed past s) : Windowed (past ++ turns) t := by
  induction hr generalizing past with
  | nil => simpa using hs
  | cons h _ ih => simpa using ih (windowed_of_step h hs)

/-- A line is caught only while a call captures. -/
theorem capturing_of_caught (hr : Run s turns t) (h : isCaught turns = true) :
    s.capturing? ≠ none := by
  induction hr with
  | nil => simp [isCaught] at h
  | cons hstep _ ih =>
    cases effect_of_step hstep with
    | quiet hq hsame =>
      rw [isCaught_quiet hq] at h
      exact hsame ▸ ih h
    | clears => simp [isCaught, Turn.window?, Turn.isQuiet] at h
    | returns hs => simp [hs]
    | ends hq hw => simp [isCaught, hq, hw] at h

/-- What is returned are the lines caught, after those that are in the buffer if it is returned. -/
theorem returned_of_run (hr : Run s turns t) :
    returned turns = (if isCaught turns then s.buffered else []) ++ caught turns := by
  induction hr with
  | nil => rfl
  | @cons s t u turn turns hstep hr ih =>
    rw [returned_cons, ih, caught]
    cases effect_of_step hstep with
    | quiet hq hsame hb =>
      rw [Turn.window?_of_quiet hq, isCaught_quiet hq, hb]
      split <;> simp
    | clears hc hb => simp [isCaught, Turn.window?, Turn.isQuiet, Turn.pushed?, hb]
    | returns hs hw hc hb => simp [isCaught, Turn.window?, Turn.pushed?, hw, hb]
    | ends hq hw hc =>
      have hcaught : isCaught turns = false :=
        Bool.eq_false_iff.mpr fun h => capturing_of_caught hr h hc
      simp [isCaught, hq, hw, hcaught]

/-- A moment in the window of a call that returns: after its clear, and no later than the snapshot
with which it is answered. -/
inductive Within : List Turn → List Turn → Prop
  | intro {earlier since ahead later : List Turn} {place : Nat} {call : Call} {w : OutputWindow}
      (hs : Quiet since) (ha : Quiet ahead) :
      Within (earlier ++ .cleared place call :: since)
        (ahead ++ .answered place call (.output w) :: later)

/-- What the calls of a run return. -/
structure Partitioned (turns : List Turn) : Prop where
  /-- A call returns the lines read since its own clear, in which time no other call clears or
  returns anything. -/
  window : ∀ {before later place call w}, turns = before ++ .answered place call (.output w) :: later →
    ∃ earlier since, before = earlier ++ .cleared place call :: since ∧ Quiet since ∧
      w.lines = pushedIn since
  fate : ∀ {before line rest}, turns = before ++ .pushed line :: rest →
    (isCaught rest = true ↔ Within before rest)
  /-- A line is lost if, after it, a call fails, is given up or clears before one returns. -/
  lost : ∀ {before line ahead turn later}, turns = before ++ .pushed line :: (ahead ++ turn :: later) →
    Quiet ahead → turn.isQuiet = false → turn.window? = none →
    ¬ Within before (ahead ++ turn :: later)
  /-- The windows together are the lines caught, each once. -/
  whole : returned turns = caught turns
  ordered : (returned turns).Sublist (pushedIn turns)

/-- What a step leaves alone. -/
structure Spares (s : Scene) (turn : Turn) (t : Scene) : Prop where
  remark : ∀ line, turn = .remarked line → t.buffered = s.buffered
  /-- Of the calls that fail only one whose line could not be written has had the console. -/
  rejection : ∀ place call f, turn = .answered place call (.failed f) → f ≠ .channelClosed →
    s.holder = none ∧ t.client = s.client

theorem spares_of_step (h : Step s turn t) : Spares s turn t where
  remark := by
    rintro line rfl
    cases h with
    | remarks line h => rfl
  rejection := by
    rintro place call f rfl hf
    generalize hturn : Turn.answered place call (.failed f) = turn at h
    cases h with
    | refuses place hh => exact ⟨hh, rfl⟩
    | rejects hh | probes hh => exact ⟨hh, rfl⟩
    | fails hh h =>
      obtain ⟨rfl, rfl, rfl⟩ : place = _ ∧ call = _ ∧ f = _ := by simpa using hturn
      exact absurd (Pipe.send_error h) hf
    | _ => simp at hturn

theorem window_of_run {before later : List Turn} (hr : Run s turns t) (hs : s.capturing? = none)
    (h : turns = before ++ .answered place call (.output w) :: later) :
    ∃ earlier since, before = earlier ++ .cleared place call :: since ∧ Quiet since ∧
      w.lines = pushedIn since := by
  subst h
  obtain ⟨s', hbefore, hafter⟩ := hr.split
  have hwindowed : Windowed ([] ++ before) s' := by
    apply windowed_of_run hbefore
    intro place call hc
    simp [hs] at hc
  cases hafter with
  | cons hstep _ =>
    cases effect_of_step hstep with
    | returns hcapturing hw =>
      obtain ⟨earlier, since, hpast, hquiet, hbuffer⟩ := hwindowed place call hcapturing
      exact ⟨earlier, since, hpast, hquiet, hw.trans hbuffer⟩
    | quiet hq => simp [Turn.isQuiet] at hq
    | ends _ hw => simp [Turn.window?] at hw

/-- The last clear before a quiet stretch is the last one before anything in that stretch. -/
theorem clear_before {before ahead earlier since : List Turn} {line : String}
    (ha : Quiet ahead) (hs : Quiet since)
    (h : before ++ .pushed line :: ahead = earlier ++ .cleared place call :: since) :
    ∃ since', before = earlier ++ .cleared place call :: since' ∧ Quiet since' := by
  rcases List.append_eq_append_iff.mp h with ⟨front, -, hclear⟩ | ⟨front, hbefore, hclear⟩
  · have hm : Turn.cleared place call ∈ .pushed line :: ahead := by simp [hclear]
    rcases List.mem_cons.mp hm with hm | hm
    · simp at hm
    · exact absurd (ha _ hm) (by simp [Turn.isQuiet])
  · cases front with
    | nil => simp at hclear
    | cons turn since' =>
      obtain ⟨rfl, rfl⟩ := List.cons.inj hclear
      refine ⟨since', hbefore, ?_⟩
      intro turn hm
      exact hs turn (List.mem_append_left _ hm)

/-- Each line that the console prints is returned by the call in whose window it is read, if that
call returns, and is lost otherwise. -/
theorem windows_partition (hr : Run { client := c } turns s) :
    Partitioned turns ∧ ∀ turn t, Step s turn t → Spares s turn t := by
  have hnone : ({ client := c } : Scene).capturing? = none := rfl
  have hwhole : returned turns = caught turns := by
    have hcaught : isCaught turns = false :=
      Bool.eq_false_iff.mpr fun h => capturing_of_caught hr h hnone
    simpa [hcaught] using returned_of_run hr
  have hfate {before rest : List Turn} {line : String} (h : turns = before ++ .pushed line :: rest) :
      isCaught rest = true ↔ Within before rest := by
    subst h
    constructor
    · intro hcaught
      obtain ⟨ahead, place, call, w, later, rfl, hahead⟩ := isCaught_iff.mp hcaught
      have hanswer : before ++ .pushed line :: (ahead ++ .answered place call (.output w) :: later)
          = (before ++ .pushed line :: ahead) ++ .answered place call (.output w) :: later := by
        simp
      obtain ⟨earlier, since, hclear, hsince, -⟩ := window_of_run hr hnone hanswer
      obtain ⟨since', rfl, hquiet⟩ := clear_before hahead hsince hclear
      exact .intro hquiet hahead
    · rintro ⟨hs, ha⟩
      exact isCaught_iff.mpr ⟨_, _, _, _, _, rfl, ha⟩
  refine ⟨⟨window_of_run hr hnone, hfate, ?_, hwhole, hwhole ▸ caught_sublist turns⟩,
    fun _ _ => spares_of_step⟩
  intro before line ahead turn later h hahead hturn hw hwithin
  have hcaught := (hfate h).mpr hwithin
  rw [isCaught_append hahead] at hcaught
  simp [isCaught, hturn, hw] at hcaught

/-- One call returns its window, a second is given up, and a third returns its own. -/
def threeCalls : List Turn :=
  [.tended .standard, .pushed "banner", .queued 0 (.raw "a"), .cleared 0 (.raw "a"), .pushed "one",
    .sent 0 "a", .tended .error, .remarked "warning", .answered 0 (.raw "a") (.output ⟨["one"]⟩),
    .pushed "late", .queued 1 (.raw "b"), .cleared 1 (.raw "b"), .sent 1 "b", .pushed "lost",
    .answered 1 (.raw "b") .unfinished, .queued 2 (.raw "c"), .cleared 2 (.raw "c"), .sent 2 "c",
    .pushed "two", .answered 2 (.raw "c") (.output ⟨["two"]⟩)]

/-- What comes before a clear, between two calls, or for a call that is given up is lost. -/
theorem windows_partition_lost : ∃ c s,
    ConsoleClient.spawn { executable := "console" } "console" (.ok ⟨[], fun _ => [], []⟩) = .ok c ∧
      Run { client := c } threeCalls s ∧
      pushedIn threeCalls = ["banner", "one", "late", "lost", "two"] ∧
      caught threeCalls = ["one", "two"] ∧ returned threeCalls = caught threeCalls := by
  obtain ⟨c, hc⟩ : ∃ c, ConsoleClient.spawn { executable := "console" } "console"
      (.ok ⟨[], fun _ => [], []⟩) = .ok c := ⟨_, rfl⟩
  obtain ⟨s, hr⟩ : ∃ s, Run { client := c } threeCalls s := by
    obtain rfl := Except.ok.inj hc
    apply Exists.intro
    apply Run.cons (@Step.tends _ .standard .wake _ rfl)
    apply Run.cons (.pushes "banner" rfl)
    apply Run.cons (.queues 0 rfl (by simp [Call.isGuarded]))
    apply Run.cons (@Step.clears _ 0 (.raw "a") "a" [] [] rfl rfl rfl rfl rfl)
    apply Run.cons (.pushes "one" rfl)
    apply Run.cons (.sends rfl rfl)
    apply Run.cons (@Step.tends _ .error .wake _ rfl)
    apply Run.cons (.remarks "warning" rfl)
    apply Run.cons (.harvests rfl rfl)
    apply Run.cons (.pushes "late" rfl)
    apply Run.cons (.queues 1 rfl (by simp [Call.isGuarded]))
    apply Run.cons (@Step.clears _ 1 (.raw "b") "b" [] [] rfl rfl rfl rfl rfl)
    apply Run.cons (.sends rfl rfl)
    apply Run.cons (.pushes "lost" rfl)
    apply Run.cons (@Step.forsakes _ (.settling 1 (.raw "b")) rfl)
    apply Run.cons (.queues 2 rfl (by simp [Call.isGuarded]))
    apply Run.cons (@Step.clears _ 2 (.raw "c") "c" [] [] rfl rfl rfl rfl rfl)
    apply Run.cons (.sends rfl rfl)
    apply Run.cons (.pushes "two" rfl)
    apply Run.cons (.harvests rfl rfl)
    exact .nil _
  exact ⟨c, s, hc, hr, rfl, rfl, (windows_partition hr).1.whole⟩

end ConsoleClient

end DocClient
