import DocClient.Proofs.Client.Phase
import Mathlib.Data.List.Forall2

/-!
What happens at a shared client as a matter of who does what and when: the moves of the callers
and of the time determine the turns, and every run comes about by some moves.
-/
namespace DocClient.Client

/-- Why a request that waits to be written never is. -/
inductive Stall where
  /-- Its caller goes away. -/
  | forsaken
  /-- The time for it runs out. -/
  | expired

/-- How a caller that has the client for itself fares: how long it waits for a reply, and what
becomes of its first request, and of the fetch that may follow, if that cannot be written. -/
structure Course where
  patience : Option Nat := none
  first : Option Stall := none
  fetch : Option Stall := none

inductive Move where
  | come (place : Nat) (call : Call)
  /-- The caller at a position of the queue takes the client. A close that finds it open only
  empties the slot. -/
  | serve (position : Nat) (course : Course)
  /-- The close that has emptied the slot says goodbye. -/
  | part (patience : Option Nat)
  /-- It is gone before its goodbye is written. -/
  | forsakeGoodbye
  | leave (position : Nat)
  | rest (microseconds : Nat)

/-- Whether a request may have to wait, and be given up for that reason. -/
def stalls (c : Client) : Stall → Bool
  | .forsaken => c.phase = .serving
  | .expired => c.phase = .serving && c.requestLimit.isSome

/-- A request that is never written. -/
def stall (r : Request) (c : Client) : Stall → Answer × Client
  | .forsaken => (.unfinished, c.forsake)
  | .expired => (.failed .timeout, (c.noteTimeout r).drop)

/-- A round trip that stalls, if it is to and can. -/
def tripOr (stall? : Option Stall) (r : Request) (patience : Option Nat) (c : Client) :
    Answer × Client :=
  match stall? with
  | some stall => if c.stalls stall then c.stall r stall else c.roundTrip r patience
  | none => c.roundTrip r patience

def followUpOr (stall? : Option Stall) (patience : Option Nat) (reply : Reply) (c : Client) :
    Answer × Client :=
  if c.wire.followWithFetch && reply.succeeded then c.tripOr stall? .fetch patience
  else (.reply reply, c)

def queryOn (course : Course) (line : String) (selects : Option Name) (c : Client) :
    Answer × Client :=
  match c.tripOr course.first (.query line) course.patience with
  | (.reply first, c) =>
    match c.followUpOr course.fetch course.patience first with
    | (.reply reply, c) => (.reply reply, if reply.succeeded then c.select selects else c)
    | other => other
  | other => other

/-- Work on its course. -/
def Work.on (course : Course) (work : Work) (c : Client) : Answer × Client :=
  match work with
  | query line selects => c.queryOn course line selects
  | request r => c.tripOr course.first r course.patience
  | probe | close => work.run course.patience c

/-- A close that finds the client open. -/
def Work.vacates (c : Client) : Work → Bool
  | close => !c.isClosed
  | query _ _ | request _ | probe => false

namespace Move

/-- A caller comes with a call that is prepared or not. -/
def enter (place : Nat) (call : Call) : Except Failure Work → Scene → Option Turn × Scene
  | .ok _, s => (some (.queued place call), { s with queue := s.queue ++ [(place, call)] })
  | .error f, s => (some (.answered place call (.failed f)), s)

/-- The client comes to the work at a position of the queue. -/
def attend (position : Nat) (course : Course) (place : Nat) (call : Call) (work : Work)
    (vacates : Bool) (s : Scene) : Option Turn × Scene :=
  if vacates then
    (some (.vacated place),
      { client := { s.client with slot := none }, queue := s.queue.eraseIdx position,
        parting := some place })
  else
    (some (.answered place call (work.on course s.client).1),
      { s with client := (work.on course s.client).2, queue := s.queue.eraseIdx position })

/-- The client is for the caller at a position of the queue, if there is one. -/
def turnTo (position : Nat) (course : Course) :
    Option (Nat × Call) → Scene → Option Turn × Scene
  | none, s => (none, s)
  | some (place, call), s =>
    match call.work with
    | .error _ => (none, s)
    | .ok work => attend position course place call work (work.vacates s.client) s

/-- The close that has emptied the slot goes on, if one has. -/
def bidFarewell (patience : Option Nat) : Option Nat → Scene → Option Turn × Scene
  | none, s => (none, s)
  | some place, s =>
    (some (.answered place .close (s.client.goodbye patience).1),
      { s with client := (s.client.goodbye patience).2, parting := none })

def forsakeFarewell (closed : Bool) : Option Nat → Scene → Option Turn × Scene
  | none, s => (none, s)
  | some place, s =>
    if closed then (none, s)
    else (some (.answered place .close .unfinished),
      { s with client := s.client.release, parting := none })

def depart (position : Nat) : Option (Nat × Call) → Scene → Option Turn × Scene
  | none, s => (none, s)
  | some (place, call), s =>
    (some (.left place call), { s with queue := s.queue.eraseIdx position })

/-- The turn that a move leads to, if it can be made. -/
def play (move : Move) (s : Scene) : Option Turn × Scene :=
  match move with
  | come place call => enter place call (s.client.prepare call) s
  | serve position course => turnTo position course s.queue[position]? s
  | part patience => bidFarewell patience s.parting s
  | forsakeGoodbye => forsakeFarewell s.client.endpoint.closed s.parting s
  | leave position => depart position s.queue[position]? s
  | rest microseconds =>
    (some (.rested microseconds), { s with client := s.client.rest microseconds })

end Move

/-- The turns that moves lead to, one after the other; a move that cannot be made is left out. -/
def perform : List Move → Scene → List Turn × Scene
  | [], s => ([], s)
  | move :: moves, s =>
    let (turn, s) := move.play s
    let (turns, s) := perform moves s
    (turn.toList ++ turns, s)

variable {s t : Scene} {turn : Turn} {turns : List Turn} {c c' : Client} {work : Work} {a : Answer}
  {r : Request} {line : String} {selects : Option Name} {course : Course} {move : Move}
  {moves : List Move}

theorem tripOr_none (r : Request) (patience : Option Nat) (c : Client) :
    c.tripOr none r patience = c.roundTrip r patience := rfl

theorem eraseIdx_split {α : Type} {queue before after : List α} {x : α}
    (h : queue = before ++ x :: after) :
    queue[before.length]? = some x ∧ queue.eraseIdx before.length = before ++ after := by
  subst h
  simp [List.eraseIdx_append_of_length_le]

theorem queue_split {α : Type} {queue : List α} {x : α} {position : Nat}
    (h : queue[position]? = some x) :
    queue = queue.take position ++ x :: queue.drop (position + 1) := by
  obtain ⟨hlt, rfl⟩ := List.getElem?_eq_some_iff.mp h
  simp

theorem rel_eraseIdx {α β : Type} {R : α → β → Prop} {queue : List α} {queue' : List β}
    (h : List.Forall₂ R queue queue') (position : Nat) :
    List.Forall₂ R (queue.eraseIdx position) (queue'.eraseIdx position) := by
  rw [List.eraseIdx_eq_take_drop_succ, List.eraseIdx_eq_take_drop_succ]
  exact List.rel_append (List.forall₂_take position h) (List.forall₂_drop (position + 1) h)

theorem rel_getElem? {α β : Type} {R : α → β → Prop} {queue : List α} {queue' : List β}
    (h : List.Forall₂ R queue queue') (position : Nat) :
    Option.Rel R queue[position]? queue'[position]? := by
  induction h generalizing position with
  | nil => exact .none
  | cons hx _ ih =>
    cases position with
    | zero => exact .some hx
    | succ position => exact ih position

/-- A request that stalls does what it can do then, and any other makes its round trip. -/
theorem tripOr_cases (stall? : Option Stall) (r : Request) (patience : Option Nat) (c : Client) :
    (∃ hold a c', c.slot = some hold ∧ hold.replyOwed = false ∧ c.endpoint.closed = false ∧
      Stalled r c a c' ∧ c.tripOr stall? r patience = (a, c')) ∨
    c.tripOr stall? r patience = c.roundTrip r patience := by
  cases stall? with
  | none => exact Or.inr rfl
  | some stall =>
    by_cases hs : c.stalls stall = true
    · left
      have htrip : c.tripOr (some stall) r patience = c.stall r stall := if_pos hs
      cases stall with
      | forsaken =>
        obtain ⟨hold, hslot, hc, ho⟩ := phase_serving_iff.mp (of_decide_eq_true hs)
        exact ⟨hold, _, _, hslot, ho, hc, .forsaken, htrip⟩
      | expired =>
        simp only [stalls, Bool.and_eq_true, decide_eq_true_eq] at hs
        obtain ⟨hold, hslot, hc, ho⟩ := phase_serving_iff.mp hs.1
        exact ⟨hold, _, _, hslot, ho, hc, .expired hs.2, htrip⟩
    · exact Or.inr (if_neg hs)

theorem tripOr_stalled {hold : Hold} (patience : Option Nat) (hs : c.slot = some hold)
    (ho : hold.replyOwed = false) (hc : c.endpoint.closed = false) (h : Stalled r c a c') :
    ∃ stall, c.tripOr (some stall) r patience = (a, c') := by
  have hp : c.phase = .serving := phase_serving_iff.mpr ⟨hold, hs, hc, ho⟩
  cases h with
  | forsaken => exact ⟨.forsaken, by simp [tripOr, stalls, stall, hp]⟩
  | expired hl => exact ⟨.expired, by simp [tripOr, stalls, stall, hp, hl]⟩

theorem on_patient (patience : Option Nat) (work : Work) (c : Client) :
    work.on { patience } c = work.run patience c := by
  cases work <;> rfl

/-- A query whose first request brings no reply is at its end. -/
theorem queryOn_halted (h : c.tripOr course.first (.query line) course.patience = (a, c'))
    (ha : ∀ reply, a ≠ .reply reply) : c.queryOn course line selects = (a, c') := by
  simp only [queryOn, h]
  cases a with
  | reply reply => exact absurd rfl (ha reply)
  | _ => rfl

theorem works_queryOn (course : Course) (line : String) (selects : Option Name) (c : Client) :
    Works c (.query line selects) (c.queryOn course line selects).1
      (c.queryOn course line selects).2 := by
  rcases tripOr_cases course.first (.query line) course.patience c with
    ⟨hold, a, c', hs, ho, hc, hstalled, htrip⟩ | htrip
  · rw [queryOn_halted htrip fun reply => stalled_not_reply hstalled]
    exact .stalls rfl hs ho hc hstalled
  · have hruns (h : c.queryOn course line selects = c.query line selects course.patience) :
        Works c (.query line selects) (c.queryOn course line selects).1
          (c.queryOn course line selects).2 := by
      exact .runs course.patience h.symm
    rcases hfirst : c.roundTrip (.query line) course.patience with ⟨first, c₁⟩
    cases first with
    | reply first =>
      cases hf : c₁.wire.followWithFetch && first.succeeded with
      | false =>
        apply hruns
        simp [queryOn, query, htrip, hfirst, followUpOr, followUp, hf]
      | true =>
        rcases tripOr_cases course.fetch .fetch course.patience c₁ with
          ⟨hold, a, c', hs, ho, hc, hstalled, hfetch⟩ | hfetch
        · have hq : c.queryOn course line selects = (a, c') := by
            simp only [queryOn, htrip, hfirst, followUpOr, hf, if_true, hfetch]
            cases a with
            | reply reply => exact absurd rfl (stalled_not_reply hstalled)
            | _ => rfl
          rw [hq]
          exact .stallsFetch course.patience hfirst hf hstalled
        · apply hruns
          obtain ⟨a, c', hlast⟩ : ∃ a c', roundTrip .fetch course.patience c₁ = (a, c') :=
            ⟨_, _, rfl⟩
          cases a <;>
            simp [queryOn, query, htrip, hfirst, followUpOr, followUp, hf, hfetch, hlast]
    | _ =>
      apply hruns
      simp only [queryOn, query, htrip, hfirst]

/-- What work does on its course is what it may do. -/
theorem works_on (course : Course) (work : Work) (c : Client) :
    Works c work (work.on course c).1 (work.on course c).2 := by
  cases work with
  | query line selects => exact works_queryOn course line selects c
  | request r =>
    rcases tripOr_cases course.first r course.patience c with
      ⟨hold, a, c', hs, ho, hc, hstalled, htrip⟩ | htrip
    · simp only [Work.on, htrip]
      exact .stalls rfl hs ho hc hstalled
    · exact .runs course.patience htrip.symm
  | probe | close => exact .runs course.patience rfl

/-- Whatever work may do it does on some course. -/
theorem on_of_works (h : Works c work a c') : ∃ course, work.on course c = (a, c') := by
  cases h with
  | runs patience h => exact ⟨{ patience }, (on_patient patience work c).trans h⟩
  | @stalls _ r hold _ _ hw hs ho hc h =>
    obtain ⟨stall, htrip⟩ := tripOr_stalled none hs ho hc h
    refine ⟨{ first := stall }, ?_⟩
    cases work with
    | query line selects =>
      obtain rfl := Option.some.inj hw
      exact queryOn_halted htrip fun reply => stalled_not_reply h
    | request r' =>
      obtain rfl := Option.some.inj hw
      exact htrip
    | probe | close => simp [Work.first] at hw
  | @stallsFetch line selects first _ c₁ _ patience h hf hw =>
    obtain ⟨hold, w, endpoint, hs, ho, hconv, he⟩ := replied_of_trip (trip_of_roundTrip h)
    have hslot : c₁.slot = some hold := by
      rw [he]
      exact hs
    have hopen : c₁.endpoint.closed = false := by
      rw [he]
      exact closed_of_conversed hconv
    obtain ⟨stall, hfetch⟩ := tripOr_stalled patience hslot ho hopen hw
    refine ⟨{ patience, fetch := stall }, ?_⟩
    simp only [Work.on, queryOn, tripOr_none, h, followUpOr, hf, if_true, hfetch]
    cases a with
    | reply reply => exact absurd rfl (stalled_not_reply hw)
    | _ => rfl

/-- What a move leads to is a step, or nothing. -/
def Leads (s : Scene) (o : Option Turn × Scene) : Prop :=
  match o.1 with
  | some turn => Step s turn o.2
  | none => o.2 = s

/-- A caller that the client comes to is served, and a close that finds it open empties the slot. -/
theorem leads_attend {position place : Nat} {call : Call}
    (hq : s.queue[position]? = some (place, call)) (hw : call.work = .ok work) :
    Leads s (Move.attend position course place call work (work.vacates s.client) s) := by
  have hqueue := queue_split hq
  rw [Move.attend, List.eraseIdx_eq_take_drop_succ]
  cases hv : work.vacates s.client with
  | true =>
    cases work with
    | close =>
      obtain rfl := work_close hw
      exact Step.vacates hqueue (by simpa [Work.vacates] using hv)
    | query | request | probe => simp [Work.vacates] at hv
  | false =>
    refine Step.works hqueue hw ?_ (works_on course work s.client)
    rintro rfl
    obtain rfl := Except.ok.inj hw
    simpa [Work.vacates] using hv

theorem leads_enter (place : Nat) (call : Call) (s : Scene) :
    Leads s (Move.enter place call (s.client.prepare call) s) := by
  cases hp : s.client.prepare call with
  | ok work => exact Step.queues place hp
  | error f => exact Step.refuses place hp

theorem leads_turnTo (position : Nat) (course : Course) (s : Scene) :
    Leads s (Move.turnTo position course s.queue[position]? s) := by
  rcases hq : s.queue[position]? with _ | ⟨place, call⟩
  · rfl
  · cases hw : call.work with
    | error f =>
      simp only [Move.turnTo, hw]
      rfl
    | ok work =>
      simp only [Move.turnTo, hw]
      exact leads_attend hq hw

theorem leads_forsakeFarewell (s : Scene) :
    Leads s (Move.forsakeFarewell s.client.endpoint.closed s.parting s) := by
  cases hp : s.parting with
  | none => rfl
  | some place =>
    cases hc : s.client.endpoint.closed with
    | true => rfl
    | false => exact Step.forsakesGoodbye hp hc

theorem leads_depart (position : Nat) (s : Scene) :
    Leads s (Move.depart position s.queue[position]? s) := by
  rcases hq : s.queue[position]? with _ | ⟨place, call⟩
  · rfl
  · rw [Move.depart, List.eraseIdx_eq_take_drop_succ]
    exact Step.leaves (queue_split hq)

/-- A move that can be made leads to a turn, and any other to nothing. -/
theorem leads_play (move : Move) (s : Scene) : Leads s (move.play s) := by
  cases move with
  | come place call => exact leads_enter place call s
  | serve position course => exact leads_turnTo position course s
  | part patience =>
    simp only [Move.play]
    cases hp : s.parting with
    | none => rfl
    | some place => exact Step.parts patience hp rfl
  | forsakeGoodbye => exact leads_forsakeFarewell s
  | leave position => exact leads_depart position s
  | rest microseconds => exact Step.rests microseconds

theorem play_of_step (h : Step s turn t) : ∃ move : Move, move.play s = (some turn, t) := by
  cases h with
  | @queues call work place hp => exact ⟨.come place call, by simp [Move.play, Move.enter, hp]⟩
  | @refuses call f place hp => exact ⟨.come place call, by simp [Move.play, Move.enter, hp]⟩
  | @works place call work a client before after hq hw hc h =>
    obtain ⟨course, hon⟩ := on_of_works h
    obtain ⟨hget, herase⟩ := eraseIdx_split hq
    refine ⟨.serve before.length course, ?_⟩
    have hv : work.vacates s.client = false := by
      cases work with
      | close => simpa [Work.vacates] using hc (work_close hw)
      | query | request | probe => rfl
    simp [Move.play, Move.turnTo, Move.attend, hget, hw, hv, hon, herase]
  | @vacates place before after hq hc =>
    obtain ⟨hget, herase⟩ := eraseIdx_split hq
    refine ⟨.serve before.length {}, ?_⟩
    simp [Move.play, Move.turnTo, Move.attend, hget, Call.work, Work.vacates, hc, herase]
  | parts patience hp h => exact ⟨.part patience, by simp [Move.play, Move.bidFarewell, hp, h]⟩
  | forsakesGoodbye hp hc =>
    exact ⟨.forsakeGoodbye, by simp [Move.play, Move.forsakeFarewell, hp, hc]⟩
  | @leaves place call before after hq =>
    obtain ⟨hget, herase⟩ := eraseIdx_split hq
    exact ⟨.leave before.length, by simp [Move.play, Move.depart, hget, herase]⟩
  | rests microseconds => exact ⟨.rest microseconds, rfl⟩

theorem run_of_perform (h : perform moves s = (turns, t)) : Run s turns t := by
  induction moves generalizing s turns with
  | nil =>
    obtain ⟨rfl, rfl⟩ := Prod.mk.inj h
    exact .nil s
  | cons move moves ih =>
    have hleads := leads_play move s
    rcases hplay : move.play s with ⟨turn?, s₁⟩
    rcases hrest : perform moves s₁ with ⟨turns₁, t₁⟩
    simp only [perform, hplay, hrest] at h
    obtain ⟨rfl, rfl⟩ := Prod.mk.inj h
    rw [hplay] at hleads
    cases turn? with
    | some turn => exact .cons hleads (ih hrest)
    | none =>
      have hs : s₁ = s := hleads
      rw [hs] at hrest
      exact ih hrest

/-- The runs at a shared client are what moves lead to. -/
theorem run_iff_perform : Run s turns t ↔ ∃ moves, perform moves s = (turns, t) := by
  constructor
  · intro h
    induction h with
    | nil s => exact ⟨[], rfl⟩
    | cons h _ ih =>
      obtain ⟨move, hplay⟩ := play_of_step h
      obtain ⟨moves, hrest⟩ := ih
      exact ⟨move :: moves, by simp [perform, hplay, hrest]⟩
  · rintro ⟨moves, h⟩
    exact run_of_perform h

end DocClient.Client
