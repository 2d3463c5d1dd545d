import DocClient.Proofs.Client.RoundTrip
import DocClient.Proofs.Client.Talk

/-!
A client and the callers that share it. The callers stand in line and take the client for
themselves one after the other, in any order; each may go away at any moment.
-/
namespace DocClient.Client

/-- What happens at a shared client, one thing at a time. Callers are told apart by their place. -/
inductive Turn where
  /-- A call has found its arguments in order, and the client open if it looks, and now waits. -/
  | queued (place : Nat) (call : Call)
  | answered (place : Nat) (call : Call) (a : Answer)
  /-- A caller goes away before its turn to work. -/
  | left (place : Nat) (call : Call)
  /-- A close empties the slot; its goodbye is still to come. -/
  | vacated (place : Nat)
  | rested (microseconds : Nat)

structure Scene where
  client : Client
  /-- The calls that wait for the client. -/
  queue : List (Nat × Call) := []
  /-- The close that has emptied the slot and has not yet said goodbye. -/
  parting : Option Nat := none

/-- Time goes by and nobody uses the client. -/
def rest (microseconds : Nat) (c : Client) : Client :=
  { c with endpoint := { c.endpoint with
      link := { c.endpoint.link with clock := c.endpoint.link.clock + microseconds } } }

namespace Work

/-- The first request that the work is made of. -/
def first : Work → Option Request
  | query line _ => some (.query line)
  | request r => some r
  | probe | close => none

end Work

/-- The work of a caller that has the client for itself. It is done to its end, or as long as the
caller's patience lasts; or it stops while a request waits to be written. -/
inductive Works (c : Client) : Work → Answer → Client → Prop
  | runs {work : Work} {a : Answer} {c' : Client} (patience : Option Nat)
      (h : work.run patience c = (a, c')) : Works c work a c'
  | stalls {work : Work} {r : Request} {hold : Hold} {a : Answer} {c' : Client}
      (hw : work.first = some r) (hs : c.slot = some hold) (ho : hold.replyOwed = false)
      (hc : c.endpoint.closed = false) (h : Stalled r c a c') : Works c work a c'
  | stallsFetch {line : String} {selects : Option Name} {first : Reply} {a : Answer}
      {c₁ c' : Client} (patience : Option Nat)
      (h : c.roundTrip (.query line) patience = (.reply first, c₁))
      (hf : (c₁.wire.followWithFetch && first.succeeded) = true) (hw : Stalled .fetch c₁ a c') :
      Works c (.query line selects) a c'

inductive Step (s : Scene) : Turn → Scene → Prop
  | queues {call : Call} {work : Work} (place : Nat) (h : s.client.prepare call = .ok work) :
      Step s (.queued place call) { s with queue := s.queue ++ [(place, call)] }
  | refuses {call : Call} {f : Failure} (place : Nat) (h : s.client.prepare call = .error f) :
      Step s (.answered place call (.failed f)) s
  | works {place : Nat} {call : Call} {work : Work} {a : Answer} {client : Client}
      {before after : List (Nat × Call)} (hq : s.queue = before ++ (place, call) :: after)
      (hw : call.work = .ok work) (hc : call = .close → s.client.isClosed = true)
      (h : Works s.client work a client) :
      Step s (.answered place call a) { s with client, queue := before ++ after }
  | vacates {place : Nat} {before after : List (Nat × Call)}
      (hq : s.queue = before ++ (place, .close) :: after) (hc : s.client.isClosed = false) :
      Step s (.vacated place)
        { client := { s.client with slot := none }, queue := before ++ after,
          parting := some place }
  | parts {place : Nat} {a : Answer} {client : Client} (patience : Option Nat)
      (hp : s.parting = some place) (h : s.client.goodbye patience = (a, client)) :
      Step s (.answered place .close a) { s with client, parting := none }
  | forsakesGoodbye {place : Nat} (hp : s.parting = some place)
      (hc : s.client.endpoint.closed = false) :
      Step s (.answered place .close .unfinished)
        { s with client := s.client.release, parting := none }
  | leaves {place : Nat} {call : Call} {before after : List (Nat × Call)}
      (hq : s.queue = before ++ (place, call) :: after) :
      Step s (.left place call) { s with queue := before ++ after }
  | rests (microseconds : Nat) :
      Step s (.rested microseconds) { s with client := s.client.rest microseconds }

/-- Any number of turns, one after the other. -/
inductive Run : Scene → List Turn → Scene → Prop
  | nil (s : Scene) : Run s [] s
  | cons {s t u : Scene} {turn : Turn} {turns : List Turn} (h : Step s turn t)
      (hr : Run t turns u) : Run s (turn :: turns) u

variable {s t u : Scene} {turn : Turn} {turns : List Turn} {c c' : Client} {work : Work}
  {a : Answer} {call : Call}

theorem Run.invariant {I : Scene → Prop} (hstep : ∀ {s turn t}, Step s turn t → I s → I t)
    (hr : Run s turns t) (hs : I s) : I t := by
  induction hr with
  | nil => exact hs
  | cons h _ ih => exact ih (hstep h hs)

/-- Nothing that a working caller does, or leaves undone, is outside `Served`. -/
theorem served_of_works (hw : work ≠ .close) (h : Works c work a c') : Served c work a c' := by
  cases h with
  | runs patience h => exact served_of_run hw h
  | stalls hfirst hs ho hc h =>
    cases work with
    | query line selects =>
      obtain rfl := Option.some.inj hfirst
      apply Served.halted (.stalled hs ho hc h)
      intro reply
      exact stalled_not_reply h
    | request r =>
      obtain rfl := Option.some.inj hfirst
      exact .request (.stalled hs ho hc h)
    | probe => simp [Work.first] at hfirst
    | close => simp [Work.first] at hfirst
  | stallsFetch patience h hf hstalled =>
    have htrip := trip_of_roundTrip h
    obtain ⟨hold, w, endpoint, hs, ho, hconv, rfl⟩ := replied_of_trip htrip
    apply Served.fetchHalted htrip hf (.stalled hs ho (closed_of_conversed hconv) hstalled)
    intro reply
    exact stalled_not_reply hstalled

theorem work_command {command : Command} (h : (Call.command command).work = .ok work) :
    ∃ line selects, work = .query line selects := by
  cases hc : command.statement with
  | error f => simp [Call.work, hc, Functor.map, Except.map] at h
  | ok s =>
    simp only [Call.work, hc, Functor.map, Except.map, Except.ok.injEq] at h
    exact ⟨_, _, h.symm⟩

theorem work_close (h : call.work = .ok .close) : call = .close := by
  cases call with
  | command command =>
    obtain ⟨line, selects, hw⟩ := work_command h
    simp at hw
  | close => rfl
  | _ => simp [Call.work, Work.ofStatement] at h

theorem work_ne_close (hw : call.work = .ok work) (h : call ≠ .close) : work ≠ .close := by
  rintro rfl
  exact h (work_close hw)

theorem work_request {r : Request} (h : call.work = .ok (.request r)) :
    r.keyword ∈ callKeywords := by
  cases call with
  | command command =>
    obtain ⟨line, selects, hw⟩ := work_command h
    simp at hw
  | execute s => simp [Call.work, Work.ofStatement] at h
  | raw line => simp [Call.work] at h
  | probe => simp [Call.work] at h
  | close => simp [Call.work] at h
  | fetch =>
    simp only [Call.work, Except.ok.injEq, Work.request.injEq] at h
    simp [← h, Request.fetch, callKeywords]
  | debug enable =>
    simp only [Call.work, Except.ok.injEq, Work.request.injEq] at h
    simp [← h, Request.debug, callKeywords]
  | profile =>
    simp only [Call.work, Except.ok.injEq, Work.request.injEq] at h
    simp [← h, Request.profile, callKeywords]

theorem isClosed_iff : c.isClosed = true ↔ c.slot = none := by
  simp [isClosed]

/-- Work at an empty slot changes nothing. -/
theorem works_vacant (hs : c.slot = none) (h : Works c work a c') :
    c' = c ∧ (work = .close → a = .done) := by
  by_cases hclose : work = .close
  · subst hclose
    cases h with
    | runs patience h =>
      simp only [Work.run, close, hs] at h
      obtain ⟨rfl, rfl⟩ := Prod.mk.inj h
      exact ⟨rfl, by simp⟩
    | stalls hfirst => simp [Work.first] at hfirst
  · have hsame := (served_closed hs (served_of_works hclose h)).2
    exact ⟨hsame, by simp [hclose]⟩

theorem slot_of_step (h : Step s turn t) (hs : s.client.slot = none) : t.client.slot = none := by
  cases h with
  | queues | refuses | leaves | rests | forsakesGoodbye => exact hs
  | works hq hw hc h =>
    rw [(works_vacant hs h).1]
    exact hs
  | vacates => rfl
  | parts patience hp h => exact (slot_of_parted (parted_of_goodbye h)).trans hs

/-- A close that is still to say goodbye has emptied the slot. -/
theorem parting_of_step (h : Step s turn t) (hs : s.parting ≠ none → s.client.slot = none) :
    t.parting ≠ none → t.client.slot = none := by
  intro hp
  by_cases hparting : s.parting = none
  · cases h with
    | vacates => rfl
    | parts patience hp' => simp [hparting] at hp'
    | forsakesGoodbye hp' => simp [hparting] at hp'
    | queues | refuses | works | leaves | rests => exact absurd hparting hp
  · exact slot_of_step h (hs hparting)

/-- A call waits for its work if its arguments are in order and it need not look at the slot. -/
theorem prepare_ok (h : c.prepare call = .ok work) :
    call.work = .ok work ∧ (c.isClosed = true → call.isGuarded = false) := by
  unfold prepare at h
  split at h
  · simp at h
  · next hg =>
    refine ⟨h, ?_⟩
    intro hc
    simpa [hc] using hg

/-- A call is refused because it finds the slot empty, or else because of its arguments. -/
theorem prepare_error {f : Failure} (h : c.prepare call = .error f) :
    f = .closed ∧ c.isClosed = true ∨
      call.work = .error f ∧ (c.isClosed = true → call.isGuarded = false) := by
  unfold prepare at h
  split at h
  · next hg =>
    obtain rfl := Except.error.inj h
    exact Or.inl ⟨rfl, (Bool.and_eq_true_iff.mp hg).2⟩
  · next hg =>
    refine Or.inr ⟨h, ?_⟩
    intro hc
    simpa [hc] using hg

/-- A caller whom nobody disturbs. -/
theorem Run.alone (place : Nat) (hp : c.prepare call = .ok work) (hc : call ≠ .close)
    (h : Works c work a c') :
    Run { client := c } [.queued place call, .answered place call a] { client := c' } := by
  have hqueue : Step { client := c } (.queued place call)
      { client := c, queue := [(place, call)] } :=
    .queues place hp
  have hwork : Step { client := c, queue := [(place, call)] } (.answered place call a)
      { client := c' } :=
    @Step.works _ place call work a c' [] [] rfl (prepare_ok hp).1 (by simp [hc]) h
  exact .cons hqueue (.cons hwork (.nil _))

end DocClient.Client
