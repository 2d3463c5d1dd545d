import DocClient.Proofs.Channel.Deadline
import DocClient.Proofs.Client.Closing

/-!
Round trips that run out of time. The time counts from the moment at which the round trip begins
and not from when its caller came, so a fetch that follows a query has all of it again. A round
trip for which it runs out takes the connection with it, and nothing else does but a round trip
that was abandoned before.
-/
namespace DocClient.Client

variable {c c' : Client} {e e' : Endpoint} {r : Request} {w : Window} {a : Answer} {work : Work}
  {limit : Duration} {patience : Option Nat} {s t : Scene} {turn : Turn} {turns : List Turn}
  {call : Call} {place : Nat} {target : String} {network : Dial} {settings : ConnectSettings}
  {f : Failure}

/-- When the time for a round trip is over that begins now. -/
def deadline (limit : Duration) (c : Client) : Nat :=
  c.endpoint.link.clock + limit.microseconds

/-- A line is complete before the time for the round trip is over. -/
def Prompt (limit : Duration) (r : Request) (c : Client) : Prop :=
  ∃ e, c.endpoint.send r.line r.line = (.ok (), e) ∧
    e.link.delimiter ∈ Link.stream (Link.early (c.deadline limit) e.link.inbox)

/-- Until the time for the round trip is over no more comes than a part of a line that is not too
long, and the stream does not end or break. -/
def Overdue (limit : Duration) (r : Request) (c : Client) : Prop :=
  ∃ e, c.endpoint.send r.line r.line = (.ok (), e) ∧ (e.upTo (c.deadline limit)).Silent

/-- A round trip comes to wait until its time is over, and its caller waits as long. -/
structure Lapses (limit : Duration) (patience : Option Nat) (r : Request) (c : Client) : Prop where
  serving : c.phase = .serving
  overdue : c.Overdue limit r
  stays : ∀ moment ∈ patience, c.deadline limit ≤ moment

/-- The work of a call lapses with its first round trip, or with the fetch that follows; the time
for the fetch counts from the moment at which the reply to the query was there. -/
inductive Work.Lapses (limit : Duration) (patience : Option Nat) (c : Client) : Work → Prop
  | first {work : Work} {r : Request} (hw : work.first = some r)
      (h : c.Lapses limit patience r) : Work.Lapses limit patience c work
  | fetch {line : String} {selects : Option Name} {first : Reply} {c₁ : Client}
      (h : c.roundTrip (.query line) patience = (.reply first, c₁))
      (hf : (c₁.wire.followWithFetch && first.succeeded) = true)
      (h' : c₁.Lapses limit patience .fetch) :
      Work.Lapses limit patience c (.query line selects)

theorem not_overdue_of_prompt (h : c.Prompt limit r) : ¬ c.Overdue limit r := by
  rintro ⟨e', hs', hsilent⟩
  obtain ⟨e, hs, hline⟩ := h
  obtain rfl : e = e' := (Prod.mk.inj (hs.symm.trans hs')).2
  exact hsilent.unfinished hline

theorem failure_ne_timeout (e : Endpoint) (fault : ChannelFault) : e.failure fault ≠ .timeout := by
  cases fault <;> simp [Endpoint.failure]

/-- No failure of an exchange is a timeout; only a wait that expires is. -/
theorem conversed_ne_timeout (h : Conversed r w e (.error (.failed f)) e') : f ≠ .timeout := by
  generalize hr : (Except.error (Halt.failed f) : Except Halt Reply) = result at h
  cases h with
  | shut hc =>
    obtain rfl := Halt.failed.inj (Except.error.inj hr)
    simp
  | unwritten cause hc =>
    obtain rfl := Halt.failed.inj (Except.error.inj hr)
    exact failure_ne_timeout e _
  | @answered l l' content hc hw hread =>
    cases hp : Reply.ofLine content with
    | ok reply => simp [hp, halted] at hr
    | error g =>
      obtain rfl : f = g := by simpa [hp, halted] using hr
      obtain ⟨detail, rfl, -⟩ := Reply.ofLine_error hp
      simp
  | spoiled fault hc hw hread hf =>
    obtain rfl := Halt.failed.inj (Except.error.inj hr)
    exact failure_ne_timeout e fault
  | expired | unfinished => simp at hr

theorem converse_of_sent (hs : e.send r.line r.line = (.ok (), e')) :
    (converse r w e).1 = .error .expired ↔ (e'.receive w).1 = .error .expired := by
  simp only [converse, Exchange.bind_apply, Exchange.check_apply, Exchange.send, Exchange.receive,
    hs]
  rcases e'.receive w with ⟨received, e''⟩
  cases received with
  | error halt => simp
  | ok text =>
    simp only
    cases Reply.parse text <;> simp [halted]

/-- Who has not written a request does not wait for its reply. -/
theorem converse_of_unsent {halt : Halt} (hs : e.send r.line r.line = (.error halt, e')) :
    (converse r w e).1 ≠ .error .expired := by
  simp only [converse, Exchange.bind_apply, Exchange.send, hs]
  cases Endpoint.sent_of_send hs <;> simp

theorem closed_of_sent (hs : e.send r.line r.line = (.ok (), e')) :
    e.closed = false ∧ e'.closed = false := by
  cases Endpoint.sent_of_send hs with
  | written h hw => exact ⟨h, h⟩

theorem roundTrip_timeout {hold : Hold} (hs : c.slot = some hold) (ho : hold.replyOwed = false) :
    (c.roundTrip r patience).1 = .failed .timeout ↔
      (converse r (c.window patience) c.endpoint).1 = .error .expired := by
  unfold roundTrip
  simp only [hs, ho, Bool.false_eq_true, if_false]
  rcases hx : converse r (c.window patience) c.endpoint with ⟨result, endpoint⟩
  cases result with
  | ok reply => simp
  | error halt =>
    cases halt with
    | failed f =>
      have hne := conversed_ne_timeout (conversed_of_converse hx)
      simp [hne]
    | expired | unfinished => simp

/-- A client that is not serving lets no round trip come to a wait. -/
theorem serving_of_timeout (h : (c.roundTrip r patience).1 = .failed .timeout) :
    ∃ hold, c.slot = some hold ∧ hold.replyOwed = false := by
  cases hs : c.slot with
  | none => simp [roundTrip, hs] at h
  | some hold =>
    refine ⟨hold, rfl, ?_⟩
    cases ho : hold.replyOwed with
    | false => rfl
    | true => simp [roundTrip, hs, ho] at h

theorem roundTrip_timeout_iff (hl : c.requestLimit = some limit) :
    (c.roundTrip r patience).1 = .failed .timeout ↔ c.Lapses limit patience r := by
  have hwindow : c.window patience = { timer := some (c.deadline limit), patience } := by
    simp [window, hl, deadline]
  constructor
  · intro h
    obtain ⟨hold, hs, ho⟩ := serving_of_timeout h
    rw [roundTrip_timeout hs ho, hwindow] at h
    rcases hsend : c.endpoint.send r.line r.line with ⟨sent, e⟩
    cases sent with
    | error halt => exact absurd h (converse_of_unsent hsend)
    | ok _ =>
      obtain ⟨hopen, hopen'⟩ := closed_of_sent hsend
      rw [converse_of_sent hsend, Endpoint.receive_expires hopen'] at h
      exact ⟨phase_serving_iff.mpr ⟨hold, hs, hopen, ho⟩, ⟨e, hsend, h.1⟩, h.2⟩
  · rintro ⟨hserving, ⟨e, hsend, hsilent⟩, hstays⟩
    obtain ⟨hold, hs, -, ho⟩ := phase_serving_iff.mp hserving
    rw [roundTrip_timeout hs ho, hwindow, converse_of_sent hsend,
      Endpoint.receive_expires (closed_of_sent hsend).2]
    exact ⟨hsilent, hstays⟩

theorem roundTrip_not_timeout (hl : c.requestLimit = none) :
    (c.roundTrip r patience).1 ≠ .failed .timeout := by
  have hwindow : c.window patience = { patience } := by simp [window, hl]
  intro h
  obtain ⟨hold, hs, ho⟩ := serving_of_timeout h
  rw [roundTrip_timeout hs ho, hwindow] at h
  rcases hsend : c.endpoint.send r.line r.line with ⟨sent, e⟩
  cases sent with
  | error halt => exact converse_of_unsent hsend h
  | ok _ =>
    rw [converse_of_sent hsend] at h
    exact Endpoint.receive_not_expired (closed_of_sent hsend).2 h

theorem requestLimit_of_trip (h : Trip r c a c') : c'.requestLimit = c.requestLimit := by
  cases h with
  | stalled hs ho hc h => cases h <;> rfl
  | closed | dropped | replied | failed | expired | unfinished => rfl

theorem followUp_timeout_iff {first : Reply} :
    c.followUp patience first = (.failed .timeout, c') ↔
      (c.wire.followWithFetch && first.succeeded) = true ∧
        c.roundTrip .fetch patience = (.failed .timeout, c') := by
  unfold followUp
  cases c.wire.followWithFetch && first.succeeded <;> simp

/-- A query comes to a timeout if its round trip does, or the fetch that follows. -/
theorem query_timeout_iff {line : String} {selects : Option Name} :
    c.query line selects patience = (.failed .timeout, c') ↔
      c.roundTrip (.query line) patience = (.failed .timeout, c') ∨
        ∃ first c₁, c.roundTrip (.query line) patience = (.reply first, c₁) ∧
          c₁.followUp patience first = (.failed .timeout, c') := by
  unfold query
  rcases c.roundTrip (.query line) patience with ⟨answer, c₁⟩
  cases answer with
  | reply first =>
    have hsame : (∃ first' c₁', (Answer.reply first, c₁) = (Answer.reply first', c₁') ∧
        c₁'.followUp patience first' = (.failed .timeout, c')) ↔
          c₁.followUp patience first = (.failed .timeout, c') := by
      constructor
      · rintro ⟨first', c₁', he, h⟩
        obtain ⟨rfl, rfl⟩ : first = first' ∧ c₁ = c₁' := by simpa using he
        exact h
      · intro h
        exact ⟨first, c₁, rfl, h⟩
    rw [hsame]
    simp only
    rcases c₁.followUp patience first with ⟨second, c₂⟩
    cases second <;> simp
  | _ => simp

theorem close_not_timeout (c : Client) (patience : Option Nat) :
    (c.close patience).1 ≠ .failed .timeout := by
  unfold close
  cases c.slot with
  | none => simp
  | some hold =>
    rcases hg : goodbye patience { c with slot := none } with ⟨a, c'⟩
    cases parted_of_goodbye hg <;> simp

/-- A query lapses in one of its two round trips. -/
theorem query_lapses_iff {line : String} {selects : Option Name}
    (hl : c.requestLimit = some limit) :
    (c.query line selects patience).1 = .failed .timeout ↔
      (Work.query line selects).Lapses limit patience c := by
  constructor
  · intro h
    rcases query_timeout_iff.mp (Prod.ext h rfl) with h | ⟨first, c₁, h, h'⟩
    · exact .first rfl ((roundTrip_timeout_iff hl).mp (congrArg Prod.fst h))
    · obtain ⟨hf, h'⟩ := followUp_timeout_iff.mp h'
      have hl₁ := (requestLimit_of_trip (trip_of_roundTrip h)).trans hl
      exact .fetch h hf ((roundTrip_timeout_iff hl₁).mp (congrArg Prod.fst h'))
  · rintro (⟨hw, h⟩ | @⟨_, _, _, c₁, h, hf, h'⟩)
    · obtain rfl := Option.some.inj hw
      have htrip : c.roundTrip (.query line) patience = (.failed .timeout, _) :=
        Prod.ext ((roundTrip_timeout_iff hl).mpr h) rfl
      exact congrArg Prod.fst (query_timeout_iff.mpr (Or.inl htrip))
    · have hl₁ := (requestLimit_of_trip (trip_of_roundTrip h)).trans hl
      have htrip : c₁.roundTrip .fetch patience = (.failed .timeout, _) :=
        Prod.ext ((roundTrip_timeout_iff hl₁).mpr h') rfl
      have hfollow := followUp_timeout_iff.mpr ⟨hf, htrip⟩
      exact congrArg Prod.fst (query_timeout_iff.mpr (Or.inr ⟨_, _, h, hfollow⟩))

/-- Work comes to a timeout exactly if one of its round trips lapses. -/
theorem run_timeout_iff (hl : c.requestLimit = some limit) :
    (work.run patience c).1 = .failed .timeout ↔ work.Lapses limit patience c := by
  cases work with
  | query line selects => exact query_lapses_iff hl
  | request r =>
    rw [Work.run, roundTrip_timeout_iff hl]
    constructor
    · exact .first rfl
    · rintro ⟨hw, h⟩
      obtain rfl := Option.some.inj hw
      exact h
  | probe =>
    constructor
    · intro h
      cases hc : c.isClosed <;> simp [Work.run, hc] at h
    · rintro ⟨hw, -⟩
      simp [Work.first] at hw
  | close =>
    constructor
    · intro h
      exact absurd h (close_not_timeout c patience)
    · rintro ⟨hw, -⟩
      simp [Work.first] at hw

/-- What is left of a round trip that is given up because its time is over: an empty slot, and a
connection that has been shut down, where the server reads the end of the stream. Either its request
could not be written, or it was overdue; then its line has been written, and nothing has been taken
of what came of a line in reply. -/
structure GivenUp (limit : Duration) (r : Request) (c c' : Client) : Prop where
  serving : c.phase = .serving
  isClosed : c'.isClosed = true
  shut : c'.endpoint.closed = true
  ended : c'.endpoint.link.Ended
  passed :
    c'.endpoint.link.transcript = c.endpoint.link.transcript ∧
      c'.events = c.events ++ [.closed c.endpoint.peer] ∨
    c.Overdue limit r ∧
      c'.endpoint.link.transcript
        = c.endpoint.link.transcript ++ [.wrote (c.endpoint.frame r.line)] ∧
      c'.events = c.events ++ [.sent r.line, .closed c.endpoint.peer]

/-- Work runs out of time: in its first round trip, or in the fetch that follows. -/
inductive Work.RunsOut (limit : Duration) (c : Client) : Work → Client → Prop
  | first {work : Work} {r : Request} {c' : Client} (hw : work.first = some r)
      (h : GivenUp limit r c c') : Work.RunsOut limit c work c'
  | fetch {line : String} {selects : Option Name} {first : Reply} {c₁ c' : Client}
      (h : Trip (.query line) c (.reply first) c₁)
      (hf : (c₁.wire.followWithFetch && first.succeeded) = true)
      (h' : GivenUp limit .fetch c₁ c') : Work.RunsOut limit c (.query line selects) c'

theorem shut_drop (c : Client) : c.drop.endpoint.closed = true := by
  obtain ⟨journal, h⟩ := drop_eq c
  rw [h]

theorem ended_drop (c : Client) : c.drop.endpoint.link.Ended := by
  rw [link_drop]
  exact Link.ended_shutDown _

theorem events_drop (ho : c.endpoint.closed = false) :
    c.drop.events = c.events ++ [.closed c.endpoint.peer] :=
  Endpoint.events_closeQuietly ho .client "socket shutdown failed"

theorem givenUp_of_stalled (hp : c.phase = .serving) (h : Stalled r c (.failed .timeout) c') :
    ∃ limit, c.requestLimit = some limit ∧ GivenUp limit r c c' := by
  generalize ha : Answer.failed .timeout = a at h
  cases h with
  | forsaken => simp at ha
  | expired hl =>
    obtain ⟨limit, hlimit⟩ := Option.isSome_iff_exists.mp hl
    obtain ⟨hold, -, hopen, -⟩ := phase_serving_iff.mp hp
    refine ⟨limit, hlimit, hp, rfl, shut_drop _, ended_drop _, Or.inl ⟨?_, ?_⟩⟩
    · rw [link_drop]
      rfl
    · rw [events_drop (c := c.noteTimeout r) hopen, noteTimeout, events_note]
      rfl

theorem givenUp_of_roundTrip (h : c.roundTrip r patience = (.failed .timeout, c')) :
    ∃ limit, c.requestLimit = some limit ∧ GivenUp limit r c c' := by
  have hfst := congrArg Prod.fst h
  cases hl : c.requestLimit with
  | none => exact absurd hfst (roundTrip_not_timeout hl)
  | some limit =>
    have hlapses := (roundTrip_timeout_iff hl).mp hfst
    obtain ⟨hold, hs, hopen, ho⟩ := phase_serving_iff.mp hlapses.serving
    have hexpired := (roundTrip_timeout hs ho).mp hfst
    refine ⟨limit, rfl, ?_⟩
    rcases hx : converse r (c.window patience) c.endpoint with ⟨result, endpoint⟩
    obtain rfl : result = .error .expired := by simpa [hx] using hexpired
    obtain rfl : ({ c with endpoint }.noteTimeout r).drop = c' := by
      simpa [roundTrip, hs, ho, hx, noteTimeout] using h
    -- An exchange that expires has written its request, and has not read a line.
    generalize hr : (Except.error Halt.expired : Except Halt Reply) = result at hx
    cases conversed_of_converse hx with
    | @expired l l' hc hw hread =>
      refine ⟨hlapses.serving, rfl, shut_drop _, ended_drop _, Or.inr ⟨hlapses.overdue, ?_, ?_⟩⟩
      · have htaken : l'.transcript = l.transcript := by
          simpa [Reading.transfers] using Link.read_transcript hread
        rw [link_drop]
        exact htaken.trans (Link.write_transcript hw)
      · rw [events_drop (by exact hc), noteTimeout, events_note]
        simp [events, note, Endpoint.note, Sink.events]
    | @answered l l' content hc hw hread =>
      cases hp : Reply.ofLine content <;> simp [hp, halted] at hr
    | shut | unwritten | spoiled | unfinished => simp at hr

theorem serving_of_replied {reply : Reply} (h : Trip r c (.reply reply) c') :
    c'.phase = .serving := by
  obtain ⟨hold, w, endpoint, hs, ho, hconv, rfl⟩ := replied_of_trip h
  exact phase_serving_iff.mpr ⟨hold, hs, closed_of_conversed hconv, ho⟩

theorem runsOut_of_first (hw : work.first = some r)
    (h : ∃ limit, c.requestLimit = some limit ∧ GivenUp limit r c c') :
    ∃ limit, c.requestLimit = some limit ∧ work.RunsOut limit c c' := by
  obtain ⟨limit, hl, hgiven⟩ := h
  exact ⟨limit, hl, .first hw hgiven⟩

theorem runsOut_of_fetch {line : String} {selects : Option Name} {first : Reply} {c₁ : Client}
    (htrip : Trip (.query line) c (.reply first) c₁)
    (hf : (c₁.wire.followWithFetch && first.succeeded) = true)
    (h : ∃ limit, c₁.requestLimit = some limit ∧ GivenUp limit .fetch c₁ c') :
    ∃ limit, c.requestLimit = some limit ∧ (Work.query line selects).RunsOut limit c c' := by
  obtain ⟨limit, hl, hgiven⟩ := h
  exact ⟨limit, (requestLimit_of_trip htrip).symm.trans hl, .fetch htrip hf hgiven⟩

/-- Work that comes to a timeout had a limit, and has run out of the time that the limit gives. -/
theorem runsOut_of_works (h : Works c work (.failed .timeout) c') :
    ∃ limit, c.requestLimit = some limit ∧ work.RunsOut limit c c' := by
  generalize ha : Answer.failed .timeout = a at h
  cases h with
  | runs patience h =>
    subst ha
    cases work with
    | query line selects =>
      rcases query_timeout_iff.mp h with h | ⟨first, c₁, h, h'⟩
      · exact runsOut_of_first rfl (givenUp_of_roundTrip h)
      · obtain ⟨hf, h'⟩ := followUp_timeout_iff.mp h'
        exact runsOut_of_fetch (trip_of_roundTrip h) hf (givenUp_of_roundTrip h')
    | request r => exact runsOut_of_first rfl (givenUp_of_roundTrip h)
    | probe => cases hc : c.isClosed <;> simp [Work.run, hc] at h
    | close => exact absurd (congrArg Prod.fst h) (close_not_timeout c patience)
  | stalls hw hs ho hc h =>
    subst ha
    exact runsOut_of_first hw (givenUp_of_stalled (phase_serving_iff.mpr ⟨_, hs, hc, ho⟩) h)
  | stallsFetch patience h hf h' =>
    subst ha
    have htrip := trip_of_roundTrip h
    exact runsOut_of_fetch htrip hf (givenUp_of_stalled (serving_of_replied htrip) h')

theorem runsOut_of_step (h : Step s (.answered place call (.failed .timeout)) t) :
    ∃ limit work, s.client.requestLimit = some limit ∧ call.work = .ok work ∧
      work.RunsOut limit s.client t.client := by
  obtain ⟨-, hcall⟩ := work_of_timeout h
  generalize ha : Answer.failed .timeout = a at h
  cases h with
  | refuses _ h =>
    rcases prepare_error h with ⟨rfl, -⟩ | ⟨hw, -⟩
    · simp at ha
    · obtain rfl := Answer.failed.inj ha
      exact absurd rfl (ne_of_arguments (c := s.client) (work_error hw).2).1
  | works hq hw hc h =>
    subst ha
    obtain ⟨limit, hl, hruns⟩ := runsOut_of_works h
    exact ⟨limit, _, hl, hw, hruns⟩
  | parts | forsakesGoodbye => exact absurd rfl hcall

theorem requestLimit_select (selects : Option Name) (reply : Reply) (c : Client) :
    (if reply.succeeded then c.select selects else c).requestLimit = c.requestLimit := by
  cases selects <;> simp [select, apply_ite]

theorem requestLimit_of_served (h : Served c work a c') : c'.requestLimit = c.requestLimit := by
  cases h with
  | probe => rfl
  | request h | halted h ha => exact requestLimit_of_trip h
  | replied h hf => exact (requestLimit_select _ _ _).trans (requestLimit_of_trip h)
  | fetchHalted h hf h' ha => exact (requestLimit_of_trip h').trans (requestLimit_of_trip h)
  | fetched h hf h' =>
    rw [requestLimit_select]
    exact (requestLimit_of_trip h').trans (requestLimit_of_trip h)

theorem requestLimit_of_step (h : Step s turn t) :
    t.client.requestLimit = s.client.requestLimit := by
  cases h with
  | queues | refuses | leaves | rests | vacates | forsakesGoodbye => rfl
  | @works _ call work _ client before after hq hw hc h =>
    by_cases hcall : call = .close
    · rw [(works_vacant (isClosed_iff.mp (hc hcall)) h).1]
    · exact requestLimit_of_served (served_of_works (work_ne_close hw hcall) h)
  | parts patience hp h => rw [(parted_eq (parted_of_goodbye h)).1]

/-- Nothing comes of a connection any more: nothing passes over it or is told of, and whoever still
calls, or comes to his turn, finds the client closed. -/
structure Scene.Silenced (s : Scene) : Prop where
  quiet : ∀ {turns t}, Run s turns t → Quiet s t
  answers : ∀ {turns t place call a u}, Run s turns t → Step t (.answered place call a) u →
    call ≠ .close ∧ a = .failed .closed ∨ call = .close ∧ a = .done

/-- An empty slot that no close has still to say goodbye for. -/
structure Scene.Deserted (s : Scene) : Prop where
  sound : s.Sound
  vacant : s.client.phase = .vacant
  parting : s.parting = none

theorem deserted_of_step (h : Step s turn t) (hs : s.Deserted) : t.Deserted := by
  have hslot := slot_of_step h (phase_vacant_iff.mp hs.vacant)
  refine ⟨sound_of_step h hs.sound, phase_vacant_iff.mpr hslot, ?_⟩
  cases h with
  | queues | refuses | leaves | rests | works => exact hs.parting
  | parts | forsakesGoodbye => rfl
  -- A close that finds the slot empty empties it no more, so no goodbye comes to be owed.
  | vacates hq hc => simp [isClosed_iff_phase.mpr hs.vacant] at hc

theorem silenced_of_deserted (hs : s.Deserted) (hc : s.client.endpoint.closed = true) :
    s.Silenced where
  quiet := by
    intro turns t hr
    exact quiet_of_closed hr hs.sound hc
  answers := by
    intro turns t place call a u hr h
    have ht := hr.invariant deserted_of_step hs
    have hvacant := atVacant_of_step h ht.sound ht.vacant
    by_cases hcall : call = .close
    · subst hcall
      exact Or.inr ⟨rfl, (hvacant.closes rfl (by simp [ht.parting])).1⟩
    · exact Or.inl ⟨hcall, (hvacant.refuses rfl hcall).1⟩

/-- A timeout leaves the slot empty and the connection shut down, and no goodbye to be said. -/
theorem deserted_of_timeout (h : Step s (.answered place call (.failed .timeout)) t)
    (hs : s.Sound) : t.Deserted ∧ t.client.endpoint.closed = true := by
  obtain ⟨ho, hcall⟩ := work_of_timeout h
  obtain ⟨limit, work, -, -, hruns⟩ := runsOut_of_step h
  have hparting : s.parting = none := by
    by_contra hp
    simp [isClosed, hs.parting hp] at ho
  have hsame : t.parting = s.parting := by
    cases h with
    | refuses | works => rfl
    | parts => exact absurd rfl hcall
  refine ⟨⟨sound_of_step h hs, (outcome_of_step h hs hcall).timeout, hsame.trans hparting⟩, ?_⟩
  cases hruns with
  | first hw hgiven => exact hgiven.shut
  | fetch htrip hf hgiven => exact hgiven.shut

theorem phaseAfter_vacant (h : c.phaseAfter a = .vacant) : a = .failed .timeout := by
  cases a with
  | failed f => cases f <;> simp [phaseAfter] at h ⊢ <;> split at h <;> simp at h
  | _ => simp [phaseAfter] at h

theorem phaseAfter_abandoned (h : c.phaseAfter a = .abandoned) : a = .unfinished := by
  cases a with
  | unfinished => rfl
  | failed f => cases f <;> simp [phaseAfter] at h <;> split at h <;> simp at h
  | _ => simp [phaseAfter] at h

/-- A slot is emptied by a timeout, by the call after an abandoned one, or by a close. -/
theorem emptied_of_step (h : Step s turn t) (hs : s.Sound) (ho : s.client.isClosed = false)
    (hc : t.client.isClosed = true) :
    (∃ place call, turn = .answered place call (.failed .timeout)) ∨
      s.client.phase = .abandoned ∧
        (∃ place call, turn = .answered place call (.failed .channelClosed)) ∨
      ∃ place, turn = .vacated place := by
  have hkeeps {p : Prop} (he : t.client = s.client) : p := by simp [he, ho] at hc
  cases turn with
  | queued place call | left place call =>
    cases h
    exact hkeeps rfl
  | rested microseconds =>
    cases h
    simp [rest, isClosed] at ho hc
    simp [hc] at ho
  | vacated place => exact Or.inr (Or.inr ⟨place, rfl⟩)
  | answered place call a =>
    have hp : s.client.phase ≠ .vacant := by simp [← isClosed_iff_phase, ho]
    have houtcome := outcome_of_step h hs (call_of_step h hs hp)
    generalize t.client = c' at hc hkeeps houtcome
    cases houtcome with
    | closed | invalid | looked | shut => exact hkeeps rfl
    | dropped hw hr hp => exact Or.inr (Or.inl ⟨hp, place, call, rfl⟩)
    | served hp hp' =>
      obtain rfl := phaseAfter_vacant (hp'.symm.trans (isClosed_iff_phase.mp hc))
      exact Or.inl ⟨place, call, rfl⟩

/-- A round trip is abandoned when its caller goes away in the middle of it. -/
theorem abandoned_of_step (h : Step s turn t) (hs : s.Sound) (hp : t.client.phase = .abandoned) :
    s.client.phase = .abandoned ∨
      ∃ place call, call ≠ .close ∧ turn = .answered place call .unfinished := by
  cases turn with
  | queued place call | left place call =>
    cases h
    exact Or.inl hp
  | rested microseconds =>
    cases h
    exact Or.inl hp
  | vacated place =>
    cases h
    simp [phase] at hp
  | answered place call a =>
    have hv : s.client.phase ≠ .vacant := by
      intro hv
      have hvacant := phase_vacant_iff.mpr (slot_of_step h (phase_vacant_iff.mp hv))
      simp [hp] at hvacant
    have hcall := call_of_step h hs hv
    have houtcome := outcome_of_step h hs hcall
    generalize t.client = c' at hp houtcome
    cases houtcome with
    | closed | invalid | looked | shut => exact Or.inl hp
    | dropped hw hr hp' => exact Or.inl hp'
    | served hp' hp'' =>
      obtain rfl := phaseAfter_abandoned (hp''.symm.trans hp)
      exact Or.inr ⟨place, call, hcall, rfl⟩

theorem abandoned_of_run (hr : Run s turns t) (hs : s.Sound) (hp : t.client.phase = .abandoned) :
    s.client.phase = .abandoned ∨
      ∃ place call, call ≠ .close ∧ .answered place call .unfinished ∈ turns := by
  induction hr with
  | nil => exact Or.inl hp
  | cons h _ ih =>
    rcases ih (sound_of_step h hs) hp with hmid | ⟨place, call, hcall, hm⟩
    · rcases abandoned_of_step h hs hmid with hp' | ⟨place, call, hcall, rfl⟩
      · exact Or.inl hp'
      · exact Or.inr ⟨place, call, hcall, List.mem_cons_self⟩
    · exact Or.inr ⟨place, call, hcall, List.mem_cons_of_mem _ hm⟩

/-- What a limit for round trips means to a client that a caller has for itself. -/
structure Timed (limit : Duration) (c : Client) : Prop where
  exact : ∀ (work : Work) (patience : Option Nat),
    (work.run patience c).1 = .failed .timeout ↔ work.Lapses limit patience c
  prompt : ∀ r patience, c.Prompt limit r → (c.roundTrip r patience).1 ≠ .failed .timeout
  promptFetch : ∀ line selects patience first c₁,
    c.roundTrip (.query line) patience = (.reply first, c₁) → c₁.Prompt limit .fetch →
      (c.query line selects patience).1 ≠ .failed .timeout
  /-- What goes by before a caller's turn comes is not taken from its time. -/
  waits : ∀ microseconds,
    (c.rest microseconds).deadline limit = c.deadline limit + microseconds

theorem timed_of_limit (hl : c.requestLimit = some limit) : c.Timed limit where
  exact := by
    intro work patience
    exact run_timeout_iff hl
  prompt := by
    intro r patience hprompt h
    exact not_overdue_of_prompt hprompt ((roundTrip_timeout_iff hl).mp h).overdue
  promptFetch := by
    intro line selects patience first c₁ hquery hprompt h
    have hlapses : (Work.query line selects).Lapses limit patience c := (run_timeout_iff hl).mp h
    cases hlapses with
    | first hw hfirst =>
      obtain rfl := Option.some.inj hw
      have htimeout := (roundTrip_timeout_iff hl).mpr hfirst
      simp [hquery] at htimeout
    | fetch hquery' hf hfetch =>
      obtain ⟨-, rfl⟩ := Prod.mk.inj (hquery.symm.trans hquery')
      exact not_overdue_of_prompt hprompt hfetch.overdue
  waits := by
    intro microseconds
    simp only [deadline, rest]
    omega

/-- What timeouts do, and what nothing else does, at a turn after a run. -/
structure Clean (target : String) (limit : Option Duration) (turns : List Turn) (s : Scene)
    (turn : Turn) (t : Scene) : Prop where
  limited : ∀ {place call}, turn = .answered place call (.failed .timeout) →
    ∃ span work, limit = some span ∧ call.work = .ok work ∧ work.RunsOut span s.client t.client
  ended : ∀ {place call}, turn = .answered place call (.failed .timeout) →
    t.client.isClosed = true ∧ t.client.endpoint.Account target [.closed target] ∧ t.Silenced
  emptied : s.client.isClosed = false → t.client.isClosed = true →
    (∃ place call, turn = .answered place call (.failed .timeout)) ∨
    s.client.phase = .abandoned ∧
      (∃ place call, call ≠ .close ∧ .answered place call .unfinished ∈ turns) ∧
      (∃ place call, turn = .answered place call (.failed .channelClosed)) ∨
    ∃ place, turn = .vacated place

theorem clean_of_step (h : Step s turn t) (hs : s.Accounted target)
    (habandoned : s.client.phase = .abandoned →
      ∃ place call, call ≠ .close ∧ .answered place call .unfinished ∈ turns) :
    Clean target s.client.requestLimit turns s turn t where
  limited := by
    rintro place call rfl
    exact runsOut_of_step h
  ended := by
    rintro place call rfl
    obtain ⟨ho, hcall⟩ := work_of_timeout h
    obtain ⟨hdeserted, hshut⟩ := deserted_of_timeout h hs.sound
    have hclosed := isClosed_iff_phase.mpr hdeserted.vacant
    exact ⟨hclosed, account_of_dropped h hcall hs ho hclosed,
      silenced_of_deserted hdeserted hshut⟩
  emptied := by
    intro ho hclosed
    rcases emptied_of_step h hs.sound ho hclosed with htimeout | ⟨hp, hanswer⟩ | hvacated
    · exact Or.inl htimeout
    · exact Or.inr (Or.inl ⟨hp, habandoned hp, hanswer⟩)
    · exact Or.inr (Or.inr hvacated)

theorem requestLimit_of_run (hr : Run s turns t) :
    t.client.requestLimit = s.client.requestLimit := by
  induction hr with
  | nil => rfl
  | cons h _ ih => exact ih.trans (requestLimit_of_step h)

/-- Timeouts are clean: a call comes to one exactly if a round trip of it lapses, which takes a
limit; the connection is then shut down and the slot empty, and nothing comes of it any more. -/
theorem timeouts_clean (hc : connectTo target network settings = .ready c)
    (hr : Run { client := c } turns s) :
    (∀ limit, settings.requestLimit = some limit → s.client.Timed limit) ∧
    ∀ turn t, Step s turn t →
      Clean (network.peer target) settings.requestLimit turns s turn t := by
  have hstart : c.requestLimit = settings.requestLimit ∧ c.phase ≠ .abandoned := by
    obtain ⟨server, now, session, e, journal, -, -, rfl⟩ := connectTo_ready hc
    exact ⟨rfl, by simp [phase_abandoned_iff]⟩
  have hlimit : s.client.requestLimit = settings.requestLimit :=
    (requestLimit_of_run hr).trans hstart.1
  have hs := accounted_of_run hc hr
  refine ⟨?_, ?_⟩
  · intro limit hl
    exact timed_of_limit (hlimit.trans hl)
  · intro turn t h
    rw [← hlimit]
    apply clean_of_step h hs
    intro hp
    exact (abandoned_of_run hr (accounted_of_ready hc).sound hp).resolve_left hstart.2

/-- Every round trip may take a second. -/
def hurried : ConnectSettings := { ungreeted with requestLimit := some (.ofSeconds 1) }

/-- A server that answers the login, and then takes two seconds over the rest of every line. -/
def faltering : Server where
  accept := []
  answer heard :=
    if heard.length = 1 then obliging.answer heard
    else [(0, .bytes (Text.utf8 "\x7b\"Status\"")), (2000000, .bytes (Text.utf8 ":\"ok\"\x7d\n"))]

theorem timeouts_clean_faltering : ∃ c s t,
    connectTo "db" (.reaching faltering) hurried = .ready c ∧
    Run { client := c } [.queued 0 .fetch] s ∧
    Step s (.answered 0 .fetch (.failed .timeout)) t ∧ s.client.Timed (.ofSeconds 1) ∧
    Clean "db" (some (.ofSeconds 1)) [.queued 0 .fetch] s
      (.answered 0 .fetch (.failed .timeout)) t ∧ t.Silenced := by
  have hready : ((connectTo "db" (.reaching faltering) hurried).client?.map fun c =>
      (c.phase, (c.roundTrip .fetch none).2.phase)) = some (.serving, .vacant) := by
    decide +kernel
  cases hc : connectTo "db" (.reaching faltering) hurried with
  | refused f | rejected f e => simp [hc, Attempt.client?] at hready
  | ready c =>
    simp only [hc, Attempt.client?, Option.map_some, Option.some.injEq, Prod.mk.injEq] at hready
    obtain ⟨hserving, hvacant⟩ := hready
    have htimeout : (c.roundTrip .fetch none).1 = .failed .timeout := by
      have htrip : Trip .fetch c (c.roundTrip .fetch none).1 _ := trip_of_roundTrip rfl
      exact phaseAfter_vacant ((phase_of_trip htrip hserving).1.symm.trans hvacant)
    have hqueue : Step { client := c } (.queued 0 .fetch) { client := c, queue := [(0, .fetch)] } :=
      .queues 0 (show c.prepare .fetch = .ok (.request .fetch) from rfl)
    have hrun : Run { client := c } [.queued 0 .fetch] _ := .cons hqueue (.nil _)
    have hstep : Step { client := c, queue := [(0, .fetch)] }
        (.answered 0 .fetch (.failed .timeout)) { client := (c.roundTrip .fetch none).2 } :=
      @Step.works _ 0 .fetch (.request .fetch) _ _ [] [] rfl rfl (by simp)
        (.runs none (Prod.ext htimeout rfl))
    obtain ⟨htimed, hclean⟩ := timeouts_clean hc hrun
    have ht := hclean _ _ hstep
    exact ⟨c, _, _, rfl, hrun, hstep, htimed _ rfl, ht, (ht.ended rfl).2.2⟩

/-- A server that takes more than half a second over every line. -/
def leisurely : Server where
  accept := []
  answer _ := [(600000, .bytes (Text.utf8 "\x7b\"Status\":\"ok\"\x7d\n"))]

/-- A query and its fetch may together take longer than either of them. -/
example :
    ((connectTo "db" (.reaching leisurely)
        { hurried with wire := { greeting := false, followWithFetch := true } }).client?.map
      fun c =>
        let c' := (c.query "db.docs.find()" none none).2
        (c'.phase, c'.endpoint.link.clock - c.endpoint.link.clock)) =
    some (.serving, 1200000) := by
  decide +kernel

end DocClient.Client
