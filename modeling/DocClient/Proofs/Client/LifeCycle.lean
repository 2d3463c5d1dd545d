import DocClient.Proofs.Client.Phase
import DocClient.Proofs.Login.Handshake

/-!
The life cycle of a client with the callers that share it: from an empty slot nothing leads back,
and from a failed channel or an abandoned round trip only there.
-/
namespace DocClient.Client

variable {c c' : Client} {a : Answer} {work : Work} {s t u : Scene} {turn : Turn}
  {turns : List Turn} {call : Call}

/-- What is known of every scene: a reply is owed over an open channel only, and a close that is
still to say goodbye has emptied the slot. -/
structure Scene.Sound (s : Scene) : Prop where
  client : s.client.Sound
  parting : s.parting ≠ none → s.client.slot = none

theorem outcome_of_step {place : Nat} (h : Step s (.answered place call a) t) (hs : s.Sound)
    (hcall : call ≠ .close) : Outcome s.client call a t.client := by
  cases h with
  | refuses _ h => exact outcome_of_refusal h
  | @works _ _ work _ _ before after hq hw hc h =>
    have hclose := work_ne_close hw hcall
    exact outcome_of_served (served_of_works hclose h) hw hs.client hclose
  | parts patience hp h => exact absurd rfl hcall
  | forsakesGoodbye hp hc => exact absurd rfl hcall

/-- A close is answered when the slot is empty, at once unless it has emptied it itself. -/
theorem close_of_step {place : Nat} (h : Step s (.answered place .close a) t) (hs : s.Sound) :
    s.client.phase = .vacant ∧ t.client.phase = .vacant ∧
      (s.parting = some place ∨ a = .done ∧ t.client = s.client) := by
  have hslot : s.client.slot = none := by
    cases h with
    | refuses _ h => simp [prepare, Call.isGuarded, Call.work] at h
    | works hq hw hc h => exact isClosed_iff.mp (hc rfl)
    | parts patience hp h => exact hs.parting (by simp [hp])
    | forsakesGoodbye hp hc => exact hs.parting (by simp [hp])
  refine ⟨phase_vacant_iff.mpr hslot, phase_vacant_iff.mpr (slot_of_step h hslot), ?_⟩
  cases h with
  | refuses _ h => simp [prepare, Call.isGuarded, Call.work] at h
  | works hq hw hc h =>
    obtain ⟨he, ha⟩ := works_vacant hslot h
    exact Or.inr ⟨ha (Except.ok.inj hw).symm, he⟩
  | parts patience hp h => exact Or.inl hp
  | forsakesGoodbye hp hc => exact Or.inl hp

theorem phase_rest (microseconds : Nat) (c : Client) : (c.rest microseconds).phase = c.phase := rfl

theorem leads_of_step (h : Step s turn t) (hs : s.Sound) : s.client.phase.leads t.client.phase := by
  cases turn with
  | queued place call | left place call =>
    cases h
    exact Or.inl rfl
  | rested microseconds =>
    cases h
    exact Or.inl (phase_rest microseconds s.client).symm
  | vacated place =>
    cases h
    exact Or.inr (Or.inr (phase_vacant_iff.mpr rfl))
  | answered place call a =>
    by_cases hcall : call = .close
    · subst hcall
      exact Or.inr (Or.inr (close_of_step h hs).2.1)
    · exact (outcome_of_step h hs hcall).leads

theorem sound_of_step (h : Step s turn t) (hs : s.Sound) : t.Sound := by
  refine ⟨?_, parting_of_step h hs.parting⟩
  cases turn with
  | queued place call | left place call =>
    cases h
    exact hs.client
  | rested microseconds =>
    cases h
    exact hs.client
  | vacated place =>
    cases h
    exact sound_of_vacant rfl
  | answered place call a =>
    by_cases hcall : call = .close
    · subst hcall
      exact sound_of_vacant (close_of_step h hs).2.1
    · exact (outcome_of_step h hs hcall).sound hs.client

/-- The events that the client has reported. -/
def events (c : Client) : List Event := Sink.collect.events c.endpoint.journal

/-- Over a channel that has failed nothing passes any more, and nothing is reported. -/
structure Quiet (s t : Scene) : Prop where
  closed : t.client.endpoint.closed = true
  transcript : t.client.endpoint.link.transcript = s.client.endpoint.link.transcript
  events : t.client.events = s.client.events

theorem events_note (level : Level) (message : String) (fields : List (String × String))
    (c : Client) : (c.note level message fields).events = c.events := by
  simp [events, note, Endpoint.note, Sink.events]

theorem finish_closed (hc : c.endpoint.closed = true) :
    c.finish.2
      = c.release.note .info "disconnected from ProtonDB" [("user", c.session.username)] := by
  simp [finish, closeEndpoint, Endpoint.closeQuietly, Endpoint.close, hc]

theorem goodbye_closed (hc : c.endpoint.closed = true) (h : Parted c a c') :
    c'.endpoint.closed = true ∧ c'.endpoint.link.transcript = c.endpoint.link.transcript ∧
      c'.events = c.events := by
  have hshut {sent : Except Halt Unit} {line shown : String} {e' : Endpoint}
      (h : c.endpoint.Sent line shown sent e') :
      sent = .error (.failed .channelClosed) ∧ e' = c.endpoint := by
    cases h with
    | shut h => exact ⟨rfl, rfl⟩
    | unwritten cause h | written h => simp [hc] at h
  cases h with
  | unsaid h =>
    obtain ⟨-, rfl⟩ := hshut h
    rw [finish_closed hc]
    exact ⟨hc, rfl, events_note _ _ _ c.release⟩
  | said h hr | unanswered h hr => simpa using (hshut h).1
  | forsaken h => simp [hc] at h

theorem quiet_of_step (h : Step t turn u) (hq : Quiet s t) (ht : t.Sound) : Quiet s u := by
  obtain ⟨hc, htr, hev⟩ := hq
  cases turn with
  | queued place call | left place call | rested microseconds | vacated place =>
    cases h
    exact ⟨hc, htr, hev⟩
  | answered place call a =>
    cases h with
    | refuses _ h => exact ⟨hc, htr, hev⟩
    | @works _ _ work _ client before after hq hw hcl h =>
      have he : client = t.client := by
        by_cases hclose : call = .close
        · exact (works_vacant (isClosed_iff.mp (hcl hclose)) h).1
        · have hwork := work_ne_close hw hclose
          have ho := outcome_of_served (served_of_works hwork h) hw ht.client hwork
          cases ho with
          | closed | invalid | looked | shut => rfl
          | dropped _ _ hp =>
            obtain ⟨hold, -, ho, -⟩ := phase_abandoned_iff.mp hp
            simp [hc] at ho
          | served hp =>
            obtain ⟨hold, -, ho, -⟩ := phase_serving_iff.mp hp
            simp [hc] at ho
      exact ⟨he ▸ hc, he ▸ htr, he ▸ hev⟩
    | parts patience hp h =>
      obtain ⟨hc', htr', hev'⟩ := goodbye_closed hc (parted_of_goodbye h)
      exact ⟨hc', htr'.trans htr, hev'.trans hev⟩
    | forsakesGoodbye hp ho => exact ⟨hc, htr, hev⟩

theorem quiet_of_closed (hr : Run s turns t) (hs : s.Sound)
    (hc : s.client.endpoint.closed = true) : Quiet s t := by
  have hi : Quiet s t ∧ t.Sound := by
    apply hr.invariant (I := fun t => Quiet s t ∧ t.Sound)
    · rintro t turn u h ⟨hq, ht⟩
      exact ⟨quiet_of_step h hq ht, sound_of_step h ht⟩
    · exact ⟨⟨hc, rfl, rfl⟩, hs⟩
  exact hi.1

theorem quiet_of_run (hr : Run s turns t) (hs : s.Sound) (hp : s.client.phase = .failed) :
    Quiet s t := by
  obtain ⟨hold, -, hc⟩ := phase_failed_iff.mp hp
  exact quiet_of_closed hr hs hc

/-- What happens once the slot is empty. A call is refused whatever its arguments are; it neither
writes nor reports anything, and a close that has not emptied the slot itself does nothing. -/
structure AtVacant (s : Scene) (turn : Turn) (t : Scene) : Prop where
  isClosed : s.client.isClosed = true
  selected : s.client.selectedDatabase = none
  stays : t.client.phase = .vacant
  waits : ∀ {place call}, turn = .queued place call → call.isGuarded = false ∧ t.client = s.client
  refuses : ∀ {place call a}, turn = .answered place call a → call ≠ .close →
    a = .failed .closed ∧ t.client = s.client
  closes : ∀ {place a}, turn = .answered place .close a → s.parting ≠ some place →
    a = .done ∧ t.client = s.client

/-- What happens once the channel has failed, until a close: a call with good arguments finds the
channel closed, and nothing else comes of it. Only a look at the slot still finds it full. -/
structure AtFailed (s : Scene) (turn : Turn) (t : Scene) : Prop where
  stays : (∀ place, turn ≠ .vacated place) → t.client.phase = .failed
  refuses : ∀ {place call a work r}, turn = .answered place call a → call.work = .ok work →
    work.first = some r → a = .failed .channelClosed
  looked : ∀ {place call a}, turn = .answered place call a → call.work = .ok .probe → a = .opened
  idle : ∀ {place call a}, turn = .answered place call a →
    (∀ reply, a ≠ .reply reply) ∧ t.client = s.client

/-- What happens once a round trip has been abandoned: the first call with good arguments finds the
channel closed and empties the slot; nothing is written, and the server sees the end of the
stream. A look at the slot finds it full and leaves all as it is. -/
structure AtAbandoned (s : Scene) (turn : Turn) (t : Scene) : Prop where
  refuses : ∀ {place call a work r}, turn = .answered place call a → call.work = .ok work →
    work.first = some r →
      a = .failed .channelClosed ∧ t.client.phase = .vacant ∧
      t.client.endpoint.link = s.client.endpoint.link.shutDown.2
  looked : ∀ {place call a}, turn = .answered place call a → call.work = .ok .probe →
    a = .opened ∧ t.client = s.client
  stays : (∀ place, turn ≠ .vacated place) →
    (∀ place call a work, turn = .answered place call a → call.work = .ok work →
      work.first = none) → t.client.phase = .abandoned

/-- What a turn does to the life of a client. -/
structure Passes (s : Scene) (turn : Turn) (t : Scene) : Prop where
  leads : s.client.phase.leads t.client.phase
  left : ∀ {place call}, turn = .left place call → t.client = s.client
  closing : ∀ {place}, (turn = .vacated place ∨ ∃ a, turn = .answered place .close a) →
    t.client.phase = .vacant
  timeout : ∀ {place call}, turn = .answered place call (.failed .timeout) →
    t.client.phase = .vacant
  faults : ∀ {place call a}, turn = .answered place call a → call ≠ .close → s.client.Faults a →
    t.client.phase = .failed
  unfinished : ∀ {place call}, turn = .answered place call .unfinished → call ≠ .close →
    t.client.phase = .abandoned
  vacant : s.client.phase = .vacant → AtVacant s turn t
  failed : s.client.phase = .failed → AtFailed s turn t
  abandoned : s.client.phase = .abandoned → AtAbandoned s turn t

/-- Only an answer or an emptied slot can change the phase. -/
theorem phase_of_idle (h : Step s turn t) (hv : ∀ place, turn ≠ .vacated place)
    (ha : ∀ place call a, turn ≠ .answered place call a) : t.client.phase = s.client.phase := by
  cases h with
  | queues | leaves | rests => rfl
  | refuses | works | parts | forsakesGoodbye => exact absurd rfl (ha _ _ _)
  | vacates => exact absurd rfl (hv _)

theorem atVacant_of_step (h : Step s turn t) (hs : s.Sound) (hp : s.client.phase = .vacant) :
    AtVacant s turn t where
  isClosed := isClosed_iff_phase.mpr hp
  selected := by simp [selectedDatabase, phase_vacant_iff.mp hp]
  stays := by
    rcases leads_of_step h hs with hl | hl | hl
    · exact hl ▸ hp
    · simp [hp] at hl
    · exact hl
  waits := by
    rintro place call rfl
    cases h with
    | queues place h =>
      exact ⟨(prepare_ok h).2 (isClosed_iff_phase.mpr hp), rfl⟩
  refuses := by
    rintro place call a rfl hcall
    exact (outcome_of_step h hs hcall).of_vacant hp
  closes := by
    rintro place a rfl hparting
    exact (close_of_step h hs).2.2.resolve_left hparting

/-- A close is answered at an empty slot only. -/
theorem call_of_step {place : Nat} (h : Step s (.answered place call a) t) (hs : s.Sound)
    (hp : s.client.phase ≠ .vacant) : call ≠ .close := by
  rintro rfl
  exact hp (close_of_step h hs).1

theorem atFailed_of_step (h : Step s turn t) (hs : s.Sound) (hp : s.client.phase = .failed) :
    AtFailed s turn t := by
  have hv : s.client.phase ≠ .vacant := by simp [hp]
  constructor
  · intro hturn
    by_cases ha : ∃ place call a, turn = .answered place call a
    · obtain ⟨place, call, a, rfl⟩ := ha
      have hcall := call_of_step h hs hv
      obtain ⟨hsame, -⟩ := (outcome_of_step h hs hcall).of_failed hp
      rw [hsame, hp]
    · rw [phase_of_idle h hturn (by simpa using ha), hp]
  · rintro place call a work r rfl hw hr
    have hcall := call_of_step h hs hv
    obtain ⟨-, -, hrefused⟩ := (outcome_of_step h hs hcall).of_failed hp
    exact hrefused hw hr
  · rintro place call a rfl hw
    have hcall := call_of_step h hs hv
    exact ((outcome_of_step h hs hcall).of_probe hw (Or.inl hp)).1
  · rintro place call a rfl
    have hcall := call_of_step h hs hv
    obtain ⟨hsame, hreply, -⟩ := (outcome_of_step h hs hcall).of_failed hp
    exact ⟨hreply, hsame⟩

theorem atAbandoned_of_step (h : Step s turn t) (hs : s.Sound)
    (hp : s.client.phase = .abandoned) : AtAbandoned s turn t := by
  have hv : s.client.phase ≠ .vacant := by simp [hp]
  constructor
  · rintro place call a work r rfl hw hr
    have hcall := call_of_step h hs hv
    obtain ⟨-, hdropped⟩ := (outcome_of_step h hs hcall).of_abandoned hp
    exact hdropped hw hr
  · rintro place call a rfl hw
    have hcall := call_of_step h hs hv
    exact (outcome_of_step h hs hcall).of_probe hw (Or.inr hp)
  · intro hturn hfirst
    by_cases ha : ∃ place call a, turn = .answered place call a
    · obtain ⟨place, call, a, rfl⟩ := ha
      have hcall := call_of_step h hs hv
      obtain ⟨hidle, -⟩ := (outcome_of_step h hs hcall).of_abandoned hp
      have hsame : t.client = s.client := by
        apply hidle
        intro work hw
        exact hfirst place call a work rfl hw
      rw [hsame, hp]
    · rw [phase_of_idle h hturn (by simpa using ha), hp]

theorem passes_of_step (h : Step s turn t) (hs : s.Sound) : Passes s turn t where
  leads := leads_of_step h hs
  left := by
    rintro place call rfl
    cases h
    rfl
  closing := by
    rintro place (rfl | ⟨a, rfl⟩)
    · cases h
      rfl
    · exact (close_of_step h hs).2.1
  timeout := by
    rintro place call rfl
    by_cases hcall : call = .close
    · subst hcall
      exact (close_of_step h hs).2.1
    · exact (outcome_of_step h hs hcall).timeout
  faults := by
    rintro place call a rfl hcall ha
    exact (outcome_of_step h hs hcall).faults ha
  unfinished := by
    rintro place call rfl hcall
    exact (outcome_of_step h hs hcall).unfinished
  vacant := atVacant_of_step h hs
  failed := atFailed_of_step h hs
  abandoned := atAbandoned_of_step h hs

theorem leads_of_run (hr : Run s turns t) (hs : s.Sound) : s.client.phase.leads t.client.phase := by
  induction hr with
  | nil => exact Or.inl rfl
  | cons h _ ih => exact Phase.leads_trans (leads_of_step h hs) (ih (sound_of_step h hs))

variable {target : String} {network : Dial} {settings : ConnectSettings}

/-- The life of a connected client only moves forward, and every phase but the first refuses all
calls in its own way. -/
theorem life_cycle (hc : connectTo target network settings = .ready c)
    (hr : Run { client := c } turns s) :
    (∀ turn t, Step s turn t → Passes s turn t) ∧
    (∀ turns t, Run s turns t → s.client.phase.leads t.client.phase) ∧
    (s.client.phase = .failed → ∀ turns t, Run s turns t → Quiet s t) ∧
    ∀ call patience, call ≠ .close → Answers s.client call patience := by
  have hstart : Scene.Sound { client := c } := by
    obtain ⟨server, now, session, e, journal, -, -, rfl⟩ := connectTo_ready hc
    exact ⟨sound_of_settled rfl rfl, by simp⟩
  have hs : s.Sound := hr.invariant sound_of_step hstart
  refine ⟨?_, ?_, ?_, ?_⟩
  · intro turn t h
    exact passes_of_step h hs
  · intro turns t hr'
    exact leads_of_run hr' hs
  · intro hp turns t hr'
    exact quiet_of_run hr' hs hp
  · intro call patience hcall
    exact answers_of_sound hs.client hcall patience

/-- A server that answers the login and then hangs up. -/
def curt : Server where
  accept := []
  answer heard :=
    if heard.length = 1 then obliging.answer heard else [(0, .hangUp)]

theorem life_cycle_curt : ∃ c, connectTo "db" (.reaching curt) ungreeted = .ready c ∧
    (∃ turns s, Run { client := c } turns s ∧ s.client.phase = .failed ∧
      Answers s.client .profile none) ∧
    (∃ turns s, Run { client := c } turns s ∧ s.client.phase = .abandoned ∧
      Answers s.client .profile none) ∧
    ∃ turns s, Run { client := c } turns s ∧ s.client.phase = .vacant ∧
      Answers s.client .profile none := by
  have hready : ((connectTo "db" (.reaching curt) ungreeted).client?.map fun c =>
      (c.phase, (c.roundTrip .fetch none).2.phase)) = some (.serving, .failed) := by
    decide +kernel
  cases hc : connectTo "db" (.reaching curt) ungreeted with
  | refused f | rejected f e => simp [hc, Attempt.client?] at hready
  | ready c =>
    simp only [hc, Attempt.client?, Option.map_some, Option.some.injEq, Prod.mk.injEq] at hready
    obtain ⟨hserving, hfailed⟩ := hready
    obtain ⟨hold, hs, hopen, ho⟩ := phase_serving_iff.mp hserving
    have hp : c.prepare .fetch = .ok (.request .fetch) := rfl
    have hfail : Run { client := c }
        [.queued 0 .fetch, .answered 0 .fetch (c.roundTrip .fetch none).1]
        { client := (c.roundTrip .fetch none).2 } :=
      .alone 0 hp (by simp) (.runs none rfl)
    have hforsake : Run { client := c } [.queued 0 .fetch, .answered 0 .fetch .unfinished]
        { client := c.forsake } :=
      .alone 0 hp (by simp) (.stalls rfl hs ho hopen .forsaken)
    have hqueue : Step { client := c } (.queued 0 .close) { client := c, queue := [(0, .close)] } :=
      .queues 0 (show c.prepare .close = .ok .close from rfl)
    have hvacate : Step { client := c, queue := [(0, .close)] } (.vacated 0)
        { client := { c with slot := none }, parting := some 0 } :=
      @Step.vacates _ 0 [] [] rfl (by simp [isClosed, hs])
    have hempty := Run.cons hqueue (.cons hvacate (.nil _))
    refine ⟨c, rfl, ⟨_, _, hfail, hfailed, ?_⟩, ⟨_, _, hforsake, ?_, ?_⟩, _, _, hempty, rfl, ?_⟩
    · exact (life_cycle hc hfail).2.2.2 .profile none (by simp)
    · exact phase_abandoned_iff.mpr
        ⟨{ hold with replyOwed := true }, by simp [forsake, hs], hopen, rfl⟩
    · exact (life_cycle hc hforsake).2.2.2 .profile none (by simp)
    · exact (life_cycle hc hempty).2.2.2 .profile none (by simp)

end DocClient.Client
