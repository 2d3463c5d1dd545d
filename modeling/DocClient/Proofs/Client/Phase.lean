import DocClient.Proofs.Client.Turns
import DocClient.Proofs.Command

/-!
The phases of a client, and what a call comes to in each. A client serves until a round trip is
abandoned, the channel fails or the slot is emptied.
-/
namespace DocClient.Client

variable {c c' : Client} {e e' : Endpoint} {r : Request} {w : Window} {a : Answer} {work : Work}
  {hold : Hold} {result : Except Halt Reply} {call : Call} {f : Failure}

/-- What a client is still good for. -/
inductive Phase where
  | serving
  /-- A caller has gone away in the middle of its round trip. -/
  | abandoned
  /-- The channel has failed. -/
  | failed
  /-- The slot is empty. -/
  | vacant
  deriving DecidableEq

def phase (c : Client) : Phase :=
  match c.slot with
  | none => .vacant
  | some hold =>
    if c.endpoint.closed then .failed else if hold.replyOwed then .abandoned else .serving

/-- Whether one phase may come after another, or is the same. -/
def Phase.leads (p q : Phase) : Prop := p = q ∨ p = .serving ∨ q = .vacant

theorem Phase.leads_trans {p q r : Phase} (h : p.leads q) (h' : q.leads r) : p.leads r := by
  rcases h with rfl | rfl | rfl
  · exact h'
  · exact Or.inr (Or.inl rfl)
  · rcases h' with rfl | h' | h'
    · exact Or.inr (Or.inr rfl)
    · simp at h'
    · exact Or.inr (Or.inr h')

theorem phase_vacant_iff : c.phase = .vacant ↔ c.slot = none := by
  unfold phase
  cases c.slot with
  | none => simp
  | some hold =>
    simp only [reduceCtorEq, iff_false]
    split
    · simp
    · split <;> simp

theorem isClosed_iff_phase : c.isClosed = true ↔ c.phase = .vacant :=
  isClosed_iff.trans phase_vacant_iff.symm

theorem phase_failed_iff :
    c.phase = .failed ↔ ∃ hold, c.slot = some hold ∧ c.endpoint.closed = true := by
  cases hs : c.slot <;> cases hc : c.endpoint.closed <;> simp [phase, hs, hc]
  split <;> simp

theorem phase_abandoned_iff : c.phase = .abandoned ↔
    ∃ hold, c.slot = some hold ∧ c.endpoint.closed = false ∧ hold.replyOwed = true := by
  cases hs : c.slot <;> cases hc : c.endpoint.closed <;> simp [phase, hs, hc]

theorem phase_serving_iff : c.phase = .serving ↔
    ∃ hold, c.slot = some hold ∧ c.endpoint.closed = false ∧ hold.replyOwed = false := by
  cases hs : c.slot <;> cases hc : c.endpoint.closed <;> simp [phase, hs, hc]

/-- The phase of a client whose endpoint has gone on. -/
theorem phase_moved (hs : c.slot = some hold) (ho : hold.replyOwed = false) (e' : Endpoint) :
    ({ c with endpoint := e' } : Client).phase = if e'.closed then .failed else .serving := by
  simp [phase, hs, ho]

theorem phase_drop (c : Client) : c.drop.phase = .vacant := phase_vacant_iff.mpr rfl

theorem phase_select (selects : Option Name) (c : Client) : (c.select selects).phase = c.phase := by
  cases selects with
  | none => rfl
  | some name => cases hs : c.slot <;> simp [select, phase, hs]

theorem phase_selected (selects : Option Name) (reply : Reply) (c : Client) :
    (if reply.succeeded then c.select selects else c).phase = c.phase := by
  split
  · exact phase_select selects c
  · rfl

/-- The phase that an answer leaves a client in that has been serving. -/
def phaseAfter (c : Client) : Answer → Phase
  | .unfinished => .abandoned
  | .failed .timeout => .vacant
  | .failed (.transport _) => .failed
  | .failed f => if f = c.endpoint.failure .overlong then .failed else .serving
  | .reply _ | .opened | .done => .serving

/-- A reply is owed only over a channel that has not failed. -/
def Sound (c : Client) : Prop :=
  ∀ hold, c.slot = some hold → hold.replyOwed = true → c.endpoint.closed = false

theorem sound_of_settled (hs : c.slot = some hold) (ho : hold.replyOwed = false) : c.Sound := by
  intro hold' hs' ho'
  simp_all

theorem sound_of_vacant (hp : c.phase = .vacant) : c.Sound := by
  intro hold hs
  simp [phase_vacant_iff.mp hp] at hs

/-- A failed request leaves an open channel as its failure says. -/
theorem phase_of_conversed (hs : c.slot = some hold) (ho : hold.replyOwed = false)
    (hc : c.endpoint.closed = false) (h : Conversed r w c.endpoint (.error (.failed f)) e') :
    ({ c with endpoint := e' } : Client).phase = c.phaseAfter (.failed f) := by
  rw [phase_moved hs ho]
  generalize hr : (Except.error (Halt.failed f) : Except Halt Reply) = result at h
  cases h with
  | shut hc' => simp [hc] at hc'
  | unwritten cause _ =>
    obtain rfl := Halt.failed.inj (Except.error.inj hr)
    rfl
  | @answered l l' content _ hw hread =>
    cases hp : Reply.ofLine content with
    | ok reply => simp [hp, halted] at hr
    | error g =>
      obtain rfl : f = g := by simpa [hp, halted] using hr
      obtain ⟨detail, rfl, hd⟩ := Reply.ofLine_error hp
      have hne : ¬ Failure.protocol detail = c.endpoint.failure .overlong := by
        intro he
        simp only [Endpoint.failure, Failure.protocol.injEq, String.append_assoc] at he
        exact hd _ he
      simp [phaseAfter, hc, hne]
  | @spoiled l l' reading fault _ hw hread hf =>
    obtain rfl := Halt.failed.inj (Except.error.inj hr)
    cases reading with
    | line content | expired | unfinished => simp [Reading.fault?] at hf
    | overlong =>
      obtain rfl := Option.some.inj hf
      simp [phaseAfter, Endpoint.failure]
    | ended midLine =>
      cases midLine <;> obtain rfl := Option.some.inj hf <;> rfl
    | reset =>
      obtain rfl := Option.some.inj hf
      rfl
  | expired | unfinished => simp at hr

theorem maxLineBytes_conversed (h : Conversed r w e result e') :
    e'.maxLineBytes = e.maxLineBytes := by
  cases h <;> rfl

/-- A request at a serving client leaves the phase that its answer says. -/
theorem phase_of_trip (h : Trip r c a c') (hp : c.phase = .serving) :
    c'.phase = c.phaseAfter a ∧ c'.Sound := by
  obtain ⟨hold, hs, hc, ho⟩ := phase_serving_iff.mp hp
  cases h with
  | closed hs' => simp [hs] at hs'
  | dropped hs' ho' => simp_all
  | stalled hs' ho' hc' h =>
    cases h with
    | forsaken =>
      refine ⟨phase_abandoned_iff.mpr ⟨{ hold with replyOwed := true }, ?_, hc, rfl⟩, ?_⟩
      · simp [forsake, hs]
      · intro _ _ _
        exact hc
    | expired hl => exact ⟨phase_drop _, sound_of_vacant (phase_drop _)⟩
  | replied hs' ho' h =>
    refine ⟨?_, sound_of_settled hs' ho'⟩
    rw [phase_moved hs' ho', if_neg (by simp [closed_of_conversed h])]
    rfl
  | failed hs' ho' h => exact ⟨phase_of_conversed hs' ho' hc h, sound_of_settled hs' ho'⟩
  | expired hs' ho' h => exact ⟨phase_drop _, sound_of_vacant (phase_drop _)⟩
  | @unfinished hold' w endpoint hs' ho' h =>
    have hopen : endpoint.closed = false := closed_of_waited h (by simp)
    refine ⟨phase_abandoned_iff.mpr ⟨_, rfl, hopen, rfl⟩, ?_⟩
    intro _ _ _
    exact hopen

/-- A request at a client whose channel has failed comes to nothing. -/
theorem trip_of_failed (h : Trip r c a c') (hp : c.phase = .failed) (hsound : c.Sound) :
    a = .failed .channelClosed ∧ c' = c := by
  obtain ⟨hold, hs, hc⟩ := phase_failed_iff.mp hp
  have hshut {w : Window} {result : Except Halt Reply} {e' : Endpoint}
      (h : Conversed r w c.endpoint result e') :
      result = .error (.failed .channelClosed) ∧ e' = c.endpoint := by
    cases h with
    | shut h => exact ⟨rfl, rfl⟩
    | unwritten cause h | answered h | spoiled fault h | expired h | unfinished h =>
      simp [hc] at h
  cases h with
  | closed hs' => simp [hs] at hs'
  | dropped hs' ho' => simp [hsound _ hs' ho'] at hc
  | stalled hs' ho' hc' h => simp [hc] at hc'
  | replied hs' ho' h => simpa using (hshut h).1
  | failed hs' ho' h =>
    obtain ⟨hf, rfl⟩ := hshut h
    obtain rfl : _ = Failure.channelClosed := by simpa using hf
    exact ⟨rfl, rfl⟩
  | expired hs' ho' h => simpa using (hshut h).1
  | unfinished hs' ho' h => simpa using (hshut h).1

/-- The first request after an abandoned one only drops the connection. -/
theorem trip_of_abandoned (h : Trip r c a c') (hp : c.phase = .abandoned) :
    a = .failed .channelClosed ∧ c'.phase = .vacant ∧
      c'.endpoint.link = c.endpoint.link.shutDown.2 := by
  obtain ⟨hold, hs, hc, ho⟩ := phase_abandoned_iff.mp hp
  cases h with
  | dropped hs' ho' => exact ⟨rfl, phase_drop _, link_drop _⟩
  | closed hs' => simp [hs] at hs'
  | stalled hs' ho' | replied hs' ho' | failed hs' ho' | expired hs' ho' | unfinished hs' ho' =>
    simp_all

theorem sound_of_serving (hp : c.phase = .serving) : c.Sound := by
  obtain ⟨hold, hs, -, ho⟩ := phase_serving_iff.mp hp
  exact sound_of_settled hs ho

theorem phaseAfter_congr (h : c'.endpoint.maxLineBytes = c.endpoint.maxLineBytes) (a : Answer) :
    c'.phaseAfter a = c.phaseAfter a := by
  have hf : c'.endpoint.failure .overlong = c.endpoint.failure .overlong := by
    simp [Endpoint.failure, h]
  cases a with
  | failed f => cases f <;> simp [phaseAfter, hf]
  | _ => rfl

theorem maxLineBytes_replied {reply : Reply} (h : Trip r c (.reply reply) c') :
    c'.endpoint.maxLineBytes = c.endpoint.maxLineBytes := by
  obtain ⟨hold, w, endpoint, -, -, hconv, rfl⟩ := replied_of_trip h
  exact maxLineBytes_conversed hconv

theorem phase_of_served (h : Served c work a c') (hp : c.phase = .serving) :
    c'.phase = c.phaseAfter a ∧ c'.Sound := by
  cases h with
  | probe =>
    obtain ⟨hold, hs, -⟩ := phase_serving_iff.mp hp
    exact ⟨by simp [isClosed, hs, phaseAfter, hp], sound_of_serving hp⟩
  | request h | halted h ha => exact phase_of_trip h hp
  | replied h hf =>
    have hp' := (phase_of_trip h hp).1
    rw [← phase_selected] at hp'
    exact ⟨hp', sound_of_serving hp'⟩
  | fetchHalted h hf h' ha =>
    rw [← phaseAfter_congr (maxLineBytes_replied h)]
    exact phase_of_trip h' (phase_of_trip h hp).1
  | fetched h hf h' =>
    have hp' := (phase_of_trip h' (phase_of_trip h hp).1).1
    rw [← phase_selected] at hp'
    exact ⟨hp', sound_of_serving hp'⟩

/-- What is said of a first request that comes to nothing is the answer of the call. -/
theorem trip_of_served {r : Request} (h : Served c work a c') (hw : work.first = some r)
    (hr : ∀ {a c'}, Trip r c a c' → a = .failed .channelClosed) : Trip r c a c' := by
  cases h with
  | probe => simp [Work.first] at hw
  | request h | halted h ha =>
    obtain rfl := Option.some.inj hw
    exact h
  | replied h | fetchHalted h | fetched h =>
    obtain rfl := Option.some.inj hw
    simpa using hr h

theorem served_of_failed (h : Served c work a c') (hp : c.phase = .failed) (hsound : c.Sound)
    (hw : work.first = some r) : a = .failed .channelClosed ∧ c' = c := by
  have htrip : Trip r c a c' := by
    apply trip_of_served h hw
    intro a c' h
    exact (trip_of_failed h hp hsound).1
  exact trip_of_failed htrip hp hsound

theorem served_of_abandoned (h : Served c work a c') (hp : c.phase = .abandoned)
    (hw : work.first = some r) :
    a = .failed .channelClosed ∧ c'.phase = .vacant ∧
      c'.endpoint.link = c.endpoint.link.shutDown.2 := by
  have htrip : Trip r c a c' := by
    apply trip_of_served h hw
    intro a c' h
    exact (trip_of_abandoned h hp).1
  exact trip_of_abandoned htrip hp

/-- What a call other than a close can come to, by the phase in which it finds the client. -/
inductive Outcome (c : Client) (call : Call) : Answer → Client → Prop
  | closed (hp : c.phase = .vacant) : Outcome c call (.failed .closed) c
  | invalid {f : Failure} (hp : c.phase ≠ .vacant) (hw : call.work = .error f)
      (hf : f.ofArguments = true) : Outcome c call (.failed f) c
  | looked (hp : c.phase ≠ .vacant) (hw : call.work = .ok .probe) : Outcome c call .opened c
  | shut {work : Work} {r : Request} (hw : call.work = .ok work) (hr : work.first = some r)
      (hp : c.phase = .failed) : Outcome c call (.failed .channelClosed) c
  | dropped {work : Work} {r : Request} {c' : Client} (hw : call.work = .ok work)
      (hr : work.first = some r) (hp : c.phase = .abandoned) (hp' : c'.phase = .vacant)
      (hl : c'.endpoint.link = c.endpoint.link.shutDown.2) :
      Outcome c call (.failed .channelClosed) c'
  | served {a : Answer} {c' : Client} (hp : c.phase = .serving) (hp' : c'.phase = c.phaseAfter a)
      (hsound : c'.Sound) : Outcome c call a c'

theorem work_error (h : call.work = .error f) : call.isGuarded = true ∧ f.ofArguments = true := by
  cases call with
  | command command => exact Command.statement_error (map_error h)
  | _ => simp [Call.work] at h

theorem outcome_of_refusal (h : c.prepare call = .error f) : Outcome c call (.failed f) c := by
  rcases prepare_error h with ⟨rfl, hc⟩ | ⟨hw, hopen⟩
  · exact .closed (isClosed_iff_phase.mp hc)
  · obtain ⟨hguard, hf⟩ := work_error hw
    refine .invalid ?_ hw hf
    intro hp
    have hunguarded := hopen (isClosed_iff_phase.mpr hp)
    simp [hguard] at hunguarded

theorem outcome_of_served (h : Served c work a c') (hw : call.work = .ok work) (hsound : c.Sound)
    (hclose : work ≠ .close) : Outcome c call a c' := by
  cases hp : c.phase with
  | vacant =>
    obtain ⟨rfl, rfl⟩ := served_closed (phase_vacant_iff.mp hp) h
    exact .closed hp
  | serving =>
    obtain ⟨hp', hs'⟩ := phase_of_served h hp
    exact .served hp hp' hs'
  | failed | abandoned =>
    cases hfirst : work.first with
    | none =>
      cases work with
      | probe =>
        have hopen : c.isClosed = false := by simp [← Bool.not_eq_true, isClosed_iff_phase, hp]
        cases h with
        | probe =>
          rw [hopen]
          exact .looked (by simp [hp]) hw
      | close => exact absurd rfl hclose
      | query line selects | request r => simp [Work.first] at hfirst
    | some r =>
      first
      | obtain ⟨rfl, rfl⟩ := served_of_failed h hp hsound hfirst
        exact .shut hw hfirst hp
      | obtain ⟨rfl, hp', hl⟩ := served_of_abandoned h hp hfirst
        exact .dropped hw hfirst hp hp' hl

theorem Outcome.leads (h : Outcome c call a c') : c.phase.leads c'.phase := by
  cases h with
  | closed | invalid | looked | shut => exact Or.inl rfl
  | dropped hw hr hp hp' => exact Or.inr (Or.inr hp')
  | served hp => exact Or.inr (Or.inl hp)

theorem Outcome.sound (h : Outcome c call a c') (hs : c.Sound) : c'.Sound := by
  cases h with
  | closed | invalid | looked | shut => exact hs
  | dropped hw hr hp hp' => exact sound_of_vacant hp'
  | served hp hp' hsound => exact hsound

/-- The answers that tell of a fault of the stream. -/
def Faults (c : Client) (a : Answer) : Prop :=
  (∃ detail, a = .failed (.transport detail)) ∨ a = .failed (c.endpoint.failure .overlong)

theorem ne_of_arguments (h : f.ofArguments = true) :
    f ≠ .timeout ∧ ¬ c.Faults (.failed f) := by
  cases f <;> simp_all [Failure.ofArguments, Faults, Endpoint.failure]

theorem Outcome.timeout (h : Outcome c call (.failed .timeout) c') : c'.phase = .vacant := by
  generalize ha : Answer.failed .timeout = a at h
  cases h with
  | closed | looked | shut | dropped => simp at ha
  | invalid hp hw hf => exact absurd (Answer.failed.inj ha).symm (ne_of_arguments (c := c) hf).1
  | served hp hp' =>
    rw [hp', ← ha]
    rfl

theorem Outcome.faults (h : Outcome c call a c') (ha : c.Faults a) : c'.phase = .failed := by
  cases h with
  | closed | looked | shut | dropped => simp [Faults, Endpoint.failure] at ha
  | invalid hp hw hf => exact absurd ha (ne_of_arguments hf).2
  | served hp hp' =>
    rw [hp']
    rcases ha with ⟨detail, rfl⟩ | rfl
    · rfl
    · simp [phaseAfter, Endpoint.failure]

theorem Outcome.unfinished (h : Outcome c call .unfinished c') : c'.phase = .abandoned := by
  generalize ha : Answer.unfinished = a at h
  cases h with
  | served hp hp' =>
    rw [hp', ← ha]
    rfl
  | _ => simp at ha

theorem Outcome.of_vacant (h : Outcome c call a c') (hp : c.phase = .vacant) :
    a = .failed .closed ∧ c' = c := by
  cases h with
  | closed => exact ⟨rfl, rfl⟩
  | invalid hp' | looked hp' => exact absurd hp hp'
  | shut _ _ hp' | dropped _ _ hp' | served hp' => simp [hp] at hp'

/-- A look at a client tells of an empty slot only. -/
theorem Outcome.of_probe (h : Outcome c call a c') (hw : call.work = .ok .probe)
    (hp : c.phase = .failed ∨ c.phase = .abandoned) : a = .opened ∧ c' = c := by
  cases h with
  | looked => exact ⟨rfl, rfl⟩
  | closed hp' | served hp' => simp [hp'] at hp
  | invalid _ hw' => simp [hw] at hw'
  | shut hw' hr | dropped hw' hr =>
    obtain rfl := Except.ok.inj (hw.symm.trans hw')
    simp [Work.first] at hr

theorem Outcome.of_failed (h : Outcome c call a c') (hp : c.phase = .failed) :
    c' = c ∧ (∀ reply, a ≠ .reply reply) ∧
      ∀ {work r}, call.work = .ok work → work.first = some r → a = .failed .channelClosed := by
  cases h with
  | invalid hp' hw => exact ⟨rfl, by simp, by simp [hw]⟩
  | looked hp' hw =>
    refine ⟨rfl, by simp, ?_⟩
    intro work r hw' hr
    obtain rfl := Except.ok.inj (hw.symm.trans hw')
    simp [Work.first] at hr
  | shut => exact ⟨rfl, by simp, by simp⟩
  | closed hp' | dropped _ _ hp' | served hp' => simp [hp] at hp'

theorem Outcome.of_abandoned (h : Outcome c call a c') (hp : c.phase = .abandoned) :
    ((∀ work, call.work = .ok work → work.first = none) → c' = c) ∧
      ∀ {work r}, call.work = .ok work → work.first = some r →
        a = .failed .channelClosed ∧ c'.phase = .vacant ∧
          c'.endpoint.link = c.endpoint.link.shutDown.2 := by
  cases h with
  | invalid hp' hw => exact ⟨by simp, by simp [hw]⟩
  | looked hp' hw =>
    refine ⟨by simp, ?_⟩
    intro work r hw' hr
    obtain rfl := Except.ok.inj (hw.symm.trans hw')
    simp [Work.first] at hr
  | dropped hw hr _ hv hl =>
    constructor
    · intro hn
      simp [hn _ hw] at hr
    · intro work r _ _
      exact ⟨rfl, hv, hl⟩
  | closed hp' | shut _ _ hp' | served hp' => simp [hp] at hp'

theorem outcome_of_call {patience : Option Nat} (h : c.call call patience = (a, c'))
    (hs : c.Sound) (hcall : call ≠ .close) : Outcome c call a c' := by
  unfold Client.call at h
  split at h
  · next f hp =>
    obtain ⟨rfl, rfl⟩ := Prod.mk.inj h
    exact outcome_of_refusal hp
  · next work hp =>
    have hw := (prepare_ok hp).1
    have hclose := work_ne_close hw hcall
    exact outcome_of_served (served_of_run hclose h) hw hs hclose

/-- What a caller gets at once whom nobody disturbs. -/
structure Answers (c : Client) (call : Call) (patience : Option Nat) : Prop where
  vacant : c.phase = .vacant → c.call call patience = (.failed .closed, c)
  failed : c.phase = .failed → ∀ {work r}, call.work = .ok work → work.first = some r →
    c.call call patience = (.failed .channelClosed, c)
  abandoned : c.phase = .abandoned → ∀ {work r}, call.work = .ok work → work.first = some r →
    ∃ c', c.call call patience = (.failed .channelClosed, c') ∧ c'.phase = .vacant ∧
      c'.endpoint.link = c.endpoint.link.shutDown.2

theorem answers_of_sound (hs : c.Sound) (hcall : call ≠ .close) (patience : Option Nat) :
    Answers c call patience := by
  rcases h : c.call call patience with ⟨a, c'⟩
  have ho := outcome_of_call h hs hcall
  constructor
  · intro hp
    obtain ⟨rfl, rfl⟩ := ho.of_vacant hp
    exact h
  · intro hp work r hw hr
    obtain ⟨rfl, -, ha⟩ := ho.of_failed hp
    rw [h, ha hw hr]
  · intro hp work r hw hr
    obtain ⟨ha, hv, hl⟩ := (ho.of_abandoned hp).2 hw hr
    exact ⟨c', by rw [h, ha], hv, hl⟩

end DocClient.Client
