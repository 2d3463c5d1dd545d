import DocClient.Proofs.Client.Traffic

/-!
When the end of a connection is told of. A channel that is still of use when it is closed or
dropped has its closing told of, once and last; a channel that a fault of the stream has ended is
given up without a word, and no later close makes good for it.
-/
namespace DocClient.Client

variable {c c' : Client} {a : Answer} {work : Work} {s t u : Scene} {turn : Turn}
  {turns : List Turn} {call : Call} {target : String} {network : Dial}
  {settings : ConnectSettings} {place : Nat} {r : Request}

/-- What a turn makes known of the end of a connection. -/
structure TellsEnd (target : String) (s : Scene) (turn : Turn) (t : Scene) : Prop where
  timeout : ∀ {place call}, turn = .answered place call (.failed .timeout) →
    t.client.endpoint.Account target [.closed target]
  abandoned : s.client.phase = .abandoned → ∀ {place call a work r},
    turn = .answered place call a → call.work = .ok work → work.first = some r →
      t.client.endpoint.Account target [.closed target]
  /-- The close that has emptied the slot is answered. Its goodbye may meet a fault, too. -/
  parted : ∀ {place}, s.parting = some place → t.parting = none →
    (turn = .answered place .close .done ∧ ∃ e, Farewell s.client.endpoint e ∧
      t.client.endpoint.Account target (if e.closed then [] else [.closed target])) ∨
    turn = .answered place .close .unfinished ∧ t.client.endpoint.Account target []

theorem work_of_timeout (h : Step s (.answered place call (.failed .timeout)) t) :
    s.client.isClosed = false ∧ call ≠ .close := by
  generalize ha : Answer.failed .timeout = a at h
  cases h with
  | refuses _ h =>
    obtain rfl := Answer.failed.inj ha
    rcases prepare_error h with ⟨hf, -⟩ | ⟨hw, -⟩
    · simp at hf
    · have hf := (work_error hw).2
      simp [Failure.ofArguments] at hf
  | @works _ _ work _ client before after hq hw hc h =>
    by_cases hclose : call = .close
    · have hvacant := isClosed_iff.mp (hc hclose)
      subst hclose
      have hdone := (works_vacant hvacant h).2 (Except.ok.inj hw).symm
      simp [hdone] at ha
    · refine ⟨?_, hclose⟩
      cases hslot : s.client.slot with
      | some hold => simp [isClosed, hslot]
      | none =>
        have hserved := served_of_works (work_ne_close hw hclose) h
        have hclosed := (served_closed hslot hserved).1
        simp [hclosed] at ha
  | parts patience hp h =>
    subst ha
    have hparted := parted_of_goodbye h
    generalize hx : Answer.failed .timeout = a at hparted
    cases hparted <;> simp at hx
  | forsakesGoodbye hp hc => simp at ha

/-- A call that empties the slot tells of the closing. -/
theorem account_of_dropped (h : Step s (.answered place call a) t) (hcall : call ≠ .close)
    (hs : s.Accounted target) (ho : s.client.isClosed = false) (hc : t.client.isClosed = true) :
    t.client.endpoint.Account target [.closed target] := by
  have hkeeps : t.client = s.client → t.client.endpoint.Account target [.closed target] := by
    intro he
    simp [he, ho] at hc
  cases h with
  | refuses _ h => exact hkeeps rfl
  | @works _ _ work _ client before after hq hw hcl h =>
    have ha : client.Accounted target :=
      accounted_of_works hw hcl h ho (hs.pending (Or.inl ho)) hs.sound.client
    rw [Client.Accounted, if_pos hc] at ha
    exact ha
  | parts patience hp h => exact absurd rfl hcall
  | forsakesGoodbye hp hcl => exact absurd rfl hcall

theorem tellsEnd_of_step (h : Step s turn t) (hs : s.Accounted target) : TellsEnd target s turn t where
  timeout := by
    rintro place call rfl
    obtain ⟨ho, hcall⟩ := work_of_timeout h
    have hp := (outcome_of_step h hs.sound hcall).timeout
    exact account_of_dropped h hcall hs ho (isClosed_iff_phase.mpr hp)
  abandoned := by
    rintro hp place call a work r rfl hw hr
    have hcall : call ≠ .close := by
      rintro rfl
      obtain rfl := Except.ok.inj hw
      simp [Work.first] at hr
    have ho : s.client.isClosed = false := by simp [← Bool.not_eq_true, isClosed_iff_phase, hp]
    obtain ⟨-, hv, -⟩ := ((outcome_of_step h hs.sound hcall).of_abandoned hp).2 hw hr
    exact account_of_dropped h hcall hs ho (isClosed_iff_phase.mpr hv)
  parted := by
    intro place hp hp'
    exact account_of_close h hs hp hp'

/-- The end of a connection is told of by whoever closes or drops a channel that is still of use,
and by nobody once a fault of the stream has been noticed; afterwards nothing is told any more. -/
theorem end_told (target : String) (network : Dial) (settings : ConnectSettings) :
    (∀ f e, connectTo target network settings = .rejected f e →
      ∃ server now halt e₀,
        network.reached? settings.connectLimit.microseconds = some (now, server) ∧
        Logged (network.peer target) settings server now (.error halt) e₀ ∧
        e.Account (network.peer target)
          (if e₀.closed then [] else [.closed (network.peer target)])) ∧
    ∀ c turns s, connectTo target network settings = .ready c → Run { client := c } turns s →
      (s.client.isClosed = false → s.client.endpoint.Account (network.peer target) []) ∧
      (∀ turn t, Step s turn t → TellsEnd (network.peer target) s turn t) ∧
      (s.client.endpoint.closed = true →
        ∀ turns t, Run s turns t → t.client.events = s.client.events) ∧
      (s.client.phase = .failed →
        ∀ turns t, Run s turns t → ∀ event ∈ t.client.events, event.isClosing = false) := by
  refine ⟨?_, ?_⟩
  · intro f e h
    exact account_of_rejected h
  · intro c turns s hc hr
    have hs := accounted_of_run hc hr
    refine ⟨?_, ?_, ?_, ?_⟩
    · intro ho
      exact hs.pending (Or.inl ho)
    · intro turn t h
      exact tellsEnd_of_step h hs
    · intro hclosed turns t hr'
      exact (quiet_of_closed hr' hs.sound hclosed).events
    · intro hp turns t hr'
      obtain ⟨hold, hslot, hclosed⟩ := phase_failed_iff.mp hp
      obtain ⟨told, htold, he⟩ := (hs.pending (Or.inl (by simp [isClosed, hslot]))).told
      have hevents : t.client.events = .connected (network.peer target) :: told := by
        rw [List.append_nil] at he
        exact (quiet_of_closed hr' hs.sound hclosed).events.trans he
      rw [hevents]
      intro event hm
      rcases List.mem_cons.mp hm with rfl | hm
      · rfl
      · exact htold.not_closing event hm

/-- A connection of which a call has found that the peer hung up. -/
theorem end_told_curt : ∃ c turns s, connectTo "db" (.reaching curt) ungreeted = .ready c ∧
    Run { client := c } turns s ∧ s.client.phase = .failed ∧
    ∀ turns t, Run s turns t → ∀ event ∈ t.client.events, event.isClosing = false := by
  have hready : ((connectTo "db" (.reaching curt) ungreeted).client?.map fun c =>
      (c.roundTrip .fetch none).2.phase) = some .failed := by
    decide +kernel
  cases hc : connectTo "db" (.reaching curt) ungreeted with
  | refused f | rejected f e => simp [hc, Attempt.client?] at hready
  | ready c =>
    have hfailed : (c.roundTrip .fetch none).2.phase = .failed := by
      simpa [hc, Attempt.client?] using hready
    have hp : c.prepare .fetch = .ok (.request .fetch) := rfl
    have hrun := Run.alone 0 hp (by simp) (.runs none rfl)
    exact ⟨c, _, _, rfl, hrun, hfailed, (end_told _ _ _).2 c _ _ hc hrun |>.2.2.2 hfailed⟩

/-- The client has been closed, and the sink does not know of it: the peer hung up before. -/
theorem end_untold :
    ((connectTo "db" (.reaching curt) ungreeted).client?.map fun c =>
      let c := ((c.call .fetch none).2.call .close none).2
      (c.isClosed, c.endpoint.closed, c.events)) =
    some (true, true,
      [.connected "db", .sent redactedLogin, .received "\x7b\"Status\":\"ok\"\x7d",
        .sent "\x7b\"Command\":\"FETCH\"\x7d"]) := by
  decide +kernel

end DocClient.Client
