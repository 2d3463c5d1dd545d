import DocClient.Proofs.Client.Talk
import DocClient.Proofs.Client.Turns
import DocClient.Proofs.Login.Handshake

/-!
What a client and its callers put on the wire. Whatever ends a request early is noted in one of
three places: the slot is emptied, the endpoint is closed, or the slot holds that a reply is owed.
-/
namespace DocClient.Client

open Text (Bytes)

variable {d : UInt8} {stage : Stage} {e e' : Endpoint} {r : Request} {w : Window}
  {result : Except Halt Reply} {c c' : Client} {a : Answer} {work : Work}

theorem Conversed.delimiter (h : Conversed r w e result e') :
    e'.link.delimiter = e.link.delimiter := by
  cases h with
  | shut h => rfl
  | unwritten cause h => rfl
  | answered h hw hr | spoiled fault h hw hr hf | expired h hw hr | unfinished h hw hr =>
    exact (Link.read_delimiter hr).trans (Link.write_delimiter hw)

/-- A request over an open endpoint leaves a settled conversation settled, unless its reply has
not been read; then the endpoint has been closed, or the caller knows. -/
theorem talk_of_conversed (h : Conversed r w e result e') (hd : e.link.delimiter = d)
    (hr : r.keyword ∈ callKeywords) (ht : Talk d stage e.link.transcript)
    (hs : stage = .settled ∨ stage = .awaiting ∧ e.closed = true) :
    ∃ stage', Talk d stage' e'.link.transcript ∧
      (stage' = .settled ∨ stage' = .awaiting ∧
        (e'.closed = true ∨ result = .error .expired ∨ result = .error .unfinished)) := by
  have hsettled (hc : e.closed = false) : Talk d .settled e.link.transcript := by
    rcases hs with rfl | ⟨-, hs⟩
    · exact ht
    · simp [hc] at hs
  have hasked {l : Link} (hc : e.closed = false)
      (hw : e.link.write (e.frame r.line) = (.ok (), l)) :
      Talk d .awaiting l.transcript := by
    rw [Link.write_transcript hw]
    exact hd ▸ .request hr (hd ▸ hsettled hc)
  have hunread {l l' : Link} {reading : Reading} (hc : e.closed = false)
      (hw : e.link.write (e.frame r.line) = (.ok (), l))
      (hr : l.read e.room w = (reading, l')) (hq : reading.transfers = []) :
      Talk d .awaiting l'.transcript := by
    rw [Link.read_transcript hr, hq, List.append_nil]
    exact hasked hc hw
  cases h with
  | shut h => exact ⟨stage, ht, by simpa [h] using hs⟩
  | unwritten cause h => exact ⟨.settled, hsettled h, Or.inl rfl⟩
  | answered h hw hr =>
    refine ⟨.settled, ?_, Or.inl rfl⟩
    rw [Link.read_transcript hr]
    exact .reply _ (hasked h hw)
  | spoiled fault h hw hr hf =>
    exact ⟨_, hunread h hw hr (Reading.transfers_of_fault hf), Or.inr ⟨rfl, Or.inl rfl⟩⟩
  | expired h hw hr => exact ⟨_, hunread h hw hr rfl, by simp⟩
  | unfinished h hw hr => exact ⟨_, hunread h hw hr rfl, by simp⟩

/-- Over the connection in the slot nothing is owed, or it is noted that no request may follow. -/
structure Conversing (d : UInt8) (stage : Stage) (c : Client) : Prop where
  delimiter : c.endpoint.link.delimiter = d
  talk : Talk d stage c.endpoint.link.transcript
  held : ∀ {hold}, c.slot = some hold →
    stage = .settled ∨ stage = .awaiting ∧ (hold.replyOwed = true ∨ c.endpoint.closed = true)

theorem conversing_drop (hd : c.endpoint.link.delimiter = d)
    (ht : Talk d stage c.endpoint.link.transcript) : c.drop.Conversing d stage := by
  obtain ⟨journal, he⟩ := drop_eq c
  rw [he]
  exact ⟨hd, ht, by simp⟩

theorem conversing_of_trip (h : Trip r c a c') (hr : r.keyword ∈ callKeywords)
    (hc : c.Conversing d stage) : ∃ stage', c'.Conversing d stage' := by
  have hfree {hold : Hold} (hs : c.slot = some hold) (ho : hold.replyOwed = false) :
      stage = .settled ∨ stage = .awaiting ∧ c.endpoint.closed = true := by
    simpa [ho] using hc.held hs
  cases h with
  | closed hs => exact ⟨stage, hc⟩
  | dropped hs ho => exact ⟨stage, conversing_drop hc.delimiter hc.talk⟩
  | stalled hs ho hopen h =>
    cases h with
    | forsaken =>
      refine ⟨stage, hc.delimiter, hc.talk, ?_⟩
      intro hold' hs'
      rcases hfree hs ho with hst | ⟨-, hcl⟩
      · exact Or.inl hst
      · simp [hopen] at hcl
    | expired hl => exact ⟨stage, conversing_drop hc.delimiter hc.talk⟩
  | replied hs ho h | failed hs ho h =>
    obtain ⟨stage', ht, hst⟩ := talk_of_conversed h hc.delimiter hr hc.talk (hfree hs ho)
    refine ⟨stage', h.delimiter.trans hc.delimiter, ht, ?_⟩
    intro hold' hs'
    rcases hst with hst | ⟨hst, hend⟩
    · exact Or.inl hst
    · exact Or.inr ⟨hst, Or.inr (by simpa using hend)⟩
  | expired hs ho h =>
    obtain ⟨stage', ht, -⟩ := talk_of_conversed h hc.delimiter hr hc.talk (hfree hs ho)
    exact ⟨stage', conversing_drop (h.delimiter.trans hc.delimiter) ht⟩
  | unfinished hs ho h =>
    obtain ⟨stage', ht, hst⟩ := talk_of_conversed h hc.delimiter hr hc.talk (hfree hs ho)
    refine ⟨stage', h.delimiter.trans hc.delimiter, ht, ?_⟩
    intro hold' hs'
    obtain rfl := Option.some.inj hs'
    rcases hst with hst | ⟨hst, -⟩
    · exact Or.inl hst
    · exact Or.inr ⟨hst, Or.inl rfl⟩

theorem conversing_select (selects : Option Name) (hc : c.Conversing d stage) :
    (c.select selects).Conversing d stage := by
  cases selects with
  | none => exact hc
  | some name =>
    refine ⟨hc.delimiter, hc.talk, ?_⟩
    intro hold' hs'
    obtain ⟨hold, hs, rfl⟩ := Option.map_eq_some_iff.mp hs'
    simpa [select] using hc.held hs

theorem conversing_of_served (h : Served c work a c')
    (hw : ∀ r, work = .request r → r.keyword ∈ callKeywords)
    (hc : c.Conversing d stage) : ∃ stage', c'.Conversing d stage' := by
  have hquery {line : String} {a : Answer} {c' : Client} (h : Trip (.query line) c a c') :
      ∃ stage', c'.Conversing d stage' :=
    conversing_of_trip h (by simp [Request.query, callKeywords]) hc
  have hselect {reply : Reply} {selects : Option Name} {stage : Stage} {c' : Client}
      (hc : c'.Conversing d stage) :
      (if reply.succeeded then c'.select selects else c').Conversing d stage := by
    split
    · exact conversing_select selects hc
    · exact hc
  cases h with
  | probe => exact ⟨stage, hc⟩
  | request h => exact conversing_of_trip h (hw _ rfl) hc
  | halted h ha => exact hquery h
  | replied h hf =>
    obtain ⟨stage', hc'⟩ := hquery h
    exact ⟨stage', hselect hc'⟩
  | fetchHalted h hf h' ha =>
    obtain ⟨stage', hc'⟩ := hquery h
    exact conversing_of_trip h' (by simp [Request.fetch, callKeywords]) hc'
  | fetched h hf h' =>
    obtain ⟨stage', hc'⟩ := hquery h
    obtain ⟨stage'', hc''⟩ := conversing_of_trip h' (by simp [Request.fetch, callKeywords]) hc'
    exact ⟨stage'', hselect hc''⟩

/-- A goodbye is written at most, and a line taken for it. -/
theorem transcript_of_parted (h : Parted c a c') :
    c'.endpoint.link.transcript = c.endpoint.link.transcript ∨
      ∃ farewell : List Bytes, farewell.length ≤ 1 ∧
        c'.endpoint.link.transcript = c.endpoint.link.transcript
          ++ .wrote (Request.quit.frame c.endpoint.link.delimiter) :: farewell.map .took := by
  have hsaid {e e' : Endpoint} {w : Window} {result : Except Halt String}
      (h : c.endpoint.Sent Request.quit.line Request.quit.line (.ok ()) e)
      (hr : Endpoint.Received w e result e') :
      ∃ farewell : List Bytes, farewell.length ≤ 1 ∧
        e'.link.transcript = c.endpoint.link.transcript
          ++ .wrote (Request.quit.frame c.endpoint.link.delimiter) :: farewell.map .took := by
    rcases h.transcript with ⟨-, he⟩ | ⟨he, -⟩
    · rcases hr.transcript with ⟨line, hl⟩ | ⟨hl, -⟩
      · exact ⟨[line], Nat.le_refl 1, by simp [hl, he, Endpoint.frame, Request.frame]⟩
      · exact ⟨[], Nat.zero_le 1, by simp [hl, he, Endpoint.frame, Request.frame]⟩
    · simp at he
  cases h with
  | unsaid h =>
    obtain ⟨journal, he⟩ := finish_eq { c with endpoint := _ }
    rw [he]
    rcases h.transcript with ⟨hr, -⟩ | ⟨-, ht⟩
    · simp at hr
    · exact Or.inl ht
  | said h hr =>
    have ht := hsaid h hr
    obtain ⟨journal, he⟩ := finish_eq { c with endpoint := _ }
    rw [he]
    exact Or.inr ht
  | unanswered h hr =>
    have he := hsaid h hr
    exact Or.inr he
  | forsaken h => exact Or.inl rfl

/-- A goodbye, if it is written, ends the conversation. -/
theorem talk_of_parted (h : Parted c a c') (hd : c.endpoint.link.delimiter = d)
    (ht : Talk d stage c.endpoint.link.transcript) (hs : stage = .settled ∨ stage = .awaiting) :
    ∃ stage', Talk d stage' c'.endpoint.link.transcript := by
  rcases transcript_of_parted h with he | ⟨farewell, hl, he⟩
  · exact ⟨stage, he ▸ ht⟩
  · rw [he, hd]
    cases farewell with
    | nil => exact ⟨_, .quit hs ht⟩
    | cons line rest =>
      obtain rfl : rest = [] := by simpa using hl
      have hf := Talk.farewell line (.quit hs ht)
      exact ⟨.ended, by simpa using hf⟩

/-- What is known of a scene: the client converses, and a close that is still to say goodbye has
the connection for itself. -/
structure Scene.Conversing (d : UInt8) (stage : Stage) (s : Scene) : Prop where
  client : s.client.Conversing d stage
  vacated : s.parting ≠ none → s.client.slot = none
  parting : s.parting ≠ none → stage = .settled ∨ stage = .awaiting

theorem conversing_of_step {s t : Scene} {turn : Turn} (h : Step s turn t)
    (hi : s.Conversing d stage) : ∃ stage', t.Conversing d stage' := by
  have hvacated := parting_of_step h hi.vacated
  cases h with
  | queues | refuses | leaves => exact ⟨stage, hi.client, hvacated, hi.parting⟩
  | rests microseconds =>
    exact ⟨stage, ⟨hi.client.delimiter, hi.client.talk, hi.client.held⟩, hvacated, hi.parting⟩
  | @works place call work a client before after hq hw hc h =>
    cases hs : s.client.slot with
    | none => exact ⟨stage, (works_vacant hs h).1 ▸ hi.client, hvacated, hi.parting⟩
    | some hold =>
      have hclose : work ≠ .close := by
        rintro rfl
        simpa [isClosed, hs] using hc (work_close hw)
      have hreq : ∀ r, work = .request r → r.keyword ∈ callKeywords := by
        rintro r rfl
        exact work_request hw
      obtain ⟨stage', hi'⟩ := conversing_of_served (served_of_works hclose h) hreq hi.client
      refine ⟨stage', hi', hvacated, ?_⟩
      intro hp
      simpa [hs] using hi.vacated hp
  | vacates hq hc =>
    cases hs : s.client.slot with
    | none => simp [isClosed, hs] at hc
    | some hold =>
      refine ⟨stage, ⟨hi.client.delimiter, hi.client.talk, by simp⟩, hvacated, ?_⟩
      intro hp
      rcases hi.client.held hs with hst | ⟨hst, -⟩
      · exact Or.inl hst
      · exact Or.inr hst
  | parts patience hp h =>
    have hn : s.parting ≠ none := by simp [hp]
    have hparted := parted_of_goodbye h
    obtain ⟨stage', ht⟩ :=
      talk_of_parted hparted hi.client.delimiter hi.client.talk (hi.parting hn)
    refine ⟨stage', ⟨(parted_eq hparted).2.2.trans hi.client.delimiter, ht, ?_⟩, hvacated, by simp⟩
    simp [slot_of_parted hparted, hi.vacated hn]
  | forsakesGoodbye hp hc =>
    exact ⟨stage, ⟨hi.client.delimiter, hi.client.talk, hi.client.held⟩, hvacated, by simp⟩

/-- The keywords of what may be written in a turn. Only a close says goodbye. -/
def Turn.keywords : Turn → List Keyword
  | .answered _ .close _ => [.quit]
  | .answered _ _ _ => callKeywords
  | .queued _ _ | .left _ _ | .vacated _ | .rested _ => []

theorem Turn.keywords_answered {call : Call} (place : Nat) (a : Answer) (h : call ≠ .close) :
    (Turn.answered place call a).keywords = callKeywords := by
  cases call <;> first | rfl | exact absurd rfl h

/-- What is written between two moments are requests with the given keywords. -/
def Adds (d : UInt8) (keywords : List Keyword) (t t' : List Transfer) : Prop :=
  ∃ asked : List Request, written t' = written t ++ asked.map (Request.frame d) ∧
    ∀ r ∈ asked, r.keyword ∈ keywords

variable {keywords : List Keyword} {t t' t'' : List Transfer}

theorem Adds.refl (h : written t' = written t) : Adds d keywords t t' :=
  ⟨[], by simp [h], by simp⟩

theorem Adds.one (hr : r.keyword ∈ keywords) (h : written t' = written t ++ [r.frame d]) :
    Adds d keywords t t' :=
  ⟨[r], by simp [h], by simpa using hr⟩

theorem Adds.trans (h : Adds d keywords t t') (h' : Adds d keywords t' t'') :
    Adds d keywords t t'' := by
  obtain ⟨asked, hw, ha⟩ := h
  obtain ⟨asked', hw', ha'⟩ := h'
  refine ⟨asked ++ asked', by simp [hw, hw'], ?_⟩
  intro r hr
  rcases List.mem_append.mp hr with hr | hr
  · exact ha r hr
  · exact ha' r hr

/-- A request is written once or not at all. -/
theorem written_of_conversed (h : Conversed r w e result e') :
    written e'.link.transcript = written e.link.transcript ∨
      written e'.link.transcript = written e.link.transcript ++ [r.frame e.link.delimiter] := by
  cases h with
  | shut h | unwritten cause h => exact Or.inl rfl
  | answered h hw hread | spoiled fault h hw hread hf | expired h hw hread
  | unfinished h hw hread =>
    right
    rw [Link.read_written hread, Link.write_transcript hw, written_append]
    rfl

theorem written_of_trip (h : Trip r c a c') :
    c'.endpoint.link.delimiter = c.endpoint.link.delimiter ∧
      (written c'.endpoint.link.transcript = written c.endpoint.link.transcript ∨
        written c'.endpoint.link.transcript
          = written c.endpoint.link.transcript ++ [r.frame c.endpoint.link.delimiter]) := by
  cases h with
  | closed hs => exact ⟨rfl, Or.inl rfl⟩
  | dropped hs ho =>
    rw [link_drop]
    exact ⟨rfl, Or.inl rfl⟩
  | stalled hs ho hopen h =>
    cases h with
    | forsaken => exact ⟨rfl, Or.inl rfl⟩
    | expired hl =>
      rw [link_drop]
      exact ⟨rfl, Or.inl rfl⟩
  | replied hs ho h | failed hs ho h | unfinished hs ho h =>
    exact ⟨h.delimiter, written_of_conversed h⟩
  | expired hs ho h =>
    have hw := written_of_conversed h
    rw [link_drop]
    exact ⟨h.delimiter, hw⟩

theorem adds_of_trip (h : Trip r c a c') (hr : r.keyword ∈ keywords) :
    c'.endpoint.link.delimiter = c.endpoint.link.delimiter ∧
      Adds c.endpoint.link.delimiter keywords c.endpoint.link.transcript
        c'.endpoint.link.transcript := by
  obtain ⟨hd, hw | hw⟩ := written_of_trip h
  · exact ⟨hd, .refl hw⟩
  · exact ⟨hd, .one hr hw⟩

theorem endpoint_select (selects : Option Name) (reply : Reply) (c : Client) :
    (if reply.succeeded then c.select selects else c).endpoint = c.endpoint := by
  unfold select
  split
  · split <;> rfl
  · rfl

theorem adds_of_served (h : Served c work a c')
    (hw : ∀ r, work = .request r → r.keyword ∈ callKeywords) :
    Adds c.endpoint.link.delimiter callKeywords c.endpoint.link.transcript
      c'.endpoint.link.transcript := by
  have hq (line : String) : (Request.query line).keyword ∈ callKeywords := by
    simp [Request.query, callKeywords]
  have hf : Request.fetch.keyword ∈ callKeywords := by simp [Request.fetch, callKeywords]
  cases h with
  | probe => exact .refl rfl
  | request h => exact (adds_of_trip h (hw _ rfl)).2
  | halted h ha => exact (adds_of_trip h (hq _)).2
  | replied h _ =>
    rw [endpoint_select]
    exact (adds_of_trip h (hq _)).2
  | fetchHalted h _ h' ha =>
    obtain ⟨hd, ht⟩ := adds_of_trip h (hq _)
    exact ht.trans (hd ▸ (adds_of_trip h' hf).2)
  | fetched h _ h' =>
    obtain ⟨hd, ht⟩ := adds_of_trip h (hq _)
    rw [endpoint_select]
    exact ht.trans (hd ▸ (adds_of_trip h' hf).2)

theorem written_map_took (lines : List Bytes) : written (lines.map .took) = [] := by
  induction lines with
  | nil => rfl
  | cons line lines ih => simpa using ih

theorem adds_of_parted (h : Parted c a c') :
    Adds c.endpoint.link.delimiter [.quit] c.endpoint.link.transcript
      c'.endpoint.link.transcript := by
  rcases transcript_of_parted h with he | ⟨farewell, -, he⟩
  · exact .refl (congrArg written he)
  · refine Adds.one (show Request.quit.keyword ∈ [.quit] by simp [Request.quit]) ?_
    simp [he, written_map_took]

theorem adds_of_step {s t : Scene} {turn : Turn} (h : Step s turn t) :
    Adds s.client.endpoint.link.delimiter turn.keywords s.client.endpoint.link.transcript
      t.client.endpoint.link.transcript := by
  cases h with
  | queues place h | refuses place h | leaves hq | rests microseconds | vacates hq hc
  | forsakesGoodbye hp hc => exact .refl rfl
  | @works place call work a client before after hq hw hc h =>
    by_cases hclose : call = .close
    · rw [(works_vacant (isClosed_iff.mp (hc hclose)) h).1]
      exact .refl rfl
    · rw [Turn.keywords_answered place a hclose]
      apply adds_of_served (served_of_works (work_ne_close hw hclose) h)
      rintro r rfl
      exact work_request hw
  | parts patience hp h => exact adds_of_parted (parted_of_goodbye h)

/-- What has been written stays written. -/
theorem written_prefix_of_run {s t : Scene} {turns : List Turn} (hr : Run s turns t) :
    written s.client.endpoint.link.transcript <+: written t.client.endpoint.link.transcript := by
  induction hr with
  | nil => exact List.prefix_refl _
  | cons h _ ih =>
    obtain ⟨asked, hw, -⟩ := adds_of_step h
    exact List.IsPrefix.trans ⟨_, hw.symm⟩ ih

variable {target : String} {network : Dial} {settings : ConnectSettings}

theorem talk_of_shaken {credentials : Credentials} {wire : WireConventions}
    {result : Except Halt Session} (h : Session.Shaken credentials wire w e result e')
    (hd : e.link.delimiter = d) (ht : e.link.transcript = []) :
    e'.link.delimiter = d ∧ ∃ stage, Talk d stage e'.link.transcript ∧
      ∀ session, result = .ok session → stage = .settled := by
  have hgreeted {greeting : Except Halt (Option String)} {e' : Endpoint}
      (h : Session.Greeted wire w e greeting e') :
      e'.link.delimiter = d ∧ Talk d .unopened e'.link.transcript := by
    cases h with
    | silent h => exact ⟨hd, ht ▸ .silent⟩
    | greeted h hr | ungreeted h hr =>
      refine ⟨hr.delimiter.trans hd, ?_⟩
      rcases hr.transcript with ⟨line, he⟩ | ⟨he, -⟩
      · rw [he, ht]
        exact .greeted line
      · rw [he, ht]
        exact .silent
  have hsent {greeting : Except Halt (Option String)} {data : String} {e₁ e₂ : Endpoint}
      (h : Session.Greeted wire w e greeting e₁)
      (hs : Endpoint.Sent (Request.login data).line Session.shownLogin e₁ (.ok ()) e₂) :
      e₂.link.delimiter = d ∧ Talk d .awaiting e₂.link.transcript := by
    obtain ⟨hd', ht'⟩ := hgreeted h
    refine ⟨hs.delimiter.trans hd', ?_⟩
    rcases hs.transcript with ⟨-, he⟩ | ⟨he, -⟩
    · rw [he]
      exact hd' ▸ .login data (hd' ▸ ht')
    · simp at he
  cases h with
  | ungreeted h | unencoded h hd' =>
    obtain ⟨hd', ht'⟩ := hgreeted h
    exact ⟨hd', _, ht', by simp⟩
  | unsent h hdata hs =>
    obtain ⟨hd', ht'⟩ := hgreeted h
    rcases hs.transcript with ⟨he, -⟩ | ⟨-, he⟩
    · simp at he
    · exact ⟨hs.delimiter.trans hd', _, he ▸ ht', by simp⟩
  | unanswered h hdata hs hr =>
    obtain ⟨hd', ht'⟩ := hsent h hs
    rcases hr.transcript with ⟨line, he⟩ | ⟨he, -⟩
    · refine ⟨hr.delimiter.trans hd', .settled, ?_, by simp⟩
      rw [he]
      exact .reply line ht'
    · exact ⟨hr.delimiter.trans hd', _, he ▸ ht', by simp⟩
  | answered h hdata hs hr =>
    obtain ⟨hd', ht'⟩ := hsent h hs
    rcases hr.transcript with ⟨line, he⟩ | ⟨-, he⟩
    · refine ⟨hr.delimiter.trans hd', .settled, ?_, by simp⟩
      rw [he]
      exact .reply line ht'
    · exact absurd rfl (he _)

/-- What goes over a connection is an orderly conversation, whether the login succeeds or not and
whatever the callers do; and only a close says goodbye. -/
theorem conversation_orderly (target : String) (network : Dial) (settings : ConnectSettings) :
    (∀ f e, connectTo target network settings = .rejected f e →
      Orderly settings.wire.delimiter e.link.transcript) ∧
    ∀ c turns s, connectTo target network settings = .ready c → Run { client := c } turns s →
      Orderly settings.wire.delimiter s.client.endpoint.link.transcript ∧
      ∀ turn t, Step s turn t →
        Adds settings.wire.delimiter turn.keywords s.client.endpoint.link.transcript
          t.client.endpoint.link.transcript := by
  constructor
  · intro f e h
    obtain ⟨server, now, halt, e, journal, closed, -, hlog, rfl⟩ := connectTo_rejected h
    obtain ⟨-, stage, ht, -⟩ := talk_of_shaken hlog rfl rfl
    exact ht.orderly
  · intro c turns s h hr
    obtain ⟨server, now, session, e, journal, -, hlog, rfl⟩ := connectTo_ready h
    obtain ⟨hd, stage, ht, hst⟩ := talk_of_shaken hlog rfl rfl
    have hinv : ∃ stage, s.Conversing settings.wire.delimiter stage := by
      apply hr.invariant (I := fun s => ∃ stage, s.Conversing settings.wire.delimiter stage)
      · rintro s turn t hstep ⟨stage, hi⟩
        exact conversing_of_step hstep hi
      · refine ⟨stage, ⟨hd, ht, ?_⟩, by simp, by simp⟩
        intro hold hs
        exact Or.inl (hst session rfl)
    obtain ⟨stage', hi⟩ := hinv
    refine ⟨hi.client.talk.orderly, ?_⟩
    intro turn t hstep
    rw [← hi.client.delimiter]
    exact adds_of_step hstep

theorem conversation_orderly_obliging : ∃ c s,
    Run { client := c } [.queued 0 .fetch, .answered 0 .fetch (c.roundTrip .fetch none).1] s ∧
      Orderly ungreeted.wire.delimiter s.client.endpoint.link.transcript := by
  obtain ⟨c, hc⟩ := connectTo_obliging
  have hp : c.prepare .fetch = .ok (.request .fetch) := rfl
  have hr := Run.alone 0 hp (by simp) (.runs none rfl)
  have ho := (conversation_orderly "db" (.reaching obliging) ungreeted).2 c _ _ hc hr
  exact ⟨c, _, hr, ho.1⟩

end DocClient.Client
