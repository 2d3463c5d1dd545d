import DocClient.Proofs.Channel.Deadline
import DocClient.Proofs.Client.Traffic

/-!
What an attempt to connect can come to: credentials that cannot be sent, an address that is not
reached in time, a login that is not accepted by its deadline, or a client; nothing else.
-/
namespace DocClient

namespace Session

variable {credentials : Credentials} {wire : WireConventions} {w : Window} {e e' e₁ : Endpoint}
  {deadline : Nat} {session : Session} {greeting : Option String}

/-- The greeting that comes by the deadline, where one is to come, and the endpoint after it. -/
inductive GreetsBy (wire : WireConventions) (deadline : Nat) (e : Endpoint) :
    Option String → Endpoint → Prop
  | silent (h : wire.greeting = false) : GreetsBy wire deadline e none e
  | greeted {text : String} {e₁ : Endpoint} (h : wire.greeting = true)
      (ho : e.OffersBy deadline text) (he : (e.receive { timer := some deadline }).2 = e₁) :
      GreetsBy wire deadline e (some text) e₁

/-- The login can be written, and by the deadline, which is also that of the greeting, the server
answers it with a reply that reports success. -/
inductive Admits (credentials : Credentials) (wire : WireConventions) (deadline : Nat)
    (e : Endpoint) : Session → Prop
  | intro {greeting : Option String} {data text : String} {reply : Reply} {e₁ e₂ : Endpoint}
      (hg : GreetsBy wire deadline e greeting e₁)
      (hd : wire.loginEncoding.encode credentials = .ok data)
      (hs : e₁.send (Request.login data).line shownLogin = (.ok (), e₂))
      (ho : e₂.OffersBy deadline text) (hp : Reply.parse text = .ok reply)
      (hr : reply.succeeded = true) :
      Admits credentials wire deadline e ⟨credentials.username, greeting, reply.note⟩

theorem readGreeting_by (ho : e.closed = false) :
    (readGreeting wire { timer := some deadline } e = (.ok greeting, e₁)) ↔
      GreetsBy wire deadline e greeting e₁ := by
  constructor
  · intro h
    cases greeted_of_readGreeting h with
    | silent hg => exact .silent hg
    | @greeted line _ hg hr =>
      unfold readGreeting at h
      rw [if_pos hg, map_eq_pure_bind] at h
      obtain ⟨text, e₂, hreceive, hpure⟩ := Exchange.bind_ok h
      obtain ⟨ht, rfl⟩ := Prod.mk.inj hpure
      obtain rfl : text = line := Option.some.inj (Except.ok.inj ht)
      change e.receive _ = _ at hreceive
      exact .greeted hg ((Endpoint.receive_by ho).mp (by rw [hreceive])) (by rw [hreceive])
  · intro h
    cases h with
    | silent hg => simp only [readGreeting, hg, Bool.false_eq_true, if_false]; rfl
    | @greeted text _ hg hoffers he =>
      have hreceive : e.receive { timer := some deadline } = (.ok text, e₁) :=
        Prod.ext ((Endpoint.receive_by ho).mpr hoffers) he
      simp only [readGreeting, hg, if_true, map_eq_pure_bind, Exchange.bind_apply,
        Exchange.receive, hreceive]
      rfl

theorem open_of_send {line shown : String} (hs : e.send line shown = (.ok (), e')) :
    e'.closed = false := by
  cases Endpoint.sent_of_send hs with
  | written hopen hw => exact hopen

/-- Whom the handshake opens a session for the server has admitted. -/
theorem admits_of_handshake (ho : e.closed = false)
    (h : handshake credentials wire { timer := some deadline } e = (.ok session, e')) :
    Admits credentials wire deadline e session := by
  obtain ⟨greeting, e₁, hg, h⟩ := Exchange.bind_ok h
  obtain ⟨data, _, hencoded, h⟩ := Exchange.bind_ok h
  obtain ⟨hd, rfl⟩ := Exchange.check_ok hencoded
  obtain ⟨_, e₂, hs, h⟩ := Exchange.bind_ok h
  obtain ⟨text, e₃, hr, h⟩ := Exchange.bind_ok h
  obtain ⟨reply, _, hparsed, h⟩ := Exchange.bind_ok h
  obtain ⟨hp, rfl⟩ := Exchange.check_ok hparsed
  obtain ⟨hsession, -⟩ := Exchange.check_ok h
  change e₁.send _ _ = _ at hs
  change e₂.receive _ = _ at hr
  have hoffers := (Endpoint.receive_by (open_of_send hs)).mp (by rw [hr])
  unfold ofReply at hsession
  split at hsession
  · next hsucceeded =>
    obtain rfl := Except.ok.inj hsession
    exact .intro ((readGreeting_by ho).mp hg) hd hs hoffers hp hsucceeded
  · simp at hsession

/-- Whom the server admits the handshake opens a session for. -/
theorem handshake_of_admits (ho : e.closed = false)
    (h : Admits credentials wire deadline e session) :
    ∃ e', handshake credentials wire { timer := some deadline } e = (.ok session, e') := by
  obtain @⟨greeting, data, text, reply, e₁, e₂, hg, hd, hs, hoffers, hp, hr⟩ := h
  obtain ⟨e₃, hreceive⟩ : ∃ e₃, e₂.receive { timer := some deadline } = (.ok text, e₃) :=
    ⟨_, Prod.ext ((Endpoint.receive_by (open_of_send hs)).mpr hoffers) rfl⟩
  refine ⟨e₃, ?_⟩
  simp only [handshake, Exchange.bind_apply, (readGreeting_by ho).mpr hg, Exchange.check_apply, hd,
    halted, Exchange.send, hs, Exchange.receive, hreceive, hp, ofReply, hr, if_true]

/-- With a deadline for the whole of it, the handshake opens a session exactly if the server admits
the client by then. -/
theorem handshake_by (ho : e.closed = false) :
    (∃ e', handshake credentials wire { timer := some deadline } e = (.ok session, e')) ↔
      Admits credentials wire deadline e session := by
  constructor
  · rintro ⟨e', h⟩
    exact admits_of_handshake ho h
  · exact handshake_of_admits ho

end Session

namespace Client

variable {target : String} {network : Dial} {settings : ConnectSettings} {c : Client}
  {f : Failure} {e : Endpoint} {attempt : Attempt} {session : Session}

/-- Credentials that the encoding with a comma cannot carry. -/
def Unsendable (settings : ConnectSettings) : Prop :=
  settings.wire.loginEncoding = .comma ∧
    (',' ∈ settings.credentials.username.toList ∨ ',' ∈ settings.credentials.password.toList)

/-- The connection over which an attempt has got, if it has made one. -/
def Attempt.endpoint? : Attempt → Option Endpoint
  | refused _ => none
  | rejected _ e => some e
  | ready c => some c.endpoint

theorem encode_of_unsendable (h : Unsendable settings) :
    settings.wire.loginEncoding.encode settings.credentials
      = .error (.invalidArgument "username and password must not contain ','") := by
  obtain ⟨hcomma, hc⟩ := h
  rw [hcomma, LoginEncoding.encode, if_pos]
  simpa [LoginEncoding.hasComma] using hc

theorem encode_of_sendable (h : ¬ Unsendable settings) :
    ∃ data, settings.wire.loginEncoding.encode settings.credentials = .ok data := by
  cases hl : settings.wire.loginEncoding with
  | json => exact ⟨_, rfl⟩
  | comma =>
    have hc : ¬ (LoginEncoding.hasComma settings.credentials.username
        || LoginEncoding.hasComma settings.credentials.password) = true := by
      simpa [LoginEncoding.hasComma, Unsendable, hl] using h
    rw [LoginEncoding.encode, if_neg hc]
    exact ⟨_, rfl⟩

/-- The server that is reached admits the client by the deadline of the login, which starts when
the connection has been made. -/
def Admitted (peer : String) (settings : ConnectSettings) (now : Nat) (server : Server) :
    Session → Prop :=
  Session.Admits settings.credentials settings.wire
    (now + settings.connectLimit.microseconds) (opened peer settings server now)

/-- The connection is opened in time, but lines could be sent over it with a delay only. -/
def Dial.Delays (network : Dial) (limit : Nat) (cause : SystemFault) : Prop :=
  ∃ now reached, network.opened? limit = some (now, reached) ∧ reached.delayFault = some cause

/-- The ways in which an attempt to connect can end, by what the caller asks for, whom it reaches
and what it hears by when. -/
inductive Ended (target : String) (network : Dial) (settings : ConnectSettings) : Attempt → Prop
  | unsendable {detail : String} (h : Unsendable settings) :
      Ended target network settings (.refused (.invalidArgument detail))
  | unopened {detail : String} (h : ¬ Unsendable settings)
      (hn : network.opened? settings.connectLimit.microseconds = none) :
      Ended target network settings (.refused (.connection detail))
  | delayed {cause : SystemFault} (h : ¬ Unsendable settings)
      (hn : network.Delays settings.connectLimit.microseconds cause) :
      Ended target network settings
        (.refused (.connection ("Failed to set TCP_NODELAY: " ++ cause.message)))
  | rejected {now : Nat} {server : Server} {detail : String} {e : Endpoint}
      (h : ¬ Unsendable settings)
      (hn : network.reached? settings.connectLimit.microseconds = some (now, server))
      (ha : ∀ session, ¬ Admitted (network.peer target) settings now server session)
      (hc : e.closed = true) (hl : e.link.Ended) :
      Ended target network settings (.rejected (.authentication detail) e)
  | admitted {now : Nat} {server : Server} {c : Client} (h : ¬ Unsendable settings)
      (hn : network.reached? settings.connectLimit.microseconds = some (now, server))
      (ha : Admitted (network.peer target) settings now server c.session) :
      Ended target network settings (.ready c)

variable {peer : String} {now : Nat} {server : Server}

theorem admitted_iff : Admitted peer settings now server session ↔
    ∃ e, Session.handshake settings.credentials settings.wire
      { timer := some (now + settings.connectLimit.microseconds) }
      (opened peer settings server now) = (.ok session, e) :=
  (Session.handshake_by rfl).symm

/-- A server admits a client to one session only. -/
theorem admitted_unique {session' : Session} (h : Admitted peer settings now server session)
    (h' : Admitted peer settings now server session') : session = session' := by
  obtain ⟨e, hs⟩ := admitted_iff.mp h
  obtain ⟨e', hs'⟩ := admitted_iff.mp h'
  exact Except.ok.inj (Prod.mk.inj (hs.symm.trans hs')).1

/-- A connection that serves leads to a client or to a channel that has been shut. -/
theorem ended_of_reached (target : String) (hu : ¬ Unsendable settings)
    (hn : network.reached? settings.connectLimit.microseconds = some (now, server)) :
    Ended target network settings
      (login target settings (opened (network.peer target) settings server now)) := by
  rcases hs : Session.handshake settings.credentials settings.wire
    { timer := some (now + settings.connectLimit.microseconds) }
    (opened (network.peer target) settings server now) with ⟨result, e⟩
  have hl : login target settings (opened (network.peer target) settings server now)
      = conclude target settings result e := login_eq hs
  rw [hl]
  cases result with
  | ok session =>
    have ha : Admitted (network.peer target) settings now server session :=
      admitted_iff.mpr ⟨e, hs⟩
    exact .admitted hu hn ha
  | error halt =>
    have hnone (session : Session) :
        ¬ Admitted (network.peer target) settings now server session := by
      intro ha
      obtain ⟨e', hs'⟩ := admitted_iff.mp ha
      have hresult := (Prod.mk.inj (hs.symm.trans hs')).1
      simp at hresult
    obtain ⟨detail, journal, he⟩ := conclude_error target settings halt e
    rw [he]
    exact .rejected hu hn hnone rfl (Link.ended_shutDown e.link)

theorem ended_of_connectTo (target : String) (network : Dial) (settings : ConnectSettings) :
    Ended target network settings (connectTo target network settings) := by
  by_cases hu : Unsendable settings
  · simp only [connectTo, encode_of_unsendable hu]
    exact .unsendable hu
  · obtain ⟨data, hd⟩ := encode_of_sendable hu
    simp only [connectTo, hd]
    cases ho : network.opened? settings.connectLimit.microseconds with
    | none =>
      obtain ⟨detail, hdial⟩ := dial_unopened target ho
      simp only [hdial]
      exact .unopened hu ho
    | some opened =>
      obtain ⟨now, reached⟩ := opened
      rw [dial_opened target ho]
      cases hf : reached.delayFault with
      | some cause => exact .delayed hu ⟨now, reached, ho, hf⟩
      | none =>
        exact ended_of_reached target hu (reached_eq_some_iff.mpr ⟨reached, ho, hf, rfl⟩)

/-- What is promised of the login over a connection that serves. -/
structure Settled (target : String) (network : Dial) (settings : ConnectSettings)
    (attempt : Attempt) : Prop where
  admitted : ∀ session, (∃ c, attempt = .ready c ∧ c.session = session) ↔
    ¬ Unsendable settings ∧ ∃ now server,
      network.reached? settings.connectLimit.microseconds = some (now, server) ∧
      Admitted (network.peer target) settings now server session
  rejected : (∃ detail e, attempt = .rejected (.authentication detail) e) ↔
    ¬ Unsendable settings ∧ ∃ now server,
      network.reached? settings.connectLimit.microseconds = some (now, server) ∧
      ∀ session, ¬ Admitted (network.peer target) settings now server session
  /-- No other failure is possible. A rejected client leaves a closed channel, and the server reads
  the end of the stream. -/
  rejections : ∀ f e, attempt = .rejected f e →
    (∃ detail, f = .authentication detail) ∧ e.closed = true ∧ e.link.Ended

/-- What is promised of an attempt to connect. -/
structure Outcomes (target : String) (network : Dial) (settings : ConnectSettings)
    (attempt : Attempt) : Prop where
  unsendable : (∃ detail, attempt = .refused (.invalidArgument detail)) ↔ Unsendable settings
  /-- Then nothing has been dialled. -/
  undialled : Unsendable settings → ∀ network', connectTo target network' settings = attempt
  unreached : (∃ detail, attempt = .refused (.connection detail)) ↔
    ¬ Unsendable settings ∧
      (network.opened? settings.connectLimit.microseconds = none ∨
        ∃ cause, network.Delays settings.connectLimit.microseconds cause)
  refusals : ∀ f, attempt = .refused f →
    (∃ detail, f = .invalidArgument detail) ∨ ∃ detail, f = .connection detail
  /-- A connection that serves has been told of, and the credentials can be sent. -/
  connected : ∀ e, attempt.endpoint? = some e →
    e.events.head? = some (.connected (network.peer target)) ∧
    ∃ data, settings.wire.loginEncoding.encode settings.credentials = .ok data
  /-- Of a limit on lines that leaves no room for the delimiter in a word nothing is promised. -/
  settled : settings.wire.maxLineBytes.toNat + 1 < UInt64.size →
    Settled target network settings attempt

theorem exists_reached_iff {P : Nat → Server → Prop} {limit : Nat}
    (h : network.reached? limit = some (now, server)) :
    (∃ now server, network.reached? limit = some (now, server) ∧ P now server) ↔ P now server := by
  constructor
  · rintro ⟨now', server', h', hp⟩
    obtain ⟨rfl, rfl⟩ : now = now' ∧ server = server' := by simpa [h] using h'
    exact hp
  · intro hp
    exact ⟨now, server, h, hp⟩

theorem reached_of_delays {limit : Nat} {cause : SystemFault} (h : network.Delays limit cause) :
    network.reached? limit = none := by
  obtain ⟨now, reached, ho, hf⟩ := h
  exact reached_eq_none_iff.mpr (Or.inr ⟨now, reached, cause, ho, hf⟩)

/-- A connection that serves has been opened, and without a fault. -/
theorem not_unreached {limit : Nat} (h : network.reached? limit = some (now, server)) :
    ¬ (network.opened? limit = none ∨ ∃ cause, network.Delays limit cause) := by
  rintro (ho | ⟨cause, hd⟩)
  · simp [reached_eq_none_iff.mpr (Or.inl ho)] at h
  · simp [reached_of_delays hd] at h

/-- An account starts with the connection. -/
theorem head_of_account {ending : List Event} (h : e.Account peer ending) :
    e.events.head? = some (.connected peer) := by
  obtain ⟨told, -, he⟩ := h.told
  rw [he]
  rfl

theorem head_of_endpoint (h : (connectTo target network settings).endpoint? = some e) :
    e.events.head? = some (.connected (network.peer target)) := by
  cases hc : connectTo target network settings with
  | refused f => simp [hc, Attempt.endpoint?] at h
  | rejected f e' =>
    obtain rfl : e' = e := by simpa [hc, Attempt.endpoint?] using h
    obtain ⟨server, now, halt, e₀, -, -, ha⟩ := account_of_rejected hc
    exact head_of_account ha
  | ready c =>
    obtain rfl : c.endpoint = e := by simpa [hc, Attempt.endpoint?] using h
    obtain ⟨ending, ha⟩ := (accounted_of_ready hc).account
    exact head_of_account ha

theorem settled_of_refused {f : Failure} (h : network.reached? settings.connectLimit.microseconds
    = none ∨ Unsendable settings) : Settled target network settings (.refused f) := by
  refine ⟨?_, ?_, by simp⟩ <;> rcases h with hn | hu
  · simp [hn]
  · simp [hu]
  · simp [hn]
  · simp [hu]

theorem settled_of_ended (h : Ended target network settings attempt) :
    Settled target network settings attempt := by
  cases h with
  | unsendable hu => exact settled_of_refused (Or.inr hu)
  | unopened hu hn => exact settled_of_refused (Or.inl (reached_eq_none_iff.mpr (Or.inl hn)))
  | delayed hu hn => exact settled_of_refused (Or.inl (reached_of_delays hn))
  | @rejected now server detail e hu hn ha hc hl =>
    refine ⟨?_, ?_, ?_⟩
    · intro session
      rw [exists_reached_iff hn]
      simp [ha]
    · rw [exists_reached_iff hn]
      simp [hu, ha]
    · rintro f e' h
      obtain ⟨rfl, rfl⟩ := Attempt.rejected.inj h
      exact ⟨⟨_, rfl⟩, hc, hl⟩
  | @admitted now server c hu hn ha =>
    refine ⟨?_, ?_, by simp⟩
    · intro session
      rw [exists_reached_iff hn]
      constructor
      · rintro ⟨c', hc, rfl⟩
        obtain rfl := Attempt.ready.inj hc
        exact ⟨hu, ha⟩
      · rintro ⟨-, ha'⟩
        exact ⟨c, rfl, admitted_unique ha ha'⟩
    · rw [exists_reached_iff hn]
      constructor
      · rintro ⟨detail, e, h⟩
        simp at h
      · rintro ⟨-, hnone⟩
        exact absurd ha (hnone c.session)

/-- Connecting has the outcomes promised, and it is told exactly when it has which. -/
theorem connect_outcomes (target : String) (network : Dial) (settings : ConnectSettings) :
    Outcomes target network settings (connectTo target network settings) := by
  have hhead {e : Endpoint} (h : (connectTo target network settings).endpoint? = some e) :=
    head_of_endpoint h
  have hended := ended_of_connectTo target network settings
  have hundialled (hu : Unsendable settings) (network' : Dial) :
      connectTo target network' settings = connectTo target network settings := by
    simp only [connectTo, encode_of_unsendable hu]
  generalize connectTo target network settings = attempt at hended hhead hundialled
  have hsettled := settled_of_ended hended
  cases hended with
  | unsendable hu =>
    exact ⟨by simp [hu], hundialled, by simp [hu], by simp, by simp [Attempt.endpoint?],
      fun _ => hsettled⟩
  | unopened hu hn =>
    exact ⟨by simp [hu], hundialled, by simp [hu, hn], by simp, by simp [Attempt.endpoint?],
      fun _ => hsettled⟩
  | @delayed cause hu hn =>
    refine ⟨by simp [hu], hundialled, ?_, by simp, by simp [Attempt.endpoint?], fun _ => hsettled⟩
    exact iff_of_true ⟨_, rfl⟩ ⟨hu, Or.inr ⟨cause, hn⟩⟩
  | rejected hu hn ha hc hl =>
    refine ⟨by simp [hu], hundialled, ?_, by simp, ?_, fun _ => hsettled⟩
    · simp [not_unreached hn]
    · intro e' he
      exact ⟨hhead he, encode_of_sendable hu⟩
  | admitted hu hn ha =>
    refine ⟨by simp [hu], hundialled, ?_, by simp, ?_, fun _ => hsettled⟩
    · simp [not_unreached hn]
    · intro e' he
      exact ⟨hhead he, encode_of_sendable hu⟩

/-- A server that is reached at once, over a connection that lines are sent with a delay over. -/
def sluggish : Dial := .after 0 (.ok { server := obliging, delayFault := some .invalidArgument })

/-- The connection has been opened in time, and the attempt comes to nothing all the same. -/
theorem connect_undelayed :
    ¬ Unsendable ungreeted ∧
    (sluggish.opened? ungreeted.connectLimit.microseconds).isSome = true ∧
    connectTo "db" sluggish ungreeted
      = .refused (.connection "Failed to set TCP_NODELAY: Invalid argument (os error 22)") := by
  have hu : ¬ Unsendable ungreeted := by simp [Unsendable, ungreeted]
  refine ⟨hu, by decide, ?_⟩
  obtain ⟨data, hd⟩ := encode_of_sendable hu
  simp only [connectTo, hd]
  rfl

end Client

end DocClient
