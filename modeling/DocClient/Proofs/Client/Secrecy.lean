import DocClient.Proofs.Client.Alike
import DocClient.Proofs.Login.Alike
import DocClient.Proofs.Login.Outcomes

/-!
Whole runs, from the connection on, and what they make known of the password. Two runs whose logins
differ in nothing else, and in which the server sends the same at the same times, cannot be told
from each other by their results, their events or their logs.
-/
namespace DocClient

open Text (Bytes)

variable {all all' : List Bytes}

namespace Client

/-- The same settings with another password. -/
def withPassword (password : String) (settings : ConnectSettings) : ConnectSettings :=
  { settings with credentials := { settings.credentials with password } }

/-- The same dial, but for the server that it may reach. -/
def Dial.facing (server : Server) : Dial → Dial
  | .after delay (.ok reached) => .after delay (.ok { reached with server })
  | .after delay (.error cause) => .after delay (.error cause)
  | .fails cause => .fails cause

/-- The link of a new connection when a login has been written to it. -/
def saidLogin (peer : String) (settings : ConnectSettings) (server : Server) (now : Nat)
    (data : String) : Link :=
  (Session.spoken settings.wire { timer := some (now + settings.connectLimit.microseconds) } data
    (opened peer settings server now)).link

/-- A whole run: how connecting ended, the turns at the client, if there was one, and the endpoint
of the connection, if it was made. -/
structure Story where
  connected : Except Failure Session
  turns : List Turn := []
  endpoint : Option Endpoint := none

/-- What becomes of an attempt to connect when the callers have made their moves. -/
def Attempt.story (moves : List Move) : Attempt → Story
  | .refused f => { connected := .error f }
  | .rejected f e => { connected := .error f, endpoint := some e }
  | .ready c =>
    { connected := .ok c.session
      turns := (perform moves { client := c }).1
      endpoint := some (perform moves { client := c }).2.client.endpoint }

def story (target : String) (network : Dial) (settings : ConnectSettings) (moves : List Move) :
    Story :=
  (connectTo target network settings).story moves

/-- What is reported of a run: to sinks, and to the log. -/
def Story.journal (s : Story) : Journal := (s.endpoint.map Endpoint.journal).getD []

def Story.events (s : Story) : List Event := Sink.collect.events s.journal

/-- What the server of a run has heard. -/
def Story.heard (s : Story) : List Bytes := (s.endpoint.map Endpoint.heard).getD []

/-- Nobody who sees all but the wire can tell the two runs from each other. -/
structure Story.Same (s s' : Story) : Prop where
  connected : s'.connected = s.connected
  turns : s'.turns = s.turns
  events : s'.events = s.events
  journal : s'.journal = s.journal

variable {target : String} {network : Dial} {settings : ConnectSettings} {moves : List Move}
  {c : Client} {turns : List Turn} {s : Scene} {server server' : Server} {now : Nat}
  {data data' password : String} {e : Endpoint}

theorem heard_conclude (target : String) (settings : ConnectSettings) (moves : List Move)
    (result : Except Halt Session) (e : Endpoint) :
    e.heard <+: ((conclude target settings result e).story moves).heard := by
  cases result with
  | ok session =>
    obtain ⟨c, hc, hheard⟩ : ∃ c, conclude target settings (.ok session) e = .ready c ∧
        c.heard = e.heard := ⟨_, rfl, rfl⟩
    rw [hc, ← hheard]
    have hperform : Respects [] [] Scene.heard (Scene.Alike [] []) (perform moves) :=
      respects_perform moves
    exact hperform.hears { client := c }
  | error halt =>
    obtain ⟨detail, journal, h⟩ := conclude_error target settings halt e
    rw [h]
    exact List.prefix_refl _

theorem conclude_withPassword (target password : String) (settings : ConnectSettings)
    (result : Except Halt Session) (e : Endpoint) :
    conclude target (withPassword password settings) result e
      = conclude target settings result e := by
  cases result with
  | ok session => rfl
  | error halt => cases halt <;> rfl

/-- Attempts with the same result, and with connections that are alike as far as they are used. -/
inductive Attempt.Alike (all all' : List Bytes) : Attempt → Attempt → Prop
  | refused (f : Failure) : Alike all all' (.refused f) (.refused f)
  | rejected {e e' : Endpoint} (f : Failure) (h : Endpoint.Alike [] [] e e') :
      Alike all all' (.rejected f e) (.rejected f e')
  | ready {c c' : Client} (h : Client.Alike all all' c c') : Alike all all' (.ready c) (.ready c')

theorem conclude_alike {p p' : Except Halt Session × Endpoint}
    (h : Session.EndsAlike all all' p p') :
    Attempt.Alike all all' (conclude target settings p.1 p.2)
      (conclude target settings p'.1 p'.2) := by
  cases h with
  | opened session h =>
    obtain ⟨l', hl, rfl⟩ := h
    exact .ready ⟨_, ⟨l', hl, rfl⟩, rfl⟩
  | halted halt h =>
    cases halt with
    | failed f =>
      exact .rejected _ ((h.closeQuietly .login "close after failed login").note _).release
    | expired | unfinished =>
      exact .rejected _ (h.closeQuietly .client "close after login timeout").release

/-- The same moves after attempts that are alike make the same story. -/
theorem same_of_alike {attempt attempt' : Attempt} (h : Attempt.Alike all all' attempt attempt')
    (hh : (attempt.story moves).heard <+: all) (hh' : (attempt'.story moves).heard <+: all') :
    (attempt.story moves).Same (attempt'.story moves) := by
  cases h with
  | refused f => exact ⟨rfl, rfl, rfl, rfl⟩
  | rejected f h =>
    have hjournal := h.journal
    refine ⟨rfl, rfl, ?_, hjournal⟩
    exact congrArg Sink.collect.events hjournal
  | @ready c c' h =>
    have hscenes : Scene.Alike all all' { client := c } { client := c' } := ⟨c', h, rfl⟩
    obtain ⟨hturns, d', hd, hscene⟩ := (respects_perform moves).alike hscenes hh hh'
    have hjournal : (perform moves { client := c' }).2.client.endpoint.journal
        = (perform moves { client := c }).2.client.endpoint.journal := by
      obtain ⟨e', he, rfl⟩ := hd
      rw [hscene]
      exact he.journal
    have hsession : c'.session = c.session := by
      obtain ⟨e', he, rfl⟩ := h
      rfl
    refine ⟨congrArg Except.ok hsession, hturns, ?_, hjournal⟩
    exact congrArg Sink.collect.events hjournal

theorem opened?_facing (server' : Server) (network : Dial) (limit : Nat) :
    (network.facing server').opened? limit
      = (network.opened? limit).map fun opened => (opened.1, { opened.2 with server := server' }) := by
  cases network with
  | fails cause => rfl
  | after delay outcome =>
    cases outcome <;> simp only [Dial.facing, Dial.opened?] <;> split <;> rfl

theorem reached?_facing (server' : Server) (network : Dial) (limit : Nat) :
    (network.facing server').reached? limit
      = (network.reached? limit).map fun reached => (reached.1, server') := by
  rw [Dial.reached?, opened?_facing, Dial.reached?]
  cases network.opened? limit with
  | none => rfl
  | some opened =>
    simp only [Option.map_some, Option.bind_some]
    split <;> rfl

theorem peer_facing (server' : Server) (network : Dial) (target : String) :
    (network.facing server').peer target = network.peer target := by
  cases network with
  | fails cause => rfl
  | after delay outcome => cases outcome <;> rfl

/-- Where no server is reached it does not matter which one could have been. -/
theorem dial_facing (target : String)
    (hn : network.reached? settings.connectLimit.microseconds = none) :
    dial target (network.facing server') (withPassword password settings)
      = dial target network settings := by
  cases ho : network.opened? settings.connectLimit.microseconds with
  | none =>
    cases network with
    | fails cause => rfl
    | after delay outcome =>
      cases outcome with
      | error cause => rfl
      | ok reached =>
        by_cases hl : settings.connectLimit.microseconds ≤ delay
        · simp [dial, Dial.facing, withPassword, hl]
        · simp [Dial.opened?, Nat.lt_of_not_le hl, Except.toOption] at ho
  | some opened =>
    obtain ⟨now, reached⟩ := opened
    have ho' : (network.facing server').opened?
        (withPassword password settings).connectLimit.microseconds
          = some (now, { reached with server := server' }) := by
      rw [opened?_facing, withPassword, ho]
      rfl
    rw [dial_opened target ho', dial_opened target ho]
    cases hf : reached.delayFault with
    | some cause => simp only
    | none => simp [Dial.reached?, ho, hf] at hn

theorem connectTo_reached (target : String)
    (hd : settings.wire.loginEncoding.encode settings.credentials = .ok data)
    (hn : network.reached? settings.connectLimit.microseconds = some (now, server)) :
    connectTo target network settings
      = conclude target settings
        (Session.handshake settings.credentials settings.wire
          { timer := some (now + settings.connectLimit.microseconds) }
          (opened (network.peer target) settings server now)).1
        (Session.handshake settings.credentials settings.wire
          { timer := some (now + settings.connectLimit.microseconds) }
          (opened (network.peer target) settings server now)).2 := by
  simp only [connectTo, hd, dial_reached target hn]
  exact login_eq rfl

/-- Connections just made are alike until something is written. -/
theorem opened_alike (peer : String) (settings : ConnectSettings) (now : Nat)
    (haccept : server'.accept = server.accept) :
    Endpoint.Alike [] [] (opened peer settings server now)
      (opened peer settings server' now) := by
  have hinbox : (Link.start server' settings.wire.delimiter now).inbox
      = (Link.start server settings.wire.delimiter now).inbox := by
    rw [Link.start, haccept, Link.start]
  refine ⟨.start server' settings.wire.delimiter now, ⟨rfl, rfl, hinbox, rfl, ?_⟩, rfl⟩
  intro lines hne hlines
  exact absurd (List.prefix_nil.mp hlines) hne

/-- Two runs with different passwords, both of which can be sent, are the same if the server sends
the same. -/
theorem story_same (hd : settings.wire.loginEncoding.encode settings.credentials = .ok data)
    (hd' : settings.wire.loginEncoding.encode (withPassword password settings).credentials
      = .ok data')
    (hservice : ∀ server now,
      network.reached? settings.connectLimit.microseconds = some (now, server) →
      SameService server server' (saidLogin (network.peer target) settings server now data)
        (saidLogin (network.peer target) settings server' now data')
        (story target network settings moves).heard
        (story target (network.facing server') (withPassword password settings) moves).heard) :
    (story target network settings moves).Same
      (story target (network.facing server') (withPassword password settings) moves) := by
  have hwire : (withPassword password settings).wire = settings.wire := rfl
  have hlimit : (withPassword password settings).connectLimit = settings.connectLimit := rfl
  cases hn : network.reached? settings.connectLimit.microseconds with
  | none =>
    have hsame : connectTo target (network.facing server') (withPassword password settings)
        = connectTo target network settings := by
      obtain ⟨detail, hf⟩ := dial_unreached target hn
      simp only [connectTo, hd, dial_facing target hn, hf]
      rw [hwire, hd']
    rw [story, story, hsame]
    exact ⟨rfl, rfl, rfl, rfl⟩
  | some reached =>
    obtain ⟨now, server⟩ := reached
    have hn' : (network.facing server').reached?
        (withPassword password settings).connectLimit.microseconds = some (now, server') := by
      rw [hlimit, reached?_facing, hn]
      rfl
    have hservice := hservice server now hn
    have hconnect' := connectTo_reached target hd' hn'
    rw [conclude_withPassword, peer_facing] at hconnect'
    rw [story, story, connectTo_reached target hd hn, hconnect'] at hservice ⊢
    refine same_of_alike (conclude_alike ?_) (List.prefix_refl _) (List.prefix_refl _)
    exact Session.handshake_alike
      (opened_alike (network.peer target) settings now hservice.accept) rfl rfl rfl hd hd' hservice
      (heard_conclude target settings moves _ _) (heard_conclude target settings moves _ _)

/-- Every run from the connection on is a story of some moves. -/
theorem story_of_run (hc : connectTo target network settings = .ready c)
    (hr : Run { client := c } turns s) : ∃ moves, story target network settings moves
      = { connected := .ok c.session, turns, endpoint := some s.client.endpoint } := by
  obtain ⟨moves, hp⟩ := run_iff_perform.mp hr
  exact ⟨moves, by simp only [story, hc, Attempt.story, hp]⟩

/-- Apart from its end, the sink has been told of a connection, and of all that has passed over it,
whatever has become of it. -/
theorem traffic_of_story (h : (story target network settings moves).endpoint = some e) :
    ∃ told, Reported e.link.delimiter e.link.transcript told ∧
      e.events.filter (!·.isClosing) = .connected (network.peer target) :: told := by
  unfold story at h
  cases hc : connectTo target network settings with
  | refused f => simp [hc, Attempt.story] at h
  | rejected f e' =>
    obtain rfl : e' = e := by simpa [hc, Attempt.story] using h
    obtain ⟨server, now, halt, e₀, -, -, ha⟩ := account_of_rejected hc
    exact ha.traffic
  | ready c =>
    obtain rfl : (perform moves { client := c }).2.client.endpoint = e := by
      simpa [hc, Attempt.story] using h
    obtain ⟨ending, ha⟩ := (accounted_of_run hc (run_of_perform rfl)).account
    exact ha.traffic

/-- The events of a run are the traffic of its connection, the login under a mask; and of two runs
that differ in the password the stories are the same, unless the server sends something else. -/
structure FaithfulTraffic (target : String) (network : Dial) (settings : ConnectSettings) : Prop where
  runs : ∀ c turns s, connectTo target network settings = .ready c → Run { client := c } turns s →
    ∃ moves, story target network settings moves
      = { connected := .ok c.session, turns, endpoint := some s.client.endpoint }
  /-- What could not be written is not told of. -/
  sends : ∀ (e : Endpoint) (line shown : String), (e.send line shown).2.events =
    e.events ++ match (e.send line shown).1 with
      | .ok () => [.sent shown]
      | .error _ => []
  /-- Nor is what was not handed out, because of a fault of the stream or of the line. -/
  receives : ∀ (e : Endpoint) (w : Window), (e.receive w).2.events =
    e.events ++ match (e.receive w).1 with
      | .ok text => [.received text]
      | .error _ => []
  told : ∀ moves e, (story target network settings moves).endpoint = some e →
    ∃ told, Reported e.link.delimiter e.link.transcript told ∧
      e.events.filter (!·.isClosing) = .connected (network.peer target) :: told
  secret : ∀ moves password server' data data',
    settings.wire.loginEncoding.encode settings.credentials = .ok data →
    settings.wire.loginEncoding.encode (withPassword password settings).credentials = .ok data' →
    (∀ server now, network.reached? settings.connectLimit.microseconds = some (now, server) →
      SameService server server' (saidLogin (network.peer target) settings server now data)
        (saidLogin (network.peer target) settings server' now data')
        (story target network settings moves).heard
        (story target (network.facing server') (withPassword password settings) moves).heard) →
    (story target network settings moves).Same
      (story target (network.facing server') (withPassword password settings) moves)

theorem traffic_faithful (target : String) (network : Dial) (settings : ConnectSettings) :
    FaithfulTraffic target network settings where
  runs _ _ _ hc hr := story_of_run hc hr
  sends e line shown := by
    rcases hs : e.send line shown with ⟨outcome, e'⟩
    rcases (Endpoint.sent_of_send hs).events with ⟨rfl, he⟩ | ⟨hne, he⟩
    · exact he
    · cases outcome with
      | ok _ => exact absurd rfl hne
      | error halt => exact he.trans (List.append_nil _).symm
  receives e w := by
    rcases hr : e.receive w with ⟨result, e'⟩
    rcases (Endpoint.received_of_receive hr).events with ⟨text, rfl, he⟩ | ⟨hne, he⟩
    · exact he
    · cases result with
      | ok text => exact absurd rfl (hne text)
      | error halt => exact he.trans (List.append_nil _).symm
  told _ _ h := traffic_of_story h
  secret _ _ _ _ _ hd hd' hservice := story_same hd hd' hservice

/-- A server that is content with every password. -/
theorem traffic_faithful_obliging :
    (∃ c, connectTo "db" (.reaching obliging) ungreeted = .ready c) ∧
    ∀ moves, (story "db" (.reaching obliging) ungreeted moves).Same
      (story "db" (.reaching obliging) (withPassword "hunter2" ungreeted) moves) := by
  refine ⟨connectTo_obliging, ?_⟩
  intro moves
  refine (traffic_faithful "db" (.reaching obliging) ungreeted).secret moves "hunter2" obliging
    "," ",hunter2" (by decide +kernel) (by decide +kernel) ?_
  intro server now hn
  have hreached : Dial.reached? ungreeted.connectLimit.microseconds (.reaching obliging)
      = some (0, obliging) := rfl
  obtain ⟨rfl, rfl⟩ := Prod.mk.inj (Option.some.inj (hreached.symm.trans hn))
  have hinbox : (saidLogin "db" ungreeted obliging 0 ",hunter2").inbox
      = (saidLogin "db" ungreeted obliging 0 ",").inbox := by
    decide +kernel
  exact ⟨rfl, fun _ _ => hinbox, fun _ _ _ _ => rfl⟩

end Client

end DocClient
