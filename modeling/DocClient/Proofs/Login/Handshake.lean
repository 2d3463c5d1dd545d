import DocClient.Client.Connect
import DocClient.Proofs.Client.RoundTrip

/-!
What the login over a fresh connection can do, case by case, and what a client starts with.
-/
namespace DocClient

namespace Session

variable {credentials : Credentials} {wire : WireConventions} {w : Window} {e e' : Endpoint}

/-- What waiting for the greeting, if there is one, can come to. -/
inductive Greeted (wire : WireConventions) (w : Window) (e : Endpoint) :
    Except Halt (Option String) → Endpoint → Prop
  | silent (h : wire.greeting = false) : Greeted wire w e (.ok none) e
  | greeted {line : String} {e₁ : Endpoint} (h : wire.greeting = true)
      (hr : Endpoint.Received w e (.ok line) e₁) : Greeted wire w e (.ok (some line)) e₁
  | ungreeted {halt : Halt} {e₁ : Endpoint} (h : wire.greeting = true)
      (hr : Endpoint.Received w e (.error halt) e₁) : Greeted wire w e (.error halt) e₁

theorem greeted_of_readGreeting {result : Except Halt (Option String)}
    (h : readGreeting wire w e = (result, e')) : Greeted wire w e result e' := by
  unfold readGreeting at h
  cases hg : wire.greeting with
  | false =>
    rw [if_neg (by simp [hg])] at h
    obtain ⟨rfl, rfl⟩ := Prod.mk.inj h
    exact .silent hg
  | true =>
    rw [if_pos hg, map_eq_pure_bind, Exchange.bind_apply, Exchange.receive] at h
    rcases hr : e.receive w with ⟨received, e₁⟩
    rw [hr] at h
    cases received with
    | ok line =>
      obtain ⟨rfl, rfl⟩ := Prod.mk.inj h
      exact .greeted hg (Endpoint.received_of_receive hr)
    | error halt =>
      obtain ⟨rfl, rfl⟩ := Prod.mk.inj h
      exact .ungreeted hg (Endpoint.received_of_receive hr)

/-- The session that a reply line opens. -/
def ofLine (username : String) (greeting : Option String) (line : String) :
    Except Failure Session :=
  match Reply.parse line with
  | .ok reply => ofReply username greeting reply
  | .error f => .error f

/-- What the handshake can come to. -/
inductive Shaken (credentials : Credentials) (wire : WireConventions) (w : Window) (e : Endpoint) :
    Except Halt Session → Endpoint → Prop
  | ungreeted {halt : Halt} {e₁ : Endpoint} (h : Greeted wire w e (.error halt) e₁) :
      Shaken credentials wire w e (.error halt) e₁
  | unencoded {greeting : Option String} {f : Failure} {e₁ : Endpoint}
      (h : Greeted wire w e (.ok greeting) e₁)
      (hd : wire.loginEncoding.encode credentials = .error f) :
      Shaken credentials wire w e (.error (.failed f)) e₁
  | unsent {greeting : Option String} {data : String} {halt : Halt} {e₁ e₂ : Endpoint}
      (h : Greeted wire w e (.ok greeting) e₁)
      (hd : wire.loginEncoding.encode credentials = .ok data)
      (hs : Endpoint.Sent (Request.login data).line shownLogin e₁ (.error halt) e₂) :
      Shaken credentials wire w e (.error halt) e₂
  | unanswered {greeting : Option String} {data : String} {halt : Halt} {e₁ e₂ e₃ : Endpoint}
      (h : Greeted wire w e (.ok greeting) e₁)
      (hd : wire.loginEncoding.encode credentials = .ok data)
      (hs : Endpoint.Sent (Request.login data).line shownLogin e₁ (.ok ()) e₂)
      (hr : Endpoint.Received w e₂ (.error halt) e₃) :
      Shaken credentials wire w e (.error halt) e₃
  | answered {greeting : Option String} {data line : String} {e₁ e₂ e₃ : Endpoint}
      (h : Greeted wire w e (.ok greeting) e₁)
      (hd : wire.loginEncoding.encode credentials = .ok data)
      (hs : Endpoint.Sent (Request.login data).line shownLogin e₁ (.ok ()) e₂)
      (hr : Endpoint.Received w e₂ (.ok line) e₃) :
      Shaken credentials wire w e (halted (ofLine credentials.username greeting line)) e₃

theorem shaken_of_handshake {result : Except Halt Session}
    (h : handshake credentials wire w e = (result, e')) :
    Shaken credentials wire w e result e' := by
  simp only [handshake, Exchange.bind_apply, Exchange.check_apply, Exchange.send,
    Exchange.receive] at h
  rcases hg : readGreeting wire w e with ⟨greeting, e₁⟩
  have hgreeted := greeted_of_readGreeting hg
  rw [hg] at h
  cases greeting with
  | error halt =>
    obtain ⟨rfl, rfl⟩ := Prod.mk.inj h
    exact .ungreeted hgreeted
  | ok greeting =>
    cases hd : wire.loginEncoding.encode credentials with
    | error f =>
      simp only [hd, halted] at h
      obtain ⟨rfl, rfl⟩ := Prod.mk.inj h
      exact .unencoded hgreeted hd
    | ok data =>
      simp only [hd, halted] at h
      rcases hs : e₁.send (Request.login data).line shownLogin with ⟨sent, e₂⟩
      have hsent := Endpoint.sent_of_send hs
      rw [hs] at h
      cases sent with
      | error halt =>
        obtain ⟨rfl, rfl⟩ := Prod.mk.inj h
        exact .unsent hgreeted hd hsent
      | ok _ =>
        rcases hr : e₂.receive w with ⟨received, e₃⟩
        have hreceived := Endpoint.received_of_receive hr
        simp only [hr] at h
        cases received with
        | error halt =>
          obtain ⟨rfl, rfl⟩ := Prod.mk.inj h
          exact .unanswered hgreeted hd hsent hreceived
        | ok line =>
          have ha : Shaken credentials wire w e _ _ := .answered hgreeted hd hsent hreceived
          cases hp : Reply.parse line with
          | ok reply =>
            simp only [hp] at h
            obtain ⟨rfl, rfl⟩ := Prod.mk.inj h
            simpa only [ofLine, hp, halted] using ha
          | error f =>
            simp only [hp] at h
            obtain ⟨rfl, rfl⟩ := Prod.mk.inj h
            simpa only [ofLine, hp, halted] using ha

end Session

namespace Client

variable {target : String} {network : Dial} {settings : ConnectSettings} {c : Client}
  {f : Failure} {endpoint : Endpoint}

/-- A server that is reached at once, and nothing is wrong with the connection. -/
def Dial.reaching (server : Server) : Dial := .after 0 (.ok { server })

/-- What a connection is opened to within a limit, and when. -/
def Dial.opened? (limit : Nat) : Dial → Option (Nat × Reached)
  | .fails _ => none
  | .after delay outcome =>
    if delay < limit then outcome.toOption.map fun reached => (delay, reached) else none

/-- The server that is reached within a limit over a connection that serves, and when. -/
def Dial.reached? (limit : Nat) (network : Dial) : Option (Nat × Server) :=
  (network.opened? limit).bind fun opened =>
    if opened.2.delayFault.isNone then some (opened.1, opened.2.server) else none

/-- How the other end of the connection is called: by its own address if that can be told. -/
def Dial.peer (target : String) : Dial → String
  | .after _ (.ok reached) => reached.peer.getD target
  | .after _ (.error _) | .fails _ => target

/-- The endpoint of a connection that has just been made. -/
def opened (peer : String) (settings : ConnectSettings) (server : Server) (now : Nat) :
    Endpoint where
  peer := peer
  maxLineBytes := settings.wire.maxLineBytes
  link := .start server settings.wire.delimiter now
  journal := [.event (.connected peer)]

/-- How the login ends over a connection made at a given moment. -/
def Logged (peer : String) (settings : ConnectSettings) (server : Server) (now : Nat)
    (result : Except Halt Session) (e : Endpoint) : Prop :=
  Session.Shaken settings.credentials settings.wire
    { timer := some (now + settings.connectLimit.microseconds) }
    (opened peer settings server now) result e

/-- Of a connection that is opened in time it matters whether it can be made to serve. -/
theorem dial_opened {now : Nat} {reached : Reached} (target : String)
    (h : network.opened? settings.connectLimit.microseconds = some (now, reached)) :
    dial target network settings = match reached.delayFault with
      | some cause => .error (.connection ("Failed to set TCP_NODELAY: " ++ cause.message))
      | none => .ok (opened (network.peer target) settings reached.server now) := by
  cases network with
  | fails cause => simp [Dial.opened?] at h
  | after delay outcome =>
    by_cases hl : settings.connectLimit.microseconds ≤ delay
    · simp [Dial.opened?, Nat.not_lt.mpr hl] at h
    · cases outcome with
      | error cause => simp [Dial.opened?, Except.toOption] at h
      | ok reached' =>
        obtain ⟨rfl, rfl⟩ : delay = now ∧ reached' = reached := by
          simpa [Dial.opened?, Nat.lt_of_not_le hl, Except.toOption] using h
        simp only [dial, hl, if_false]
        cases reached'.delayFault <;> rfl

theorem dial_unopened (target : String)
    (h : network.opened? settings.connectLimit.microseconds = none) :
    ∃ detail, dial target network settings = .error (.connection detail) := by
  cases network with
  | fails cause => exact ⟨_, rfl⟩
  | after delay outcome =>
    by_cases hl : settings.connectLimit.microseconds ≤ delay
    · exact ⟨_, by simp [dial, hl]; rfl⟩
    · cases outcome with
      | error cause => exact ⟨_, by simp [dial, hl]; rfl⟩
      | ok reached => simp [Dial.opened?, Nat.lt_of_not_le hl, Except.toOption] at h

theorem reached_eq_some_iff {limit now : Nat} {server : Server} :
    network.reached? limit = some (now, server) ↔
      ∃ reached, network.opened? limit = some (now, reached) ∧ reached.delayFault = none ∧
        reached.server = server := by
  simp only [Dial.reached?, Option.bind_eq_some_iff, Option.ite_none_right_eq_some,
    Option.some.injEq, Prod.mk.injEq, Option.isNone_iff_eq_none, Prod.exists]
  constructor
  · rintro ⟨_, reached, ho, hf, rfl, hs⟩
    exact ⟨reached, ho, hf, hs⟩
  · rintro ⟨reached, ho, hf, hs⟩
    exact ⟨now, reached, ho, hf, rfl, hs⟩

theorem reached_eq_none_iff {limit : Nat} :
    network.reached? limit = none ↔ network.opened? limit = none ∨
      ∃ now reached cause, network.opened? limit = some (now, reached) ∧
        reached.delayFault = some cause := by
  cases ho : network.opened? limit with
  | none => simp [Dial.reached?, ho]
  | some opened =>
    obtain ⟨now, reached⟩ := opened
    cases hf : reached.delayFault with
    | none => simp [Dial.reached?, ho, hf]
    | some cause =>
      simp only [Dial.reached?, ho, Option.bind_some, hf, Option.isNone_some, Bool.false_eq_true,
        if_false, reduceCtorEq, false_or, true_iff]
      exact ⟨now, reached, cause, rfl, hf⟩

theorem reached_after {limit delay now : Nat} {reached : Reached} {server : Server}
    (h : Dial.reached? limit (.after delay (.ok reached)) = some (now, server)) :
    now = delay ∧ server = reached.server := by
  obtain ⟨reached', ho, -, rfl⟩ := reached_eq_some_iff.mp h
  simp only [Dial.opened?, Except.toOption, Option.map_some, Option.ite_none_right_eq_some,
    Option.some.injEq, Prod.mk.injEq] at ho
  obtain ⟨-, rfl, rfl⟩ := ho
  exact ⟨rfl, rfl⟩

theorem dial_reached {now : Nat} {server : Server} (target : String)
    (h : network.reached? settings.connectLimit.microseconds = some (now, server)) :
    dial target network settings = .ok (opened (network.peer target) settings server now) := by
  obtain ⟨reached, ho, hf, rfl⟩ := reached_eq_some_iff.mp h
  rw [dial_opened target ho, hf]

theorem dial_unreached (target : String)
    (h : network.reached? settings.connectLimit.microseconds = none) :
    ∃ detail, dial target network settings = .error (.connection detail) := by
  rcases reached_eq_none_iff.mp h with ho | ⟨now, reached, cause, ho, hf⟩
  · exact dial_unopened target ho
  · exact ⟨_, by rw [dial_opened target ho, hf]⟩

theorem dial_ok (h : dial target network settings = .ok endpoint) :
    ∃ server now, network.reached? settings.connectLimit.microseconds = some (now, server) ∧
      endpoint = opened (network.peer target) settings server now := by
  cases hn : network.reached? settings.connectLimit.microseconds with
  | none =>
    obtain ⟨detail, hd⟩ := dial_unreached target hn
    simp [hd] at h
  | some reached =>
    rw [dial_reached target hn] at h
    exact ⟨_, _, rfl, (Except.ok.inj h).symm⟩

/-- What a login comes to when its handshake has ended: a client with the connection in its slot,
or a channel that is closed. -/
def conclude (target : String) (settings : ConnectSettings) :
    Except Halt Session → Endpoint → Attempt
  | .ok session, e =>
    .ready ({ session, wire := settings.wire, requestLimit := settings.requestLimit
              endpoint := e.note ⟨.debug, .login, "login accepted",
                [("user", session.username), ("peer", e.peer)]⟩
              slot := some {} : Client }.note .info "connected to ProtonDB"
      [("addr", target), ("user", session.username)])
  | .error (.failed f), e =>
    .rejected (Session.asAuthentication f)
      ((e.closeQuietly .login "close after failed login").note ⟨.warn, .login, "login failed",
        [("user", settings.credentials.username), ("error", f.message)]⟩).release
  | .error _, e =>
    .rejected
      (.authentication ("No login reply from " ++ target ++ " within "
        ++ settings.connectLimit.render))
      (e.closeQuietly .client "close after login timeout").release

theorem login_eq {result : Except Halt Session} {e e' : Endpoint}
    (h : Session.handshake settings.credentials settings.wire
      { timer := some (e.link.clock + settings.connectLimit.microseconds) } e = (result, e')) :
    login target settings e = conclude target settings result e' := by
  simp only [login, Session.establish, h]
  cases result with
  | ok session => rfl
  | error halt => cases halt <;> rfl

theorem connectTo_concluded {attempt : Attempt}
    (h : connectTo target network settings = attempt) :
    (∃ f, attempt = .refused f) ∨
    ∃ server now result e,
      network.reached? settings.connectLimit.microseconds = some (now, server) ∧
      Logged (network.peer target) settings server now result e ∧
      attempt = conclude target settings result e := by
  unfold connectTo at h
  split at h
  · exact Or.inl ⟨_, h.symm⟩
  · split at h
    · exact Or.inl ⟨_, h.symm⟩
    · next e hd =>
      obtain ⟨server, now, hn, rfl⟩ := dial_ok hd
      rcases hs : Session.handshake settings.credentials settings.wire
        { timer := some (now + settings.connectLimit.microseconds) }
        (opened (network.peer target) settings server now) with ⟨result, e⟩
      refine Or.inr ⟨server, now, result, e, hn, Session.shaken_of_handshake hs, ?_⟩
      rw [← h]
      exact login_eq hs

/-- Whatever ends the handshake, the login fails as such, and over a channel that is closed and shut
down. -/
theorem conclude_error (target : String) (settings : ConnectSettings) (halt : Halt)
    (e : Endpoint) :
    ∃ detail journal, conclude target settings (.error halt) e
      = .rejected (.authentication detail)
        { e with closed := true, link := e.link.shutDown.2, journal } := by
  obtain ⟨journal, hl⟩ := Endpoint.release_closeQuietly .login "close after failed login" e
  obtain ⟨journal', hc⟩ := Endpoint.release_closeQuietly .client "close after login timeout" e
  cases halt with
  | failed f =>
    obtain ⟨detail, hf⟩ : ∃ detail, Session.asAuthentication f = .authentication detail := by
      cases f <;> exact ⟨_, rfl⟩
    simp only [conclude, Endpoint.release_note, hl, hf]
    exact ⟨_, _, rfl⟩
  | expired | unfinished =>
    simp only [conclude, hc]
    exact ⟨_, _, rfl⟩

theorem connectTo_ready (h : connectTo target network settings = .ready c) :
    ∃ server now session e journal,
      network.reached? settings.connectLimit.microseconds = some (now, server) ∧
      Logged (network.peer target) settings server now (.ok session) e ∧
      c = { session, wire := settings.wire, requestLimit := settings.requestLimit
            endpoint := { e with journal }, slot := some {} } := by
  rcases connectTo_concluded h with ⟨f, hf⟩ | ⟨server, now, result, e, hn, hl, hc⟩
  · simp at hf
  · cases result with
    | ok session => exact ⟨server, now, session, e, _, hn, hl, Attempt.ready.inj hc⟩
    | error halt =>
      obtain ⟨f, journal, he⟩ := conclude_error target settings halt e
      simp [he] at hc

theorem connectTo_rejected (h : connectTo target network settings = .rejected f endpoint) :
    ∃ server now halt e journal closed,
      network.reached? settings.connectLimit.microseconds = some (now, server) ∧
      Logged (network.peer target) settings server now (.error halt) e ∧
      endpoint = { e with closed, link := e.link.shutDown.2, journal } := by
  rcases connectTo_concluded h with ⟨f, hf⟩ | ⟨server, now, result, e, hn, hl, hc⟩
  · simp at hf
  · cases result with
    | ok session => simp [conclude] at hc
    | error halt =>
      obtain ⟨g, journal, he⟩ := conclude_error target settings halt e
      rw [he] at hc
      exact ⟨server, now, halt, e, journal, true, hn, hl, (Attempt.rejected.inj hc).2⟩

/-- A server that is content with every line. -/
def obliging : Server where
  accept := []
  answer _ := [(0, .bytes (Text.utf8 "\x7b\"Status\":\"ok\"\x7d\n"))]

def Attempt.client? : Attempt → Option Client
  | ready c => some c
  | refused _ | rejected _ _ => none

/-- Every setting but that of the greeting is the usual one. -/
def ungreeted : ConnectSettings := { wire := { greeting := false } }

theorem connectTo_obliging :
    ∃ c, connectTo "db" (.reaching obliging) ungreeted = .ready c := by
  have h : (connectTo "db" (.reaching obliging) ungreeted).client?.isSome = true := by
    decide +kernel
  cases hc : connectTo "db" (.reaching obliging) ungreeted with
  | ready c => exact ⟨c, rfl⟩
  | refused f | rejected f e => simp [hc, Attempt.client?] at h

end Client

end DocClient
