import DocClient.Proofs.Channel.Awaiting
import DocClient.Proofs.Login.Handshake
import DocClient.Proofs.Wire.Request

/-!
The login decides on the server's answer and on nothing else, and a login that is not accepted
leaves a closed channel.
-/
namespace DocClient.Session

open Text (Bytes)

variable {credentials : Credentials} {wire : WireConventions} {e e' : Endpoint}
  {greeting : Option String} {data text detail : String} {rest : Bytes} {session : Session}
  {result : Except Halt Session} {halt : Halt} {f : Failure}

/-- The endpoint after the greeting, if there is to be one. -/
def afterGreeting (wire : WireConventions) (e : Endpoint) : Endpoint :=
  if wire.greeting then (e.receive {}).2 else e

/-- The endpoint after the login has been written. -/
def afterLogin (wire : WireConventions) (data : String) (e : Endpoint) : Endpoint :=
  ((afterGreeting wire e).send (Request.login data).line shownLogin).2

/-- The greeting that a server gives, where it is to give one. -/
inductive Greets (wire : WireConventions) (e : Endpoint) : Option String → Prop
  | silent (h : wire.greeting = false) : Greets wire e none
  | greeted {text : String} {rest : Bytes} (h : wire.greeting = true) (ho : e.Offers text rest) :
      Greets wire e (some text)

/-- The login is written: the server has greeted if it is to, the credentials can be encoded, and
the connection has not broken. -/
structure Asks (credentials : Credentials) (wire : WireConventions) (e : Endpoint)
    (greeting : Option String) (data : String) : Prop where
  greets : Greets wire e greeting
  encoded : wire.loginEncoding.encode credentials = .ok data
  whole : (afterGreeting wire e).link.isReset = false

/-- The server's answer to the login is a reply that reports success; the rest comes after it. -/
inductive Accepts (credentials : Credentials) (wire : WireConventions) (e : Endpoint) :
    Session → Bytes → Prop
  | intro {greeting : Option String} {data text : String} {rest : Bytes} {reply : Reply}
      (h : Asks credentials wire e greeting data) (ho : (afterLogin wire data e).Offers text rest)
      (hp : Reply.parse text = .ok reply) (hs : reply.succeeded = true) :
      Accepts credentials wire e ⟨credentials.username, greeting, reply.note⟩ rest

/-- Why a login is not accepted: the answer is a reply that reports a failure, in the words in
which the reply itself is turned into a failure, or something else fails, with its message. -/
inductive Refuses (credentials : Credentials) (wire : WireConventions) (e : Endpoint) :
    String → Prop
  | refused {greeting : Option String} {data text detail : String} {rest : Bytes} {reply : Reply}
      (h : Asks credentials wire e greeting data) (ho : (afterLogin wire data e).Offers text rest)
      (hp : Reply.parse text = .ok reply) (hs : reply.succeed = .error (.server detail)) :
      Refuses credentials wire e detail
  | ungreeted {f : Failure} (h : wire.greeting = true)
      (hr : (e.receive {}).1 = .error (.failed f)) : Refuses credentials wire e f.message
  | unencoded {greeting : Option String} {f : Failure} (h : Greets wire e greeting)
      (hd : wire.loginEncoding.encode credentials = .error f) :
      Refuses credentials wire e f.message
  | unsent {greeting : Option String} {data : String} {f : Failure} (h : Greets wire e greeting)
      (hd : wire.loginEncoding.encode credentials = .ok data)
      (hs : ((afterGreeting wire e).send (Request.login data).line shownLogin).1
        = .error (.failed f)) : Refuses credentials wire e f.message
  | unanswered {greeting : Option String} {data : String} {f : Failure}
      (h : Asks credentials wire e greeting data)
      (hr : ((afterLogin wire data e).receive {}).1 = .error (.failed f)) :
      Refuses credentials wire e f.message
  | malformed {greeting : Option String} {data text : String} {rest : Bytes} {f : Failure}
      (h : Asks credentials wire e greeting data) (ho : (afterLogin wire data e).Offers text rest)
      (hp : Reply.parse text = .error f) : Refuses credentials wire e f.message

/-- The login comes to no end: the server owes the greeting or the answer and falls silent. -/
inductive Waits (credentials : Credentials) (wire : WireConventions) (e : Endpoint) : Prop
  | greeting (h : wire.greeting = true) (hs : e.Silent)
  | answer {greeting : Option String} {data : String} (h : Asks credentials wire e greeting data)
      (hs : (afterLogin wire data e).Silent)

/-- What a login puts on the wire: the greeting if there is to be one, then the login and nothing
else, and then its answer. Without a greeting that is to come, or with credentials that cannot be
sent, nothing is written. -/
inductive Traced (credentials : Credentials) (wire : WireConventions) (e : Endpoint) :
    List Transfer → Prop
  | unasked (greeting : Option Bytes) (hg : wire.greeting = false → greeting = none)
      (h : ∀ greeting data, ¬ Asks credentials wire e greeting data) :
      Traced credentials wire e (greeting.toList.map .took)
  | asked {text : Option String} {data : String} (greeting answer : Option Bytes)
      (hg : greeting.isSome = wire.greeting) (h : Asks credentials wire e text data) :
      Traced credentials wire e (greeting.toList.map .took
        ++ .wrote ((Request.login data).frame e.link.delimiter) :: answer.toList.map .took)

section Stages

/-- The greeting is read, and the connection is still good. -/
theorem readGreeting_greets (ho : e.closed = false) (h : Greets wire e greeting) :
    readGreeting wire {} e = (.ok greeting, afterGreeting wire e) ∧
      (afterGreeting wire e).closed = false := by
  cases h with
  | silent h =>
    simp only [readGreeting, afterGreeting, h, Bool.false_eq_true, if_false]
    exact ⟨rfl, ho⟩
  | greeted h hoffers =>
    obtain ⟨e₁, hr, -⟩ := Endpoint.receive_offers ho hoffers
    have hopen := (Endpoint.offers_of_receive hr).2
    simp only [readGreeting, afterGreeting, h, if_true, hr, map_eq_pure_bind, Exchange.bind_apply,
      Exchange.receive]
    exact ⟨rfl, hopen⟩

/-- Either the server greets as it is to, or waiting for the greeting ends the login. -/
theorem greets_or_receive_error (wire : WireConventions) (e : Endpoint) :
    (∃ greeting, Greets wire e greeting) ∨
      wire.greeting = true ∧ ∃ halt e₁, e.receive {} = (.error halt, e₁) := by
  cases hg : wire.greeting with
  | false => exact Or.inl ⟨none, .silent hg⟩
  | true =>
    rcases hr : e.receive {} with ⟨received, e₁⟩
    cases received with
    | ok text => exact Or.inl ⟨some text, .greeted hg (Endpoint.offers_of_receive hr).1⟩
    | error halt => exact Or.inr ⟨rfl, halt, e₁, rfl⟩

theorem readGreeting_error {e₁ : Endpoint} (hg : wire.greeting = true)
    (hr : e.receive {} = (.error halt, e₁)) : readGreeting wire {} e = (.error halt, e₁) := by
  simp only [readGreeting, hg, if_true, map_eq_pure_bind, Exchange.bind_apply, Exchange.receive, hr]

theorem handshake_ungreeted {e₁ : Endpoint} (hg : wire.greeting = true)
    (hr : e.receive {} = (.error halt, e₁)) :
    handshake credentials wire {} e = (.error halt, e₁) := by
  simp only [handshake, Exchange.bind_apply, readGreeting_error hg hr]

theorem handshake_unencoded (ho : e.closed = false) (hg : Greets wire e greeting)
    (hd : wire.loginEncoding.encode credentials = .error f) :
    handshake credentials wire {} e = (.error (.failed f), afterGreeting wire e) := by
  simp only [handshake, Exchange.bind_apply, (readGreeting_greets ho hg).1, Exchange.check_apply, hd,
    halted]

/-- The login is on its way, or sending it ends the login. -/
theorem handshake_encoded (ho : e.closed = false) (hg : Greets wire e greeting)
    (hd : wire.loginEncoding.encode credentials = .ok data) :
    handshake credentials wire {} e =
      match (afterGreeting wire e).send (Request.login data).line shownLogin with
      | (.error halt, e₂) => (.error halt, e₂)
      | (.ok (), e₂) =>
        match e₂.receive {} with
        | (.error halt, e₃) => (.error halt, e₃)
        | (.ok text, e₃) => (halted (ofLine credentials.username greeting text), e₃) := by
  simp only [handshake, Exchange.bind_apply, (readGreeting_greets ho hg).1, Exchange.check_apply, hd,
    halted, Exchange.send, Exchange.receive]
  rcases (afterGreeting wire e).send (Request.login data).line shownLogin with ⟨_ | _, e₂⟩
  · rfl
  · rcases hr : e₂.receive {} with ⟨_ | text, e₃⟩
    · simp [hr]
    · simp only [hr]
      cases hp : Reply.parse text with
      | ok reply => simp [ofLine, hp]
      | error f => simp [ofLine, hp]

theorem send_asks (ho : e.closed = false) (h : Asks credentials wire e greeting data) :
    (afterGreeting wire e).send (Request.login data).line shownLogin
        = (.ok (), afterLogin wire data e) ∧ (afterLogin wire data e).closed = false := by
  have hopen := (readGreeting_greets ho h.greets).2
  obtain ⟨e₂, hs, hopen₂⟩ :=
    Endpoint.send_whole (Request.login data).line shownLogin hopen h.whole
  simp only [afterLogin, hs]
  exact ⟨trivial, hopen₂⟩

end Stages

/-- How the handshake ends, before its failures are made failures of the login. -/
inductive Ends (credentials : Credentials) (wire : WireConventions) (e : Endpoint) :
    Except Halt Session → Endpoint → Prop
  | accepted {session : Session} {e' : Endpoint}
      (h : Accepts credentials wire e session (Link.stream e'.link.inbox)) (hc : e'.closed = false) :
      Ends credentials wire e (.ok session) e'
  | refused {f : Failure} {detail : String} {e' : Endpoint} (h : Refuses credentials wire e detail)
      (hf : asAuthentication f = .authentication detail) :
      Ends credentials wire e (.error (.failed f)) e'
  | waiting {e' : Endpoint} (h : Waits credentials wire e) :
      Ends credentials wire e (.error .unfinished) e'

theorem asAuthentication_of_ne (h : ∀ detail, f ≠ .authentication detail) :
    asAuthentication f = .authentication f.message := by
  cases f with
  | authentication detail => exact absurd rfl (h detail)
  | _ => rfl

theorem encode_ne_authentication {format : LoginEncoding} (h : format.encode credentials = .error f)
    (detail : String) : f ≠ .authentication detail := by
  cases format with
  | comma =>
    simp only [LoginEncoding.encode] at h
    split at h
    · obtain rfl := Except.error.inj h
      simp
    · simp at h
  | json => simp [LoginEncoding.encode] at h

theorem parse_ne_authentication (h : Reply.parse text = .error f) (detail : String) :
    f ≠ .authentication detail := by
  obtain ⟨said, rfl | rfl⟩ := Reply.parse_error h <;> simp

/-- The answer decides. -/
theorem ends_of_answer (h : Asks credentials wire e greeting data)
    (hr : (afterLogin wire data e).receive {} = (.ok text, e')) :
    Ends credentials wire e (halted (ofLine credentials.username greeting text)) e' := by
  obtain ⟨hoffers, hopen⟩ := Endpoint.offers_of_receive hr
  cases hp : Reply.parse text with
  | error f =>
    simp only [ofLine, hp, halted]
    exact .refused (.malformed h hoffers hp) (asAuthentication_of_ne (parse_ne_authentication hp))
  | ok reply =>
    cases hs : reply.succeeded with
    | true =>
      simp only [ofLine, hp, ofReply, hs, if_true, halted]
      exact .accepted (.intro h hoffers hp hs) hopen
    | false =>
      have hfail : reply.succeed = .error (.server reply.reason) := by simp [Reply.succeed, hs]
      simp only [ofLine, hp, ofReply, hs, Bool.false_eq_true, if_false, halted]
      exact .refused (.refused h hoffers hp hfail) rfl

theorem ends_of_handshake (ho : e.closed = false)
    (h : handshake credentials wire {} e = (result, e')) :
    Ends credentials wire e result e' := by
  rcases greets_or_receive_error wire e with ⟨greeting, hg⟩ | ⟨hg, halt, e₁, hr⟩
  · have hopen := (readGreeting_greets ho hg).2
    cases hd : wire.loginEncoding.encode credentials with
    | error f =>
      obtain ⟨rfl, rfl⟩ := Prod.mk.inj ((handshake_unencoded ho hg hd).symm.trans h)
      exact .refused (.unencoded hg hd) (asAuthentication_of_ne (encode_ne_authentication hd))
    | ok data =>
      rw [handshake_encoded ho hg hd] at h
      cases hw : (afterGreeting wire e).link.isReset with
      | true =>
        have hs := Endpoint.send_reset (Request.login data).line shownLogin hopen hw
        rw [hs] at h
        obtain ⟨rfl, rfl⟩ := Prod.mk.inj h
        exact .refused (.unsent hg hd (by rw [hs]))
          (asAuthentication_of_ne (Endpoint.failure_ne_authentication _))
      | false =>
        have hasks : Asks credentials wire e greeting data := ⟨hg, hd, hw⟩
        obtain ⟨hs, hopen₂⟩ := send_asks ho hasks
        rw [hs] at h
        rcases hr : (afterLogin wire data e).receive {} with ⟨received, e₃⟩
        simp only [hr] at h
        cases received with
        | ok text =>
          obtain ⟨rfl, rfl⟩ := Prod.mk.inj h
          exact ends_of_answer hasks hr
        | error halt =>
          obtain ⟨rfl, rfl⟩ := Prod.mk.inj h
          rcases Endpoint.receive_error hopen₂ hr with ⟨f, rfl⟩ | ⟨rfl, hsilent⟩
          · exact .refused (.unanswered hasks (by rw [hr]))
              (asAuthentication_of_ne (Endpoint.receive_ne_authentication hr))
          · exact .waiting (.answer hasks hsilent)
  · obtain ⟨rfl, rfl⟩ := Prod.mk.inj ((handshake_ungreeted hg hr).symm.trans h)
    rcases Endpoint.receive_error ho hr with ⟨f, rfl⟩ | ⟨rfl, hsilent⟩
    · exact .refused (.ungreeted hg (by rw [hr]))
        (asAuthentication_of_ne (Endpoint.receive_ne_authentication hr))
    · exact .waiting (.greeting hg hsilent)

section Trace

/-- Whoever waits for a line takes at most one. -/
theorem took_of_receive (e : Endpoint) : ∃ line : Option Bytes,
    (e.receive {}).2.link.transcript = e.link.transcript ++ line.toList.map .took ∧
      (line = none → ∀ text, (e.receive {}).1 ≠ .ok text) := by
  rcases hr : e.receive {} with ⟨received, e₁⟩
  rcases (Endpoint.received_of_receive hr).transcript with ⟨line, ht⟩ | ⟨ht, hnone⟩
  · exact ⟨some line, ht, by simp⟩
  · exact ⟨none, by simpa using ht, fun _ => hnone⟩

theorem took_of_greets (ho : e.closed = false) (h : Greets wire e greeting) :
    ∃ line : Option Bytes, line.isSome = wire.greeting ∧
      (afterGreeting wire e).link.transcript = e.link.transcript ++ line.toList.map .took ∧
      (afterGreeting wire e).link.delimiter = e.link.delimiter := by
  cases h with
  | silent h => exact ⟨none, by simp [h], by simp [afterGreeting, h], by simp [afterGreeting, h]⟩
  | greeted h hoffers =>
    obtain ⟨e₁, hr, -⟩ := Endpoint.receive_offers ho hoffers
    obtain ⟨line, ht, hline⟩ := took_of_receive e
    have hd := (Endpoint.received_of_receive hr).delimiter
    simp only [hr] at ht hline
    simp only [afterGreeting, h, if_true, hr]
    refine ⟨line, ?_, ht, hd⟩
    cases line with
    | none => exact absurd rfl (hline rfl _)
    | some line => rfl

theorem traced_of_handshake (ho : e.closed = false)
    (h : handshake credentials wire {} e = (result, e')) :
    ∃ block, e'.link.transcript = e.link.transcript ++ block ∧
      Traced credentials wire e block := by
  rcases greets_or_receive_error wire e with ⟨greeting, hg⟩ | ⟨hg, halt, e₁, hr⟩
  · have hopen := (readGreeting_greets ho hg).2
    obtain ⟨line, hline, ht, hdelimiter⟩ := took_of_greets ho hg
    have hnone : wire.greeting = false → line = none := by
      intro hsilent
      simpa [hsilent] using hline
    cases hd : wire.loginEncoding.encode credentials with
    | error f =>
      obtain ⟨rfl, rfl⟩ := Prod.mk.inj ((handshake_unencoded ho hg hd).symm.trans h)
      refine ⟨_, ht, .unasked line hnone ?_⟩
      intro greeting data hasks
      simp [hasks.encoded] at hd
    | ok data =>
      rw [handshake_encoded ho hg hd] at h
      cases hw : (afterGreeting wire e).link.isReset with
      | true =>
        rw [Endpoint.send_reset _ _ hopen hw] at h
        obtain ⟨rfl, rfl⟩ := Prod.mk.inj h
        refine ⟨_, ht, .unasked line hnone ?_⟩
        intro greeting data hasks
        simp [hasks.whole] at hw
      | false =>
        have hasks : Asks credentials wire e greeting data := ⟨hg, hd, hw⟩
        have hs := (send_asks ho hasks).1
        have hwrote : (afterLogin wire data e).link.transcript
            = (afterGreeting wire e).link.transcript
              ++ [.wrote ((Request.login data).frame e.link.delimiter)] := by
          rcases (Endpoint.sent_of_send hs).transcript with ⟨-, hwrote⟩ | ⟨hfail, -⟩
          · rw [hwrote, Endpoint.frame, hdelimiter]
            rfl
          · exact absurd rfl hfail
        obtain ⟨answer, hanswer, -⟩ := took_of_receive (afterLogin wire data e)
        refine ⟨_, ?_, .asked line answer hline hasks⟩
        rw [hs] at h
        have he : e' = ((afterLogin wire data e).receive {}).2 := by
          rcases hr : (afterLogin wire data e).receive {} with ⟨_ | text, e₃⟩ <;>
            simp only [hr] at h <;> exact (Prod.mk.inj h).2.symm
        rw [he, hanswer, hwrote, ht]
        simp
  · obtain ⟨rfl, rfl⟩ := Prod.mk.inj ((handshake_ungreeted hg hr).symm.trans h)
    obtain ⟨line, ht, -⟩ := took_of_receive e
    rw [hr] at ht
    refine ⟨_, ht, .unasked line (by simp [hg]) ?_⟩
    intro greeting data hasks
    cases hasks.greets with
    | silent hsilent => simp [hg] at hsilent
    | greeted _ hoffers =>
      obtain ⟨e₂, hr', -⟩ := Endpoint.receive_offers ho hoffers
      simp [hr] at hr'

end Trace

section Stream

/-- All that the server says to a login: what it says by itself, and what it says once it has heard
the login. -/
def said (data : String) (e : Endpoint) : Bytes :=
  Link.stream (e.link.inbox ++ e.link.server.reaction e.link.heard
    (Text.linesOf e.link.delimiter ((Request.login data).frame e.link.delimiter)))

/-- What is left after the greeting of all that comes sooner or later. -/
theorem stream_of_greets (ho : e.closed = false) (h : Greets wire e greeting)
    (later : Schedule Emission) :
    ∃ line : Option Bytes, line.map Endpoint.lineText = greeting.map .ok ∧
      Link.stream (e.link.inbox ++ later)
        = line.toList.flatMap (· ++ [e.link.delimiter])
          ++ Link.stream ((afterGreeting wire e).link.inbox ++ later) := by
  cases h with
  | silent h => exact ⟨none, rfl, by simp [afterGreeting, h]⟩
  | @greeted text rest h hoffers =>
    obtain ⟨e₁, hr, -⟩ := Endpoint.receive_offers ho hoffers
    have hreceived := Endpoint.received_of_receive hr
    generalize htext : (Except.ok text : Except Halt String) = received at hreceived
    cases hreceived with
    | @taken line l _ hread =>
      refine ⟨some line, ?_, ?_⟩
      · cases ht : Endpoint.lineText line with
        | ok text' =>
          simp only [ht, halted, Except.ok.injEq] at htext
          simp [ht, htext]
        | error f => simp [ht, halted] at htext
      · simp only [afterGreeting, h, if_true, hr]
        simpa using Link.stream_of_read hread later
    | _ => simp at htext

theorem heard_of_greets (ho : e.closed = false) (h : Greets wire e greeting) :
    (afterGreeting wire e).link = { e.link with
      clock := (afterGreeting wire e).link.clock, inbox := (afterGreeting wire e).link.inbox,
      transcript := (afterGreeting wire e).link.transcript } := by
  cases h with
  | silent h => simp [afterGreeting, h]
  | greeted h hoffers =>
    obtain ⟨e₁, hr, -⟩ := Endpoint.receive_offers ho hoffers
    obtain ⟨line, hread⟩ := (Endpoint.received_of_receive hr).read
    have hl := Link.read_eq hread
    simp only [afterGreeting, h, if_true, hr]
    rw [hl]

/-- The greeting, if there is to be one, is the first line of all that the server says, and the
answer is sought in what comes after it. -/
theorem said_of_asks (ho : e.closed = false) (hl : e.link.halfLine = [])
    (h : Asks credentials wire e greeting data) :
    ∃ line : Option Bytes, line.map Endpoint.lineText = greeting.map .ok ∧
      said data e = line.toList.flatMap (· ++ [e.link.delimiter])
        ++ Link.stream (afterLogin wire data e).link.inbox := by
  obtain ⟨line, hline, hstream⟩ := stream_of_greets ho h.greets
    (e.link.server.reaction e.link.heard
      (Text.linesOf e.link.delimiter ((Request.login data).frame e.link.delimiter)))
  refine ⟨line, hline, ?_⟩
  have hlink := heard_of_greets ho h.greets
  have hwrite := (Endpoint.sent_of_send (send_asks ho h).1).write
  have hafter := (Link.write_stream hwrite (by rw [hlink]; exact hl)).1
  rw [said, hstream, hafter, Endpoint.frame]
  rw [hlink]
  rfl

end Stream

/-- What a server can offer in answer opens one session only. -/
theorem handshake_accepts (ho : e.closed = false) (h : Accepts credentials wire e session rest) :
    ∃ e', handshake credentials wire {} e = (.ok session, e') ∧
      Link.stream e'.link.inbox = rest := by
  obtain ⟨hasks, hoffers, hp, hs⟩ := h
  obtain ⟨hsend, hopen⟩ := send_asks ho hasks
  obtain ⟨e₃, hr, hrest⟩ := Endpoint.receive_offers hopen hoffers
  refine ⟨e₃, ?_, hrest⟩
  rw [handshake_encoded ho hasks.greets hasks.encoded, hsend]
  simp only [hr, ofLine, hp, ofReply, hs, if_true, halted]

/-- Each reason for which a login is refused ends the handshake, with its own words. -/
theorem handshake_refuses (ho : e.closed = false) (h : Refuses credentials wire e detail) :
    ∃ f e', handshake credentials wire {} e = (.error (.failed f), e') ∧
      asAuthentication f = .authentication detail := by
  cases h with
  | @refused greeting data text _ rest reply hasks hoffers hp hs =>
    obtain ⟨hsend, hopen⟩ := send_asks ho hasks
    obtain ⟨e₃, hr, -⟩ := Endpoint.receive_offers hopen hoffers
    have hfailed : reply.succeeded = false ∧ reply.reason = detail := by
      cases hsucceeded : reply.succeeded with
      | true => simp [Reply.succeed, hsucceeded] at hs
      | false => exact ⟨rfl, by simpa [Reply.succeed, hsucceeded] using hs⟩
    refine ⟨.authentication detail, e₃, ?_, rfl⟩
    rw [handshake_encoded ho hasks.greets hasks.encoded, hsend]
    simp only [hr, ofLine, hp, ofReply, hfailed, Bool.false_eq_true, if_false, halted]
  | @ungreeted f hg hr =>
    rcases hreceive : e.receive {} with ⟨received, e₁⟩
    obtain rfl : received = .error (.failed f) := by simpa [hreceive] using hr
    exact ⟨f, e₁, handshake_ungreeted hg hreceive,
      asAuthentication_of_ne (Endpoint.receive_ne_authentication hreceive)⟩
  | @unencoded greeting f hg hd =>
    exact ⟨f, _, handshake_unencoded ho hg hd, asAuthentication_of_ne (encode_ne_authentication hd)⟩
  | @unsent greeting data f hg hd hs =>
    have hopen := (readGreeting_greets ho hg).2
    cases hw : (afterGreeting wire e).link.isReset with
    | true =>
      have hreset := Endpoint.send_reset (Request.login data).line shownLogin hopen hw
      obtain rfl : _ = f := by simpa [hreset] using hs
      refine ⟨_, { afterGreeting wire e with closed := true }, ?_,
        asAuthentication_of_ne (Endpoint.failure_ne_authentication _)⟩
      rw [handshake_encoded ho hg hd, hreset]
    | false =>
      obtain ⟨e₂, hsent, -⟩ :=
        Endpoint.send_whole (Request.login data).line shownLogin hopen hw
      simp [hsent] at hs
  | @unanswered greeting data f hasks hr =>
    rcases hreceive : (afterLogin wire data e).receive {} with ⟨received, e₃⟩
    obtain rfl : received = .error (.failed f) := by simpa [hreceive] using hr
    refine ⟨f, e₃, ?_, asAuthentication_of_ne (Endpoint.receive_ne_authentication hreceive)⟩
    rw [handshake_encoded ho hasks.greets hasks.encoded, (send_asks ho hasks).1]
    simp only [hreceive]
  | @malformed greeting data text rest f hasks hoffers hp =>
    obtain ⟨hsend, hopen⟩ := send_asks ho hasks
    obtain ⟨e₃, hr, -⟩ := Endpoint.receive_offers hopen hoffers
    refine ⟨f, e₃, ?_, asAuthentication_of_ne (parse_ne_authentication hp)⟩
    rw [handshake_encoded ho hasks.greets hasks.encoded, hsend]
    simp only [hr, ofLine, hp, halted]

section Limit

theorem maxLineBytes_afterLogin (wire : WireConventions) (data : String) (e : Endpoint) :
    (afterLogin wire data e).maxLineBytes = e.maxLineBytes := by
  have hgreeting : (afterGreeting wire e).maxLineBytes = e.maxLineBytes := by
    unfold afterGreeting
    split
    · exact (Endpoint.received_of_receive rfl).maxLineBytes
    · rfl
  exact (Endpoint.sent_of_send rfl).maxLineBytes.trans hgreeting

/-- With the largest limit of all there is no room for any line. -/
theorem room_of_boundless (h : e.maxLineBytes.toNat + 1 = UInt64.size) : e.room = 0 := by
  rw [Endpoint.room_eq, if_neg (by omega)]

theorem not_accepts_of_boundless (h : e.maxLineBytes.toNat + 1 = UInt64.size) :
    ¬ Accepts credentials wire e session rest := by
  rintro ⟨hasks, ⟨content, -, -, hfits, -⟩, -, -⟩
  rw [Endpoint.room_congr (maxLineBytes_afterLogin _ _ e), room_of_boundless h] at hfits
  exact Nat.not_lt_zero _ hfits

theorem not_waits_of_boundless (h : e.maxLineBytes.toNat + 1 = UInt64.size) :
    ¬ Waits credentials wire e := by
  rintro (⟨-, hsilent⟩ | ⟨hasks, hsilent⟩)
  · have hfits := hsilent.fits
    rw [room_of_boundless h] at hfits
    exact Nat.not_lt_zero _ hfits
  · have hfits := hsilent.fits
    rw [Endpoint.room_congr (maxLineBytes_afterLogin _ _ e), room_of_boundless h] at hfits
    exact Nat.not_lt_zero _ hfits

end Limit

/-- The outcome of a login, by what the server says. -/
structure Decides (credentials : Credentials) (wire : WireConventions) (e : Endpoint)
    (result : Except Halt Session) (e' : Endpoint) : Prop where
  /-- A greeting that is to come is the first line of all that the server says, and the answer is
  sought in what comes after it. -/
  follows : e.link.halfLine = [] → ∀ {greeting data}, Asks credentials wire e greeting data →
    ∃ line : Option Bytes, line.map Endpoint.lineText = greeting.map .ok ∧
      said data e = line.toList.flatMap (· ++ [e.link.delimiter])
        ++ Link.stream (afterLogin wire data e).link.inbox
  traced : ∃ block, e'.link.transcript = e.link.transcript ++ block ∧
    Traced credentials wire e block
  accepts : ∀ session, result = .ok session ↔ ∃ rest, Accepts credentials wire e session rest
  /-- The next byte to be read is the one after the answer. -/
  opens : ∀ {session rest}, Accepts credentials wire e session rest →
    e'.closed = false ∧ Link.stream e'.link.inbox = rest
  refuses : ∀ detail, result = .error (.failed (.authentication detail)) ↔
    Refuses credentials wire e detail
  /-- There is no other failure, and it leaves a closed channel; only a server that falls silent
  keeps the login waiting. -/
  fails : ∀ halt, result = .error halt →
    (∃ detail, halt = .failed (.authentication detail)) ∧ e'.closed = true ∨
    halt = .unfinished ∧ Waits credentials wire e
  /-- A limit that cannot be counted on from leaves no room for a line, and no server can be heard
  that accepts the login. -/
  boundless : e.maxLineBytes.toNat + 1 = UInt64.size →
    ∃ detail, result = .error (.failed (.authentication detail))

/-- A fresh connection to a server that greets, and then says the same to every line. -/
def door (answer : String) (wire : WireConventions := {}) : Endpoint :=
  Client.opened "db" { wire }
    { accept := [(0, .bytes (Text.utf8 "hello\n"))]
      answer := fun _ => [(0, .bytes (Text.utf8 (answer ++ "\nmore")))] } 0

/-- The conventions that put the largest limit on a line. -/
def boundless : WireConventions := { maxLineBytes := 0xFFFFFFFFFFFFFFFF }

end DocClient.Session
