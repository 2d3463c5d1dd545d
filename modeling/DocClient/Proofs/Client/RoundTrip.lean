import DocClient.Client.Call
import DocClient.Proofs.Channel.Exchange
import DocClient.Proofs.Wire.Reply

/-!
What a call can do while it has the client for itself, case by case. `Trip` says it of one request
and its reply, a caller that goes away included, and `Served` of the whole work of a call.
-/
namespace DocClient

open Text (Bytes)

/-- The reply that a line is, once it is complete. -/
def Reply.ofLine (content : Bytes) : Except Failure Reply :=
  match Endpoint.lineText content with
  | .ok text => Reply.parse text
  | .error f => .error f

/-- A complete line that is no reply is never said to be too long. -/
theorem Reply.ofLine_error {content : Bytes} {f : Failure} (h : ofLine content = .error f) :
    ∃ detail, f = .protocol detail ∧ ∀ rest, detail ≠ "Response exceeds " ++ rest := by
  unfold ofLine Endpoint.lineText at h
  split at h
  · obtain ⟨detail, rfl | rfl⟩ := parse_error h
    · refine ⟨_, rfl, ?_⟩
      intro rest he
      simpa using congrArg String.toList he
    · refine ⟨_, rfl, ?_⟩
      intro rest he
      simpa using congrArg String.toList he
  · next g hg =>
    split at hg
    · simp at hg
    · obtain rfl := Except.error.inj hg
      obtain rfl := Except.error.inj h
      refine ⟨_, rfl, ?_⟩
      intro rest he
      simpa using congrArg String.toList he

namespace Client

variable {c c' : Client} {e e' : Endpoint} {r : Request} {w : Window} {a : Answer}
  {patience : Option Nat} {hold : Hold}

/-- What a request over an endpoint can come to. -/
inductive Conversed (r : Request) (w : Window) (e : Endpoint) :
    Except Halt Reply → Endpoint → Prop
  | shut (h : e.closed = true) : Conversed r w e (.error (.failed .channelClosed)) e
  | unwritten (cause : SystemFault) (h : e.closed = false) :
      Conversed r w e (.error (.failed (e.failure (.writeFailed cause)))) { e with closed := true }
  | answered {l l' : Link} {content : Bytes} (h : e.closed = false)
      (hw : e.link.write (e.frame r.line) = (.ok (), l))
      (hr : l.read e.room w = (.line content, l')) :
      Conversed r w e (halted (Reply.ofLine content))
        { e with
          link := l'
          journal := e.journal ++ .event (.sent r.line) :: Endpoint.lineEvents content }
  | spoiled {l l' : Link} {reading : Reading} (fault : ChannelFault) (h : e.closed = false)
      (hw : e.link.write (e.frame r.line) = (.ok (), l))
      (hr : l.read e.room w = (reading, l')) (hf : reading.fault? = some fault) :
      Conversed r w e (.error (.failed (e.failure fault)))
        { e with link := l', closed := true, journal := e.journal ++ [.event (.sent r.line)] }
  | expired {l l' : Link} (h : e.closed = false)
      (hw : e.link.write (e.frame r.line) = (.ok (), l))
      (hr : l.read e.room w = (.expired, l')) :
      Conversed r w e (.error .expired)
        { e with link := l', journal := e.journal ++ [.event (.sent r.line)] }
  | unfinished {l l' : Link} (h : e.closed = false)
      (hw : e.link.write (e.frame r.line) = (.ok (), l))
      (hr : l.read e.room w = (.unfinished, l')) :
      Conversed r w e (.error .unfinished)
        { e with link := l', journal := e.journal ++ [.event (.sent r.line)] }

theorem conversed_of_converse {result : Except Halt Reply}
    (h : converse r w e = (result, e')) : Conversed r w e result e' := by
  simp only [converse, Exchange.bind_apply, Exchange.check_apply, Exchange.send,
    Exchange.receive] at h
  rcases hs : e.send r.line r.line with ⟨sent, e₁⟩
  rw [hs] at h
  cases Endpoint.sent_of_send hs with
  | shut hc =>
    obtain ⟨rfl, rfl⟩ := Prod.mk.inj h
    exact .shut hc
  | unwritten cause hc =>
    obtain ⟨rfl, rfl⟩ := Prod.mk.inj h
    exact .unwritten cause hc
  | @written l hc hw =>
    rcases hr : Endpoint.receive w
      { e with link := l, journal := e.journal ++ [.event (.sent r.line)] } with ⟨received, e₂⟩
    simp only [hr] at h
    cases Endpoint.received_of_receive hr with
    | shut ho => simp [hc] at ho
    | @taken content l' ho hread =>
      have ha : Conversed r w e (halted (Reply.ofLine content)) _ := .answered hc hw hread
      cases ht : Endpoint.lineText content with
      | ok text =>
        simp only [ht, halted, List.append_assoc, List.cons_append, List.nil_append] at h
        obtain ⟨rfl, rfl⟩ := Prod.mk.inj h
        simpa only [Reply.ofLine, ht, halted] using ha
      | error f =>
        simp only [ht, halted, List.append_assoc, List.cons_append, List.nil_append] at h
        obtain ⟨rfl, rfl⟩ := Prod.mk.inj h
        simpa only [Reply.ofLine, ht, halted] using ha
    | spoiled fault ho hread hf =>
      obtain ⟨rfl, rfl⟩ := Prod.mk.inj h
      exact .spoiled fault hc hw hread hf
    | expired ho hread =>
      obtain ⟨rfl, rfl⟩ := Prod.mk.inj h
      exact .expired hc hw hread
    | unfinished ho hread =>
      obtain ⟨rfl, rfl⟩ := Prod.mk.inj h
      exact .unfinished hc hw hread

/-- A reply leaves the channel open. -/
theorem closed_of_conversed {reply : Reply} (h : Conversed r w e (.ok reply) e') :
    e'.closed = false := by
  generalize hr : (Except.ok reply : Except Halt Reply) = result at h
  cases h with
  | answered hc => exact hc
  | _ => simp at hr

/-- Nor does a wait that comes to an end without a line give the channel up. -/
theorem closed_of_waited {halt : Halt} (h : Conversed r w e (.error halt) e')
    (hf : ∀ f, halt ≠ .failed f) : e'.closed = false := by
  generalize hr : (Except.error halt : Except Halt Reply) = result at h
  cases h with
  | shut hc => exact absurd (Except.error.inj hr) (hf _)
  | unwritten cause hc => exact absurd (Except.error.inj hr) (hf _)
  | @answered l l' content hc hw hread =>
    cases hp : Reply.ofLine content with
    | ok reply => simp [hp, halted] at hr
    | error f =>
      simp only [hp, halted, Except.error.injEq] at hr
      exact absurd hr (hf f)
  | spoiled fault hc hw hread hfault => exact absurd (Except.error.inj hr) (hf _)
  | expired hc => exact hc
  | unfinished hc => exact hc

/-- A caller goes away in the middle of its round trip. -/
def forsake (c : Client) : Client :=
  { c with slot := c.slot.map fun hold => { hold with replyOwed := true } }

def noteAbandoned (r : Request) (c : Client) : Client :=
  c.note .warn "previous call abandoned mid-request, dropping connection"
    [("command", r.keyword.text)]

def noteTimeout (r : Request) (c : Client) : Client :=
  c.note .warn "request timed out, dropping connection" [("command", r.keyword.text)]

/-- What becomes of a request that waits to be written and never is: its caller goes away, or the
time for it runs out. -/
inductive Stalled (r : Request) (c : Client) : Answer → Client → Prop
  | forsaken : Stalled r c .unfinished c.forsake
  | expired (hl : c.requestLimit.isSome) : Stalled r c (.failed .timeout) (c.noteTimeout r).drop

/-- What a request can come to, at a client that a caller has for itself. -/
inductive Trip (r : Request) (c : Client) : Answer → Client → Prop
  | closed (hs : c.slot = none) : Trip r c (.failed .closed) c
  | dropped {hold : Hold} (hs : c.slot = some hold) (ho : hold.replyOwed = true) :
      Trip r c (.failed .channelClosed) (c.noteAbandoned r).drop
  | stalled {hold : Hold} {a : Answer} {c' : Client} (hs : c.slot = some hold)
      (ho : hold.replyOwed = false) (hc : c.endpoint.closed = false) (h : Stalled r c a c') :
      Trip r c a c'
  | replied {hold : Hold} {w : Window} {reply : Reply} {endpoint : Endpoint}
      (hs : c.slot = some hold) (ho : hold.replyOwed = false)
      (h : Conversed r w c.endpoint (.ok reply) endpoint) :
      Trip r c (.reply reply) { c with endpoint }
  | failed {hold : Hold} {w : Window} {f : Failure} {endpoint : Endpoint}
      (hs : c.slot = some hold) (ho : hold.replyOwed = false)
      (h : Conversed r w c.endpoint (.error (.failed f)) endpoint) :
      Trip r c (.failed f) { c with endpoint }
  | expired {hold : Hold} {w : Window} {endpoint : Endpoint}
      (hs : c.slot = some hold) (ho : hold.replyOwed = false)
      (h : Conversed r w c.endpoint (.error .expired) endpoint) :
      Trip r c (.failed .timeout) ({ c with endpoint }.noteTimeout r).drop
  | unfinished {hold : Hold} {w : Window} {endpoint : Endpoint}
      (hs : c.slot = some hold) (ho : hold.replyOwed = false)
      (h : Conversed r w c.endpoint (.error .unfinished) endpoint) :
      Trip r c .unfinished
        { c with endpoint, slot := some { hold with replyOwed := true } }

theorem stalled_not_reply {reply : Reply} (h : Stalled r c a c') : a ≠ .reply reply := by
  cases h <;> simp

/-- A trip that brings a reply changes nothing but the endpoint. -/
theorem replied_of_trip {reply : Reply} (h : Trip r c (.reply reply) c') :
    ∃ hold w endpoint, c.slot = some hold ∧ hold.replyOwed = false ∧
      Conversed r w c.endpoint (.ok reply) endpoint ∧ c' = { c with endpoint } := by
  cases h with
  | stalled hs ho hc h => exact absurd rfl (stalled_not_reply h)
  | replied hs ho h => exact ⟨_, _, _, hs, ho, h, rfl⟩

theorem trip_of_roundTrip (h : c.roundTrip r patience = (a, c')) : Trip r c a c' := by
  unfold roundTrip at h
  cases hs : c.slot with
  | none =>
    simp only [hs] at h
    obtain ⟨rfl, rfl⟩ := Prod.mk.inj h
    exact .closed hs
  | some hold =>
    simp only [hs] at h
    cases ho : hold.replyOwed with
    | true =>
      rw [if_pos ho] at h
      obtain ⟨rfl, rfl⟩ := Prod.mk.inj h
      exact .dropped hs ho
    | false =>
      rw [if_neg (by simp [ho])] at h
      rcases hx : converse r (c.window patience) c.endpoint with ⟨result, endpoint⟩
      have hconv := conversed_of_converse hx
      rw [hx] at h
      cases result with
      | ok reply =>
        obtain ⟨rfl, rfl⟩ := Prod.mk.inj h
        rw [← hs]
        exact .replied hs ho hconv
      | error halt =>
        cases halt with
        | failed f =>
          obtain ⟨rfl, rfl⟩ := Prod.mk.inj h
          rw [← hs]
          exact .failed hs ho hconv
        | expired =>
          obtain ⟨rfl, rfl⟩ := Prod.mk.inj h
          exact .expired hs ho hconv
        | unfinished =>
          obtain ⟨rfl, rfl⟩ := Prod.mk.inj h
          exact .unfinished hs ho hconv

/-- What the work of a call can come to, at a client that its caller has for itself. -/
inductive Served (c : Client) : Work → Answer → Client → Prop
  | probe : Served c .probe (if c.isClosed then .failed .closed else .opened) c
  | request {r : Request} {a : Answer} {c' : Client} (h : Trip r c a c') :
      Served c (.request r) a c'
  | halted {line : String} {selects : Option Name} {a : Answer} {c' : Client}
      (h : Trip (.query line) c a c') (ha : ∀ reply, a ≠ .reply reply) :
      Served c (.query line selects) a c'
  | replied {line : String} {selects : Option Name} {reply : Reply} {c' : Client}
      (h : Trip (.query line) c (.reply reply) c')
      (hf : (c'.wire.followWithFetch && reply.succeeded) = false) :
      Served c (.query line selects) (.reply reply)
        (if reply.succeeded then c'.select selects else c')
  | fetchHalted {line : String} {selects : Option Name} {first : Reply} {a : Answer}
      {c₁ c' : Client} (h : Trip (.query line) c (.reply first) c₁)
      (hf : (c₁.wire.followWithFetch && first.succeeded) = true)
      (h' : Trip .fetch c₁ a c') (ha : ∀ reply, a ≠ .reply reply) :
      Served c (.query line selects) a c'
  | fetched {line : String} {selects : Option Name} {first reply : Reply} {c₁ c' : Client}
      (h : Trip (.query line) c (.reply first) c₁)
      (hf : (c₁.wire.followWithFetch && first.succeeded) = true)
      (h' : Trip .fetch c₁ (.reply reply) c') :
      Served c (.query line selects) (.reply reply)
        (if reply.succeeded then c'.select selects else c')

theorem served_of_query {line : String} {selects : Option Name}
    (h : c.query line selects patience = (a, c')) : Served c (.query line selects) a c' := by
  unfold query at h
  rcases hq : c.roundTrip (.query line) patience with ⟨first, c₁⟩
  have htrip := trip_of_roundTrip hq
  rw [hq] at h
  cases first with
  | reply first =>
    simp only at h
    unfold followUp at h
    cases hf : c₁.wire.followWithFetch && first.succeeded with
    | false =>
      simp only [hf] at h
      obtain ⟨rfl, rfl⟩ := Prod.mk.inj h
      exact .replied htrip hf
    | true =>
      rcases hq' : c₁.roundTrip .fetch patience with ⟨second, c₂⟩
      have htrip' := trip_of_roundTrip hq'
      simp only [hf, if_true, hq'] at h
      cases second with
      | reply reply =>
        obtain ⟨rfl, rfl⟩ := Prod.mk.inj h
        exact .fetched htrip hf htrip'
      | _ =>
        obtain ⟨rfl, rfl⟩ := Prod.mk.inj h
        exact .fetchHalted htrip hf htrip' (by simp)
  | _ =>
    obtain ⟨rfl, rfl⟩ := Prod.mk.inj h
    exact .halted htrip (by simp)

/-- Work other than a close does what `Served` says. -/
theorem served_of_run {work : Work} (hw : work ≠ .close)
    (h : work.run patience c = (a, c')) : Served c work a c' := by
  cases work with
  | query line selects => exact served_of_query h
  | request r => exact .request (trip_of_roundTrip h)
  | probe =>
    obtain ⟨rfl, rfl⟩ := Prod.mk.inj h
    exact .probe
  | close => exact absurd rfl hw

/-- What the goodbye over a connection taken out of the slot can come to. -/
inductive Parted (c : Client) : Answer → Client → Prop
  | unsaid {halt : Halt} {endpoint : Endpoint}
      (h : c.endpoint.Sent Request.quit.line Request.quit.line (.error halt) endpoint) :
      Parted c .done { c with endpoint }.finish.2
  | said {w : Window} {result : Except Halt String} {e₁ endpoint : Endpoint}
      (h : c.endpoint.Sent Request.quit.line Request.quit.line (.ok ()) e₁)
      (hr : Endpoint.Received w e₁ result endpoint) :
      Parted c .done { c with endpoint }.finish.2
  | unanswered {w : Window} {e₁ endpoint : Endpoint}
      (h : c.endpoint.Sent Request.quit.line Request.quit.line (.ok ()) e₁)
      (hr : Endpoint.Received w e₁ (.error .unfinished) endpoint) :
      Parted c .unfinished (release { c with endpoint })
  | forsaken (h : c.endpoint.closed = false) : Parted c .unfinished c.release

theorem parted_of_goodbye (h : c.goodbye patience = (a, c')) : Parted c a c' := by
  unfold goodbye at h
  rcases hs : c.endpoint.send Request.quit.line Request.quit.line with ⟨sent, e₁⟩
  have hsent := Endpoint.sent_of_send hs
  rw [hs] at h
  cases sent with
  | error halt =>
    obtain ⟨rfl, rfl⟩ := Prod.mk.inj h
    exact .unsaid hsent
  | ok _ =>
    simp only at h
    split at h
    next e₂ hr =>
      obtain ⟨rfl, rfl⟩ := Prod.mk.inj h
      exact .unanswered hsent (Endpoint.received_of_receive hr)
    next result e₂ _ hr =>
      obtain ⟨rfl, rfl⟩ := Prod.mk.inj h
      exact .said hsent (Endpoint.received_of_receive hr)

theorem closeEndpoint_eq (c : Client) :
    ∃ journal, c.closeEndpoint = { c with endpoint :=
      { c.endpoint with closed := true, link := c.endpoint.link.shutDown.2, journal } } := by
  obtain ⟨journal, h⟩ :=
    Endpoint.release_closeQuietly .client "socket shutdown failed" c.endpoint
  exact ⟨journal, by rw [closeEndpoint, release, h]⟩

theorem drop_eq (c : Client) :
    ∃ journal, c.drop = { c with slot := none, endpoint :=
      { c.endpoint with closed := true, link := c.endpoint.link.shutDown.2, journal } } := by
  obtain ⟨journal, h⟩ := closeEndpoint_eq c
  exact ⟨journal, by rw [drop, h]⟩

theorem link_drop (c : Client) : c.drop.endpoint.link = c.endpoint.link.shutDown.2 := by
  obtain ⟨journal, h⟩ := drop_eq c
  rw [h]

theorem finish_eq (c : Client) :
    ∃ journal, c.finish = (.done, { c with endpoint :=
      { c.endpoint with closed := true, link := c.endpoint.link.shutDown.2, journal } }) := by
  obtain ⟨journal, h⟩ := closeEndpoint_eq c
  exact ⟨_, by rw [finish, h]; rfl⟩

/-- A goodbye leaves all but the endpoint as it is, and of the endpoint its limits. -/
theorem parted_eq (h : Parted c a c') :
    c' = { c with endpoint := c'.endpoint } ∧
      c'.endpoint.maxLineBytes = c.endpoint.maxLineBytes ∧
      c'.endpoint.link.delimiter = c.endpoint.link.delimiter := by
  cases h with
  | unsaid h =>
    obtain ⟨journal, he⟩ := finish_eq { c with endpoint := _ }
    rw [he]
    exact ⟨rfl, h.maxLineBytes, h.delimiter⟩
  | said h hr =>
    obtain ⟨journal, he⟩ := finish_eq { c with endpoint := _ }
    rw [he]
    exact ⟨rfl, hr.maxLineBytes.trans h.maxLineBytes, hr.delimiter.trans h.delimiter⟩
  | unanswered h hr =>
    exact ⟨rfl, hr.maxLineBytes.trans h.maxLineBytes, hr.delimiter.trans h.delimiter⟩
  | forsaken h => exact ⟨rfl, rfl, rfl⟩

theorem slot_of_parted (h : Parted c a c') : c'.slot = c.slot := by
  rw [(parted_eq h).1]

/-- Work at a client whose slot is empty comes to nothing. -/
theorem served_closed {work : Work} (hs : c.slot = none) (h : Served c work a c') :
    a = .failed .closed ∧ c' = c := by
  have htrip {r : Request} {a : Answer} {c' : Client} (h : Trip r c a c') :
      a = .failed .closed ∧ c' = c := by
    cases h <;> simp_all
  cases h with
  | probe => simp [isClosed, hs]
  | request h | halted h ha => exact htrip h
  | replied h hf => simpa using (htrip h).1
  | fetchHalted h hf h' ha => simpa using (htrip h).1
  | fetched h hf h' => simpa using (htrip h).1

end Client

end DocClient
