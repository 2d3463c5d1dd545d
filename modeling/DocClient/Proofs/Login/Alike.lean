import DocClient.Proofs.Channel.Alike
import DocClient.Proofs.Channel.Awaiting
import DocClient.Proofs.Login.Handshake

/-!
Two logins that differ in the password. Until the login is written nobody can tell them from each
other; after it, it is up to the servers.
-/
namespace DocClient

open Text (Bytes)

variable {all all' : List Bytes}

namespace Endpoint

variable {e e' : Endpoint} {w : Window} {line shown : String} {result : Except Halt String}

/-- Of a link, receiving changes what reading does. -/
theorem Received.link_eq (h : Received w e result e') :
    e'.link = { e.link with
      clock := e'.link.clock, inbox := e'.link.inbox, transcript := e'.link.transcript } := by
  cases h with
  | shut h => rfl
  | taken h hr | spoiled fault h hr | expired h hr | unfinished h hr =>
    rw [Link.read_eq hr]

theorem send_written {l : Link} (ho : e.closed = false)
    (hw : e.link.write (e.frame line) = (.ok (), l)) :
    e.send line shown = (.ok (), { e with link := l }.record (.sent shown)) := by
  unfold send
  rw [if_neg (by simp [ho]), hw]

end Endpoint

/-- After logins that have left them at `said` and `said'`, the servers of two runs have sent the
same at the same times, as far as the runs go: until the one server has heard `all`, and the other
`all'`. -/
structure SameService (server server' : Server) (said said' : Link) (all all' : List Bytes) :
    Prop where
  accept : server'.accept = server.accept
  /-- When the login has been written the same is on its way to the client. -/
  login : said.heard <+: all → said'.heard <+: all' → said'.inbox = said.inbox
  later : ∀ lines, lines ≠ [] → said.heard ++ lines <+: all → said'.heard ++ lines <+: all' →
    server'.answer (said'.heard ++ lines) = server.answer (said.heard ++ lines)

namespace Link

variable {l l' l₁ l₁' : Link} {bs bs' : Bytes}

/-- A frame leaves nothing unfinished. -/
theorem halfLine_written (hw : l.write (bs ++ [l.delimiter]) = (.ok (), l₁)) :
    l₁.halfLine = [] := by
  cases hr : l.isReset with
  | true =>
    rw [write_reset hr] at hw
    simp at hw
  | false =>
    rw [write_whole hr, foldl_hear_eq] at hw
    obtain ⟨-, rfl⟩ := Prod.mk.inj hw
    simp only [carry, ← List.append_assoc]
    exact Text.frames_concat_rest _ _

/-- Links that are alike until a frame is written stay so if what the servers do about it, and
after it, is the same. -/
theorem Alike.written (h : Alike [] [] l l') (hw : l.write (bs ++ [l.delimiter]) = (.ok (), l₁))
    (hw' : l'.write (bs' ++ [l'.delimiter]) = (.ok (), l₁'))
    (hservice : SameService l.server l'.server l₁ l₁' all all') (hh : l₁.heard <+: all)
    (hh' : l₁'.heard <+: all') : Alike all all' l₁ l₁' where
  delimiter := by
    rw [write_delimiter hw, write_delimiter hw', h.delimiter]
  clock := by
    rw [written_eq hw, written_eq hw', h.clock]
  inbox := hservice.login hh hh'
  halfLine := (halfLine_written hw').trans (halfLine_written hw).symm
  answers := by
    intro lines hne hlines hlines'
    have hserver : l₁.server = l.server := by
      rw [written_eq hw]
    have hserver' : l₁'.server = l'.server := by
      rw [written_eq hw']
    rw [hserver, hserver']
    exact hservice.later lines hne hlines hlines'

end Link

namespace Session

variable {wire : WireConventions} {w : Window} {e e' e₁ e₁' : Endpoint} {data data' : String}
  {credentials credentials' : Credentials}

/-- The endpoint when a login has been written to it. -/
def spoken (wire : WireConventions) (w : Window) (data : String) (e : Endpoint) : Endpoint :=
  ((readGreeting wire w e).2.send (Request.login data).line shownLogin).2

theorem Greeted.link_eq {greeting : Except Halt (Option String)}
    (h : Greeted wire w e greeting e') :
    e'.link = { e.link with
      clock := e'.link.clock, inbox := e'.link.inbox, transcript := e'.link.transcript } := by
  cases h with
  | silent h => rfl
  | greeted h hr | ungreeted h hr => exact hr.link_eq

theorem respects_readGreeting (wire : WireConventions) (w : Window) :
    (readGreeting wire w).Respects all all' := by
  have hnone : Exchange.Respects all all' (pure none : Exchange (Option String)) :=
    DocClient.Respects.still _
  unfold readGreeting
  cases wire.greeting with
  | false => exact hnone
  | true =>
    rw [if_pos rfl, map_eq_pure_bind]
    exact Exchange.respects_bind (Endpoint.respects_receive w) fun line =>
      DocClient.Respects.still _

/-- Two logins over endpoints that are alike until then. -/
theorem login_alike {line line' shown : String} {sent sent' : Except Halt Unit}
    (h : Endpoint.Alike [] [] e e') (hs : e.send line shown = (sent, e₁))
    (hs' : e'.send line' shown = (sent', e₁'))
    (hservice : SameService e.link.server e'.link.server e₁.link e₁'.link all all')
    (hh : e₁.heard <+: all) (hh' : e₁'.heard <+: all') :
    sent' = sent ∧ Endpoint.Alike [] [] e₁ e₁' ∧
      (sent = .ok () → Endpoint.Alike all all' e₁ e₁') := by
  have hfailure := h.failure
  have hclosed := h.closed
  have hreset := h.isReset
  cases hc : e.closed with
  | true =>
    simp only [Endpoint.send, hc, if_true, Prod.mk.injEq] at hs
    simp only [Endpoint.send, hclosed.trans hc, if_true, Prod.mk.injEq] at hs'
    obtain ⟨rfl, rfl⟩ := hs
    obtain ⟨rfl, rfl⟩ := hs'
    exact ⟨rfl, h, by simp⟩
  | false =>
    cases hr : e.link.isReset with
    | true =>
      rw [Endpoint.send_reset line shown hc hr] at hs
      rw [Endpoint.send_reset line' shown (hclosed.trans hc) (hreset.trans hr), hfailure] at hs'
      obtain ⟨rfl, rfl⟩ := Prod.mk.inj hs
      obtain ⟨rfl, rfl⟩ := Prod.mk.inj hs'
      obtain ⟨l', hl, rfl⟩ := h
      exact ⟨rfl, ⟨l', hl, rfl⟩, by simp⟩
    | false =>
      obtain ⟨l₁, hw⟩ : ∃ l₁, e.link.write (e.frame line) = (.ok (), l₁) :=
        ⟨_, Link.write_whole hr⟩
      obtain ⟨l₁', hw'⟩ : ∃ l₁', e'.link.write (e'.frame line') = (.ok (), l₁') :=
        ⟨_, Link.write_whole (hreset.trans hr)⟩
      rw [Endpoint.send_written hc hw] at hs
      rw [Endpoint.send_written (hclosed.trans hc) hw'] at hs'
      obtain ⟨rfl, rfl⟩ := Prod.mk.inj hs
      obtain ⟨rfl, rfl⟩ := Prod.mk.inj hs'
      obtain ⟨l', hl, rfl⟩ := h
      have hall : Endpoint.Alike all all' ({ e with link := l₁ }.record (.sent shown))
          ({ e with link := l₁' }.record (.sent shown)) :=
        ⟨l₁', hl.written hw hw' hservice hh hh', rfl⟩
      exact ⟨rfl, hall.ended, fun _ => hall⟩

/-- What remains of the handshake when the login has been written. -/
def awaitReply (username : String) (greeting : Option String) (w : Window) : Exchange Session := do
  let reply ← Exchange.check (Reply.parse (← Exchange.receive w))
  Exchange.check (ofReply username greeting reply)

theorem respects_awaitReply (username : String) (greeting : Option String) (w : Window) :
    (awaitReply username greeting w).Respects all all' := by
  refine Exchange.respects_bind (Endpoint.respects_receive w) fun line => ?_
  refine Exchange.respects_bind (Exchange.respects_check _) fun reply => ?_
  exact Exchange.respects_check _

/-- The handshake of credentials that can be sent, stage by stage. -/
theorem handshake_ok {greeting : Option String} {sent : Except Halt Unit}
    (hd : wire.loginEncoding.encode credentials = .ok data)
    (hg : readGreeting wire w e = (.ok greeting, e₁))
    (hs : e₁.send (Request.login data).line shownLogin = (sent, e')) :
    handshake credentials wire w e =
      Exchange.onward (fun _ => awaitReply credentials.username greeting w) sent e' := by
  rw [handshake, Exchange.bind_eq, hg, Exchange.onward, Exchange.bind_eq, Exchange.check_apply, hd,
    halted, Exchange.onward, Exchange.bind_eq, Exchange.send, hs]
  rfl

theorem handshake_halted {halt : Halt} (hg : readGreeting wire w e = (.error halt, e₁)) :
    handshake credentials wire w e = (.error halt, e₁) := by
  rw [handshake, Exchange.bind_eq, hg]
  rfl

/-- A handshake ends alike in two runs: with the same session over endpoints that stay alike, or
with the same failure. -/
inductive EndsAlike (all all' : List Bytes) :
    Except Halt Session × Endpoint → Except Halt Session × Endpoint → Prop
  | opened {e e' : Endpoint} (session : Session) (h : Endpoint.Alike all all' e e') :
      EndsAlike all all' (.ok session, e) (.ok session, e')
  | halted {e e' : Endpoint} (halt : Halt) (h : Endpoint.Alike [] [] e e') :
      EndsAlike all all' (.error halt, e) (.error halt, e')

theorem EndsAlike.of_alike {p p' : Except Halt Session × Endpoint} (hresult : p'.1 = p.1)
    (h : Endpoint.Alike all all' p.2 p'.2) : EndsAlike all all' p p' := by
  obtain ⟨result, e⟩ := p
  obtain ⟨result', e'⟩ := p'
  obtain rfl : result' = result := hresult
  cases result' with
  | ok session => exact .opened session h
  | error halt => exact .halted halt h.ended

theorem handshake_alike (h : Endpoint.Alike [] [] e e') (hnew : e.heard = []) (hnew' : e'.heard = [])
    (hu : credentials'.username = credentials.username)
    (hd : wire.loginEncoding.encode credentials = .ok data)
    (hd' : wire.loginEncoding.encode credentials' = .ok data')
    (hservice : SameService e.link.server e'.link.server (spoken wire w data e).link
      (spoken wire w data' e').link all all')
    (hh : (handshake credentials wire w e).2.heard <+: all)
    (hh' : (handshake credentials' wire w e').2.heard <+: all') :
    EndsAlike all all' (handshake credentials wire w e) (handshake credentials' wire w e') := by
  rcases hg : readGreeting wire w e with ⟨greeting, e₁⟩
  rcases hg' : readGreeting wire w e' with ⟨greeting', e₁'⟩
  have hlink := (greeted_of_readGreeting hg).link_eq
  have hlink' := (greeted_of_readGreeting hg').link_eq
  have hheard : e₁.heard = [] := (congrArg Link.heard hlink).trans hnew
  have hheard' : e₁'.heard = [] := (congrArg Link.heard hlink').trans hnew'
  have hgreeting := (respects_readGreeting wire w).alike h
  simp only [hg, hg', hheard, hheard'] at hgreeting
  obtain ⟨rfl, h₁⟩ := hgreeting List.nil_prefix List.nil_prefix
  cases greeting' with
  | error halt =>
    rw [handshake_halted hg, handshake_halted hg']
    exact .halted halt h₁
  | ok greeting =>
    rcases hs : e₁.send (Request.login data).line shownLogin with ⟨sent, e₂⟩
    rcases hs' : e₁'.send (Request.login data').line shownLogin with ⟨sent', e₂'⟩
    rw [handshake_ok hd hg hs] at hh ⊢
    rw [handshake_ok hd' hg' hs', hu] at hh' ⊢
    have hafter (sent : Except Halt Unit) :
        DocClient.Respects all all' Endpoint.heard (Endpoint.Alike all all')
          (Exchange.onward (fun _ => awaitReply credentials.username greeting w) sent) := by
      cases sent with
      | ok _ => exact respects_awaitReply credentials.username greeting w
      | error halt => exact .still _
    have hsaid : SameService e₁.link.server e₁'.link.server e₂.link e₂'.link all all' := by
      rw [hlink, hlink']
      simpa only [spoken, hg, hg', hs, hs'] using hservice
    obtain ⟨rfl, hended, hall⟩ := login_alike h₁ hs hs' hsaid (((hafter sent).hears e₂).trans hh)
      (((hafter sent').hears e₂').trans hh')
    cases sent' with
    | error halt => exact .halted halt hended
    | ok _ =>
      obtain ⟨hresult, h₃⟩ := (hafter (.ok ())).alike (hall rfl) hh hh'
      exact .of_alike hresult h₃

end Session

end DocClient
