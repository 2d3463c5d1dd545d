import DocClient.Proofs.Channel.Parallel
import DocClient.Proofs.Client.Secrecy
import DocClient.Proofs.Statement.Password

/-!
Whole runs from the connection on, and what they make known of the passwords of profiles that are
created. Two runs that differ in nothing else, and in which the server sends the same at the same
times, tell the same but for the lines of these very statements, which stand there unmasked.
-/
namespace DocClient

open Text (Bytes)

variable {all all' : List Bytes} {P : String → String → Prop}

/-- The line in which a statement is sent to a server. -/
def Statement.requestLine (s : Statement) : String := (Request.query s.line).line

namespace Endpoint

/-- Endpoints over which statements are sent that differ in nothing but passwords. -/
def passwordBond (P : String → String → Prop) (all all' : List Bytes) : Bond where
  all := all
  all' := all'
  said := said
  Kin := Parallel (Statement.Shown P Statement.requestLine) all all'
  Lines := Statement.Shown P Statement.requestLine
  same := .same
  closed h := h.closed
  clock h := h.link.clock
  notes n := .unheard () (fun _ => rfl) fun h => h.note n
  closes source message := by
    apply Respects.unheard
    · intro e
      simp only [said, link_closeQuietly]
      split <;> rfl
    · intro e e' h
      exact h.closeQuietly source message
  releases := .unheard () (fun _ => rfl) Parallel.release
  rests microseconds := by
    apply Respects.unheard
    · intro e
      rfl
    · intro e e' h
      have hl := h.link
      refine h.withLink ⟨hl.delimiter, ?_, hl.inbox, hl.attentive.rest _, hl.attentive'.rest _,
        hl.count, hl.service⟩
      rw [hl.clock]
  receives := respects_receive_parallel
  sends := accords_send

end Endpoint

namespace Client

/-- Calls that are the same but for the password of a profile that they create. -/
inductive Call.Apart (P : String → String → Prop) : Call → Call → Prop
  | same (call : Call) : Apart P call call
  | command {c c' : Command} (h : c.Apart P c') : Apart P (.command c) (.command c')
  | execute {s s' : Statement} (h : s.Apart P s') : Apart P (.execute s) (.execute s')

theorem works_ofStatement {s s' : Statement} (h : s.Apart P s') :
    (Endpoint.passwordBond P all all').Works (.ofStatement s) (.ofStatement s') := by
  rw [Work.ofStatement, Work.ofStatement, h.selects]
  exact .query _ ⟨rfl, .statement h⟩

theorem admits_apart : (Endpoint.passwordBond P all all').Admits (Call.Apart P) where
  same := .same
  guarded h := by
    cases h with
    | same => rfl
    | command h => exact h.hasArguments
    | execute h => rfl
  work h := by
    cases h with
    | same call => exact .same _
    | @command c c' h =>
      have hstated := h.stated
      simp only [Call.work]
      generalize c.statement = stated at hstated
      generalize c'.statement = stated' at hstated
      cases hstated with
      | refused f => exact .refused f
      | stated h => exact .ready (works_ofStatement h)
    | execute h => exact .ready (works_ofStatement h)

/-- The frames that have been written in a run. -/
def Story.said (s : Story) : List Bytes := (s.endpoint.map Endpoint.said).getD []

/-- Two runs with the same results, of which different things are told only where a statement is
sent that creates a profile. -/
structure Story.Apart (P : String → String → Prop) (s s' : Story) : Prop where
  connected : s'.connected = s.connected
  turns : List.Forall₂ (Turn.Corresponds (Call.Apart P)) s.turns s'.turns
  journal : Journal.Beside (Statement.Shown P Statement.requestLine) s.journal s'.journal
  events : List.Forall₂ (Event.Beside (Statement.Shown P Statement.requestLine)) s.events s'.events

theorem Story.Apart.same (s : Story) : s.Apart P s := by
  have hjournal : Journal.Beside (Statement.Shown P Statement.requestLine) s.journal s.journal :=
    List.forall₂_same.mpr fun entry _ => .same entry
  exact ⟨rfl, List.forall₂_same.mpr fun turn _ => .same turn, hjournal, hjournal.events .collect⟩

/-- Attempts that come to the same over endpoints that are parallel. -/
inductive Attempt.Parallel (P : String → String → Prop) (all all' : List Bytes) :
    Attempt → Attempt → Prop
  | rejected (f : Failure) {e e' : Endpoint}
      (h : e.Parallel (Statement.Shown P Statement.requestLine) all all' e') :
      Parallel P all all' (.rejected f e) (.rejected f e')
  | ready {c c' : Client} (h : (Endpoint.passwordBond P all all').Clients c c') :
      Parallel P all all' (.ready c) (.ready c')

variable {target : String} {network : Dial} {settings : ConnectSettings} {moves moves' : List Move}
  {server server' : Server} {now : Nat} {e e' : Endpoint} {data : String}

theorem conclude_parallel (h : e.Parallel (Statement.Shown P Statement.requestLine) all all' e')
    {result result' : Except Halt Session} (hr : result = result') :
    Attempt.Parallel P all all' (conclude target settings result e)
      (conclude target settings result' e') := by
  subst hr
  cases result with
  | ok session =>
    refine .ready ⟨_, ?_, rfl⟩
    simp only [Client.note, h.peer]
    exact (h.note _).note _
  | error halt =>
    cases halt with
    | failed f =>
      exact .rejected _ ((h.closeQuietly .login "close after failed login").note _).release
    | expired | unfinished =>
      exact .rejected _ (h.closeQuietly .client "close after login timeout").release

theorem said_conclude (moves : List Move) (result : Except Halt Session) (e : Endpoint) :
    e.said <+: ((conclude target settings result e).story moves).said := by
  cases result with
  | ok session =>
    obtain ⟨c, hc, hsaid⟩ : ∃ c, conclude target settings (.ok session) e = .ready c ∧
        c.endpoint.said = e.said := ⟨_, rfl, rfl⟩
    have hmoves : List.Forall₂ (Move.Corresponds (Call.Apart fun _ _ => False)) moves moves :=
      List.forall₂_same.mpr fun move _ => .same move
    rw [hc, ← hsaid]
    have hperforms :=
      Bond.performs (B := Endpoint.passwordBond (fun _ _ => False) [] []) admits_apart hmoves
    exact hperforms.grows { client := c }
  | error halt =>
    obtain ⟨detail, journal, h⟩ := conclude_error target settings halt e
    rw [h]
    exact List.prefix_refl _

theorem story_parallel {attempt attempt' : Attempt}
    (h : Attempt.Parallel P all all' attempt attempt')
    (hm : List.Forall₂ (Move.Corresponds (Call.Apart P)) moves moves')
    (hh : (attempt.story moves).said <+: all) (hh' : (attempt'.story moves').said <+: all') :
    (attempt.story moves).Apart P (attempt'.story moves') := by
  cases h with
  | rejected f h => exact ⟨rfl, .nil, h.journal, h.journal.events .collect⟩
  | @ready c c' h =>
    have hscenes : (Endpoint.passwordBond P all all').Scenes (Call.Apart P) { client := c }
        { client := c' } := ⟨h, .nil, rfl⟩
    obtain ⟨hturns, hs⟩ := (Bond.performs admits_apart hm).alike hscenes hh hh'
    have hjournal : Journal.Beside (Statement.Shown P Statement.requestLine)
        (perform moves { client := c }).2.client.endpoint.journal
        (perform moves' { client := c' }).2.client.endpoint.journal := by
      obtain ⟨e', he, hc'⟩ := hs.client
      rw [hc']
      exact he.journal
    have hsession : c'.session = c.session := by
      obtain ⟨e', he, rfl⟩ := h
      rfl
    exact ⟨congrArg Except.ok hsession, hturns, hjournal, hjournal.events .collect⟩

theorem handshake_accords (credentials : Credentials) (wire : WireConventions) (w : Window) :
    Exchange.Accords all all' Endpoint.said
      (Endpoint.Parallel (Statement.Shown P Statement.requestLine) all all')
      (Session.handshake credentials wire w) (Session.handshake credentials wire w) := by
  have hreceives : Respects all all' Endpoint.said
      (Endpoint.Parallel (Statement.Shown P Statement.requestLine) all all') (Endpoint.receive w) :=
    Endpoint.respects_receive_parallel w
  have hreceive := hreceives.accords
  unfold Session.handshake
  refine Exchange.accords_bind ?_ fun greeting => ?_
  · unfold Session.readGreeting
    cases wire.greeting with
    | false => exact Exchange.accords_pure none
    | true =>
      rw [if_pos rfl, map_eq_pure_bind]
      exact Exchange.accords_bind hreceive fun line => Exchange.accords_pure _
  refine Exchange.accords_bind (Exchange.accords_check _) fun data => ?_
  refine Exchange.accords_bind (Endpoint.accords_send (.same _)) fun _ => ?_
  refine Exchange.accords_bind hreceive fun line => ?_
  refine Exchange.accords_bind (Exchange.accords_check _) fun reply => ?_
  exact Exchange.accords_check _

theorem opened_parallel (peer : String) (settings : ConnectSettings) (now : Nat)
    (h : SameSends settings.wire.delimiter server server' all all') :
    (opened peer settings server now).Parallel (Statement.Shown P Statement.requestLine) all all'
      (opened peer settings server' now) := by
  have hinbox : (Link.start server' settings.wire.delimiter now).inbox
      = (Link.start server settings.wire.delimiter now).inbox := by
    rw [Link.start, h.accept, Link.start]
  exact ⟨rfl, rfl, rfl, ⟨rfl, rfl, hinbox, Link.attentive_start _ _ _, Link.attentive_start _ _ _,
    rfl, h⟩, .cons (.same _) .nil⟩

/-- Two runs whose callers create profiles with different passwords are apart in nothing else, if
the server sends the same. -/
theorem story_apart (hm : List.Forall₂ (Move.Corresponds (Call.Apart P)) moves moves')
    (hservice : ∀ server now,
      network.reached? settings.connectLimit.microseconds = some (now, server) →
      SameSends settings.wire.delimiter server server' (story target network settings moves).said
        (story target (network.facing server') settings moves').said) :
    (story target network settings moves).Apart P
      (story target (network.facing server') settings moves') := by
  cases hd : settings.wire.loginEncoding.encode settings.credentials with
  | error f =>
    simp only [story, connectTo, hd]
    exact .same _
  | ok data =>
    cases hn : network.reached? settings.connectLimit.microseconds with
    | none =>
      have hsettings : withPassword settings.credentials.password settings = settings := rfl
      have hdial :
          dial target (network.facing server') settings = dial target network settings := by
        rw [← hsettings, dial_facing target hn, hsettings]
      obtain ⟨detail, hf⟩ := dial_unreached target hn
      simp only [story, connectTo, hd, hdial, hf]
      exact .same _
    | some reached =>
      obtain ⟨now, server⟩ := reached
      have hn' : (network.facing server').reached? settings.connectLimit.microseconds
          = some (now, server') := by
        rw [reached?_facing, hn]
        rfl
      have hservice := hservice server now hn
      rw [story, story, connectTo_reached target hd hn, connectTo_reached target hd hn', peer_facing]
        at hservice ⊢
      obtain ⟨hresult, he⟩ := (handshake_accords settings.credentials settings.wire _).alike
        (opened_parallel (network.peer target) settings now hservice) (said_conclude moves _ _)
        (said_conclude moves' _ _)
      exact story_parallel (conclude_parallel he hresult) hm (List.prefix_refl _)
        (List.prefix_refl _)

end Client

end DocClient
