import DocClient.Proofs.Channel.Awaiting
import DocClient.Proofs.Client.Conversation
import DocClient.Proofs.Client.Phase
import DocClient.Proofs.Console.Input
import DocClient.Proofs.Login.Handshake
import DocClient.Proofs.Statement.SingleLine
import DocClient.Proofs.Wire.RequestStream

/-!
A server and a console are told the same: an operation that both kinds of client offer is refused
by both for the same reason, or sends the same text through either.
-/
namespace DocClient

namespace Client

variable {c c' : Client} {e e' : Endpoint} {r : Request} {w : Window} {a : Answer} {line : String}
  {patience : Option Nat} {hold : Hold} {selects : Option Name}

theorem converse_writes {result : Except Halt Reply} (ho : e.closed = false)
    (hr : e.link.isReset = false) (h : converse r w e = (result, e')) :
    written e'.link.transcript = written e.link.transcript ++ [r.frame e.link.delimiter] := by
  obtain ⟨e₁, hs, -⟩ := Endpoint.send_whole r.line r.line ho hr
  have hwrite := (Endpoint.sent_of_send hs).write
  rcases hread : e₁.receive w with ⟨received, e₂⟩
  have he : e' = e₂ := by
    simp only [converse, Exchange.bind_apply, Exchange.check_apply, Exchange.send,
      Exchange.receive, hs, hread] at h
    cases received <;> exact (Prod.mk.inj h).2.symm
  have hreceived : written e₂.link.transcript = written e₁.link.transcript := by
    rcases (Endpoint.received_of_receive hread).transcript with ⟨line, ht⟩ | ⟨ht, -⟩
    · simp [ht]
    · rw [ht]
  rw [he, hreceived, Link.write_transcript hwrite]
  simp [Endpoint.frame, Request.frame]

/-- A request at a client that serves is written. -/
theorem roundTrip_writes (hp : c.phase = .serving) (hr : c.endpoint.link.isReset = false)
    (h : c.roundTrip r patience = (a, c')) :
    c'.endpoint.link.delimiter = c.endpoint.link.delimiter ∧
      written c'.endpoint.link.transcript
        = written c.endpoint.link.transcript ++ [r.frame c.endpoint.link.delimiter] := by
  obtain ⟨hold, hs, ho, howed⟩ := phase_serving_iff.mp hp
  refine ⟨(written_of_trip (trip_of_roundTrip h)).1, ?_⟩
  rcases hconv : converse r (c.window patience) c.endpoint with ⟨result, e⟩
  have hwritten := converse_writes ho hr hconv
  suffices he : c'.endpoint.link.transcript = e.link.transcript by rw [he, hwritten]
  simp only [roundTrip, hs, howed, hconv, Bool.false_eq_true, if_false] at h
  cases result with
  | ok reply =>
    obtain ⟨-, rfl⟩ := Prod.mk.inj h
    rfl
  | error halt =>
    cases halt with
    | failed f | unfinished =>
      obtain ⟨-, rfl⟩ := Prod.mk.inj h
      rfl
    | expired =>
      obtain ⟨-, rfl⟩ := Prod.mk.inj h
      rw [link_drop]
      rfl

/-- A query at a client that serves is written, and after it a fetch at most. -/
theorem query_writes (hp : c.phase = .serving) (hr : c.endpoint.link.isReset = false)
    (h : c.query line selects patience = (a, c')) :
    ∃ follow, (∀ r ∈ follow, r = Request.fetch) ∧
      written c'.endpoint.link.transcript = written c.endpoint.link.transcript
        ++ (Request.query line :: follow).map (Request.frame c.endpoint.link.delimiter) := by
  rcases hq : c.roundTrip (.query line) patience with ⟨first, c₁⟩
  obtain ⟨hd, hw⟩ := roundTrip_writes hp hr hq
  rw [query, hq] at h
  have hnone : ∃ follow, (∀ r ∈ follow, r = Request.fetch) ∧
      written c₁.endpoint.link.transcript = written c.endpoint.link.transcript
        ++ (Request.query line :: follow).map (Request.frame c.endpoint.link.delimiter) :=
    ⟨[], by simp, by simpa using hw⟩
  cases first with
  | reply first =>
    rcases hf : c₁.followUp patience first with ⟨second, c₂⟩
    have hfollow : ∃ follow, (∀ r ∈ follow, r = Request.fetch) ∧
        written c₂.endpoint.link.transcript = written c.endpoint.link.transcript
          ++ (Request.query line :: follow).map (Request.frame c.endpoint.link.delimiter) := by
      unfold followUp at hf
      split at hf
      · obtain ⟨-, hsame | hmore⟩ := written_of_trip (trip_of_roundTrip hf)
        · rw [hsame]
          exact hnone
        · refine ⟨[.fetch], by simp, ?_⟩
          rw [hmore, hw, hd]
          simp
      · obtain ⟨-, rfl⟩ := Prod.mk.inj hf
        exact hnone
    simp only [hf] at h
    cases second with
    | reply reply =>
      obtain ⟨-, rfl⟩ := Prod.mk.inj h
      rw [endpoint_select]
      exact hfollow
    | opened | done | failed | unfinished =>
      obtain ⟨-, rfl⟩ := Prod.mk.inj h
      exact hfollow
  | opened | done | failed | unfinished =>
    obtain ⟨-, rfl⟩ := Prod.mk.inj h
    exact hnone

/-- A client that serves, over a connection that has not broken. -/
structure Working (c : Client) : Prop where
  serving : c.phase = .serving
  whole : c.endpoint.link.isReset = false

/-- Between two moments the server has been written one query, the data of which is the given text,
and then fetches only. -/
def Queries (text : String) (c c' : Client) : Prop :=
  ∃ frame follow, written c'.endpoint.link.transcript
      = written c.endpoint.link.transcript ++ frame :: follow ∧
    frame.getLast? = some c.endpoint.link.delimiter ∧
    Request.ofBytes? frame.dropLast = some ⟨.query, some text⟩ ∧
    ∀ later ∈ follow, Request.ofBytes? later.dropLast = some .fetch

theorem ofBytes?_frame (d : UInt8) (r : Request) :
    Request.ofBytes? (r.frame d).dropLast = some r := by
  rw [Request.frame, List.dropLast_concat]
  exact Request.ofBytes?_line r

theorem queries_of_query (hc : c.Working) (h : c.query line selects patience = (a, c')) :
    Queries line c c' := by
  obtain ⟨follow, hfollow, hw⟩ := query_writes hc.serving hc.whole h
  refine ⟨_, _, hw, by simp [Request.frame], ofBytes?_frame _ _, ?_⟩
  intro later hl
  obtain ⟨r, hr, rfl⟩ := List.mem_map.mp hl
  rw [hfollow r hr]
  exact ofBytes?_frame _ _

end Client

/-- What a caller can ask of either kind of client. -/
inductive Operation where
  | command (c : Command)
  | execute (s : Statement)
  | raw (line : String)

namespace Operation

/-- The text that the operation sends, or what is wrong with its arguments. -/
def text : Operation → Except Failure String
  | command c => Statement.line <$> c.statement
  | execute s => .ok s.line
  | raw line => .ok line

def onServer : Operation → Client.Call
  | command c => .command c
  | execute s => .execute s
  | raw line => .raw line

def onConsole : Operation → ConsoleClient.Call
  | command c => .command c
  | execute s => .execute s
  | raw line => .raw line

variable {op : Operation} {f : Failure} {text : String} {patience : Option Nat}

section Server

variable {c c' : Client} {a : Client.Answer}

theorem prepare_onServer (hc : c.Working) (op : Operation) :
    c.prepare op.onServer = op.onServer.work := by
  obtain ⟨hold, hs, -⟩ := Client.phase_serving_iff.mp hc.serving
  have hopen : c.isClosed = false := by simp [Client.isClosed, hs]
  simp [Client.prepare, hopen]

theorem onServer_refused (hc : c.Working) (ht : op.text = .error f) (patience : Option Nat) :
    f.ofArguments = true ∧ c.call op.onServer patience = (.failed f, c) := by
  cases op with
  | command command =>
    have hs := map_error ht
    have hwork : (Client.Call.command command).work = .error f := by
      simp only [Client.Call.work, hs]
      rfl
    have hprepare := (prepare_onServer hc (.command command)).trans hwork
    refine ⟨(Command.statement_error hs).2, ?_⟩
    simp only [onServer, Client.call] at hprepare ⊢
    rw [hprepare]
  | execute s => simp [Operation.text] at ht
  | raw line => simp [Operation.text] at ht

theorem onServer_work (ht : op.text = .ok text) :
    ∃ selects, op.onServer.work = .ok (.query text selects) := by
  cases op with
  | command command =>
    obtain ⟨s, hs, rfl⟩ := map_ok ht
    refine ⟨s.selects, ?_⟩
    simp only [onServer, Client.Call.work, hs]
    rfl
  | execute s =>
    obtain rfl := Except.ok.inj ht
    exact ⟨s.selects, rfl⟩
  | raw line =>
    obtain rfl := Except.ok.inj ht
    exact ⟨none, rfl⟩

theorem onServer_queries (hc : c.Working) (ht : op.text = .ok text)
    (h : c.call op.onServer patience = (a, c')) : Client.Queries text c c' := by
  obtain ⟨selects, hwork⟩ := onServer_work ht
  have hprepare := (prepare_onServer hc op).trans hwork
  simp only [Client.call, hprepare] at h
  exact Client.queries_of_query hc h

end Server

section Console

variable {s s' : ConsoleClient} {b : ConsoleClient.Answer}

theorem onConsole_refused (hs : s.Working) (ht : op.text = .error f) (patience : Option Nat) :
    s.call op.onConsole patience = (.failed f, s) := by
  cases op with
  | command command =>
    have hstatement := map_error ht
    simp [onConsole, ConsoleClient.call, hs.isOpen, hstatement]
  | execute s => simp [Operation.text] at ht
  | raw line => simp [Operation.text] at ht

theorem onConsole_sends (hs : s.Working) (ht : op.text = .ok text)
    (h : s.call op.onConsole patience = (b, s')) : s.send text patience = (b, s') := by
  cases op with
  | command command =>
    obtain ⟨statement, hstatement, rfl⟩ := map_ok ht
    simpa [onConsole, ConsoleClient.call, hs.isOpen, hstatement] using h
  | execute statement =>
    obtain rfl := Except.ok.inj ht
    exact h
  | raw line =>
    obtain rfl := Except.ok.inj ht
    exact h

end Console

/-- Operations that constructors make, with no conditions but comparisons. -/
inductive Built : Operation → Prop
  | command {c : Command} (h : c.Compares) : Built (.command c)
  | execute {c : Command} {s : Statement} (h : c.Compares) (hs : c.statement = .ok s) :
      Built (.execute s)
  | quit : Built (.execute .quit)

theorem isSingleLine_of_built (h : op.Built) (ht : op.text = .ok text) :
    ConsoleClient.isSingleLine text = true := by
  cases h with
  | command h =>
    obtain ⟨s, hs, rfl⟩ := map_ok ht
    exact h.isSingleLine hs
  | execute h hs =>
    obtain rfl := Except.ok.inj ht
    exact h.isSingleLine hs
  | quit =>
    obtain rfl := Except.ok.inj ht
    rfl

/-- What one operation comes to at a client of a server, and at a client of a console. -/
structure Alike (op : Operation) (c : Client) (s : ConsoleClient) (x : Client.Answer × Client)
    (y : ConsoleClient.Answer × ConsoleClient) : Prop where
  refused : ∀ f, op.text = .error f → f.ofArguments = true ∧ x = (.failed f, c) ∧ y = (.failed f, s)
  queried : ∀ text, op.text = .ok text → c.Queries text x.2
  typed : ∀ text, op.text = .ok text → ConsoleClient.isSingleLine text = true →
    (∀ f, y.1 ≠ .failed f) ∧
      y.2.pipe.child.input = s.pipe.child.input ++ (Text.utf8 text ++ [Child.lineFeed])
  /-- The console is not told what is no single line. -/
  kept : ∀ text, op.text = .ok text → ConsoleClient.isSingleLine text = false →
    y = (.failed (.invalidArgument "shell commands must be a single line"), s)
  single : op.Built → ∀ text, op.text = .ok text → ConsoleClient.isSingleLine text = true

/-- The same text goes to a server and to a console, unless a line break keeps it from the console;
and no constructed operation has one. -/
theorem told_alike {c : Client} {s : ConsoleClient} (op : Operation) (patience patience' : Option Nat)
    (hc : c.Working) (hs : s.Working) :
    Alike op c s (c.call op.onServer patience) (s.call op.onConsole patience') where
  refused := by
    intro f hf
    obtain ⟨hargs, hserver⟩ := onServer_refused hc hf patience
    exact ⟨hargs, hserver, onConsole_refused hs hf patience'⟩
  queried := by
    intro text ht
    exact onServer_queries hc ht rfl
  typed := by
    intro text ht hline
    exact (ConsoleClient.send_working hs (onConsole_sends hs ht rfl)).2 hline
  kept := by
    intro text ht hline
    obtain ⟨hb, hs'⟩ := (ConsoleClient.send_working hs (onConsole_sends hs ht rfl)).1 hline
    exact Prod.ext hb hs'
  single := by
    intro hbuilt text ht
    exact isSingleLine_of_built hbuilt ht

/-- A line break inside a document does not reach the line; one in a text of the caller's own does,
and then only the server is told. -/
theorem told_alike_lineBreak :
    let note : Operation := .command (.insert "notes" (.json (.object [("text", .string "a\nb")])))
    let broken : Operation := .raw "a\nb"
    ∃ c s text,
      Client.connectTo "db" (.reaching Client.obliging) Client.ungreeted = .ready c ∧
      ConsoleClient.spawn { executable := "console" } "console" (.ok ⟨[], fun _ => [], []⟩) = .ok s ∧
      note.text = .ok text ∧ c.Queries text (c.call note.onServer none).2 ∧
      (s.call note.onConsole none).2.pipe.child.input = Text.utf8 text ++ [Child.lineFeed] ∧
      c.Queries "a\nb" (c.call broken.onServer none).2 ∧
      s.call broken.onConsole none
        = (.failed (.invalidArgument "shell commands must be a single line"), s) := by
  intro note broken
  have hready : ((Client.connectTo "db" (.reaching Client.obliging)
      Client.ungreeted).client?.map fun c => (c.phase, c.endpoint.link.isReset))
        = some (.serving, false) := by
    decide +kernel
  obtain ⟨c, hc⟩ := Client.connectTo_obliging
  simp only [hc, Client.Attempt.client?, Option.map_some, Option.some.injEq, Prod.mk.injEq] at hready
  have hworking : c.Working := ⟨hready.1, hready.2⟩
  obtain ⟨s, hs⟩ : ∃ s, ConsoleClient.spawn { executable := "console" } "console"
      (.ok ⟨[], fun _ => [], []⟩) = .ok s := ⟨_, rfl⟩
  obtain ⟨hs', hinput⟩ : s.Working ∧ s.pipe.child.input = [] := by
    obtain rfl := Except.ok.inj hs
    exact ⟨⟨rfl, rfl, rfl, rfl⟩, rfl⟩
  obtain ⟨text, ht⟩ : ∃ text, note.text = .ok text := ⟨_, rfl⟩
  have hbuilt : note.Built := .command (by simp [Command.Compares, Command.conditions])
  have hnote := told_alike note none none hworking hs'
  have htyped := (hnote.typed text ht (hnote.single hbuilt text ht)).2
  have hbroken := told_alike broken none none hworking hs'
  rw [hinput, List.nil_append] at htyped
  exact ⟨c, s, text, hc, hs, ht, hnote.queried text ht, htyped, hbroken.queried _ rfl,
    hbroken.kept _ rfl rfl⟩

end Operation

end DocClient
