import DocClient.Proofs.Client.Passwords
import DocClient.Proofs.Console.Commands
import DocClient.Proofs.Console.Passwords

/-!
What both clients tell their sinks of the passwords of profiles that are created. Another password
changes nothing that is told but the line of the statement that creates the profile; there it is
told as it is, so that two runs with different passwords are told from each other.
-/
namespace DocClient

open Text (Bytes)

variable {P : String → String → Prop} {d : UInt8} {t : List Transfer} {told : List Event}
  {r : Request} {line shown : String} {user user' : Name} {role role' : Option Role}
  {password password' : String} {i : Nat}

theorem Shows.eq_line (h : Shows line shown) (hr : r.keyword ≠ .login) (hl : line = r.line) :
    shown = r.line := by
  cases h with
  | plain => exact hl
  | login data => exact absurd (congrArg Request.keyword (Request.line_inj hl)).symm hr

/-- One line is told of for each frame that was written, in the same order. -/
theorem Reported.lines (h : Reported d t told) : ∃ lines : List String,
    written t = lines.map (fun line => Text.utf8 line ++ [d]) ∧
      List.Forall₂ Shows lines (told.filterMap Event.sent?) := by
  induction h with
  | nothing => exact ⟨[], rfl, .nil⟩
  | @sent t told line shown h hs ih =>
    obtain ⟨lines, hw, hl⟩ := ih
    refine ⟨lines ++ [line], by simp [hw], ?_⟩
    rw [List.filterMap_append]
    exact List.rel_append hl (.cons hs .nil)
  | received h ht ih =>
    obtain ⟨lines, hw, hl⟩ := ih
    refine ⟨lines, by simpa using hw, ?_⟩
    rw [List.filterMap_append, List.filterMap_cons_none rfl, List.filterMap_nil, List.append_nil]
    exact hl
  | illegible h ht ih =>
    obtain ⟨lines, hw, hl⟩ := ih
    exact ⟨lines, by simpa using hw, hl⟩

/-- The frame of a request is told of at its place, as it is, if it is not a login. -/
theorem Reported.sent_at (h : Reported d t told) (hr : r.keyword ≠ .login)
    (hi : (written t)[i]? = some (r.frame d)) : (told.filterMap Event.sent?)[i]? = some r.line := by
  obtain ⟨lines, hw, hl⟩ := h.lines
  obtain ⟨line, hline, hframe⟩ : ∃ line, lines[i]? = some line ∧
      Text.utf8 line ++ [d] = r.frame d := by
    simpa [hw] using hi
  have hshown := Client.rel_getElem? hl i
  rw [hline] at hshown
  generalize (told.filterMap Event.sent?)[i]? = shown? at hshown
  cases hshown with
  | some hs => rw [hs.eq_line hr (Text.utf8_inj (List.append_cancel_right hframe))]

/-- The lines that a sink has been told of as sent do not depend on what it is told of the end. -/
theorem sent_filter_closing (events : List Event) :
    (events.filter (!·.isClosing)).filterMap Event.sent? = events.filterMap Event.sent? := by
  rw [List.filterMap_filter]
  congr 1
  funext event
  cases event <;> rfl

/-- A server that answers every line alike sends the same in all runs in which a frame is a line. -/
theorem SameSends.constant {server : Server} {plan : Plan Emission} {all all' : List Bytes}
    (hplan : ∀ heard, server.answer heard = plan)
    (hall : ∀ frame ∈ all, (Text.linesOf d frame).length = 1)
    (hall' : ∀ frame ∈ all', (Text.linesOf d frame).length = 1) :
    SameSends d server server all all' where
  accept := rfl
  answers := by
    intro before before' frame frame' _ hp hp' clock inbox
    have hsends {before : List Bytes} {frame : Bytes} (h : (Text.linesOf d frame).length = 1) :
        server.sends d before frame clock inbox
          = (Link.hear { server, delimiter := d, clock, inbox } []).inbox := by
      obtain ⟨line, hline⟩ := List.length_eq_one_iff.mp h
      simp only [Server.sends, hline, List.foldl_cons, List.foldl_nil, Link.hear, Link.isReset,
        Link.free, hplan]
      split <;> rfl
    rw [hsends (hall frame (hp.subset (by simp))), hsends (hall' frame' (hp'.subset (by simp)))]

namespace Client

/-- The request that creates a profile. -/
def creation (user : Name) (password : String) (role : Option Role) : Request :=
  .query (Statement.createProfile user password role).line

/-- Its line tells the password, and all the rest of it. -/
theorem creation_of_line (hv : isPassword password = true) (hv' : isPassword password' = true)
    (h : (creation user password role).line = (creation user' password' role').line) :
    user = user' ∧ password = password' ∧ role = role' := by
  have hline := congrArg Request.data (Request.line_inj h)
  exact Statement.createProfile_of_line hv hv' (Option.some.inj hline)

variable {target : String} {network : Dial} {settings : ConnectSettings} {moves : List Move}
  {e : Endpoint}

/-- The lines that are told of as sent in a run are the frames that were written. -/
theorem sent_at_of_story (h : (story target network settings moves).endpoint = some e)
    (hr : r.keyword ≠ .login) (hi : e.said[i]? = some (r.frame e.link.delimiter)) :
    e.journal.sentLines[i]? = some r.line := by
  obtain ⟨told, ht, he⟩ := traffic_of_story h
  have hlines : e.journal.sentLines = told.filterMap Event.sent? := by
    have hevents : e.journal.sentLines = e.events.filterMap Event.sent? := rfl
    rw [hevents, ← sent_filter_closing, he]
    rfl
  rw [hlines]
  exact ht.sent_at hr hi

/-- What a sink is told of the passwords of profiles that a client of a server creates. -/
structure Discloses (P : String → String → Prop) (target : String) (network : Dial)
    (settings : ConnectSettings) : Prop where
  runs : ∀ c turns s, connectTo target network settings = .ready c →
    Run { client := c } turns s → ∃ moves, story target network settings moves
      = { connected := .ok c.session, turns, endpoint := some s.client.endpoint }
  /-- Another password changes no result, and nothing that is told but the lines in question. -/
  confined : ∀ moves moves' server',
    List.Forall₂ (Move.Corresponds (Call.Apart P)) moves moves' →
    (∀ server now, network.reached? settings.connectLimit.microseconds = some (now, server) →
      SameSends settings.wire.delimiter server server' (story target network settings moves).said
        (story target (network.facing server') settings moves').said) →
    (story target network settings moves).Apart P
      (story target (network.facing server') settings moves')
  /-- These are told as they are, like the lines of all requests after the login. -/
  told : ∀ moves (e : Endpoint) (i : Nat) (r : Request),
    (story target network settings moves).endpoint = some e →
    r.keyword ≠ .login → e.said[i]? = some (r.frame e.link.delimiter) →
    e.journal.sentLines[i]? = some r.line
  /-- So whoever is told the same of two runs knows that the passwords are the same. -/
  betrays : ∀ network' moves moves' (e e' : Endpoint) (i : Nat) user user' password password' role
    role', (story target network settings moves).endpoint = some e →
    (story target network' settings moves').endpoint = some e' →
    isPassword password = true → isPassword password' = true →
    e.said[i]? = some ((creation user password role).frame e.link.delimiter) →
    e'.said[i]? = some ((creation user' password' role').frame e'.link.delimiter) →
    e'.events = e.events → user = user' ∧ password = password' ∧ role = role'

theorem discloses (P : String → String → Prop) (target : String) (network : Dial)
    (settings : ConnectSettings) : Discloses P target network settings where
  runs _ _ _ hc hr := story_of_run hc hr
  confined _ _ _ hm hservice := story_apart hm hservice
  told _ _ _ _ he hr hi := sent_at_of_story he hr hi
  betrays := by
    intro network' moves moves' e e' i _ _ _ _ _ _ he he' hv hv' hi hi' hevents
    have hat := sent_at_of_story he (by simp [creation, Request.query]) hi
    have hat' := sent_at_of_story he' (by simp [creation, Request.query]) hi'
    have hlines : e'.journal.sentLines = e.journal.sentLines :=
      congrArg (List.filterMap Event.sent?) hevents
    rw [hlines, hat] at hat'
    exact creation_of_line hv hv' (Option.some.inj hat')

end Client

namespace ConsoleClient

variable {c c' : ConsoleClient} {settings : ConsoleSettings} {label : String}
  {console console' : Launch} {turns : List Turn} {s : Scene}

/-- The clients of two consoles that have just been started are not to be told apart. -/
theorem parallel_spawn (hc : spawn settings label console = .ok c)
    (hc' : spawn settings label console' = .ok c') : c.Parallel P c' := by
  cases console with
  | error fault => cases hc
  | ok console =>
    cases console' with
    | error fault => cases hc'
    | ok console' =>
      obtain rfl := Except.ok.inj hc
      obtain rfl := Except.ok.inj hc'
      exact ⟨rfl, rfl, rfl, rfl, rfl, rfl, rfl, rfl, rfl, rfl, rfl,
        List.forall₂_same.mpr fun entry _ => .same entry⟩

theorem sentLines_spawn (hc : spawn settings label console = .ok c) :
    c.pipe.journal.sentLines = [] := by
  cases console with
  | error fault => cases hc
  | ok console =>
    obtain rfl := Except.ok.inj hc
    rfl

/-- The lines that calls send are told of, in the same order. -/
theorem sent_at_of_run (hc : spawn settings label console = .ok c)
    (hr : Run { client := c } turns s) (hi : (sentIn turns)[i]? = some line) :
    s.toldSent[i]? = some line := by
  obtain ⟨bytes, hf⟩ := exists_feeds hr
  obtain ⟨quits, -, -, htold⟩ := stream_of_feeds hf
  have hnone : Scene.toldSent { client := c } = [] := sentLines_spawn hc
  obtain ⟨hlt, -⟩ := List.getElem?_eq_some_iff.mp hi
  rw [htold, hnone, List.nil_append, List.getElem?_append_left hlt]
  exact hi

/-- The events that have been reported to a sink that keeps them. -/
def Scene.events (s : Scene) : List Event := Sink.collect.events s.client.pipe.journal

/-- What a sink is told of the passwords of profiles that the client of a console creates, if the
other console in question does the same. -/
structure Discloses (P : String → String → Prop) (c c' : ConsoleClient) : Prop where
  runs : ∀ turns s, Run { client := c } turns s →
    ∃ moves, perform moves { client := c } = (turns, s)
  /-- Another password changes no result, and nothing that is told but the lines in question. -/
  confined : ∀ moves moves', List.Forall₂ (Move.Apart P) moves moves' →
    List.Forall₂ (Turn.Apart P) (perform moves { client := c }).1
      (perform moves' { client := c' }).1 ∧
      List.Forall₂ (Event.Beside (Lines P)) (perform moves { client := c }).2.events
        (perform moves' { client := c' }).2.events
  /-- All lines are told as they are. -/
  told : ∀ turns s (i : Nat) line, Run { client := c } turns s → (sentIn turns)[i]? = some line →
    s.toldSent[i]? = some line
  /-- So whoever is told the same of two runs knows that the passwords are the same. -/
  betrays : ∀ turns turns' s s' (i : Nat) user user' password password' role role',
    Run { client := c } turns s → Run { client := c' } turns' s' →
    isPassword password = true → isPassword password' = true →
    (sentIn turns)[i]? = some (Statement.createProfile user password role).line →
    (sentIn turns')[i]? = some (Statement.createProfile user' password' role').line →
    s'.events = s.events → user = user' ∧ password = password' ∧ role = role'

theorem discloses (hc : spawn settings label console = .ok c)
    (hc' : spawn settings label console' = .ok c') : Discloses P c c' where
  runs _ _ hr := run_iff_perform.mp hr
  confined moves moves' hm := by
    have hs : Scene.Parallel P { client := c } { client := c' } :=
      ⟨parallel_spawn hc hc', .nil, .none⟩
    obtain ⟨hturns, hlast⟩ := perform_parallel hm hs
    exact ⟨hturns, hlast.client.pipe.journal.events .collect⟩
  told _ _ _ _ hr hi := sent_at_of_run hc hr hi
  betrays := by
    intro turns turns' s s' i _ _ _ _ _ _ hr hr' hv hv' hi hi' hevents
    have hat := sent_at_of_run hc hr hi
    have hat' := sent_at_of_run hc' hr' hi'
    have hlines : s'.toldSent = s.toldSent := congrArg (List.filterMap Event.sent?) hevents
    rw [hlines, hat] at hat'
    exact Statement.createProfile_of_line hv hv' (Option.some.inj hat')

end ConsoleClient

/-- Passwords of profiles are kept to the lines in which the profiles are created, and told there by
both clients. -/
theorem passwords_disclosed (P : String → String → Prop) :
    (∀ target network settings, Client.Discloses P target network settings) ∧
      ∀ settings label console console' c c',
        ConsoleClient.spawn settings label console = .ok c →
        ConsoleClient.spawn settings label console' = .ok c' → ConsoleClient.Discloses P c c' := by
  refine ⟨Client.discloses P, ?_⟩
  intro settings label console console' c c' hc hc'
  exact ConsoleClient.discloses hc hc'

open Client (obliging ungreeted)

/-- Two passwords for one profile. -/
def Bobs (password password' : String) : Prop := password = "hunter2" ∧ password' = "swordfish"

theorem exchanged_bobs : Exchanged Bobs "hunter2" "swordfish" :=
  ⟨⟨rfl, rfl⟩, by decide, by decide⟩

namespace Client

def creating (password : String) : List Move :=
  [.come 0 (.command (.createProfile "bob" password none)), .serve 0 {}]

/-- The profile is created at a server that is content with every line. -/
def creatingStory (password : String) : Story :=
  story "db" (.reaching obliging) ungreeted (creating password)

theorem creating_corresponds : List.Forall₂ (Move.Corresponds (Call.Apart Bobs))
    (creating "hunter2") (creating "swordfish") :=
  .cons (.come 0 (.command (.created "bob" none exchanged_bobs))) (.cons (.same _) .nil)

theorem sameSends_creating : SameSends 0x0A obliging obliging (creatingStory "hunter2").said
    (creatingStory "swordfish").said :=
  .constant (fun _ => rfl) (by decide +kernel) (by decide +kernel)

end Client

namespace ConsoleClient

def creating (password : String) : List Move :=
  [.come 0 (.command (.createProfile "bob" password none)), .serve 0, .proceed, .proceed]

/-- The profile is created at a console that says nothing. -/
def creatingScene (password : String) (c : ConsoleClient) : Scene :=
  (perform (creating password) { client := c }).2

theorem creating_apart :
    List.Forall₂ (Move.Apart Bobs) (creating "hunter2") (creating "swordfish") :=
  .cons (.come 0 (.command (.created "bob" none exchanged_bobs)))
    (List.forall₂_same.mpr fun move _ => .same move)

end ConsoleClient

/-- Runs that differ in one password, at a server and at a console. -/
theorem passwords_disclosed_bob :
    (Client.creatingStory "hunter2").Apart Bobs (Client.creatingStory "swordfish") ∧
      ∃ c, ConsoleClient.spawn { executable := "console" } "console" (.ok ⟨[], fun _ => [], []⟩)
          = .ok c ∧
        List.Forall₂ (Event.Beside (ConsoleClient.Lines Bobs))
          (ConsoleClient.creatingScene "hunter2" c).events
          (ConsoleClient.creatingScene "swordfish" c).events := by
  obtain ⟨hclient, hconsole⟩ := passwords_disclosed Bobs
  constructor
  · refine (hclient "db" (.reaching obliging) ungreeted).confined (Client.creating "hunter2")
      (Client.creating "swordfish") obliging Client.creating_corresponds ?_
    intro server now hn
    have hreached : Client.Dial.reached? ungreeted.connectLimit.microseconds
        (.reaching obliging) = some (0, obliging) := rfl
    obtain ⟨rfl, rfl⟩ := Prod.mk.inj (Option.some.inj (hreached.symm.trans hn))
    exact Client.sameSends_creating
  · obtain ⟨c, hc⟩ : ∃ c, ConsoleClient.spawn { executable := "console" } "console"
        (.ok ⟨[], fun _ => [], []⟩) = .ok c := ⟨_, rfl⟩
    have hdiscloses := hconsole _ _ _ _ c c hc hc
    exact ⟨c, hc, (hdiscloses.confined _ _ ConsoleClient.creating_apart).2⟩

/-- Nothing differs but the password of a profile that is created, and it is told, by the client of
a server and by that of a console. -/
theorem passwords_told_apart :
    (List.Forall₂ (Client.Move.Corresponds (Client.Call.Apart Bobs)) (Client.creating "hunter2")
        (Client.creating "swordfish") ∧
      SameSends 0x0A obliging obliging (Client.creatingStory "hunter2").said
        (Client.creatingStory "swordfish").said ∧
      (Client.creatingStory "hunter2").events =
        [.connected "db", .sent redactedLogin, .received "\x7b\"Status\":\"ok\"\x7d",
          .sent (Request.query "profile.create(\"bob\", \"hunter2\")").line,
          .received "\x7b\"Status\":\"ok\"\x7d"] ∧
      (Client.creatingStory "swordfish").events =
        [.connected "db", .sent redactedLogin, .received "\x7b\"Status\":\"ok\"\x7d",
          .sent (Request.query "profile.create(\"bob\", \"swordfish\")").line,
          .received "\x7b\"Status\":\"ok\"\x7d"]) ∧
    ∃ c, ConsoleClient.spawn { executable := "console" } "console" (.ok ⟨[], fun _ => [], []⟩)
        = .ok c ∧
      List.Forall₂ (ConsoleClient.Move.Apart Bobs) (ConsoleClient.creating "hunter2")
        (ConsoleClient.creating "swordfish") ∧
      (ConsoleClient.creatingScene "hunter2" c).events =
        [.connected "console", .sent "profile.create(\"bob\", \"hunter2\")"] ∧
      (ConsoleClient.creatingScene "swordfish" c).events =
        [.connected "console", .sent "profile.create(\"bob\", \"swordfish\")"] := by
  refine ⟨⟨Client.creating_corresponds, Client.sameSends_creating, ?_, ?_⟩, ?_⟩
  · decide +kernel
  · decide +kernel
  · refine ⟨_, rfl, ConsoleClient.creating_apart, ?_, ?_⟩
    · decide +kernel
    · decide +kernel

end DocClient
