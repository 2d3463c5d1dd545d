import DocClient.Proofs.Channel.Traffic
import DocClient.Proofs.Client.LifeCycle

/-!
What the sink is told of a connected client, from the connection on: every call keeps the account
of the traffic, and a connection that is dropped has its closing told.
-/
namespace DocClient

namespace Session

variable {credentials : Credentials} {wire : WireConventions} {w : Window} {e e' : Endpoint}
  {target : String} {ending : List Event}

theorem Greeted.account {greeting : Except Halt (Option String)}
    (h : Greeted wire w e greeting e') (ha : e.Account target ending) :
    e'.Account target ending := by
  cases h with
  | silent h => exact ha
  | greeted h hr | ungreeted h hr => exact ha.received hr

/-- The handshake writes its only frame under a mask. -/
theorem Shaken.account {result : Except Halt Session}
    (h : Shaken credentials wire w e result e') (ha : e.Account target ending) :
    e'.Account target ending := by
  have hmask (data : String) : Shows (Request.login data).line shownLogin := by
    rw [shownLogin_eq]
    exact .login data
  cases h with
  | ungreeted h => exact h.account ha
  | unencoded h hd => exact h.account ha
  | unsent h hd hs => exact (h.account ha).sent (hmask _) hs
  | unanswered h hd hs hr | answered h hd hs hr => exact ((h.account ha).sent (hmask _) hs).received hr

end Session

namespace Client

variable {c c' : Client} {e e' : Endpoint} {r : Request} {w : Window} {a : Answer} {work : Work}
  {hold : Hold} {s t u : Scene} {turn : Turn} {turns : List Turn} {target : String}
  {ending : List Event} {result : Except Halt Reply}

/-- A request is sent, and perhaps something is received. -/
theorem Conversed.parts (h : Conversed r w e result e') :
    ∃ sent e₁, e.Sent r.line r.line sent e₁ ∧
      (e' = e₁ ∨ ∃ received, Endpoint.Received w e₁ received e') := by
  cases h with
  | shut h => exact ⟨_, _, .shut h, Or.inl rfl⟩
  | unwritten cause h => exact ⟨_, _, .unwritten cause h, Or.inl rfl⟩
  | @answered l l' content h hw hr =>
    have hreceived : Endpoint.Received w
        { e with link := l, journal := e.journal ++ [.event (.sent r.line)] } _ _ := .taken h hr
    rw [List.append_assoc] at hreceived
    exact ⟨_, _, .written h hw, Or.inr ⟨_, hreceived⟩⟩
  | spoiled fault h hw hr hf =>
    exact ⟨_, _, .written h hw, Or.inr ⟨_, .spoiled fault h hr hf⟩⟩
  | expired h hw hr => exact ⟨_, _, .written h hw, Or.inr ⟨_, .expired h hr⟩⟩
  | unfinished h hw hr => exact ⟨_, _, .written h hw, Or.inr ⟨_, .unfinished h hr⟩⟩

theorem Conversed.account (h : Conversed r w e result e') (hr : r.keyword ≠ .login)
    (ha : e.Account target ending) : e'.Account target ending := by
  obtain ⟨sent, e₁, hs, rfl | ⟨received, hreceived⟩⟩ := h.parts
  · exact ha.sent (shows_request hr) hs
  · exact (ha.sent (shows_request hr) hs).received hreceived

theorem drop_account (ha : c.endpoint.Account target []) (ho : c.endpoint.closed = false) :
    c.drop.endpoint.Account target [.closed target] := by
  have hclosed := ha.closeQuietly .client "socket shutdown failed"
  rw [if_neg (by simp [ho])] at hclosed
  exact hclosed.release

/-- The sink has been told of a connection and its traffic, and of its closing once the slot is
empty. -/
def Accounted (target : String) (c : Client) : Prop :=
  c.endpoint.Account target (if c.isClosed then [.closed target] else [])

theorem accounted_of_open (ha : c.Accounted target) (hs : c.isClosed = false) :
    c.endpoint.Account target [] := by
  simpa [Accounted, hs] using ha

theorem accounted_of_trip (h : Trip r c a c') (hr : r.keyword ≠ .login)
    (ha : c.endpoint.Account target []) (hs : c.isClosed = false) (hsound : c.Sound) :
    c'.Accounted target := by
  have hdrop {c : Client} (ha : c.endpoint.Account target []) (ho : c.endpoint.closed = false) :
      c.drop.Accounted target := by
    simpa [Accounted, drop, isClosed] using drop_account ha ho
  have hkeep {c : Client} {hold : Hold} (hslot : c.slot = some hold)
      (ha : c.endpoint.Account target []) : c.Accounted target := by
    simpa [Accounted, isClosed, hslot] using ha
  cases h with
  | closed hslot => simp [isClosed, hslot] at hs
  | dropped hslot ho => exact hdrop (ha.note _) (hsound _ hslot ho)
  | stalled hslot ho hc h =>
    cases h with
    | forsaken => exact hkeep (by simp [forsake, hslot]; rfl) ha
    | expired hl => exact hdrop (ha.note _) hc
  | replied hslot ho h | failed hslot ho h => exact hkeep hslot (h.account hr ha)
  | unfinished hslot ho h => exact hkeep rfl (h.account hr ha)
  | expired hslot ho h =>
    have hopen := closed_of_waited h (by simp)
    exact hdrop ((h.account hr ha).note _) hopen

theorem accounted_selected {reply : Reply} {selects : Option Name} (ha : c.Accounted target) :
    (if reply.succeeded then c.select selects else c).Accounted target := by
  unfold Accounted isClosed at ha ⊢
  cases selects with
  | none => simpa [select] using ha
  | some name =>
    split
    · simpa [select] using ha
    · exact ha

/-- The first of two round trips, which brings a reply, leaves a client for the second. -/
theorem account_of_first {reply : Reply} (h : Trip r c (.reply reply) c') (hr : r.keyword ≠ .login)
    (ha : c.endpoint.Account target []) :
    c'.endpoint.Account target [] ∧ c'.isClosed = false ∧ c'.Sound := by
  obtain ⟨hold, w, endpoint, hs, ho, hconv, rfl⟩ := replied_of_trip h
  exact ⟨hconv.account hr ha, by simp [isClosed, hs], sound_of_settled hs ho⟩

theorem accounted_of_served (h : Served c work a c')
    (hr : ∀ r, work.first = some r → r.keyword ≠ .login)
    (ha : c.endpoint.Account target []) (hs : c.isClosed = false) (hsound : c.Sound) :
    c'.Accounted target := by
  have hfetch : Request.fetch.keyword ≠ .login := by simp [Request.fetch]
  cases h with
  | probe => simpa [Accounted, hs] using ha
  | request h => exact accounted_of_trip h (hr _ rfl) ha hs hsound
  | halted h => exact accounted_of_trip h (hr _ rfl) ha hs hsound
  | replied h => exact accounted_selected (accounted_of_trip h (hr _ rfl) ha hs hsound)
  | fetchHalted h hf h' =>
    obtain ⟨ha₁, hs₁, hsound₁⟩ := account_of_first h (hr _ rfl) ha
    exact accounted_of_trip h' hfetch ha₁ hs₁ hsound₁
  | fetched h hf h' =>
    obtain ⟨ha₁, hs₁, hsound₁⟩ := account_of_first h (hr _ rfl) ha
    exact accounted_selected (accounted_of_trip h' hfetch ha₁ hs₁ hsound₁)

/-- No call asks for a login. -/
theorem first_ne_login {call : Call} (hw : call.work = .ok work) (hr : work.first = some r) :
    r.keyword ≠ .login := by
  cases work with
  | query line selects =>
    obtain rfl := Option.some.inj hr
    simp [Request.query]
  | request r' =>
    obtain rfl := Option.some.inj hr
    intro hk
    have hm := work_request hw
    rw [hk] at hm
    simp [callKeywords] at hm
  | probe | close => simp [Work.first] at hr

theorem finish_account (ha : c.endpoint.Account target []) :
    c.finish.2.endpoint.Account target (if c.endpoint.closed then [] else [.closed target]) :=
  (ha.closeQuietly .client "socket shutdown failed").release.note _

/-- The goodbye over an endpoint, and what is heard of it. -/
inductive Farewell (e : Endpoint) : Endpoint → Prop
  | unsaid {halt : Halt} {e' : Endpoint}
      (h : e.Sent Request.quit.line Request.quit.line (.error halt) e') : Farewell e e'
  | said {w : Window} {result : Except Halt String} {e₁ e' : Endpoint}
      (h : e.Sent Request.quit.line Request.quit.line (.ok ()) e₁)
      (hr : Endpoint.Received w e₁ result e') : Farewell e e'

theorem Farewell.account (h : Farewell e e') (ha : e.Account target ending) :
    e'.Account target ending := by
  have hquit : Shows Request.quit.line Request.quit.line := shows_request (by simp [Request.quit])
  cases h with
  | unsaid h => exact ha.sent hquit h
  | said h hr => exact (ha.sent hquit h).received hr

/-- A goodbye that is finished tells of the closing, unless it has found or met a fault. -/
theorem account_of_parted (h : Parted c a c') (ha : c.endpoint.Account target []) :
    (a = .done ∧ ∃ e, Farewell c.endpoint e ∧
      c'.endpoint.Account target (if e.closed then [] else [.closed target])) ∨
    a = .unfinished ∧ c'.endpoint.Account target [] := by
  cases h with
  | @unsaid halt endpoint h =>
    have hf : Farewell c.endpoint endpoint := .unsaid h
    exact Or.inl ⟨rfl, endpoint, hf, finish_account (c := { c with endpoint }) (hf.account ha)⟩
  | @said w result e₁ endpoint h hr =>
    have hf : Farewell c.endpoint endpoint := .said h hr
    exact Or.inl ⟨rfl, endpoint, hf, finish_account (c := { c with endpoint }) (hf.account ha)⟩
  | unanswered h hr => exact Or.inr ⟨rfl, ((Farewell.said h hr).account ha).release⟩
  | forsaken h => exact Or.inr ⟨rfl, ha.release⟩

/-- What the sink has been told in every scene. While the connection is in the slot, or a close has
still to say goodbye, no closing has been told of. -/
structure Scene.Accounted (target : String) (s : Scene) : Prop where
  sound : s.Sound
  account : ∃ ending, s.client.endpoint.Account target ending
  pending : s.client.isClosed = false ∨ s.parting ≠ none → s.client.endpoint.Account target []

theorem accounted_of_works {call : Call} (hw : call.work = .ok work)
    (hc : call = .close → c.isClosed = true) (h : Works c work a c') (ho : c.isClosed = false)
    (ha : c.endpoint.Account target []) (hsound : c.Sound) : c'.Accounted target := by
  have hcall : call ≠ .close := by
    rintro rfl
    simp [ho] at hc
  apply accounted_of_served (served_of_works (work_ne_close hw hcall) h) ?_ ha ho hsound
  intro r hr
  exact first_ne_login hw hr

/-- The pending close is answered: its goodbye is finished, or its caller has gone away. -/
theorem account_of_close {place : Nat} (h : Step s turn t) (hs : s.Accounted target)
    (hp : s.parting = some place) (hp' : t.parting = none) :
    (turn = .answered place .close .done ∧ ∃ e, Farewell s.client.endpoint e ∧
      t.client.endpoint.Account target (if e.closed then [] else [.closed target])) ∨
    turn = .answered place .close .unfinished ∧ t.client.endpoint.Account target [] := by
  have ha := hs.pending (Or.inr (by simp [hp]))
  cases h with
  | queues | refuses | works | leaves | rests => simp [hp] at hp'
  | vacates hq hc => simp at hp'
  | parts patience hpart h =>
    obtain rfl := Option.some.inj (hp.symm.trans hpart)
    rcases account_of_parted (parted_of_goodbye h) ha with ⟨rfl, he⟩ | ⟨rfl, ha'⟩
    · exact Or.inl ⟨rfl, he⟩
    · exact Or.inr ⟨rfl, ha'⟩
  | forsakesGoodbye hpart hc =>
    obtain rfl := Option.some.inj (hp.symm.trans hpart)
    exact Or.inr ⟨rfl, ha.release⟩

theorem accounted_of_step (h : Step s turn t) (hs : s.Accounted target) : t.Accounted target := by
  have hsound := sound_of_step h hs.sound
  cases h with
  | queues | refuses | leaves => exact ⟨hsound, hs.account, hs.pending⟩
  | @works place call work a client before after hq hw hc h =>
    cases ho : s.client.isClosed with
    | true =>
      obtain ⟨rfl, -⟩ := works_vacant (isClosed_iff.mp ho) h
      exact ⟨hsound, hs.account, hs.pending⟩
    | false =>
      have ha : client.Accounted target :=
        accounted_of_works hw hc h ho (hs.pending (Or.inl ho)) hs.sound.client
      refine ⟨hsound, ⟨_, ha⟩, ?_⟩
      rintro (hopen | hp)
      · exact accounted_of_open ha hopen
      · have hvacant := hs.sound.parting hp
        simp [isClosed, hvacant] at ho
  | vacates hq hc =>
    have ha := hs.pending (Or.inl hc)
    exact ⟨hsound, ⟨[], ha⟩, fun _ => ha⟩
  | @parts place a client patience hp h =>
    have hvacant : client.slot = none :=
      (slot_of_parted (parted_of_goodbye h)).trans (hs.sound.parting (by simp [hp]))
    refine ⟨hsound, ?_, by simp [isClosed, hvacant]⟩
    rcases account_of_parted (parted_of_goodbye h) (hs.pending (Or.inr (by simp [hp]))) with
      ⟨-, e, -, ha⟩ | ⟨-, ha⟩
    · exact ⟨_, ha⟩
    · exact ⟨_, ha⟩
  | forsakesGoodbye hp hc =>
    have hvacant : s.client.release.slot = none := hs.sound.parting (by simp [hp])
    obtain ⟨ending, ha⟩ := hs.account
    exact ⟨hsound, ⟨ending, ha.release⟩, by simp [isClosed, hvacant]⟩
  | rests microseconds =>
    refine ⟨hsound, ?_, ?_⟩
    · obtain ⟨ending, ha⟩ := hs.account
      exact ⟨ending, ha.peer, ha.told, ha.ending⟩
    · intro hp
      have ha := hs.pending hp
      exact ⟨ha.peer, ha.told, ha.ending⟩

variable {network : Dial} {settings : ConnectSettings} {f : Failure}

theorem opened_account (peer : String) (settings : ConnectSettings) (server : Server)
    (now : Nat) : (opened peer settings server now).Account peer [] :=
  ⟨rfl, ⟨[], .nothing, rfl⟩, Or.inl rfl⟩

/-- A client that has just been connected. -/
theorem accounted_of_ready (h : connectTo target network settings = .ready c) :
    Scene.Accounted (network.peer target) { client := c } := by
  rcases connectTo_concluded h with ⟨f, hf⟩ | ⟨server, now, result, e, -, hl, hc⟩
  · simp at hf
  · have ha := Session.Shaken.account hl (opened_account (network.peer target) settings server now)
    cases result with
    | ok session =>
      obtain rfl := Attempt.ready.inj hc
      refine ⟨⟨sound_of_settled rfl rfl, by simp⟩, ⟨[], ?_⟩, ?_⟩
      · exact (ha.note _).note _
      · intro _
        exact (ha.note _).note _
    | error halt =>
      obtain ⟨f, journal, he⟩ := conclude_error target settings halt e
      simp [he] at hc

theorem accounted_of_run (hc : connectTo target network settings = .ready c)
    (hr : Run { client := c } turns s) : s.Accounted (network.peer target) :=
  hr.invariant accounted_of_step (accounted_of_ready hc)

/-- A login that fails closes the channel and tells of it, unless the handshake has given the
channel up. -/
theorem account_of_rejected (h : connectTo target network settings = .rejected f e) :
    ∃ server now halt e₀,
      network.reached? settings.connectLimit.microseconds = some (now, server) ∧
      Logged (network.peer target) settings server now (.error halt) e₀ ∧
      e.Account (network.peer target)
        (if e₀.closed then [] else [.closed (network.peer target)]) := by
  rcases connectTo_concluded h with ⟨g, hg⟩ | ⟨server, now, result, e₀, hn, hl, hc⟩
  · simp at hg
  · have ha := Session.Shaken.account hl (opened_account (network.peer target) settings server now)
    cases result with
    | ok session => simp [conclude] at hc
    | error halt =>
      refine ⟨server, now, halt, e₀, hn, hl, ?_⟩
      cases halt with
      | failed g =>
        obtain ⟨-, rfl⟩ := Attempt.rejected.inj hc
        exact ((ha.closeQuietly .login "close after failed login").note _).release
      | expired | unfinished =>
        obtain ⟨-, rfl⟩ := Attempt.rejected.inj hc
        exact (ha.closeQuietly .client "close after login timeout").release

end Client

end DocClient
