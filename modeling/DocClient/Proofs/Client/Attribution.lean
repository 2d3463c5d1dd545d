import DocClient.Proofs.Channel.Hearing
import DocClient.Proofs.Client.Conversation
import DocClient.Proofs.Client.Phase

/-!
Which answer belongs to which call, over a connection to a server that says one line to every
request. While the slot holds a connection of use, every line said has been read.
-/
namespace DocClient

open Text (Bytes)

variable {server : Server} {wire : WireConventions} {greeting : Bytes}
  {reply : List Bytes → Bytes} {d : UInt8} {l l' : Link} {r : Request} {w : Window}
  {maxLine : Nat} {reading : Reading}

/-- A server that says `reply asked` to the last of the requests that it has been asked, and a
greeting to a new connection if it is to greet. All else is up to it: when it says a line, how much
of it, in what pieces, and whether it hangs up. -/
structure Answering (server : Server) (wire : WireConventions) (greeting : Bytes)
    (reply : List Bytes → Bytes) : Prop where
  greets : Link.stream server.accept
    <+: if wire.greeting then greeting ++ [wire.delimiter] else []
  greeting_clean : wire.delimiter ∉ greeting
  answers : ∀ (asked : List Request) (r : Request),
    Link.stream (server.reaction
        ((asked.map (Request.frame wire.delimiter)).flatMap (Text.linesOf wire.delimiter))
        (Text.linesOf wire.delimiter (r.frame wire.delimiter)))
      <+: reply ((asked ++ [r]).map (Request.frame wire.delimiter)) ++ [wire.delimiter]
  reply_clean : ∀ asked, wire.delimiter ∉ reply asked

/-- A link over which only requests have been written, each of which the server has heard whole
unless the stream has come to its end. -/
structure Attuned (server : Server) (d : UInt8) (l : Link) : Prop where
  server : l.server = server
  delimiter : l.delimiter = d
  whole : l.halfLine = []
  asked : ∃ asked : List Request, written l.transcript = asked.map (Request.frame d)
  heard : Link.Halts l.inbox ∨ l.heard = (written l.transcript).flatMap (Text.linesOf d)

theorem Attuned.read (ha : Attuned server d l) (h : l.read room w = (reading, l')) :
    Attuned server d l' := by
  have hw := Link.read_written h
  have he := Link.read_eq h
  refine ⟨?_, ?_, ?_, hw ▸ ha.asked, ?_⟩
  · rw [he]
    exact ha.server
  · rw [he]
    exact ha.delimiter
  · rw [he]
    exact ha.whole
  · rcases ha.heard with hh | hh
    · exact Or.inl (Link.read_halts hh h)
    · right
      rw [hw, he]
      exact hh

theorem frame_rest (d : UInt8) (r : Request) : (Text.frames d (r.frame d)).2 = [] :=
  Text.frames_concat_rest d _

/-- A request over a link from which all has been read brings its own answer at most. -/
theorem Attuned.write (hserver : Answering server wire greeting reply)
    (ha : Attuned server wire.delimiter l) (hs : Link.stream l.inbox = [])
    (h : l.write (r.frame wire.delimiter) = (.ok (), l')) :
    Attuned server wire.delimiter l' ∧
      written l'.transcript = written l.transcript ++ [r.frame wire.delimiter] ∧
      Link.stream l'.inbox <+: reply (written l'.transcript) ++ [wire.delimiter] := by
  obtain ⟨hstream, hheard, hhalts, hsame, hrest⟩ := Link.write_stream h ha.whole
  have hw : written l'.transcript = written l.transcript ++ [r.frame wire.delimiter] := by
    rw [Link.write_transcript h]
    simp
  obtain ⟨asked, hasked⟩ := ha.asked
  rw [ha.delimiter] at hstream hheard hrest
  refine ⟨⟨hsame.trans ha.server, (Link.write_delimiter h).trans ha.delimiter, ?_, ?_, ?_⟩, hw, ?_⟩
  · rw [hrest, frame_rest]
  · exact ⟨asked ++ [r], by simp [hw, hasked]⟩
  · rcases ha.heard with hh | hh
    · exact Or.inl (hhalts hh)
    · rcases hheard with hhalt | hheard
      · exact Or.inl hhalt
      · right
        simp [hheard, hh, hw]
  · rw [hstream]
    by_cases hh : Link.Halts l.inbox
    · rw [Link.stream_append_of_halts hh, hs]
      exact List.nil_prefix
    · have hall := ha.heard.resolve_left hh
      rw [Link.stream_append_of_not_halts hh, hs, List.nil_append, ha.server, hall, hasked, hw,
        hasked]
      simpa using hserver.answers asked r

namespace Client

/-- Whether a caller is told anything that the server has said. -/
def Answer.Delivers : Answer → Prop
  | .reply _ | .failed (.protocol _) => True
  | _ => False

/-- Whether an answer is what the server has said: the reply that it is, or what is wrong with it,
its length included. -/
def Answer.Tells (maxLine : Nat) (said : Bytes) : Answer → Prop
  | .reply r => Reply.ofLine said = .ok r
  | .failed f =>
    Reply.ofLine said = .error f ∨
      f = .protocol ("Response exceeds " ++ toString maxLine ++ " bytes") ∧ maxLine < said.length
  | _ => False

/-- What a request over an endpoint comes to, as its caller sees it. -/
def answerOf : Except Halt Reply → Answer
  | .ok r => .reply r
  | .error (.failed f) => .failed f
  | .error .expired => .failed .timeout
  | .error .unfinished => .unfinished

variable {e e' : Endpoint} {result : Except Halt Reply} {c c' : Client} {a : Answer} {work : Work}
  {s t : Scene} {turn : Turn} {turns : List Turn} {call : Call}

theorem told_of_conversed (hserver : Answering server wire greeting reply)
    (h : Conversed r w e result e') (ha : Attuned server wire.delimiter e.link)
    (hs : e.closed = true ∨ Link.stream e.link.inbox = []) :
    Attuned server wire.delimiter e'.link ∧
      (e'.closed = true ∨ Link.stream e'.link.inbox = [] ∨ result = .error .expired ∨
        result = .error .unfinished) ∧
      ∃ own : List Request, (own = [] ∨ own = [r]) ∧
        written e'.link.transcript
          = written e.link.transcript ++ own.map (Request.frame wire.delimiter) ∧
        ((answerOf result).Delivers → own = [r] ∧
          (answerOf result).Tells e.maxLineBytes.toNat (reply (written e'.link.transcript))) := by
  have hasked {l l' : Link} {reading : Reading} (hc : e.closed = false)
      (hw : e.link.write (e.frame r.line) = (.ok (), l))
      (hr : l.read e.room w = (reading, l')) :
      Attuned server wire.delimiter l' ∧ l.delimiter = wire.delimiter ∧
        written l'.transcript = written e.link.transcript ++ [r.frame wire.delimiter] ∧
        Link.stream l.inbox <+: reply (written l'.transcript) ++ [wire.delimiter] := by
    have hframe : e.frame r.line = r.frame wire.delimiter := ha.delimiter ▸ rfl
    rw [hframe] at hw
    obtain ⟨ha', hwritten, hsaid⟩ := ha.write hserver (hs.resolve_left (by simp [hc])) hw
    rw [Link.read_written hr]
    exact ⟨ha'.read hr, ha'.delimiter, hwritten, hsaid⟩
  cases h with
  | shut hc => exact ⟨ha, Or.inl hc, [], Or.inl rfl, by simp, False.elim⟩
  | unwritten cause hc => exact ⟨ha, Or.inl rfl, [], Or.inl rfl, by simp, False.elim⟩
  | @answered l l' content hc hw hr =>
    obtain ⟨ha', hd, hwritten, hsaid⟩ := hasked hc hw hr
    rw [← hd] at hsaid
    obtain ⟨rfl, hempty⟩ := Link.read_said hr hsaid (hd ▸ hserver.reply_clean _)
    refine ⟨ha', Or.inr (Or.inl hempty), [r], Or.inr rfl, hwritten, ?_⟩
    intro hdeliver
    refine ⟨rfl, ?_⟩
    cases hp : Reply.ofLine (reply (written l'.transcript)) with
    | ok reply' => exact hp
    | error f => exact Or.inl hp
  | @spoiled l l' reading fault hc hw hr hf =>
    obtain ⟨ha', hd, hwritten, hsaid⟩ := hasked hc hw hr
    refine ⟨ha', Or.inl rfl, [r], Or.inr rfl, hwritten, ?_⟩
    intro hdeliver
    refine ⟨rfl, ?_⟩
    cases reading with
    | overlong =>
      obtain rfl := Option.some.inj hf
      have hlong := Link.read_said_overlong hr (hd ▸ hsaid)
      rw [Endpoint.room_of_fits
        (Endpoint.room_pos_iff.mp (Link.room_of_read hr (by simp)))] at hlong
      exact Or.inr ⟨rfl, hlong⟩
    | ended midLine =>
      cases midLine <;> obtain rfl := Option.some.inj hf <;> exact hdeliver.elim
    | reset =>
      obtain rfl := Option.some.inj hf
      exact hdeliver.elim
    | line content | expired | unfinished => simp [Reading.fault?] at hf
  | expired hc hw hr | unfinished hc hw hr =>
    obtain ⟨ha', hd, hwritten, hsaid⟩ := hasked hc hw hr
    exact ⟨ha', by simp, [r], Or.inr rfl, hwritten, False.elim⟩

/-- The connection in the slot may be used only if every line said has been read. -/
structure Aligned (server : Server) (wire : WireConventions) (c : Client) : Prop where
  conventions : c.wire = wire
  maxLine : c.endpoint.maxLineBytes = wire.maxLineBytes
  delimiter : c.endpoint.link.delimiter = wire.delimiter
  held : ∀ {hold}, c.slot = some hold → Attuned server wire.delimiter c.endpoint.link ∧
    (hold.replyOwed = true ∨ c.endpoint.closed = true ∨ Link.stream c.endpoint.link.inbox = [])

theorem aligned_drop (hw : c.wire = wire) (hm : c.endpoint.maxLineBytes = wire.maxLineBytes)
    (hd : c.endpoint.link.delimiter = wire.delimiter) : Aligned server wire c.drop := by
  obtain ⟨journal, he⟩ := drop_eq c
  rw [he]
  exact ⟨hw, hm, hd, by simp⟩

/-- What a call is told, `own` being the requests that it has written. -/
def Told (wire : WireConventions) (reply : List Bytes → Bytes) (own : List Request)
    (c : Client) (a : Answer) (c' : Client) : Prop :=
  written c'.endpoint.link.transcript
      = written c.endpoint.link.transcript ++ own.map (Request.frame wire.delimiter) ∧
    (a.Delivers → a.Tells wire.maxLineBytes.toNat (reply (written c'.endpoint.link.transcript)))

/-- A call that has written nothing and is told nothing. -/
theorem told_nothing (hw : written c'.endpoint.link.transcript = written c.endpoint.link.transcript)
    (ha : ¬ a.Delivers) : Told wire reply [] c a c' := by
  refine ⟨by simp [hw], ?_⟩
  intro hdeliver
  exact absurd hdeliver ha

theorem told_of_trip (hserver : Answering server wire greeting reply) (h : Trip r c a c')
    (hc : Aligned server wire c) :
    Aligned server wire c' ∧ ∃ own : List Request, (own = [] ∨ own = [r]) ∧
      (a.Delivers → own = [r]) ∧ Told wire reply own c a c' := by
  have hconv {hold : Hold} {w : Window} {result : Except Halt Reply} {endpoint : Endpoint}
      (hs : c.slot = some hold) (ho : hold.replyOwed = false)
      (h : Conversed r w c.endpoint result endpoint) :=
    told_of_conversed hserver h (hc.held hs).1 ((hc.held hs).2.resolve_left (by simp [ho]))
  have hmoved {hold : Hold} {w : Window} {result : Except Halt Reply} {endpoint : Endpoint}
      (hs : c.slot = some hold) (ho : hold.replyOwed = false)
      (h : Conversed r w c.endpoint result endpoint)
      (he : result ≠ .error .expired) (hu : result ≠ .error .unfinished) :
      Aligned server wire { c with endpoint } := by
    obtain ⟨ha, hst, -⟩ := hconv hs ho h
    have hm := (maxLineBytes_conversed h).trans hc.maxLine
    refine ⟨hc.conventions, hm, ha.delimiter, ?_⟩
    intro hold' hs'
    refine ⟨ha, ?_⟩
    simpa [he, hu] using Or.inr hst
  cases h with
  | closed hs => exact ⟨hc, [], Or.inl rfl, False.elim, told_nothing rfl id⟩
  | dropped hs ho =>
    refine ⟨aligned_drop hc.conventions hc.maxLine hc.delimiter, [], Or.inl rfl, False.elim, ?_⟩
    exact told_nothing (by rw [link_drop]; rfl) id
  | stalled hs ho hopen h =>
    cases h with
    | forsaken =>
      refine ⟨⟨hc.conventions, hc.maxLine, hc.delimiter, ?_⟩, [], Or.inl rfl, False.elim,
        told_nothing rfl id⟩
      intro hold' hs'
      obtain ⟨hold, hs, rfl⟩ := Option.map_eq_some_iff.mp hs'
      exact ⟨(hc.held hs).1, Or.inl rfl⟩
    | expired hl =>
      refine ⟨aligned_drop hc.conventions hc.maxLine hc.delimiter, [], Or.inl rfl, False.elim, ?_⟩
      exact told_nothing (by rw [link_drop]; rfl) id
  | replied hs ho h | failed hs ho h =>
    obtain ⟨-, -, own, hown, hw, htold⟩ := hconv hs ho h
    refine ⟨hmoved hs ho h (by simp) (by simp), own, hown, ?_, hw, ?_⟩
    · intro hdeliver
      exact (htold hdeliver).1
    · intro hdeliver
      rw [← hc.maxLine]
      exact (htold hdeliver).2
  | expired hs ho h =>
    obtain ⟨ha, -, own, hown, hw, -⟩ := hconv hs ho h
    refine ⟨aligned_drop hc.conventions ((maxLineBytes_conversed h).trans hc.maxLine) ha.delimiter,
      own, hown, False.elim, ?_, False.elim⟩
    rw [link_drop]
    exact hw
  | unfinished hs ho h =>
    obtain ⟨ha, -, own, hown, hw, -⟩ := hconv hs ho h
    have hm := (maxLineBytes_conversed h).trans hc.maxLine
    refine ⟨⟨hc.conventions, hm, ha.delimiter, ?_⟩, own, hown, False.elim, hw, False.elim⟩
    intro hold' hs'
    obtain rfl := Option.some.inj hs'
    exact ⟨ha, Or.inl rfl⟩

/-- The requests of a call that is told something, the last of them being the one that is
answered. -/
inductive Own (wire : WireConventions) : Work → List Request → Prop
  | request (r : Request) : Own wire (.request r) [r]
  | query (line : String) (selects : Option Name) : Own wire (.query line selects) [.query line]
  | fetched (line : String) (selects : Option Name) (hf : wire.followWithFetch = true) :
      Own wire (.query line selects) [.query line, .fetch]

theorem aligned_selected (selects : Option Name) (rep : Reply) (hc : Aligned server wire c) :
    Aligned server wire (if rep.succeeded then c.select selects else c) := by
  unfold select
  split
  · cases selects with
    | none => exact hc
    | some name =>
      refine ⟨hc.conventions, hc.maxLine, hc.delimiter, ?_⟩
      intro hold' hs'
      obtain ⟨hold, hs, rfl⟩ := Option.map_eq_some_iff.mp hs'
      have hh := hc.held hs
      exact hh
  · exact hc

theorem told_selected {own : List Request} (selects : Option Name) (rep : Reply)
    (h : Told wire reply own c a c') :
    Told wire reply own c a (if rep.succeeded then c'.select selects else c') := by
  unfold Told
  rw [endpoint_select]
  exact h

theorem told_of_fetch (hserver : Answering server wire greeting reply) {line : String}
    {selects : Option Name} {first : Reply} {c₁ : Client}
    (h : Trip (.query line) c (.reply first) c₁)
    (hf : (c₁.wire.followWithFetch && first.succeeded) = true) (h' : Trip .fetch c₁ a c')
    (hc : Aligned server wire c) :
    Aligned server wire c' ∧ ∃ own : List Request,
      (a.Delivers → Own wire (.query line selects) own) ∧ Told wire reply own c a c' := by
  obtain ⟨hc₁, own₁, -, hd₁, hw₁, -⟩ := told_of_trip hserver h hc
  obtain ⟨hc', own, -, hd, hw, htold⟩ := told_of_trip hserver h' hc₁
  obtain rfl := hd₁ trivial
  refine ⟨hc', .query line :: own, ?_, by simp [hw, hw₁], htold⟩
  intro hdeliver
  obtain rfl := hd hdeliver
  rw [hc₁.conventions] at hf
  exact .fetched line selects (Bool.and_eq_true_iff.mp hf).1

theorem told_of_served (hserver : Answering server wire greeting reply) (h : Served c work a c')
    (hc : Aligned server wire c) :
    Aligned server wire c' ∧ ∃ own : List Request,
      (a.Delivers → Own wire work own) ∧ Told wire reply own c a c' := by
  cases h with
  | probe =>
    have ha : ¬ Answer.Delivers (if c.isClosed then .failed .closed else .opened) := by
      split <;> exact id
    refine ⟨hc, [], ?_, told_nothing rfl ha⟩
    intro hdeliver
    exact absurd hdeliver ha
  | request h =>
    obtain ⟨hc', own, -, hd, htold⟩ := told_of_trip hserver h hc
    refine ⟨hc', own, ?_, htold⟩
    intro hdeliver
    rw [hd hdeliver]
    exact .request _
  | halted h ha =>
    obtain ⟨hc', own, -, hd, htold⟩ := told_of_trip hserver h hc
    refine ⟨hc', own, ?_, htold⟩
    intro hdeliver
    rw [hd hdeliver]
    exact .query _ _
  | replied h hf =>
    obtain ⟨hc', own, -, hd, htold⟩ := told_of_trip hserver h hc
    refine ⟨aligned_selected _ _ hc', own, ?_, ?_⟩
    · intro hdeliver
      rw [hd hdeliver]
      exact .query _ _
    · exact told_selected _ _ htold
  | fetchHalted h hf h' ha => exact told_of_fetch hserver h hf h' hc
  | fetched h hf h' =>
    obtain ⟨hc', own, hown, htold⟩ := told_of_fetch hserver h hf h' hc
    exact ⟨aligned_selected _ _ hc', own, hown, told_selected _ _ htold⟩

/-- What is known of a scene. -/
structure Scene.Aligned (server : Server) (wire : WireConventions) (s : Scene) : Prop where
  client : s.client.Aligned server wire
  parting : s.parting ≠ none → s.client.slot = none

theorem aligned_of_parted (h : Parted c a c') (hs : c.slot = none) (hc : Aligned server wire c) :
    Aligned server wire c' := by
  obtain ⟨he, hm, hd⟩ := parted_eq h
  refine ⟨?_, hm.trans hc.maxLine, hd.trans hc.delimiter, ?_⟩
  · rw [he]
    exact hc.conventions
  · simp [slot_of_parted h, hs]

theorem aligned_of_step (hserver : Answering server wire greeting reply) (h : Step s turn t)
    (hs : s.Aligned server wire) : t.Aligned server wire := by
  refine ⟨?_, parting_of_step h hs.parting⟩
  cases h with
  | queues | refuses | leaves => exact hs.client
  | forsakesGoodbye hp hc =>
    refine ⟨hs.client.conventions, hs.client.maxLine, hs.client.delimiter, ?_⟩
    have hvacant : s.client.release.slot = none := hs.parting (by simp [hp])
    simp [hvacant]
  | rests microseconds =>
    refine ⟨hs.client.conventions, hs.client.maxLine, hs.client.delimiter, ?_⟩
    intro hold hslot
    obtain ⟨ha, hh⟩ := hs.client.held hslot
    exact ⟨⟨ha.server, ha.delimiter, ha.whole, ha.asked, ha.heard⟩, hh⟩
  | @works place call work a client before after hq hw hc h =>
    by_cases hclose : work = .close
    · subst hclose
      rw [(works_vacant (isClosed_iff.mp (hc (work_close hw))) h).1]
      exact hs.client
    · exact (told_of_served hserver (served_of_works hclose h) hs.client).1
  | vacates hq hc =>
    exact ⟨hs.client.conventions, hs.client.maxLine, hs.client.delimiter, by simp⟩
  | parts patience hp h =>
    exact aligned_of_parted (parted_of_goodbye h) (hs.parting (by simp [hp])) hs.client

theorem told_of_step {place : Nat} (hserver : Answering server wire greeting reply)
    (h : Step s (.answered place call a) t) (hs : s.Aligned server wire) (ha : a.Delivers) :
    ∃ work own, call.work = .ok work ∧ Own wire work own ∧
      Told wire reply own s.client a t.client := by
  cases h with
  | @refuses _ f _ h =>
    rcases prepare_error h with ⟨rfl, -⟩ | ⟨hw, -⟩
    · exact ha.elim
    · have hf := (work_error hw).2
      cases f <;> simp_all [Answer.Delivers, Failure.ofArguments]
  | @works _ _ work _ _ before after hq hw hc h =>
    by_cases hclose : work = .close
    · subst hclose
      obtain rfl := (works_vacant (isClosed_iff.mp (hc (work_close hw))) h).2 rfl
      exact ha.elim
    · obtain ⟨-, own, hown, htold⟩ :=
        told_of_served hserver (served_of_works hclose h) hs.client
      exact ⟨work, own, hw, hown ha, htold⟩
  | parts patience hp h =>
    cases parted_of_goodbye h with
    | unsaid | said | unanswered | forsaken => exact ha.elim
  | forsakesGoodbye hp hc => exact ha.elim

/-- After a login everything said has been read. -/
theorem attuned_of_shaken {credentials : Credentials} {session : Session}
    (hserver : Answering server wire greeting reply)
    (h : Session.Shaken credentials wire w e (.ok session) e')
    (ha : Attuned server wire.delimiter e.link)
    (hs : Link.stream e.link.inbox <+: if wire.greeting then greeting ++ [wire.delimiter] else []) :
    Attuned server wire.delimiter e'.link ∧ Link.stream e'.link.inbox = [] ∧
      e'.maxLineBytes = e.maxLineBytes := by
  have hgreeted {line : Option String} {e₁ : Endpoint}
      (h : Session.Greeted wire w e (.ok line) e₁) :
      Attuned server wire.delimiter e₁.link ∧ Link.stream e₁.link.inbox = [] ∧
        e₁.maxLineBytes = e.maxLineBytes := by
    cases h with
    | silent hg => exact ⟨ha, by simpa [hg] using hs, rfl⟩
    | greeted hg hr =>
      obtain ⟨content, hread⟩ := hr.read
      rw [if_pos hg, ← ha.delimiter] at hs
      have hclean := ha.delimiter ▸ hserver.greeting_clean
      exact ⟨ha.read hread, (Link.read_said hread hs hclean).2, hr.maxLineBytes⟩
  generalize hok : (Except.ok session : Except Halt Session) = result at h
  cases h with
  | @answered line data text e₁ e₂ e₃ h hd hsent hr =>
    obtain ⟨ha₁, hs₁, hm₁⟩ := hgreeted h
    have hw := hsent.write
    have hframe : e₁.frame (Request.login data).line = (Request.login data).frame wire.delimiter :=
      ha₁.delimiter ▸ rfl
    rw [hframe] at hw
    obtain ⟨ha₂, -, hs₂⟩ := ha₁.write hserver hs₁ hw
    obtain ⟨content, hread⟩ := hr.read
    rw [← ha₂.delimiter] at hs₂
    refine ⟨ha₂.read hread, (Link.read_said hread hs₂ ?_).2, ?_⟩
    · exact ha₂.delimiter ▸ hserver.reply_clean _
    · exact hr.maxLineBytes.trans (hsent.maxLineBytes.trans hm₁)
  | _ => simp at hok

variable {target : String} {settings : ConnectSettings} {now : Nat} {reached : Reached}

theorem aligned_of_connectTo (hserver : Answering reached.server settings.wire greeting reply)
    (hc : connectTo target (.after now (.ok reached)) settings = .ready c) :
    Aligned reached.server settings.wire c := by
  obtain ⟨server, now', session, e, journal, hn, hlog, rfl⟩ := connectTo_ready hc
  obtain ⟨rfl, rfl⟩ := reached_after hn
  have hbegin : Link.stream reached.server.accept
      = Link.stream (Plan.begin now' reached.server.accept) :=
    Link.stream_congr (Link.begin_emissions now' reached.server.accept).symm
  have hstart : Attuned reached.server settings.wire.delimiter
      (Link.start reached.server settings.wire.delimiter now') :=
    ⟨rfl, rfl, rfl, ⟨[], rfl⟩, Or.inr rfl⟩
  obtain ⟨ha, hs, hm⟩ := attuned_of_shaken hserver hlog hstart (hbegin ▸ hserver.greets)
  refine ⟨rfl, hm, ha.delimiter, ?_⟩
  intro hold hslot
  exact ⟨ha, Or.inr (Or.inr hs)⟩

/-- Over a connection to a server that says one line to every request, a reply that a call returns
is what the server has said to the last request of that very call, and so is what a call is told of
a bad reply; and no two calls are told of the same answer. -/
theorem replies_attributed (hserver : Answering reached.server settings.wire greeting reply)
    (hc : connectTo target (.after now (.ok reached)) settings = .ready c)
    (hr : Run { client := c } turns s) {place : Nat} (h : Step s (.answered place call a) t)
    (ha : a.Delivers) :
    (∃ work own, call.work = .ok work ∧ Own settings.wire work own ∧
      Told settings.wire reply own s.client a t.client) ∧
    ∀ {later u place' call' a' v}, Run t later u → Step u (.answered place' call' a') v →
      a'.Delivers → (written t.client.endpoint.link.transcript).length
        < (written v.client.endpoint.link.transcript).length := by
  have hstart : Scene.Aligned reached.server settings.wire { client := c } :=
    ⟨aligned_of_connectTo hserver hc, by simp⟩
  have hs : s.Aligned reached.server settings.wire := hr.invariant (aligned_of_step hserver) hstart
  refine ⟨told_of_step hserver h hs ha, ?_⟩
  intro later u place' call' a' v hr' h' ha'
  have hu : u.Aligned reached.server settings.wire :=
    hr'.invariant (aligned_of_step hserver) (aligned_of_step hserver h hs)
  obtain ⟨work, own, -, hown, hw, -⟩ := told_of_step hserver h' hu ha'
  have hpos : 0 < own.length := by cases hown <;> simp
  have hle := (written_prefix_of_run hr').length_le
  rw [hw, List.length_append, List.length_map]
  omega

theorem linesOf_frame (hd : d.toNat < 32) (r : Request) :
    Text.linesOf d (r.frame d) = [Text.utf8 r.line] :=
  congrArg Prod.fst (Request.frames_frame hd r)

theorem linesOf_frames (hd : d.toNat < 32) (asked : List Request) :
    (asked.map (Request.frame d)).flatMap (Text.linesOf d)
      = asked.map fun r => Text.utf8 r.line := by
  induction asked with
  | nil => rfl
  | cons r asked ih => simpa [linesOf_frame hd] using ih

/-- A reply that shows a stroke for every line heard. -/
def strokes (heard : Nat) : Bytes :=
  Text.utf8 "\x7b\"Status\":\"ok\",\"Message\":\"" ++ List.replicate heard 0x7C
    ++ Text.utf8 "\"\x7d"

def counting : Server where
  accept := []
  answer heard := [(0, .bytes (strokes heard.length ++ [0x0A]))]

theorem newline_not_mem_strokes (n : Nat) : 0x0A ∉ strokes n := by
  intro hm
  rcases List.mem_append.mp hm with hm | hm
  · rcases List.mem_append.mp hm with hm | hm
    · exact absurd hm (by decide +kernel)
    · exact absurd (List.eq_of_mem_replicate hm) (by decide)
  · exact absurd hm (by decide +kernel)

theorem answering_counting : Answering counting ungreeted.wire []
    fun asked => strokes asked.length where
  greets := List.nil_prefix
  greeting_clean := by simp
  answers asked r := by
    rw [linesOf_frames (by decide), linesOf_frame (by decide)]
    simp only [Server.reaction, counting, List.length_append, List.append_nil, Link.stream,
      List.length_map]
    exact List.prefix_refl _
  reply_clean asked := newline_not_mem_strokes asked.length

def Answer.reply? : Answer → Option Reply
  | .reply r => some r
  | .opened | .done | .failed _ | .unfinished => none

theorem replies_attributed_counting : ∃ c rep t,
    connectTo "db" (.reaching counting) ungreeted = .ready c ∧ rep.note = some "||" ∧
      Step { client := c, queue := [(0, .fetch)] } (.answered 0 .fetch (.reply rep)) t ∧
      ∃ work own, Call.fetch.work = .ok work ∧ Own ungreeted.wire work own ∧
        Told ungreeted.wire (fun asked => strokes asked.length) own c (.reply rep) t.client := by
  have hready : ((connectTo "db" (.reaching counting) ungreeted).client?.bind fun c =>
      (c.roundTrip .fetch none).1.reply?.bind Reply.note) = some "||" := by
    decide +kernel
  cases hc : connectTo "db" (.reaching counting) ungreeted with
  | refused f | rejected f e => simp [hc, Attempt.client?] at hready
  | ready c =>
    rcases hf : c.roundTrip .fetch none with ⟨a, c'⟩
    simp only [hc, Attempt.client?, Option.bind_some, hf] at hready
    cases a with
    | reply rep =>
      have hp : c.prepare .fetch = .ok (.request .fetch) := rfl
      have hqueue : Run { client := c } [.queued 0 .fetch]
          { client := c, queue := [(0, .fetch)] } :=
        .cons (.queues 0 hp) (.nil _)
      have hstep : Step { client := c, queue := [(0, .fetch)] } (.answered 0 .fetch (.reply rep))
          { client := c' } :=
        @Step.works _ 0 .fetch (.request .fetch) _ _ [] [] rfl rfl (by simp) (.runs none hf)
      exact ⟨c, rep, _, rfl, hready, hstep,
        (replies_attributed answering_counting hc hqueue hstep trivial).1⟩
    | _ => simp [Answer.reply?] at hready

end Client

end DocClient
