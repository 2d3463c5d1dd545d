import DocClient.Proofs.Client.Attribution
import DocClient.Proofs.Wire.RequestStream
import Mathlib.Data.List.Forall2

/-!
A query and the fetch that follows it. The caller has the client for itself until both are done,
so what it puts on the wire stands together: no request of another caller comes between.
-/
namespace DocClient

open Text (Bytes)

namespace Client

variable {wire : WireConventions} {d : UInt8} {r : Request} {w : Window} {line : String}
  {e e' : Endpoint} {result : Except Halt Reply} {c c' : Client} {a : Answer} {work : Work}
  {block : List Transfer} {s t : Scene} {turn : Turn} {turns : List Turn} {call : Call}
  {place : Nat} {selects : Option Name}

/-- What a caller is told of a complete line. -/
def Answer.ofLine (content : Bytes) : Answer :=
  match Reply.ofLine content with
  | .ok r => .reply r
  | .error f => .failed f

/-- Whether a request may have been broken off before it was written: the caller went away, or the
channel failed, or it did not take the request in time. -/
def Answer.BrokenOff : Answer → Prop
  | .unfinished | .failed .timeout | .failed (.transport _) => True
  | _ => False

/-- What a request puts on the wire and its caller is then told. -/
inductive Leg (d : UInt8) (r : Request) : List Transfer → Answer → Prop
  | unwritten {a : Answer} (ha : ∀ reply, a ≠ .reply reply) : Leg d r [] a
  | unread {a : Answer} (ha : ∀ reply, a ≠ .reply reply) : Leg d r [.wrote (r.frame d)] a
  | read (content : Bytes) : Leg d r [.wrote (r.frame d), .took content] (.ofLine content)

/-- What a query puts on the wire and its caller is then told. If a fetch is to follow, it comes
right after the reply to the query if this is a success, unless it is broken off unwritten, and the
caller is told of its reply; after anything else comes no fetch. -/
inductive Pair (wire : WireConventions) (line : String) : List Transfer → Answer → Prop
  | alone {block : List Transfer} {a : Answer} (h : Leg wire.delimiter (.query line) block a)
      (hf : ∀ reply, a = .reply reply → wire.followWithFetch = true → reply.succeeded = false) :
      Pair wire line block a
  | followed {content : Bytes} {first : Reply} {block : List Transfer} {a : Answer}
      (hr : Reply.ofLine content = .ok first) (hs : first.succeeded = true)
      (hf : wire.followWithFetch = true) (h : Leg wire.delimiter .fetch block a)
      (hb : block = [] → a.BrokenOff) :
      Pair wire line
        (.wrote ((Request.query line).frame wire.delimiter) :: .took content :: block) a

theorem answerOf_halted (content : Bytes) :
    answerOf (halted (Reply.ofLine content)) = .ofLine content := by
  unfold Answer.ofLine
  cases Reply.ofLine content <;> rfl

theorem ofLine_reply {content : Bytes} {reply : Reply} (h : Answer.ofLine content = .reply reply) :
    Reply.ofLine content = .ok reply := by
  unfold Answer.ofLine at h
  split at h
  · next hr => rw [hr, Answer.reply.inj h]
  · simp at h

theorem leg_of_conversed (h : Conversed r w e result e') (hd : e.link.delimiter = d) :
    ∃ block, e'.link.transcript = e.link.transcript ++ block ∧ Leg d r block (answerOf result) ∧
      (e.closed = false → block = [] → (answerOf result).BrokenOff) := by
  have hunread {l l' : Link} {reading : Reading} (hw : e.link.write (e.frame r.line) = (.ok (), l))
      (hr : l.read e.room w = (reading, l')) (hq : reading.transfers = []) :
      l'.transcript = e.link.transcript ++ [.wrote (r.frame d)] := by
    rw [Link.read_transcript hr, Link.write_transcript hw, hq, List.append_nil, ← hd]
    rfl
  cases h with
  | shut hc => exact ⟨[], by simp, .unwritten (by simp [answerOf]), by simp [hc]⟩
  | unwritten cause hc =>
    refine ⟨[], by simp, .unwritten (by simp [answerOf]), ?_⟩
    intro _ _
    trivial
  | @answered l l' content hc hw hr =>
    refine ⟨[.wrote (r.frame d), .took content], ?_, ?_, by simp⟩
    · rw [Link.read_transcript hr, Link.write_transcript hw, List.append_assoc, ← hd]
      rfl
    · rw [answerOf_halted]
      exact .read content
  | spoiled fault hc hw hr hf =>
    exact ⟨_, hunread hw hr (Reading.transfers_of_fault hf), .unread (by simp [answerOf]), by simp⟩
  | expired hc hw hr => exact ⟨_, hunread hw hr rfl, .unread (by simp [answerOf]), by simp⟩
  | unfinished hc hw hr => exact ⟨_, hunread hw hr rfl, .unread (by simp [answerOf]), by simp⟩

/-- A request over a connection that may be used is broken off if it is not written. -/
theorem leg_of_trip (h : Trip r c a c') (hd : c.endpoint.link.delimiter = d) :
    ∃ block, c'.endpoint.link.transcript = c.endpoint.link.transcript ++ block ∧ Leg d r block a ∧
      (∀ hold, c.slot = some hold → hold.replyOwed = false → c.endpoint.closed = false →
        block = [] → a.BrokenOff) := by
  cases h with
  | closed hs => exact ⟨[], by simp, .unwritten (by simp), by simp [hs]⟩
  | dropped hs ho =>
    refine ⟨[], by simp [link_drop, noteAbandoned, note, Endpoint.note], .unwritten (by simp), ?_⟩
    simp [hs, ho]
  | stalled hs ho hopen h =>
    cases h with
    | forsaken => exact ⟨[], by simp [forsake], .unwritten (by simp), fun _ _ _ _ _ => trivial⟩
    | expired hl =>
      exact ⟨[], by simp [link_drop, noteTimeout, note, Endpoint.note], .unwritten (by simp),
        fun _ _ _ _ _ => trivial⟩
  | replied hs ho h | failed hs ho h | unfinished hs ho h =>
    obtain ⟨block, ht, hleg, hb⟩ := leg_of_conversed h hd
    exact ⟨block, ht, hleg, fun _ _ _ => hb⟩
  | expired hs ho h =>
    obtain ⟨block, ht, hleg, hb⟩ := leg_of_conversed h hd
    refine ⟨block, ?_, hleg, fun _ _ _ => hb⟩
    rw [link_drop]
    exact ht

/-- A client that keeps to the conventions of a wire. -/
structure Observes (wire : WireConventions) (c : Client) : Prop where
  conventions : c.wire = wire
  delimiter : c.endpoint.link.delimiter = wire.delimiter

theorem observes_of_trip (h : Trip r c a c') (hc : c.Observes wire) : c'.Observes wire := by
  have hd := (adds_of_trip h (List.mem_singleton_self r.keyword)).1.trans hc.delimiter
  refine ⟨?_, hd⟩
  have hdrop (c : Client) : c.drop.wire = c.wire := by
    obtain ⟨journal, he⟩ := drop_eq c
    rw [he]
  cases h with
  | closed | replied | failed | unfinished => exact hc.conventions
  | dropped | expired => exact (hdrop _).trans hc.conventions
  | stalled hs ho hopen h =>
    cases h with
    | forsaken => exact hc.conventions
    | expired hl => exact (hdrop _).trans hc.conventions

theorem observes_select (reply : Reply) (hc : c.Observes wire) :
    (if reply.succeeded then c.select selects else c).Observes wire := by
  refine ⟨?_, ?_⟩
  · unfold select
    split
    · split <;> exact hc.conventions
    · exact hc.conventions
  · rw [endpoint_select]
    exact hc.delimiter

/-- The reply to a query that is a success, and the fetch after it. -/
theorem pair_of_fetch {first : Reply} {c₁ : Client} (h : Trip (.query line) c (.reply first) c₁)
    (hf : (c₁.wire.followWithFetch && first.succeeded) = true) (h' : Trip .fetch c₁ a c')
    (hc : c.Observes wire) :
    ∃ block, c'.endpoint.link.transcript = c.endpoint.link.transcript ++ block ∧
      Pair wire line block a := by
  have hc₁ := observes_of_trip h hc
  obtain ⟨hfollow, hs⟩ := Bool.and_eq_true_iff.mp hf
  obtain ⟨asked, ht, hleg, -⟩ := leg_of_trip h hc.delimiter
  obtain ⟨block, ht', hleg', hb⟩ := leg_of_trip h' hc₁.delimiter
  obtain ⟨hold, w, endpoint, hslot, ho, hconv, rfl⟩ := replied_of_trip h
  generalize hfirst : Answer.reply first = told at hleg
  cases hleg with
  | unwritten ha | unread ha => exact absurd hfirst.symm (ha first)
  | read content =>
    have hr := ofLine_reply hfirst.symm
    refine ⟨_, ?_, .followed hr hs (hc₁.conventions ▸ hfollow) hleg' ?_⟩
    · rw [ht', ht, List.append_assoc]
      rfl
    · exact hb hold hslot ho (closed_of_conversed hconv)

theorem pair_of_served (h : Served c (.query line selects) a c') (hc : c.Observes wire) :
    ∃ block, c'.endpoint.link.transcript = c.endpoint.link.transcript ++ block ∧
      Pair wire line block a := by
  cases h with
  | halted h ha =>
    obtain ⟨block, ht, hleg, -⟩ := leg_of_trip h hc.delimiter
    exact ⟨block, ht, .alone hleg fun reply hr => absurd hr (ha reply)⟩
  | @replied _ _ reply c₁ h hf =>
    obtain ⟨block, ht, hleg, -⟩ := leg_of_trip h hc.delimiter
    refine ⟨block, by rw [endpoint_select, ht], .alone hleg ?_⟩
    intro reply' hr hfollow
    obtain rfl := Answer.reply.inj hr
    have hwire := (observes_of_trip h hc).conventions
    simpa [hwire, hfollow] using hf
  | fetchHalted h hf h' ha => exact pair_of_fetch h hf h' hc
  | fetched h hf h' =>
    rw [endpoint_select]
    exact pair_of_fetch h hf h' hc

/-- A turn in which a call makes its query. -/
def Turn.Queries (turn : Turn) : Prop :=
  ∃ place call a line selects, turn = .answered place call a ∧
    call.work = .ok (.query line selects)

/-- What a turn puts on the wire. -/
structure Block (wire : WireConventions) (turn : Turn) (block : List Transfer) : Prop where
  query : ∀ {place call a line selects}, turn = .answered place call a →
    call.work = .ok (.query line selects) → Pair wire line block a
  /-- All queries stem from calls that make them. -/
  unasked : ¬ turn.Queries →
    ∀ r : Request, .wrote (r.frame wire.delimiter) ∈ block → r.keyword ≠ .query
  /-- All fetches stem from calls that ask for one, or from queries that a fetch is to follow. -/
  unpaired : (wire.followWithFetch = true → ¬ turn.Queries) →
    (∀ place a, turn ≠ .answered place .fetch a) →
      ∀ r : Request, .wrote (r.frame wire.delimiter) ∈ block → r.keyword ≠ .fetch

theorem keyword_of_leg {r' : Request} (h : Leg d r block a) (hm : .wrote (r'.frame d) ∈ block) :
    r'.keyword = r.keyword := by
  cases h with
  | unwritten ha => simp at hm
  | unread ha =>
    simp only [List.mem_singleton, Transfer.wrote.injEq] at hm
    exact Request.keyword_of_frame hm
  | read content =>
    simp only [List.mem_cons, List.not_mem_nil, or_false, Transfer.wrote.injEq, reduceCtorEq] at hm
    exact Request.keyword_of_frame hm

/-- A turn that puts nothing on the wire and tells no reply. -/
theorem block_nil (h : ∀ place call a, turn = .answered place call a → ∀ reply, a ≠ .reply reply) :
    Block wire turn [] where
  query ht _ := by
    have ha := h _ _ _ ht
    exact .alone (.unwritten ha) fun reply hr => absurd hr (ha reply)
  unasked _ r hm := absurd hm List.not_mem_nil
  unpaired _ _ r hm := absurd hm List.not_mem_nil

theorem block_query (hw : call.work = .ok (.query line selects)) (h : Pair wire line block a) :
    Block wire (.answered place call a) block where
  query ht hw' := by
    cases ht
    cases hw.symm.trans hw'
    exact h
  unasked hn := absurd ⟨place, call, a, line, selects, rfl, hw⟩ hn
  unpaired hn _ r hm := by
    cases h with
    | alone h _ =>
      rw [keyword_of_leg h hm]
      simp [Request.query]
    | followed _ _ hf _ _ => exact absurd ⟨place, call, a, line, selects, rfl, hw⟩ (hn hf)

theorem work_request_keyword (h : call.work = .ok (.request r)) :
    r.keyword ≠ .query ∧ (r.keyword = .fetch → call = .fetch) := by
  cases call with
  | command command =>
    obtain ⟨line, selects, hw⟩ := work_command h
    simp at hw
  | fetch | debug | profile =>
    obtain rfl := Work.request.inj (Except.ok.inj h)
    simp [Request.fetch, Request.debug, Request.profile]
  | execute | raw | probe | close => cases h

theorem block_request (hw : call.work = .ok (.request r)) (h : Leg wire.delimiter r block a) :
    Block wire (.answered place call a) block where
  query ht hw' := by
    cases ht
    cases hw.symm.trans hw'
  unasked _ r' hm := by
    rw [keyword_of_leg h hm]
    exact (work_request_keyword hw).1
  unpaired _ hn r' hm := by
    rw [keyword_of_leg h hm]
    intro hfetch
    obtain rfl := (work_request_keyword hw).2 hfetch
    exact hn place a rfl

theorem block_close (h : written block <+: [Request.quit.frame wire.delimiter]) :
    Block wire (.answered place .close a) block := by
  have hquit (r : Request) (hm : .wrote (r.frame wire.delimiter) ∈ block) : r.keyword = .quit := by
    have hframe : r.frame wire.delimiter ∈ written block :=
      List.mem_filterMap.mpr ⟨_, hm, rfl⟩
    have hmem := h.subset hframe
    exact Request.keyword_of_frame (List.mem_singleton.mp hmem)
  constructor
  · intro place call a line selects ht hw
    cases ht
    cases hw
  · intro _ r hm
    simp [hquit r hm]
  · intro _ _ r hm
    simp [hquit r hm]

theorem observes_of_parted (h : Parted c a c') (hc : c.Observes wire) : c'.Observes wire := by
  obtain ⟨he, -, hd⟩ := parted_eq h
  refine ⟨?_, hd.trans hc.delimiter⟩
  rw [he]
  exact hc.conventions

theorem observes_of_served (h : Served c work a c') (hc : c.Observes wire) : c'.Observes wire := by
  cases h with
  | probe => exact hc
  | request h | halted h ha => exact observes_of_trip h hc
  | replied h hf => exact observes_select _ (observes_of_trip h hc)
  | fetchHalted h hf h' ha => exact observes_of_trip h' (observes_of_trip h hc)
  | fetched h hf h' => exact observes_select _ (observes_of_trip h' (observes_of_trip h hc))

theorem block_of_works (hw : call.work = .ok work) (hwork : work ≠ .close)
    (h : Served c work a c') (hc : c.Observes wire) :
    ∃ block, c'.endpoint.link.transcript = c.endpoint.link.transcript ++ block ∧
      Block wire (.answered place call a) block := by
  cases work with
  | query line selects =>
    obtain ⟨block, ht, hpair⟩ := pair_of_served h hc
    exact ⟨block, ht, block_query hw hpair⟩
  | request r =>
    cases h with
    | request h =>
      obtain ⟨block, ht, hleg, -⟩ := leg_of_trip h hc.delimiter
      exact ⟨block, ht, block_request hw hleg⟩
  | probe =>
    cases h with
    | probe =>
      refine ⟨[], by simp, block_nil ?_⟩
      rintro _ _ _ ⟨⟩ reply
      split <;> simp
  | close => exact absurd rfl hwork

/-- One turn adds a block to what is on the wire. -/
theorem block_of_step (h : Step s turn t) (hs : s.client.Observes wire) :
    t.client.Observes wire ∧ ∃ block,
      t.client.endpoint.link.transcript = s.client.endpoint.link.transcript ++ block ∧
        Block wire turn block := by
  cases h with
  | queues | leaves => exact ⟨hs, [], by simp, block_nil (by simp)⟩
  | rests => exact ⟨⟨hs.conventions, hs.delimiter⟩, [], by simp [rest], block_nil (by simp)⟩
  | vacates => exact ⟨⟨hs.conventions, hs.delimiter⟩, [], by simp, block_nil (by simp)⟩
  | refuses place h =>
    refine ⟨hs, [], by simp, block_nil ?_⟩
    rintro _ _ _ ⟨⟩ reply
    simp
  | @works place call work a client before after hq hw hc h =>
    by_cases hclose : work = .close
    · subst hclose
      obtain rfl := work_close hw
      rw [(works_vacant (isClosed_iff.mp (hc rfl)) h).1]
      exact ⟨hs, [], by simp, block_close (by simp)⟩
    · have hserved := served_of_works hclose h
      exact ⟨observes_of_served hserved hs, block_of_works hw hclose hserved hs⟩
  | parts patience hp h =>
    have hparted := parted_of_goodbye h
    refine ⟨observes_of_parted hparted hs, ?_⟩
    rcases transcript_of_parted hparted with he | ⟨farewell, -, he⟩
    · exact ⟨[], by simp [he], block_close (by simp)⟩
    · rw [hs.delimiter] at he
      exact ⟨_, he, block_close (by simp [written_map_took])⟩
  | forsakesGoodbye =>
    exact ⟨⟨hs.conventions, hs.delimiter⟩, [], by simp [release, Endpoint.release],
      block_close (by simp)⟩

/-- What a run puts on the wire is what its turns put there, one block after the other. -/
theorem blocks_of_run (hr : Run s turns t) (hs : s.client.Observes wire) :
    t.client.Observes wire ∧ ∃ blocks, List.Forall₂ (Block wire) turns blocks ∧
      t.client.endpoint.link.transcript
        = s.client.endpoint.link.transcript ++ blocks.flatten := by
  induction hr with
  | nil => exact ⟨hs, [], .nil, by simp⟩
  | cons h _ ih =>
    obtain ⟨hobserves, block, ht, hblock⟩ := block_of_step h hs
    obtain ⟨hobserves', blocks, hblocks, ht'⟩ := ih hobserves
    refine ⟨hobserves', block :: blocks, .cons hblock hblocks, ?_⟩
    rw [ht', ht, List.flatten_cons, List.append_assoc]

theorem observes_of_connectTo {target : String} {network : Dial} {settings : ConnectSettings}
    (hc : connectTo target network settings = .ready c) : c.Observes settings.wire := by
  obtain ⟨server, now, session, e, journal, -, hlog, rfl⟩ := connectTo_ready hc
  exact ⟨rfl, (talk_of_shaken hlog rfl rfl).1⟩

/-- Work that puts something on the wire has a connection to do it over. -/
theorem slot_of_query (h : Step s (.answered place call a) t)
    (hw : call.work = .ok (.query line selects))
    (ht : t.client.endpoint.link.transcript ≠ s.client.endpoint.link.transcript) :
    ∃ hold, s.client.slot = some hold := by
  cases hs : s.client.slot with
  | some hold => exact ⟨hold, rfl⟩
  | none =>
    cases h with
    | refuses => exact absurd rfl ht
    | works hq hw' hc h =>
      rw [(works_vacant hs h).1] at ht
      exact absurd rfl ht
    | parts | forsakesGoodbye => cases hw

/-- A server that keeps what came of the last query, `result asked` if `asked` are the requests up
to this query, and says it when it is asked for. -/
def Keeping (d : UInt8) (reply : List Bytes → Bytes) (result : List Request → Bytes) : Prop :=
  ∀ (asked between : List Request) (line : String), (∀ r ∈ between, r.keyword ≠ .query) →
    reply ((asked ++ Request.query line :: between ++ [Request.fetch]).map (Request.frame d))
      = result (asked ++ [.query line])

/-- The reply that is told after a success of the query is that to the fetch. -/
theorem fetched_of_pair {frame content : Bytes} {more : List Transfer} {rep first : Reply}
    (h : Pair wire line (.wrote frame :: .took content :: more) (.reply rep))
    (hf : wire.followWithFetch = true) (hr : Reply.ofLine content = .ok first)
    (hs : first.succeeded = true) :
    ∃ content', more = [.wrote (Request.fetch.frame wire.delimiter), .took content'] := by
  generalize hb : Transfer.wrote frame :: .took content :: more = block at h
  generalize ha : Answer.reply rep = a at h
  cases h with
  | alone h halone =>
    cases h with
    | unwritten | unread => simp at hb
    | read content' =>
      obtain ⟨-, hcontent⟩ := List.cons.inj hb
      obtain rfl := Transfer.took.inj (List.cons.inj hcontent).1
      rw [ofLine_reply ha.symm] at hr
      obtain rfl := Except.ok.inj hr
      simp [halone rep ha.symm hf] at hs
  | followed _ _ _ h _ =>
    obtain ⟨-, hmore⟩ := List.cons.inj hb
    rw [(List.cons.inj hmore).2]
    cases h with
    | unwritten ha' | unread ha' => exact absurd ha.symm (ha' rep)
    | read content' => exact ⟨content', rfl⟩

/-- Who is told of a success after a query that was one is told what came of its own query. -/
theorem own_result {server : Server} {greeting : Bytes} {reply : List Bytes → Bytes}
    {result : List Request → Bytes} {rep first : Reply} {content : Bytes} {more : List Transfer}
    (hserver : Answering server wire greeting reply) (hkeeping : Keeping wire.delimiter reply result)
    (hf : wire.followWithFetch = true) (hs : s.Aligned server wire)
    (h : Step s (.answered place call (.reply rep)) t)
    (hw : call.work = .ok (.query line selects))
    (ht : t.client.endpoint.link.transcript = s.client.endpoint.link.transcript
      ++ .wrote ((Request.query line).frame wire.delimiter) :: .took content :: more)
    (hr : Reply.ofLine content = .ok first) (hsucceeded : first.succeeded = true) :
    ∃ asked, written s.client.endpoint.link.transcript
        = asked.map (Request.frame wire.delimiter) ∧
      Reply.ofLine (result (asked ++ [.query line])) = .ok rep := by
  have hobserves : s.client.Observes wire := ⟨hs.client.conventions, hs.client.delimiter⟩
  obtain ⟨-, block, ht', hblock⟩ := block_of_step h hobserves
  obtain rfl := List.append_cancel_left (ht'.symm.trans ht)
  obtain ⟨hold, hslot⟩ := slot_of_query h hw (by simp [ht])
  obtain ⟨asked, hasked⟩ := (hs.client.held hslot).1.asked
  refine ⟨asked, hasked, ?_⟩
  obtain ⟨work, own, -, -, -, htells⟩ := told_of_step hserver h hs trivial
  have htold : Reply.ofLine (reply (written t.client.endpoint.link.transcript)) = .ok rep :=
    htells trivial
  obtain ⟨content', rfl⟩ := fetched_of_pair (hblock.query rfl hw) hf hr hsucceeded
  have hwritten : written t.client.endpoint.link.transcript
      = (asked ++ Request.query line :: [] ++ [Request.fetch]).map (Request.frame wire.delimiter) := by
    rw [ht, written_append, hasked]
    simp
  rw [hwritten, hkeeping asked [] line (by simp)] at htold
  exact htold

/-- Whether a line is a query. -/
def isQuery (line : Bytes) : Bool := (Request.ofBytes? line).any fun r => r.keyword == .query

/-- A server that shows, whatever it is asked, a stroke for every query so far. -/
def storing : Server where
  accept := []
  answer heard := [(0, .bytes (strokes (heard.countP isQuery) ++ [0x0A]))]

/-- The number of queries among requests, in strokes. -/
def queryStrokes (asked : List Request) : Bytes :=
  strokes (asked.countP fun r => r.keyword == .query)

def pairing : ConnectSettings := { wire := { greeting := false, followWithFetch := true } }

theorem isQuery_line (r : Request) : isQuery (Text.utf8 r.line) = (r.keyword == .query) := by
  simp [isQuery, Request.ofBytes?_line]

theorem countP_frames (asked : List Request) :
    (asked.map (Request.frame d)).countP (fun frame => isQuery frame.dropLast)
      = asked.countP fun r => r.keyword == .query := by
  rw [List.countP_map]
  congr 1
  funext r
  simp [Request.frame, isQuery_line]

theorem answering_storing : Answering storing pairing.wire []
    fun asked => strokes (asked.countP fun frame => isQuery frame.dropLast) where
  greets := List.nil_prefix
  greeting_clean := by simp
  answers asked r := by
    have hcount : (asked.map (fun r => Text.utf8 r.line) ++ [Text.utf8 r.line]).countP isQuery
        = (asked ++ [r]).countP fun r => r.keyword == .query := by
      have hone : (isQuery ∘ fun r : Request => Text.utf8 r.line)
          = fun r : Request => r.keyword == .query := by
        funext r
        exact isQuery_line r
      rw [← List.map_singleton (f := fun r : Request => Text.utf8 r.line), ← List.map_append,
        List.countP_map, hone]
    rw [linesOf_frames (by decide), linesOf_frame (by decide), countP_frames]
    simp only [Server.reaction, storing, List.append_nil, Link.stream, hcount]
    exact List.prefix_refl _
  reply_clean asked := newline_not_mem_strokes _

theorem keeping_storing : Keeping pairing.wire.delimiter
    (fun asked => strokes (asked.countP fun frame => isQuery frame.dropLast)) queryStrokes := by
  intro asked between line hbetween
  have hnone : between.countP (fun r => r.keyword == .query) = 0 := by
    rw [List.countP_eq_zero]
    simpa using hbetween
  simp only [countP_frames, queryStrokes]
  simp [List.countP_append, hnone, Request.query, Request.fetch]

end Client

end DocClient
