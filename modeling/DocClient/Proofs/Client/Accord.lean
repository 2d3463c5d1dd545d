import DocClient.Proofs.Channel.Accord
import DocClient.Proofs.Client.Schedule

/-!
Two runs at clients whose callers ask for things that differ, and cannot tell the clients from each
other all the same: moves that correspond lead to turns that correspond. How far the requests may
differ, and what is then the same of the connections, is a matter of the `Bond` between them.
-/
namespace DocClient

open Text (Bytes)

namespace Client

variable {α : Type} {c c' : Client} {r r' : Request}

def endpointPart : Part Client Endpoint where
  get := endpoint
  set e c := { c with endpoint := e }
  get_set _ _ := rfl
  set_get _ := rfl
  set_set _ _ _ := rfl

/-- A step over the endpoint. -/
def through (x : Endpoint → α × Endpoint) (c : Client) : α × Client :=
  ((x c.endpoint).1, { c with endpoint := (x c.endpoint).2 })

/-- What becomes of a round trip whose conversation has ended. -/
def settle (hold : Hold) (r : Request) : Except Halt Reply → Client → Answer × Client
  | .ok reply, c => (.reply reply, c)
  | .error (.failed f), c => (.failed f, c)
  | .error .expired, c => (.failed .timeout, (c.noteTimeout r).drop)
  | .error .unfinished, c => (.unfinished, { c with slot := some { hold with replyOwed := true } })

/-- Of the request only the keyword still counts. -/
theorem settle_congr (hold : Hold) (h : r'.keyword = r.keyword) :
    settle hold r' = settle hold r := by
  funext result c
  cases result with
  | ok reply => rfl
  | error halt => cases halt <;> simp only [settle, noteTimeout, h]

/-- A round trip, by what is in the slot and how long to wait. -/
def tripIn (r : Request) (view : Option Hold × Window) (c : Client) : Answer × Client :=
  match view.1 with
  | none => (.failed .closed, c)
  | some hold =>
    if hold.replyOwed then (.failed .channelClosed, (c.noteAbandoned r).drop)
    else settle hold r (through (converse r view.2) c).1 (through (converse r view.2) c).2

theorem roundTrip_eq (r : Request) (patience : Option Nat) :
    roundTrip r patience = fun c => tripIn r (c.slot, c.window patience) c := by
  funext c
  unfold roundTrip tripIn
  cases hs : c.slot with
  | none => rfl
  | some hold =>
    cases ho : hold.replyOwed with
    | true =>
      simp only [ho, if_true]
      rfl
    | false =>
      simp only [ho, through, Bool.false_eq_true, if_false]
      rcases converse r (c.window patience) c.endpoint with ⟨result, endpoint⟩
      cases result with
      | ok reply => simp [settle, hs]
      | error halt => cases halt <;> simp [settle, hs, noteTimeout]

/-- What follows on a reply; any other answer is final. -/
def onReply (f : Reply → Client → Answer × Client) : Answer → Client → Answer × Client
  | .reply reply, c => f reply c
  | a, c => (a, c)

/-- The second part of a query that the first request has brought a reply to. -/
def concludeQuery (selects : Option Name) (reply : Reply) (c : Client) : Answer × Client :=
  (.reply reply, if reply.succeeded then c.select selects else c)

theorem queryOn_eq (course : Course) (line : String) (selects : Option Name) :
    queryOn course line selects = fun c =>
      onReply (fun first c => onReply (concludeQuery selects)
          (c.followUpOr course.fetch course.patience first).1
          (c.followUpOr course.fetch course.patience first).2)
        (c.tripOr course.first (.query line) course.patience).1
        (c.tripOr course.first (.query line) course.patience).2 := by
  funext c
  unfold queryOn
  rcases c.tripOr course.first (.query line) course.patience with ⟨first, c₁⟩
  cases first with
  | reply first =>
    simp only [onReply]
    rcases c₁.followUpOr course.fetch course.patience first with ⟨a, c₂⟩
    cases a <;> rfl
  | _ => rfl

/-- The last word in the log. -/
def logOff (username : String) (c : Client) : Answer × Client :=
  (.done, c.note .info "disconnected from ProtonDB" [("user", username)])

/-- How a goodbye ends that has been written, and after which something was heard or not. -/
def hangUp : Except Halt String → Client → Answer × Client
  | .error .unfinished, c => (.unfinished, c.release)
  | _, c => c.finish

/-- How a goodbye goes on that has been written, or could not be. -/
def takeLeave (patience : Option Nat) : Except Halt Unit → Client → Answer × Client
  | .error _, c => c.finish
  | .ok (), c =>
    let w : Window := { timer := some (c.endpoint.link.clock + quitWait.microseconds), patience }
    hangUp (through (Endpoint.receive w) c).1 (through (Endpoint.receive w) c).2

theorem goodbye_eq (patience : Option Nat) :
    goodbye patience = fun c =>
      takeLeave patience (through (Endpoint.send Request.quit.line Request.quit.line) c).1
        (through (Endpoint.send Request.quit.line Request.quit.line) c).2 := by
  funext c
  simp only [goodbye, through]
  rcases c.endpoint.send Request.quit.line Request.quit.line with ⟨sent, e⟩
  cases sent with
  | error halt => rfl
  | ok _ =>
    simp only [takeLeave, through]
    rcases e.receive
      { timer := some (e.link.clock + quitWait.microseconds), patience } with ⟨received, e₁⟩
    cases received with
    | ok line => rfl
    | error halt => cases halt <;> rfl

end Client

namespace Bond

open Client

variable (B : Bond) {α β : Type} {c c' : Client} {r r' : Request} {work work' : Work}

/-- Clients that differ in nothing but endpoints that are of a kind. -/
def Clients (c c' : Client) : Prop := ∃ e', B.Kin c.endpoint e' ∧ c' = { c with endpoint := e' }

/-- Steps of two runs at clients of a kind, with the same result. -/
def Agree (f f' : Client → α × Client) : Prop :=
  Accords B.all B.all' (fun c => B.said c.endpoint) B.Clients Eq f f'

/-- Requests that may be made in the two runs at a time. -/
structure Requests (r r' : Request) : Prop where
  keyword : r'.keyword = r.keyword
  lines : B.Lines r.line r'.line

variable {B}

theorem Requests.same (r : Request) : B.Requests r r := ⟨rfl, B.same r.line⟩

namespace Clients

variable (h : B.Clients c c')
include h

theorem slot : c'.slot = c.slot := by
  obtain ⟨e', he, rfl⟩ := h
  rfl

theorem isClosed : c'.isClosed = c.isClosed := by
  rw [Client.isClosed, h.slot, Client.isClosed]

theorem wire : c'.wire = c.wire := by
  obtain ⟨e', he, rfl⟩ := h
  rfl

theorem clock : c'.endpoint.link.clock = c.endpoint.link.clock := by
  obtain ⟨e', he, rfl⟩ := h
  exact B.clock he

theorem window (patience : Option Nat) : c'.window patience = c.window patience := by
  obtain ⟨e', he, rfl⟩ := h
  simp only [Client.window, B.clock he]

theorem stalls (stall : Stall) : c'.stalls stall = c.stalls stall := by
  obtain ⟨e', he, rfl⟩ := h
  have hphase : ({ c with endpoint := e' } : Client).phase = c.phase := by
    simp only [phase, B.closed he]
  cases stall <;> simp only [Client.stalls, hphase]

theorem closed : c'.endpoint.closed = c.endpoint.closed := by
  obtain ⟨e', he, rfl⟩ := h
  exact B.closed he

end Clients

theorem agree_through {x x' : Endpoint → α × Endpoint}
    (h : Accords B.all B.all' B.said B.Kin Eq x x') : B.Agree (through x) (through x') :=
  endpointPart.accords_through h

/-- Whatever is changed in a client beside its endpoint. -/
theorem agree_changed (a : α) {g : Client → Client}
    (hg : ∀ c e, g { c with endpoint := e } = { g c with endpoint := e }) :
    B.Agree (fun c => (a, g c)) fun c => (a, g c) := by
  have hchanged : Respects B.all B.all' (fun c => B.said c.endpoint) (endpointPart.Alike B.Kin)
      fun c => (a, g c) :=
    endpointPart.respects_changed a hg
  exact hchanged.accords

theorem agree_still (a : α) : B.Agree (fun c => (a, c)) fun c => (a, c) := Accords.still rfl

theorem agree_note (a : α) (n : Note) :
    B.Agree (fun c => (a, { c with endpoint := c.endpoint.note n }))
      fun c => (a, { c with endpoint := c.endpoint.note n }) :=
  agree_through ((B.notes n).accords.andThen (fun _ e => (a, e)) (fun _ e => (a, e)) fun _ =>
    .still rfl)

theorem agree_release (a : α) :
    B.Agree (fun c => (a, Client.release c)) fun c => (a, Client.release c) :=
  agree_through (B.releases.accords.andThen (fun _ e => (a, e)) (fun _ e => (a, e)) fun _ =>
    .still rfl)

theorem agree_closeEndpoint :
    B.Agree (fun c => ((), c.closeEndpoint)) fun c => ((), c.closeEndpoint) :=
  (agree_through (B.closes .client "socket shutdown failed").accords).andThen
    (fun _ c => ((), Client.release c)) (fun _ c => ((), Client.release c)) fun _ => agree_release ()

theorem agree_rest (microseconds : Nat) :
    B.Agree (fun c => ((), c.rest microseconds)) fun c => ((), c.rest microseconds) :=
  agree_through (B.rests microseconds).accords

/-- A client that is dropped after a word in the log. -/
theorem agree_drop (a : α) (n : Note) :
    B.Agree (fun c => (a, { c with endpoint := c.endpoint.note n }.drop))
      fun c => (a, { c with endpoint := c.endpoint.note n }.drop) := by
  refine (agree_note () n).andThen (fun _ c => (a, c.drop)) (fun _ c => (a, c.drop)) fun _ => ?_
  refine agree_closeEndpoint.andThen (fun _ c => (a, { c with slot := none }))
    (fun _ c => (a, { c with slot := none })) fun _ => ?_
  exact agree_changed a fun _ _ => rfl

theorem agree_finish : B.Agree finish finish := by
  have hlast :
      B.Agree (fun c => logOff c.session.username c) fun c => logOff c.session.username c := by
    refine Accords.look logOff logOff (fun c => c.session.username) ?_ fun username => ?_
    · rintro c _ ⟨e', he, rfl⟩
      rfl
    · exact agree_note _ _
  exact agree_closeEndpoint.andThen (fun _ c => logOff c.session.username c)
    (fun _ c => logOff c.session.username c) fun _ => hlast

theorem agree_converse (h : B.Requests r r') (w : Window) :
    B.Agree (through (converse r w)) (through (converse r' w)) := by
  apply agree_through
  refine Exchange.accords_bind (B.sends h.lines) fun _ => ?_
  refine Exchange.accords_bind (B.receives w).accords fun line => ?_
  exact Exchange.accords_check (Reply.parse line)

theorem agree_settle (r : Request) (hold : Hold) (result : Except Halt Reply) :
    B.Agree (settle hold r result) (settle hold r result) := by
  cases result with
  | ok reply => exact agree_still _
  | error halt =>
    cases halt with
    | failed f => exact agree_still _
    | expired => exact agree_drop _ _
    | unfinished => exact agree_changed _ fun _ _ => rfl

theorem agree_tripIn (h : B.Requests r r') (view : Option Hold × Window) :
    B.Agree (tripIn r view) (tripIn r' view) := by
  obtain ⟨slot, w⟩ := view
  cases slot with
  | none => exact agree_still _
  | some hold =>
    have hsettle : settle hold r' = settle hold r := settle_congr hold h.keyword
    have htrip (r : Request) : tripIn r (some hold, w) = fun c =>
        if hold.replyOwed then (.failed .channelClosed, (c.noteAbandoned r).drop)
        else settle hold r (through (converse r w) c).1 (through (converse r w) c).2 := rfl
    rw [htrip, htrip, hsettle]
    cases ho : hold.replyOwed with
    | true =>
      simp only [if_true, noteAbandoned, h.keyword]
      exact agree_drop _ _
    | false =>
      simp only [Bool.false_eq_true, if_false]
      exact (agree_converse h w).andThen _ _ (agree_settle r hold)

theorem agree_roundTrip (h : B.Requests r r') (patience : Option Nat) :
    B.Agree (roundTrip r patience) (roundTrip r' patience) := by
  rw [roundTrip_eq, roundTrip_eq]
  exact Accords.look (tripIn r) (tripIn r') (fun c => (c.slot, c.window patience))
    (fun hc => by rw [hc.slot, hc.window]) (agree_tripIn h)

theorem agree_stall (h : B.Requests r r') (stall : Stall) :
    B.Agree (fun c => c.stall r stall) fun c => c.stall r' stall := by
  cases stall with
  | forsaken => exact agree_changed _ fun _ _ => rfl
  | expired =>
    simp only [stall, noteTimeout, h.keyword]
    exact agree_drop _ _

theorem agree_tripOr (h : B.Requests r r') (stall? : Option Stall) (patience : Option Nat) :
    B.Agree (tripOr stall? r patience) (tripOr stall? r' patience) := by
  cases stall? with
  | none => exact agree_roundTrip h patience
  | some stall =>
    refine Accords.look
      (fun (stalls : Bool) (c : Client) =>
        if stalls then c.stall r stall else c.roundTrip r patience)
      (fun (stalls : Bool) (c : Client) =>
        if stalls then c.stall r' stall else c.roundTrip r' patience)
      (fun c => c.stalls stall) (fun hc => hc.stalls stall) ?_
    intro stalls
    cases stalls with
    | true => exact agree_stall h stall
    | false => exact agree_roundTrip h patience

theorem agree_followUpOr (stall? : Option Stall) (patience : Option Nat) (reply : Reply) :
    B.Agree (followUpOr stall? patience reply) (followUpOr stall? patience reply) := by
  let follow (wire : WireConventions) (c : Client) : Answer × Client :=
    if wire.followWithFetch && reply.succeeded then c.tripOr stall? .fetch patience
    else (.reply reply, c)
  refine Accords.look follow follow Client.wire Clients.wire ?_
  intro wire
  unfold follow
  cases hf : wire.followWithFetch && reply.succeeded with
  | true =>
    simp only [if_true]
    exact agree_tripOr (.same .fetch) stall? patience
  | false => exact agree_still _

theorem agree_onReply {f f' : Reply → Client → Answer × Client}
    (hf : ∀ reply, B.Agree (f reply) (f' reply)) (a : Answer) :
    B.Agree (onReply f a) (onReply f' a) := by
  cases a with
  | reply reply => exact hf reply
  | _ => exact agree_still _

theorem agree_concludeQuery (selects : Option Name) (reply : Reply) :
    B.Agree (concludeQuery selects reply) (concludeQuery selects reply) := by
  apply agree_changed
  intro c e
  split
  · cases selects <;> rfl
  · rfl

theorem agree_queryOn {line line' : String} (h : B.Requests (.query line) (.query line'))
    (course : Course) (selects : Option Name) :
    B.Agree (queryOn course line selects) (queryOn course line' selects) := by
  rw [queryOn_eq, queryOn_eq]
  refine (agree_tripOr h _ _).andThen _ _ (agree_onReply fun first => ?_)
  exact (agree_followUpOr _ _ _).andThen _ _ (agree_onReply (agree_concludeQuery selects))

theorem agree_hangUp (received : Except Halt String) :
    B.Agree (hangUp received) (hangUp received) := by
  cases received with
  | ok line => exact agree_finish
  | error halt =>
    cases halt with
    | unfinished => exact agree_release _
    | failed f | expired => exact agree_finish

theorem agree_takeLeave (patience : Option Nat) (sent : Except Halt Unit) :
    B.Agree (takeLeave patience sent) (takeLeave patience sent) := by
  cases sent with
  | error halt => exact agree_finish
  | ok _ =>
    let await (clock : Nat) (c : Client) :=
      let w : Window := { timer := some (clock + quitWait.microseconds), patience }
      hangUp (through (Endpoint.receive w) c).1 (through (Endpoint.receive w) c).2
    refine Accords.look await await (fun c => c.endpoint.link.clock) Clients.clock ?_
    intro clock
    exact (agree_through (B.receives _).accords).andThen _ _ agree_hangUp

theorem agree_goodbye (patience : Option Nat) : B.Agree (goodbye patience) (goodbye patience) := by
  rw [goodbye_eq]
  exact (agree_through (B.sends (B.same _))).andThen _ _ (agree_takeLeave patience)

theorem agree_vacate : B.Agree (fun c => ((), { c with slot := none }))
    fun c => ((), { c with slot := none }) :=
  agree_changed () fun _ _ => rfl

theorem agree_close (patience : Option Nat) : B.Agree (close patience) (close patience) := by
  let leave (slot : Option Hold) (c : Client) : Answer × Client :=
    match slot with
    | none => (.done, c)
    | some _ => goodbye patience { c with slot := none }
  refine Accords.look leave leave Client.slot Clients.slot ?_
  intro slot
  cases slot with
  | none => exact agree_still _
  | some hold => exact agree_vacate.andThen _ _ fun _ => agree_goodbye patience

variable (B) in
/-- What is to be done for calls that correspond. -/
inductive Works : Work → Work → Prop
  | same (work : Work) : Works work work
  | query {line line' : String} (selects : Option Name)
      (h : B.Requests (.query line) (.query line')) :
      Works (.query line selects) (.query line' selects)

theorem agree_on (h : B.Works work work') (course : Course) :
    B.Agree (work.on course) (work'.on course) := by
  cases h with
  | query selects h => exact agree_queryOn h course selects
  | same =>
    cases work with
    | query line selects => exact agree_queryOn (.same _) course selects
    | request r => exact agree_tripOr (.same r) course.first course.patience
    | probe =>
      let look (closed : Bool) (c : Client) :=
        (if closed then Answer.failed .closed else .opened, c)
      exact Accords.look look look Client.isClosed Clients.isClosed fun _ => agree_still _
    | close => exact agree_close course.patience

theorem Works.vacates (h : B.Works work work') (hc : B.Clients c c') :
    work'.vacates c' = work.vacates c := by
  cases h with
  | query selects h => rfl
  | same => cases work <;> simp only [Work.vacates, hc.isClosed]

/-- Calls that come to the same, or to work that corresponds. -/
inductive Prepared (B : Bond) : Except Failure Work → Except Failure Work → Prop
  | refused (f : Failure) : Prepared B (.error f) (.error f)
  | ready {work work' : Work} (h : B.Works work work') : Prepared B (.ok work) (.ok work')

theorem Prepared.same (prepared : Except Failure Work) : Prepared B prepared prepared := by
  cases prepared with
  | error f => exact .refused f
  | ok work => exact .ready (.same work)

/-- Calls may correspond that look at the client alike and come to work that corresponds. -/
structure Admits (B : Bond) (K : Client.Call → Client.Call → Prop) : Prop where
  same : ∀ call, K call call
  guarded : ∀ {call call'}, K call call' → call'.isGuarded = call.isGuarded
  work : ∀ {call call'}, K call call' → Prepared B call.work call'.work

end Bond

namespace Client

variable (K : Call → Call → Prop)

/-- The caller of a call and the caller of one that corresponds. -/
inductive Callers : Nat × Call → Nat × Call → Prop
  | mk (place : Nat) {call call' : Call} (h : K call call') : Callers (place, call) (place, call')

inductive Turn.Corresponds : Turn → Turn → Prop
  | same (turn : Turn) : Corresponds turn turn
  | queued (place : Nat) {call call' : Call} (h : K call call') :
      Corresponds (.queued place call) (.queued place call')
  | answered (place : Nat) {call call' : Call} (h : K call call') (a : Answer) :
      Corresponds (.answered place call a) (.answered place call' a)
  | left (place : Nat) {call call' : Call} (h : K call call') :
      Corresponds (.left place call) (.left place call')

inductive Move.Corresponds : Move → Move → Prop
  | same (move : Move) : Corresponds move move
  | come (place : Nat) {call call' : Call} (h : K call call') :
      Corresponds (.come place call) (.come place call')

end Client

namespace Bond

open Client

variable {B : Bond} {K : Client.Call → Client.Call → Prop} {α : Type} {call call' : Client.Call}
  {c c' : Client}

/-- Scenes with clients of a kind, at which calls wait that correspond. -/
structure Scenes (B : Bond) (K : Client.Call → Client.Call → Prop) (s s' : Scene) : Prop where
  client : B.Clients s.client s'.client
  queue : List.Forall₂ (Callers K) s.queue s'.queue
  parting : s'.parting = s.parting

/-- Moves of two runs, with turns that correspond. -/
def Plays (B : Bond) (K : Client.Call → Client.Call → Prop) (f f' : Scene → Option Turn × Scene) :
    Prop :=
  Accords B.all B.all' (fun s => B.said s.client.endpoint) (B.Scenes K)
    (Option.Rel (Turn.Corresponds K)) f f'

theorem rel_same (turn : Option Turn) : Option.Rel (Turn.Corresponds K) turn turn := by
  cases turn with
  | none => exact .none
  | some turn => exact .some (.same turn)

theorem plays_still (turn : Option Turn) : B.Plays K (fun s => (turn, s)) fun s => (turn, s) :=
  .still (rel_same turn)

/-- A step of the client, and what it means in the scene. -/
theorem plays_through {f f' : Client → α × Client} (hf : B.Agree f f')
    (turn turn' : α → Option Turn)
    (queue queue' : List (Nat × Client.Call) → List (Nat × Client.Call))
    (parting : Option Nat → Option Nat)
    (hturn : ∀ a, Option.Rel (Turn.Corresponds K) (turn a) (turn' a))
    (hqueue : ∀ {q q'}, List.Forall₂ (Callers K) q q' →
      List.Forall₂ (Callers K) (queue q) (queue' q')) :
    B.Plays K (fun s => (turn (f s.client).1, ⟨(f s.client).2, queue s.queue, parting s.parting⟩))
      fun s => (turn' (f' s.client).1, ⟨(f' s.client).2, queue' s.queue, parting s.parting⟩) where
  grows s := hf.grows s.client
  grows' s := hf.grows' s.client
  alike := by
    intro s s' h hh hh'
    obtain ⟨ha, hc⟩ := hf.alike h.client hh hh'
    refine ⟨ha ▸ hturn _, hc, hqueue h.queue, ?_⟩
    rw [h.parting]

variable (hK : B.Admits K)
include hK

theorem prepared (h : K call call') (hc : B.Clients c c') :
    Prepared B (c.prepare call) (c'.prepare call') := by
  unfold Client.prepare
  rw [hK.guarded h, hc.isClosed]
  split
  · exact .refused _
  · exact hK.work h

theorem plays_come (place : Nat) (h : K call call') :
    B.Plays K (Move.come place call).play (Move.come place call').play := by
  refine Accords.view (Move.enter place call) (Move.enter place call')
    (fun s => s.client.prepare call) (fun s => s.client.prepare call') Prepared.same
    (fun hs => prepared hK h hs.client) ?_
  intro _ _ hp
  cases hp with
  | refused f => exact .still (.some (.answered place h _))
  | ready hw =>
    refine plays_through (agree_still ()) (fun _ => some (.queued place call))
      (fun _ => some (.queued place call')) (fun q => q ++ [(place, call)])
      (fun q => q ++ [(place, call')]) id (fun _ => .some (.queued place h)) ?_
    intro q q' hq
    exact List.rel_append hq (.cons (.mk place h) .nil)

omit hK in
theorem plays_attend (position : Nat) (course : Course) (place : Nat) (h : K call call')
    {work work' : Work} (hw : B.Works work work') (vacates : Bool) :
    B.Plays K (Move.attend position course place call work vacates)
      (Move.attend position course place call' work' vacates) := by
  have herase {q q' : List (Nat × Client.Call)} (hq : List.Forall₂ (Callers K) q q') :
      List.Forall₂ (Callers K) (q.eraseIdx position) (q'.eraseIdx position) :=
    rel_eraseIdx hq position
  cases vacates with
  | true =>
    exact plays_through agree_vacate (fun _ => some (.vacated place))
      (fun _ => some (.vacated place)) _ _ (fun _ => some place) (fun _ => rel_same _) herase
  | false =>
    exact plays_through (agree_on hw course) (fun a => some (.answered place call a))
      (fun a => some (.answered place call' a)) _ _ id (fun a => .some (.answered place h a)) herase

/-- What is done with the caller at a position of the queue. -/
theorem plays_at (position : Nat) (f : Option (Nat × Client.Call) → Scene → Option Turn × Scene)
    (hnone : B.Plays K (f none) (f none))
    (hsome : ∀ {place call call'}, K call call' →
      B.Plays K (f (some (place, call))) (f (some (place, call')))) :
    B.Plays K (fun s => f s.queue[position]? s) fun s => f s.queue[position]? s := by
  refine Accords.view f f (fun s => s.queue[position]?) (fun s => s.queue[position]?)
    (V := Option.Rel (Callers K)) ?_ (fun hs => rel_getElem? hs.queue position) ?_
  · rintro (_ | ⟨place, call⟩)
    · exact .none
    · exact .some (.mk place (hK.same call))
  · intro x x' hx
    cases hx with
    | none => exact hnone
    | some hx =>
      obtain ⟨place, h⟩ := hx
      exact hsome h

theorem plays_serve (position : Nat) (course : Course) :
    B.Plays K (Move.serve position course).play (Move.serve position course).play := by
  refine plays_at hK position (Move.turnTo position course) (plays_still none) ?_
  intro place call call' h
  have hturn {call : Client.Call} {work : Work} (hw : call.work = .ok work) :
      Move.turnTo position course (some (place, call)) = fun s =>
        Move.attend position course place call work (work.vacates s.client) s := by
    funext s
    simp only [Move.turnTo, hw]
  have hnone {call : Client.Call} {f : Failure} (hw : call.work = .error f) :
      Move.turnTo position course (some (place, call)) = fun s => (none, s) := by
    funext s
    simp only [Move.turnTo, hw]
  have hwork := hK.work h
  generalize hw : call.work = prepared at hwork
  generalize hw' : call'.work = prepared' at hwork
  cases hwork with
  | refused f =>
    rw [hnone hw, hnone hw']
    exact plays_still none
  | ready hworks =>
    rw [hturn hw, hturn hw']
    refine Accords.view (Move.attend position course place call _)
      (Move.attend position course place call' _) (fun s => Work.vacates s.client _)
      (fun s => Work.vacates s.client _) Eq.refl (fun hs => (hworks.vacates hs.client).symm) ?_
    rintro vacates _ rfl
    exact plays_attend position course place h hworks vacates

theorem plays_leave (position : Nat) :
    B.Plays K (Move.leave position).play (Move.leave position).play := by
  refine plays_at hK position (Move.depart position) (plays_still none) ?_
  intro place call call' h
  exact plays_through (agree_still ()) (fun _ => some (.left place call))
    (fun _ => some (.left place call')) _ _ id (fun _ => .some (.left place h))
    fun hq => rel_eraseIdx hq position

omit hK in
theorem plays_part (patience : Option Nat) :
    B.Plays K (Move.part patience).play (Move.part patience).play := by
  refine Accords.look (Move.bidFarewell patience) (Move.bidFarewell patience) Scene.parting
    Scenes.parting ?_
  intro parting
  cases parting with
  | none => exact plays_still none
  | some place =>
    exact plays_through (agree_goodbye patience) (fun a => some (.answered place .close a))
      (fun a => some (.answered place .close a)) id id (fun _ => none) (fun _ => rel_same _) id

omit hK in
theorem plays_forsakeGoodbye : B.Plays K Move.forsakeGoodbye.play Move.forsakeGoodbye.play := by
  refine Accords.look (fun (view : Bool × Option Nat) => Move.forsakeFarewell view.1 view.2)
    (fun view => Move.forsakeFarewell view.1 view.2)
    (fun s => (s.client.endpoint.closed, s.parting)) ?_ ?_
  · intro s s' h
    rw [h.parting, h.client.closed]
  · rintro ⟨closed, parting⟩
    cases parting with
    | none => exact plays_still none
    | some place =>
      cases closed with
      | true => exact plays_still none
      | false =>
        exact plays_through (agree_release ())
          (fun _ => some (.answered place .close .unfinished))
          (fun _ => some (.answered place .close .unfinished)) id id (fun _ => none)
          (fun _ => rel_same _) id

omit hK in
theorem plays_rest (microseconds : Nat) :
    B.Plays K (Move.rest microseconds).play (Move.rest microseconds).play :=
  plays_through (agree_rest microseconds) (fun _ => some (.rested microseconds))
    (fun _ => some (.rested microseconds)) id id id (fun _ => rel_same _) id

/-- Moves that correspond can be made in scenes of a kind, or cannot be made, and lead to turns that
correspond. -/
theorem plays {move move' : Move} (h : move.Corresponds K move') :
    B.Plays K move.play move'.play := by
  cases h with
  | come place h => exact plays_come hK place h
  | same =>
    cases move with
    | come place call => exact plays_come hK place (hK.same call)
    | serve position course => exact plays_serve hK position course
    | part patience => exact plays_part patience
    | forsakeGoodbye => exact plays_forsakeGoodbye
    | leave position => exact plays_leave hK position
    | rest microseconds => exact plays_rest microseconds

theorem performs {moves moves' : List Move} (h : List.Forall₂ (Move.Corresponds K) moves moves') :
    Accords B.all B.all' (fun s => B.said s.client.endpoint) (B.Scenes K)
      (List.Forall₂ (Turn.Corresponds K)) (perform moves) (perform moves') := by
  induction h with
  | nil => exact .still .nil
  | @cons move move' moves moves' hm hms ih =>
    have hrest {turn turn' : Option Turn} (hturn : Option.Rel (Turn.Corresponds K) turn turn') :
        Accords B.all B.all' (fun s => B.said s.client.endpoint) (B.Scenes K)
          (List.Forall₂ (Turn.Corresponds K))
          (fun s => (turn.toList ++ (perform moves s).1, (perform moves s).2))
          fun s => (turn'.toList ++ (perform moves' s).1, (perform moves' s).2) := by
      refine ih.bind (fun turns s => (turn.toList ++ turns, s))
        (fun turns s => (turn'.toList ++ turns, s))
        (fun turns => List.forall₂_same.mpr fun turn _ => .same turn) ?_
      intro turns turns' hturns
      cases hturn with
      | none => exact .still hturns
      | some hturn => exact .still (.cons hturn hturns)
    exact (plays hK hm).bind _ _ rel_same hrest

end Bond

end DocClient
