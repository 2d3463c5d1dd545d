import DocClient.Proofs.Client.Attribution
import DocClient.Proofs.Client.Crowd
import DocClient.Proofs.Client.LifeCycle

/-!
The database that a client takes for the selected one. It is the name in the last call that was to
select a database and whose last reply was a success; it goes with the connection.
-/
namespace DocClient.Client

variable {c c' : Client} {r : Request} {a : Answer} {work : Work} {call : Call} {place : Nat}
  {line : String} {selects : Option Name} {reply : Reply} {s t u : Scene} {turn : Turn}
  {turns : List Turn}

/-- The database that a call is to select: the call uses one, by a command or by a statement. -/
def Call.selects? : Call → Option Name
  | .command (.useDatabase text) => (Name.check text).toOption
  | .execute (.useDatabase name) => some name
  | _ => none

/-- The same, of the work of a call. -/
def Work.selects? : Work → Option Name
  | query _ selects => selects
  | request _ | probe | close => none

/-- The database that a turn selects: its call is to select one and is told of a success. -/
def Turn.selects? : Turn → Option Name
  | .answered _ call (.reply reply) => if reply.succeeded then call.selects? else none
  | _ => none

/-- The database that the last of the turns selects that select one. -/
def lastSelection (turns : List Turn) : Option Name := (turns.filterMap Turn.selects?).getLast?

/-- The turns that leave an empty slot: a close takes the connection, a request runs out of time,
or a call finds that the round trip before it was abandoned. -/
inductive Scene.Empties (s : Scene) : Turn → Prop
  | vacated (place : Nat) : s.Empties (.vacated place)
  | timeout (place : Nat) (call : Call) : s.Empties (.answered place call (.failed .timeout))
  | dropped (place : Nat) (call : Call) (hp : s.client.phase = .abandoned) :
      s.Empties (.answered place call (.failed .channelClosed))

/-- One of the turns of a run has emptied the slot. -/
def Emptied (s : Scene) (turns : List Turn) (t : Scene) : Prop :=
  ∃ before turn after u v, turns = before ++ turn :: after ∧
    Run s before u ∧ Step u turn v ∧ Run v after t ∧ u.Empties turn

@[simp] theorem lastSelection_nil : lastSelection [] = none := rfl

theorem lastSelection_cons (turn : Turn) (turns : List Turn) :
    lastSelection (turn :: turns) = (lastSelection turns).or turn.selects? := by
  cases h : turn.selects? with
  | none => simp [lastSelection, h]
  | some name =>
    rcases List.eq_nil_or_concat (turns.filterMap Turn.selects?) with hn | ⟨names, last, hn⟩
    · simp [lastSelection, h, hn]
    · simp [lastSelection, h, hn, List.getLast?_cons]

section Work

/-- Only the use of a database selects one. -/
theorem statement_selects {command : Command} {statement : Statement}
    (h : command.statement = .ok statement) :
    statement.selects = (Call.command command).selects? := by
  cases command with
  | useDatabase text =>
    obtain ⟨name, hname, rfl⟩ := map_ok h
    simp [Call.selects?, hname, Statement.selects, Except.toOption]
  | createDatabase | createCollection | dropCollection | print | remove | deleteProfile =>
    obtain ⟨name, -, rfl⟩ := map_ok h
    rfl
  | dropDatabase name =>
    cases name with
    | none =>
      obtain rfl := Except.ok.inj h
      rfl
    | some name =>
      obtain ⟨name, -, rfl⟩ := map_ok h
      rfl
  | listDatabases | listCollections | listProfiles | help | version | clear =>
    obtain rfl := Except.ok.inj h
    rfl
  | insert | insertMany | update | createProfile | grant | revoke =>
    obtain ⟨first, -, h⟩ := bind_ok h
    obtain ⟨second, -, h⟩ := bind_ok h
    obtain rfl := Except.ok.inj h
    rfl

theorem work_selects (h : call.work = .ok work) : call.selects? = work.selects? := by
  cases call with
  | command command =>
    obtain ⟨statement, hs, rfl⟩ := map_ok h
    exact (statement_selects hs).symm
  | execute statement =>
    obtain rfl := Except.ok.inj h
    cases statement <;> rfl
  | raw | fetch | debug | profile | probe | close =>
    obtain rfl := Except.ok.inj h
    rfl

end Work

/-- A request does not change the selection of a connection that it does not give up. -/
theorem selected_of_trip (h : Trip r c a c') (ho : c'.slot ≠ none) :
    c'.selectedDatabase = c.selectedDatabase := by
  cases h with
  | closed hs => rfl
  | dropped hs hr => exact absurd rfl ho
  | stalled hs hr hc h =>
    cases h with
    | forsaken => simp [forsake, selectedDatabase, hs]
    | expired hl => exact absurd rfl ho
  | replied hs hr h | failed hs hr h => rfl
  | expired hs hr h => exact absurd rfl ho
  | unfinished hs hr h => simp [selectedDatabase, hs]

theorem slot_of_reply (h : Trip r c (.reply reply) c') : c'.slot ≠ none := by
  obtain ⟨hold, -, -, hs, -, -, rfl⟩ := replied_of_trip h
  simp [hs]

theorem selected_select (selects : Option Name) (hs : c.slot ≠ none) :
    (c.select selects).selectedDatabase = selects.or c.selectedDatabase := by
  obtain ⟨hold, hs⟩ := Option.ne_none_iff_exists'.mp hs
  cases selects with
  | none => rfl
  | some name => simp [select, selectedDatabase, hs]

/-- What a caller's work makes of the selection, by the answer. -/
theorem selected_of_served (h : Served c work a c') (hw : call.work = .ok work)
    (ho : c'.slot ≠ none) :
    c'.selectedDatabase = (Turn.answered place call a).selects?.or c.selectedDatabase := by
  have hselects := work_selects hw
  have hunselected {a : Answer} (ha : ∀ reply, a ≠ .reply reply) :
      (Turn.answered place call a).selects? = none := by
    cases a with
    | reply reply => exact absurd rfl (ha reply)
    | _ => rfl
  have hreplied {reply : Reply} {c₁ : Client} (hs : c₁.slot ≠ none)
      (hc : c₁.selectedDatabase = c.selectedDatabase) :
      (if reply.succeeded then c₁.select work.selects? else c₁).selectedDatabase
        = (Turn.answered place call (.reply reply)).selects?.or c.selectedDatabase := by
    cases hr : reply.succeeded with
    | false => simpa [Turn.selects?, hr] using hc
    | true => simp [Turn.selects?, hr, selected_select _ hs, hc, hselects]
  cases h with
  | probe =>
    rw [hunselected]
    · rfl
    · intro reply
      split <;> simp
  | request h =>
    have hnone : (Turn.answered place call a).selects? = none := by
      cases a with
      | reply reply => simp [Turn.selects?, hselects, Work.selects?]
      | _ => rfl
    rw [hnone]
    exact selected_of_trip h ho
  | halted h ha =>
    rw [hunselected ha]
    exact selected_of_trip h ho
  | replied h hf =>
    have hs := slot_of_reply h
    exact hreplied hs (selected_of_trip h hs)
  | fetchHalted h hf h' ha =>
    rw [hunselected ha]
    exact (selected_of_trip h' ho).trans (selected_of_trip h (slot_of_reply h))
  | fetched h hf h' =>
    have hs := slot_of_reply h'
    exact hreplied hs ((selected_of_trip h' hs).trans (selected_of_trip h (slot_of_reply h)))

/-- A turn that leaves a connection in the slot leaves the selection as it was, or selects. -/
theorem selected_of_step (h : Step s turn t) (ho : t.client.slot ≠ none) :
    t.client.selectedDatabase = turn.selects?.or s.client.selectedDatabase := by
  have hs : s.client.slot ≠ none := by
    intro hs
    exact ho (slot_of_step h hs)
  cases h with
  | queues | refuses | leaves | rests | forsakesGoodbye => rfl
  | vacates => exact absurd rfl ho
  | @works place call work a client before after hq hw hc h =>
    by_cases hclose : work = .close
    · subst hclose
      obtain rfl := work_close hw
      exact absurd (isClosed_iff.mp (hc rfl)) hs
    · exact selected_of_served (served_of_works hclose h) hw ho
  | @parts place a client patience hp h =>
    have hsame := (parted_eq (parted_of_goodbye h)).1
    have hnone : (Turn.answered place .close a).selects? = none := by
      cases a with
      | reply reply => simp [Turn.selects?, Call.selects?]
      | _ => rfl
    rw [hnone, hsame]
    rfl

/-- The selection after a run that leaves a connection in the slot: the last turn that selects a
database decides, and without one it is the selection before the run. -/
theorem selected_of_run (hr : Run s turns t) (ho : t.client.slot ≠ none) :
    t.client.selectedDatabase = (lastSelection turns).or s.client.selectedDatabase := by
  induction hr with
  | nil s => simp
  | @cons s t u turn turns h hr ih =>
    have ht : t.client.slot ≠ none := by
      intro hs
      exact ho (hr.invariant (I := fun s => s.client.slot = none) slot_of_step hs)
    rw [ih ho, selected_of_step h ht, lastSelection_cons, Option.or_assoc]

theorem phaseAfter_vacant_iff : c.phaseAfter a = .vacant ↔ a = .failed .timeout := by
  cases a with
  | failed f =>
    cases f <;> simp [phaseAfter]
    all_goals split <;> simp
  | _ => simp [phaseAfter]

/-- A call empties the slot if its time runs out or if it finds an abandoned round trip. -/
theorem Outcome.vacant_iff (h : Outcome c call a c') (hv : c.phase ≠ .vacant) :
    c'.phase = .vacant ↔
      a = .failed .timeout ∨ a = .failed .channelClosed ∧ c.phase = .abandoned := by
  cases h with
  | closed hp => exact absurd hp hv
  | @invalid f hp hw hf =>
    have hne : f ≠ .timeout ∧ f ≠ .channelClosed := by
      constructor
      · rintro rfl
        simp [Failure.ofArguments] at hf
      · rintro rfl
        simp [Failure.ofArguments] at hf
    simp [hv, hne.1, hne.2]
  | looked hp hw => simp [hv]
  | shut hw hr hp => simp [hp]
  | dropped hw hr hp hp' => simp [hp, hp']
  | served hp hp' hsound =>
    rw [hp', phaseAfter_vacant_iff]
    simp [hp]

/-- A slot becomes empty by one of the turns that empty it, and by no other. -/
theorem empties_iff (h : Step s turn t) (hs : s.Sound) (ho : s.client.slot ≠ none) :
    t.client.slot = none ↔ s.Empties turn := by
  have hv : s.client.phase ≠ .vacant := mt phase_vacant_iff.mp ho
  cases turn with
  | queued place call | left place call | rested microseconds =>
    have hsame : t.client.slot = s.client.slot := by
      cases h
      rfl
    rw [hsame]
    constructor
    · intro hn
      exact absurd hn ho
    · rintro ⟨⟩
  | vacated place =>
    constructor
    · intro _
      exact .vacated place
    · intro _
      cases h
      rfl
  | answered place call a =>
    have hcall := call_of_step h hs hv
    rw [← phase_vacant_iff, (outcome_of_step h hs hcall).vacant_iff hv]
    constructor
    · rintro (rfl | ⟨rfl, hp⟩)
      · exact .timeout place call
      · exact .dropped place call hp
    · rintro (_ | _ | ⟨-, -, hp⟩)
      · exact Or.inl rfl
      · exact Or.inr ⟨rfl, hp⟩

/-- In a run a slot becomes empty by a turn that empties it. -/
theorem emptied_iff (hr : Run s turns t) (hs : s.Sound) (ho : s.client.slot ≠ none) :
    t.client.slot = none ↔ Emptied s turns t := by
  constructor
  · intro ht
    induction hr with
    | nil => exact absurd ht ho
    | @cons s u t turn turns h hr ih =>
      by_cases hu : u.client.slot = none
      · exact ⟨[], turn, turns, s, u, rfl, .nil s, h, hr, (empties_iff h hs ho).mp hu⟩
      · obtain ⟨before, turn', after, v, w, rfl, hb, hstep, ha, he⟩ :=
          ih (sound_of_step h hs) hu ht
        exact ⟨turn :: before, turn', after, v, w, rfl, .cons h hb, hstep, ha, he⟩
  · rintro ⟨before, turn, after, u, v, rfl, hb, hstep, ha, he⟩
    have hv : v.client.slot = none := by
      by_cases hu : u.client.slot = none
      · exact slot_of_step hstep hu
      · exact (empties_iff hstep (hb.invariant sound_of_step hs) hu).mpr he
    exact ha.invariant (I := fun s => s.client.slot = none) slot_of_step hv

variable {target : String} {network : Dial} {settings : ConnectSettings}

/-- A connected client knows the database that the last successful call selected that was to select
one, until the slot is emptied, and then none. A turn that selects nothing changes nothing. -/
theorem selection_tracked (hc : connectTo target network settings = .ready c)
    (hr : Run { client := c } turns s) :
    (Emptied { client := c } turns s →
      s.client.isClosed = true ∧ s.client.selectedDatabase = none) ∧
    (¬ Emptied { client := c } turns s →
      s.client.isClosed = false ∧ s.client.selectedDatabase = lastSelection turns) ∧
    ∀ turn t, Step s turn t → ¬ s.Empties turn → turn.selects? = none →
      t.client.selectedDatabase = s.client.selectedDatabase := by
  have hslot : c.slot = some {} := by
    obtain ⟨server, now, session, e, journal, -, -, rfl⟩ := connectTo_ready hc
    rfl
  have hstart : Scene.Sound { client := c } := ⟨sound_of_settled hslot rfl, by simp⟩
  have hfresh : c.selectedDatabase = none := by simp [selectedDatabase, hslot]
  have hemptied := emptied_iff hr hstart (by simp [hslot])
  refine ⟨?_, ?_, ?_⟩
  · intro he
    have hs := hemptied.mpr he
    exact ⟨isClosed_iff.mpr hs, by simp [selectedDatabase, hs]⟩
  · intro he
    have hs : s.client.slot ≠ none := mt hemptied.mp he
    refine ⟨?_, ?_⟩
    · exact Bool.eq_false_iff.mpr (mt isClosed_iff.mp hs)
    · rw [selected_of_run hr hs, hfresh, Option.or_none]
  · intro turn t h he hselects
    have hs : s.Sound := hr.invariant sound_of_step hstart
    by_cases ho : s.client.slot = none
    · simp [selectedDatabase, ho, slot_of_step h ho]
    · rw [selected_of_step h (mt (empties_iff h hs ho).mp he), hselects]
      rfl

/-- A line that a caller has written selects nothing, whatever it says; and a close leaves no
selection. -/
theorem selection_tracked_raw : ∃ c turns s t,
    connectTo "db" (.reaching obliging) ungreeted = .ready c ∧
      Run { client := c } turns s ∧
      (∃ reply, reply.succeeded = true ∧
        .answered 1 (.raw "db.use(\"yard\")") (.reply reply) ∈ turns) ∧
      s.client.selectedDatabase = some ⟨"shop", by decide⟩ ∧
      Run s [.queued 2 .close, .vacated 2] t ∧ t.client.selectedDatabase = none := by
  let shop : Name := ⟨"shop", by decide⟩
  have hready : ((connectTo "db" (.reaching obliging) ungreeted).client?.bind fun c =>
      let first := c.query (Statement.useDatabase shop).line (some shop) none
      let second := first.2.query "db.use(\"yard\")" none none
      first.1.reply?.bind fun reply => second.1.reply?.map fun reply' =>
        (c.isClosed, reply.succeeded, reply'.succeeded, second.2.isClosed))
      = some (false, true, true, false) := by
    decide +kernel
  cases hc : connectTo "db" (.reaching obliging) ungreeted with
  | refused f | rejected f e => simp [hc, Attempt.client?] at hready
  | ready c =>
    rcases hfirst : c.query (Statement.useDatabase shop).line (some shop) none with ⟨a, c₁⟩
    rcases hsecond : c₁.query "db.use(\"yard\")" none none with ⟨b, c₂⟩
    simp only [hc, Attempt.client?, Option.bind_some, hfirst, hsecond] at hready
    cases a with
    | reply reply =>
      cases b with
      | reply reply' =>
        simp only [Answer.reply?, Option.bind_some, Option.map_some, Option.some.injEq,
          Prod.mk.injEq] at hready
        obtain ⟨hopen, hreply, hreply', hopen'⟩ := hready
        have hcheck : Name.check "shop" = .ok shop := Name.check_text shop
        have huse : c.prepare (.command (.useDatabase "shop"))
            = .ok (.query (Statement.useDatabase shop).line (some shop)) := by
          rw [prepare, hopen, Bool.and_false, if_neg Bool.false_ne_true, Call.work,
            Command.statement, hcheck]
          rfl
        have hrun := (Run.alone 0 huse (by simp) (.runs none hfirst)).trans
          (Run.alone 1 (show c₁.prepare (.raw "db.use(\"yard\")") = .ok _ from rfl) (by simp)
            (.runs none hsecond))
        have hqueue : Run { client := c₂ } [.queued 2 .close]
            { client := c₂, queue := [(2, .close)] } :=
          .cons (.queues 2 (show c₂.prepare .close = .ok .close from rfl)) (.nil _)
        have hvacate : Step { client := c₂, queue := [(2, .close)] } (.vacated 2)
            { client := { c₂ with slot := none }, parting := some 2 } :=
          @Step.vacates _ 2 [] [] rfl hopen'
        have hclose := hqueue.trans (.cons hvacate (.nil _))
        refine ⟨c, _, _, _, rfl, hrun, ⟨reply', hreply', by simp⟩, ?_, hclose, ?_⟩
        · have hkept := mt (fun he => ((selection_tracked hc hrun).1 he).1) (by simp [hopen'])
          rw [((selection_tracked hc hrun).2.1 hkept).2]
          simp [lastSelection_cons, Turn.selects?, Call.selects?, hcheck, hreply, Except.toOption,
            shop]
        · have hemptied := (selection_tracked hc (hrun.trans hclose)).1
            ⟨_, .vacated 2, [], _, _, (List.append_assoc _ _ _).symm, hrun.trans hqueue, hvacate,
              .nil _, .vacated 2⟩
          exact hemptied.2
      | _ => simp [Answer.reply?] at hready
    | _ => simp [Answer.reply?] at hready

end DocClient.Client
