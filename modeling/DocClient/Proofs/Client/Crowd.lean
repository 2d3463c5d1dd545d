import DocClient.Client.Crowd
import DocClient.Proofs.Client.Turns

/-!
Callers that start together take their turns: what becomes of them is one of the runs at a shared
client.
-/
namespace DocClient.Client

variable {s t u : Scene} {turns turns' : List Turn} {c c' : Client} {call : Call} {a : Answer}
  {work : Work} {place : Nat} {patience : Option Nat}

def Turn.answer? : Turn → Option (Nat × Answer)
  | .answered place _ a => some (place, a)
  | .queued _ _ | .left _ _ | .vacated _ | .rested _ => none

/-- Who has been answered, in order. -/
def answersOf (turns : List Turn) : Answered := turns.filterMap Turn.answer?

@[simp] theorem answersOf_append (turns turns' : List Turn) :
    answersOf (turns ++ turns') = answersOf turns ++ answersOf turns' := List.filterMap_append

theorem Run.trans (h : Run s turns t) (h' : Run t turns' u) : Run s (turns ++ turns') u := by
  induction h with
  | nil => exact h'
  | cons h _ ih => exact .cons h (ih h')

/-- A call that no other comes between is a run, whoever else stands in line. -/
theorem run_of_call (place : Nat) (hp : s.parting = none)
    (h : s.client.call call patience = (a, c')) :
    ∃ turns, Run s turns { s with client := c' } ∧ answersOf turns = [(place, a)] := by
  unfold Client.call at h
  split at h
  · next f hprepare =>
    obtain ⟨rfl, rfl⟩ := Prod.mk.inj h
    exact ⟨_, .cons (.refuses place hprepare) (.nil _), rfl⟩
  · next work hprepare =>
    have hw := (prepare_ok hprepare).1
    have hqueue : Step s (.queued place call) { s with queue := s.queue ++ [(place, call)] } :=
      .queues place hprepare
    by_cases hc : call = .close → s.client.isClosed = true
    · have hwork : Step { s with queue := s.queue ++ [(place, call)] } (.answered place call a)
          { s with client := c', queue := s.queue ++ [] } :=
        .works rfl hw hc (.runs patience h)
      rw [List.append_nil] at hwork
      exact ⟨[_, .answered place call a], .cons hqueue (.cons hwork (.nil _)), rfl⟩
    · obtain ⟨rfl, hopen⟩ := Classical.not_imp.mp hc
      obtain rfl := Except.ok.inj hw
      cases hs : s.client.slot with
      | none => simp [isClosed, hs] at hopen
      | some hold =>
        simp only [Work.run, close, hs] at h
        have hvacate : Step { s with queue := s.queue ++ [(place, .close)] } (.vacated place)
            { client := { s.client with slot := none }, queue := s.queue ++ [],
              parting := some place } :=
          .vacates rfl (Bool.eq_false_iff.mpr hopen)
        have hpart : Step
            { client := { s.client with slot := none }, queue := s.queue, parting := some place }
            (.answered place .close a) { s with client := c' } := by
          rw [hp]
          exact .parts patience rfl h
        rw [List.append_nil] at hvacate
        exact ⟨[_, _, .answered place .close a],
          .cons hqueue (.cons hvacate (.cons hpart (.nil _))), rfl⟩

/-- Callers that wait for their work stand in line with the calls that the work is of. -/
inductive Waits : Waiting → List (Nat × Call) → Prop
  | nil : Waits [] []
  | cons {place : Nat} {call : Call} {work : Work} {waiting : Waiting} {queue : List (Nat × Call)}
      (hw : call.work = .ok work) (hc : call ≠ .close) (h : Waits waiting queue) :
      Waits ((place, work) :: waiting) ((place, call) :: queue)

theorem run_of_firstTurns {calls : List (Nat × Call)} {answers : Answered} {waiting : Waiting}
    (hp : s.parting = none) (h : firstTurns calls s.client = (answers, waiting, c')) :
    ∃ turns queue, Run s turns { s with client := c', queue := s.queue ++ queue } ∧
      Waits waiting queue ∧ answersOf turns = answers := by
  induction calls generalizing s answers waiting with
  | nil =>
    obtain ⟨rfl, rfl, rfl⟩ : [] = answers ∧ [] = waiting ∧ s.client = c' := by
      simpa [firstTurns] using h
    exact ⟨[], [], by simpa using Run.nil s, .nil, rfl⟩
  | cons first calls ih =>
    obtain ⟨place, call⟩ := first
    cases hprepare : s.client.prepare call with
    | error f =>
      rcases hf : firstTurns calls s.client with ⟨answers', waiting', c''⟩
      simp only [firstTurns, hprepare, hf, Prod.mk.injEq] at h
      obtain ⟨rfl, rfl, rfl⟩ := h
      obtain ⟨turns, queue, hr, hw, ha⟩ := ih hp hf
      exact ⟨_, queue, .cons (.refuses place hprepare) hr, hw, congrArg (_ :: ·) ha⟩
    | ok work =>
      cases hg : call.isGuarded with
      | true =>
        rcases hf : firstTurns calls s.client with ⟨answers', waiting', c''⟩
        simp only [firstTurns, hprepare, hg, if_true, hf, Prod.mk.injEq] at h
        obtain ⟨rfl, rfl, rfl⟩ := h
        obtain ⟨turns, queue, hr, hw, ha⟩ :=
          ih (s := { s with queue := s.queue ++ [(place, call)] }) hp hf
        refine ⟨_, (place, call) :: queue, .cons (.queues place hprepare) ?_, ?_, ha⟩
        · simpa using hr
        · refine .cons (prepare_ok hprepare).1 ?_ hw
          rintro rfl
          simp [Call.isGuarded] at hg
      | false =>
        rcases hrun : work.run none s.client with ⟨a, c₁⟩
        rcases hf : firstTurns calls c₁ with ⟨answers', waiting', c''⟩
        simp only [firstTurns, hprepare, hg, Bool.false_eq_true, if_false, hrun, hf,
          Prod.mk.injEq] at h
        obtain ⟨rfl, rfl, rfl⟩ := h
        have hcall : s.client.call call none = (a, c₁) := by
          simp only [Client.call, hprepare, hrun]
        obtain ⟨turns, hr, ha⟩ := run_of_call place hp hcall
        obtain ⟨turns', queue, hr', hw, ha'⟩ := ih (s := { s with client := c₁ }) hp hf
        refine ⟨_, queue, hr.trans hr', hw, ?_⟩
        rw [answersOf_append, ha, ha']
        rfl

theorem run_of_secondTurns {waiting : Waiting} {queue : List (Nat × Call)} {answers : Answered}
    (hw : Waits waiting queue) (hq : s.queue = queue)
    (h : secondTurns waiting s.client = (answers, c')) :
    ∃ turns, Run s turns { s with client := c', queue := [] } ∧ answersOf turns = answers := by
  induction hw generalizing s answers with
  | nil =>
    obtain ⟨rfl, rfl⟩ : [] = answers ∧ s.client = c' := by simpa [secondTurns] using h
    refine ⟨[], ?_, rfl⟩
    rw [← hq]
    exact .nil s
  | @cons place call work waiting queue hwork hclose _ ih =>
    rcases hrun : work.run none s.client with ⟨a, c₁⟩
    rcases hf : secondTurns waiting c₁ with ⟨answers', c''⟩
    simp only [secondTurns, hrun, hf, Prod.mk.injEq] at h
    obtain ⟨rfl, rfl⟩ := h
    obtain ⟨turns, hr, ha⟩ := ih (s := { s with client := c₁, queue := queue }) rfl hf
    have hfirst : s.queue = [] ++ (place, call) :: queue := hq
    have hstep := Step.works hfirst hwork (by simp [hclose]) (.runs none hrun)
    exact ⟨_, .cons hstep hr, congrArg (_ :: ·) ha⟩

theorem run_of_arrive {calls : List (Nat × Call)} {answers : Answered}
    (h : arrive calls c = (answers, c')) :
    ∃ turns, Run { client := c } turns { client := c' } ∧ answersOf turns = answers := by
  induction calls generalizing c answers with
  | nil =>
    obtain ⟨rfl, rfl⟩ : [] = answers ∧ c = c' := by simpa [arrive] using h
    exact ⟨[], .nil _, rfl⟩
  | cons first calls ih =>
    obtain ⟨place, call⟩ := first
    rcases hcall : c.call call none with ⟨a, c₁⟩
    obtain ⟨turns, hr, ha⟩ := run_of_call (s := { client := c }) place rfl hcall
    simp only [arrive, hcall] at h
    split at h
    · rcases hf : firstTurns calls c₁ with ⟨answers₁, waiting, c₂⟩
      rcases hs : secondTurns waiting c₂ with ⟨answers₂, c₃⟩
      simp only [hf, hs, Prod.mk.injEq] at h
      obtain ⟨rfl, rfl⟩ := h
      obtain ⟨turns₁, queue, hr₁, hw, ha₁⟩ := run_of_firstTurns (s := { client := c₁ }) rfl hf
      obtain ⟨turns₂, hr₂, ha₂⟩ :=
        run_of_secondTurns (s := { client := c₂, queue }) hw rfl hs
      exact ⟨_, hr.trans (hr₁.trans hr₂), by simp [ha, ha₁, ha₂]⟩
    · rcases hf : arrive calls c₁ with ⟨answers₁, c₂⟩
      simp only [hf, Prod.mk.injEq] at h
      obtain ⟨rfl, rfl⟩ := h
      obtain ⟨turns₁, hr₁, ha₁⟩ := ih hf
      exact ⟨_, hr.trans hr₁, by simp [ha, ha₁]⟩

/-- Calls that start together are answered in the course of a run, and leave what the run leaves. -/
theorem run_of_together {calls : List Call} {answers : List Answer}
    (h : together calls c = (answers, c')) :
    ∃ turns, Run { client := c } turns { client := c' } ∧
      answers = (List.range calls.length).filterMap fun place =>
        ((answersOf turns).find? fun answer => answer.1 == place).map (·.2) := by
  rcases ha : arrive (calls.zipIdx.map fun call => (call.2, call.1)) c with ⟨answers', c''⟩
  simp only [together, ha, Prod.mk.injEq] at h
  obtain ⟨rfl, rfl⟩ := h
  obtain ⟨turns, hr, ht⟩ := run_of_arrive ha
  exact ⟨turns, hr, by rw [ht]⟩

end DocClient.Client
