import DocClient.Proofs.Channel.Stream
import DocClient.Proofs.Wire.Request

/-!
Conversations on one connection: a login, requests of which no two wait for their reply at the
same time, and at most one goodbye.
-/
namespace DocClient

open Text (Bytes)
/-- The keywords of the requests between the login and the goodbye. -/
def callKeywords : List Keyword := [.query, .fetch, .debug, .profile]

/-- How far a conversation has come. -/
inductive Stage where
  /-- The login has not been written. -/
  | unopened
  /-- The last request has no reply yet. -/
  | awaiting
  | settled
  /-- The goodbye has been written. -/
  | ended
  deriving DecidableEq

/-- The conversations in frames that end with `d`, with the stages that they have come to. -/
inductive Talk (d : UInt8) : Stage → List Transfer → Prop
  | silent : Talk d .unopened []
  | greeted (line : Bytes) : Talk d .unopened [.took line]
  | login {t : List Transfer} (data : String) (h : Talk d .unopened t) :
      Talk d .awaiting (t ++ [.wrote ((Request.login data).frame d)])
  | reply {t : List Transfer} (line : Bytes) (h : Talk d .awaiting t) :
      Talk d .settled (t ++ [.took line])
  | request {t : List Transfer} {r : Request} (hr : r.keyword ∈ callKeywords)
      (h : Talk d .settled t) : Talk d .awaiting (t ++ [.wrote (r.frame d)])
  | quit {stage : Stage} {t : List Transfer} (hs : stage = .settled ∨ stage = .awaiting)
      (h : Talk d stage t) : Talk d .ended (t ++ [.wrote (Request.quit.frame d)])
  | farewell {t : List Transfer} (line : Bytes) (h : Talk d .ended t) :
      Talk d .ended (t ++ [.took line])

/-- The requests that a conversation has come to at a stage. -/
inductive Asked : Stage → List Request → Prop
  | unopened : Asked .unopened []
  | opened (stage : Stage) (data : String) {middle : List Request}
      (hm : ∀ r ∈ middle, r.keyword ∈ callKeywords) (hs : stage = .settled ∨ stage = .awaiting) :
      Asked stage (.login data :: middle)
  | ended (data : String) {middle : List Request} (hm : ∀ r ∈ middle, r.keyword ∈ callKeywords) :
      Asked .ended (.login data :: middle ++ [.quit])

/-- What may be found on the wire: one login, any number of requests, and at most one goodbye;
and between two consecutive requests, the later no goodbye, exactly one line taken. -/
structure Orderly (d : UInt8) (t : List Transfer) : Prop where
  sequence : ∃ sent data middle, written t = sent.map (Request.frame d) ∧
    sent <+: Request.login data :: middle ++ [Request.quit] ∧
    ∀ r ∈ middle, r.keyword ∈ callKeywords
  alternation : ∀ {before between after : List Transfer} {frame : Bytes} {r : Request},
    t = before ++ .wrote frame :: between ++ .wrote (r.frame d) :: after →
    written between = [] → r.keyword ≠ .quit → ∃ line, between = [.took line]

variable {d : UInt8} {stage : Stage} {t u before between : List Transfer} {frame frame' : Bytes}

/-- The requests behind the frames that have been written. -/
theorem Talk.asked (h : Talk d stage t) :
    ∃ sent, written t = sent.map (Request.frame d) ∧ Asked stage sent := by
  induction h with
  | silent => exact ⟨[], rfl, .unopened⟩
  | greeted line => exact ⟨[], rfl, .unopened⟩
  | login data h ih =>
    obtain ⟨sent, hw, ha⟩ := ih
    cases ha with
    | unopened =>
      exact ⟨[.login data], by simp [hw], .opened .awaiting data (by simp) (Or.inr rfl)⟩
    | opened _ data hm hs => simp at hs
  | reply line h ih =>
    obtain ⟨sent, hw, ha⟩ := ih
    refine ⟨sent, by simpa using hw, ?_⟩
    cases ha with
    | opened _ data hm hs => exact .opened .settled data hm (Or.inl rfl)
  | @request t r hr h ih =>
    obtain ⟨sent, hw, ha⟩ := ih
    cases ha with
    | @opened _ data middle hm hs =>
      refine ⟨.login data :: (middle ++ [r]), by simp [hw], ?_⟩
      apply Asked.opened .awaiting data ?_ (Or.inr rfl)
      intro r' hr'
      rcases List.mem_append.mp hr' with hr' | hr'
      · exact hm r' hr'
      · exact List.mem_singleton.mp hr' ▸ hr
  | quit hs h ih =>
    obtain ⟨sent, hw, ha⟩ := ih
    cases ha with
    | unopened => simp at hs
    | opened _ data hm _ => exact ⟨_, by simp [hw], .ended data hm⟩
    | ended data hm => simp at hs
  | farewell line h ih => simpa using ih

/-- What a talk ends with: the last request, and after it a line if there is nothing to wait
for. -/
theorem Talk.last (h : Talk d stage t) :
    match stage with
    | .unopened => written t = []
    | .awaiting => ∃ t' frame, t = t' ++ [.wrote frame]
    | .settled => ∃ t' frame line, t = t' ++ [.wrote frame, .took line]
    | .ended => True := by
  cases h with
  | silent | greeted line => rfl
  | login data h => exact ⟨_, _, rfl⟩
  | request hr h => exact ⟨_, _, rfl⟩
  | reply line h =>
    cases h with
    | login data h | request hr h => exact ⟨_, _, _, List.append_assoc _ _ _⟩
  | quit hs h => trivial
  | farewell line h => trivial

/-- There is one way to find the last frame written. -/
theorem after_last_frame (h : t ++ .wrote frame :: u = before ++ .wrote frame' :: between)
    (hu : written u = []) (hb : written between = []) : between = u := by
  rcases List.append_eq_append_iff.mp h with ⟨v, rfl, hv⟩ | ⟨v, rfl, hv⟩
  · cases v with
    | nil => simp_all
    | cons x v =>
      obtain ⟨rfl, rfl⟩ := List.cons.inj hv
      simp at hu
  · cases v with
    | nil => simp_all
    | cons x v =>
      obtain ⟨rfl, rfl⟩ := List.cons.inj hv
      simp at hb

theorem Asked.sequence {sent : List Request} (h : Asked stage sent) :
    ∃ data middle, sent <+: .login data :: middle ++ [.quit] ∧
      ∀ r ∈ middle, r.keyword ∈ callKeywords := by
  cases h with
  | unopened => exact ⟨"", [], List.nil_prefix, by simp⟩
  | opened _ data hm hs => exact ⟨data, _, List.prefix_append _ _, hm⟩
  | ended data hm => exact ⟨data, _, List.prefix_refl _, hm⟩

/-- A frame of a longer conversation is its last transfer or one of those before. -/
theorem append_wrote_cases {x : Transfer} {after : List Transfer}
    (h : t ++ [x] = u ++ .wrote frame :: after) :
    (t = u ∧ x = .wrote frame) ∨ ∃ after', t = u ++ .wrote frame :: after' := by
  rcases List.eq_nil_or_concat after with rfl | ⟨after', y, rfl⟩
  · obtain ⟨rfl, hx⟩ := List.append_inj' h rfl
    exact Or.inl ⟨rfl, List.singleton_inj.mp hx⟩
  · have h' : t ++ [x] = (u ++ .wrote frame :: after') ++ [y] := by simpa using h
    exact Or.inr ⟨after', (List.append_inj' h' rfl).1⟩

/-- Between two consecutive requests, the later no goodbye, exactly one line is taken. -/
theorem Talk.alternation (h : Talk d stage t) {after : List Transfer} {r : Request}
    (ht : t = before ++ .wrote frame :: between ++ .wrote (r.frame d) :: after)
    (hb : written between = []) (hr : r.keyword ≠ .quit) : ∃ line, between = [.took line] := by
  induction h generalizing after with
  | silent => simp at ht
  | greeted line =>
    have hw := congrArg written ht
    simp at hw
  | login data h ih =>
    rcases append_wrote_cases ht with ⟨rfl, -⟩ | ⟨after, rfl⟩
    · have hw := h.last
      simp at hw
    · exact ih rfl
  | reply line h ih =>
    rcases append_wrote_cases ht with ⟨-, hx⟩ | ⟨after, rfl⟩
    · simp at hx
    · exact ih rfl
  | request _ h ih =>
    rcases append_wrote_cases ht with ⟨rfl, -⟩ | ⟨after, rfl⟩
    · obtain ⟨t', q, line, he⟩ := h.last
      exact ⟨line, after_last_frame he.symm rfl hb⟩
    · exact ih rfl
  | quit hs h ih =>
    rcases append_wrote_cases ht with ⟨-, hx⟩ | ⟨after, rfl⟩
    · exact absurd (Request.keyword_of_frame (Transfer.wrote.inj hx)).symm hr
    · exact ih rfl
  | farewell line h ih =>
    rcases append_wrote_cases ht with ⟨-, hx⟩ | ⟨after, rfl⟩
    · simp at hx
    · exact ih rfl

theorem Talk.orderly (h : Talk d stage t) : Orderly d t := by
  obtain ⟨sent, hw, ha⟩ := h.asked
  obtain ⟨data, middle, hp, hm⟩ := ha.sequence
  refine ⟨⟨sent, data, middle, hw, hp, hm⟩, ?_⟩
  intro before between after frame r ht hb hr
  exact h.alternation ht hb hr

end DocClient
