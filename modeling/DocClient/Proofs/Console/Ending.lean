import DocClient.Console.Child

/-!
How a console ends. One that has ended does nothing more, and what has come of it by one moment has
come of it by every later one.
-/
namespace DocClient

open Text (Bytes)

namespace Child

variable {c : Child} {limit limit' : Nat} {agenda : Schedule Deed} {queue : List (Nat × Bytes)}

/-- Nothing is left to do for a console that has ended. -/
def AtRest (c : Child) : Prop := c.hasEnded = true → c.agenda = []

theorem hasEnded_of_isIdle (h : c.isIdle = true) : c.hasEnded = false := by
  simp only [isIdle, Bool.and_eq_true, Bool.not_eq_true'] at h
  exact h.2

theorem atRest_act (h : c.hasEnded = false) (limit : Nat) (agenda : Schedule Deed) :
    (c.act limit agenda).1.AtRest := by
  induction agenda generalizing c with
  | nil => exact fun _ => rfl
  | cons entry rest ih =>
    obtain ⟨moment, deed⟩ := entry
    unfold act
    split
    · intro hended
      cases h.symm.trans hended
    · cases deed with
      | exit code => exact fun _ => rfl
      | stdout | stderr | closeInput | stopReading => exact ih h

/-- It reads a line and reacts to it. -/
def hear (limit arrival : Nat) (line : Bytes) (c : Child) : Child × List Chunk :=
  { c with heard := c.heard ++ [line] }.act limit
    ((c.console.answer (c.heard ++ [line])).begin (max c.clock arrival))

theorem atRest_hear (h : c.isIdle = true) (limit arrival : Nat) (line : Bytes) :
    (c.hear limit arrival line).1.AtRest := by
  apply atRest_act
  exact hasEnded_of_isIdle h

theorem serve_of_isIdle (h : c.isIdle = true) (limit arrival : Nat) (line : Bytes)
    (more : List (Nat × Bytes)) :
    c.serve limit ((arrival, line) :: more) =
      (((c.hear limit arrival line).1.serve limit more).1,
        (c.hear limit arrival line).2 ++ ((c.hear limit arrival line).1.serve limit more).2) := by
  conv => lhs; unfold serve
  rw [if_pos h]
  rfl

theorem serve_of_busy (h : c.isIdle = false) (limit : Nat) (queue : List (Nat × Bytes)) :
    c.serve limit queue = ({ c with queue }, []) := by
  cases queue with
  | nil => rfl
  | cons entry more =>
    unfold serve
    rw [if_neg (by simp [h])]

theorem atRest_serve (h : c.AtRest) (limit : Nat) (queue : List (Nat × Bytes)) :
    (c.serve limit queue).1.AtRest := by
  induction queue generalizing c with
  | nil => exact h
  | cons entry more ih =>
    cases hidle : c.isIdle with
    | false =>
      rw [serve_of_busy hidle]
      exact h
    | true =>
      rw [serve_of_isIdle hidle]
      exact ih (atRest_hear hidle _ _ _)

theorem atRest_meetEnd (h : c.AtRest) (limit : Nat) : (c.meetEnd limit).1.AtRest := by
  unfold meetEnd
  split
  · exact h
  · split
    · next hidle =>
      simp only [Bool.and_eq_true] at hidle
      exact atRest_act (c := { c with sawEnd := true }) (hasEnded_of_isIdle hidle.1.1) _ _
    · exact h

/-- What it does while it has not ended. -/
theorem run_of_going (h : c.hasEnded = false) (limit : Nat) : c.run limit =
    ((((c.act limit c.agenda).1.serve limit (c.act limit c.agenda).1.queue).1.meetEnd limit).1,
      (c.act limit c.agenda).2 ++ ((c.act limit c.agenda).1.serve limit
        (c.act limit c.agenda).1.queue).2
        ++ (((c.act limit c.agenda).1.serve limit (c.act limit c.agenda).1.queue).1.meetEnd
          limit).2) := by
  unfold run
  rw [if_neg (by simp [h])]

/-- Time changes nothing about a console that has ended. -/
theorem run_of_hasEnded (h : c.hasEnded = true) (limit : Nat) : c.run limit = (c, []) := if_pos h

theorem atRest_run (h : c.hasEnded = false) (limit : Nat) : (c.run limit).1.AtRest := by
  rw [run_of_going h]
  exact atRest_meetEnd (atRest_serve (atRest_act h limit c.agenda) limit _) limit

section Later

/-- What was on the agenda and is done is done just so with more time. -/
theorem act_later (hle : limit ≤ limit') (h : (c.act limit agenda).1.agenda = []) :
    c.act limit' agenda = c.act limit agenda := by
  induction agenda generalizing c with
  | nil => rfl
  | cons entry rest ih =>
    obtain ⟨moment, deed⟩ := entry
    unfold act at h ⊢
    by_cases hlate : limit < moment
    · rw [if_pos hlate] at h
      simp at h
    · rw [if_neg hlate] at h ⊢
      rw [if_neg (by omega)]
      cases deed with
      | exit code => rfl
      | stdout bytes => simp only [ih h]
      | stderr bytes => simp only [ih h]
      | closeInput | stopReading => exact ih h

theorem busy_of_agenda (h : c.agenda ≠ []) : c.isIdle = false := by
  simp [isIdle, h]

theorem agenda_of_busy_serve (h : c.agenda ≠ []) (limit : Nat) (queue : List (Nat × Bytes)) :
    (c.serve limit queue).1.agenda ≠ [] := by
  rw [serve_of_busy (busy_of_agenda h)]
  exact h

theorem serve_later (hle : limit ≤ limit') (h : (c.serve limit queue).1.agenda = []) :
    c.serve limit' queue = c.serve limit queue := by
  induction queue generalizing c with
  | nil => rfl
  | cons entry more ih =>
    obtain ⟨arrival, line⟩ := entry
    cases hidle : c.isIdle with
    | false => rw [serve_of_busy hidle, serve_of_busy hidle]
    | true =>
      rw [serve_of_isIdle hidle] at h
      rw [serve_of_isIdle hidle, serve_of_isIdle hidle]
      have hdone : (c.hear limit arrival line).1.agenda = [] :=
        Decidable.byContradiction fun hleft => agenda_of_busy_serve hleft limit more h
      rw [show c.hear limit' arrival line = c.hear limit arrival line from act_later hle hdone,
        ih h]

theorem meetEnd_later (hle : limit ≤ limit') (h : (c.meetEnd limit).1.agenda = []) :
    c.meetEnd limit' = c.meetEnd limit := by
  unfold meetEnd at h ⊢
  cases hend : c.inputEnd with
  | none => rfl
  | some moment =>
    simp only [hend] at h
    dsimp only
    split
    · next hidle =>
      rw [if_pos hidle] at h
      exact act_later hle h
    · rfl

theorem agenda_of_busy_meetEnd (h : c.agenda ≠ []) (limit : Nat) :
    (c.meetEnd limit).1.agenda ≠ [] := by
  unfold meetEnd
  split
  · exact h
  · simp [busy_of_agenda h, h]

/-- A console that goes on and has come to the end of its agenda by a moment does no more by a
later one, unless there is more to read. -/
theorem run_later (hgoing : c.hasEnded = false) (hle : limit ≤ limit')
    (h : (c.run limit).1.agenda = []) : c.run limit' = c.run limit := by
  rw [run_of_going hgoing] at h
  have hserve : ((c.act limit c.agenda).1.serve limit
      (c.act limit c.agenda).1.queue).1.agenda = [] :=
    Decidable.byContradiction fun hleft => agenda_of_busy_meetEnd hleft limit h
  have hact : (c.act limit c.agenda).1.agenda = [] :=
    Decidable.byContradiction fun hleft => agenda_of_busy_serve hleft limit _ hserve
  rw [run_of_going hgoing, run_of_going hgoing, act_later hle hact, serve_later hle hserve,
    meetEnd_later hle h]

end Later

/-- A console that has ended by a moment has ended so by every later one. -/
theorem run_of_ended (hle : limit ≤ limit') (h : (c.run limit).1.hasEnded = true) :
    c.run limit' = c.run limit := by
  cases hgoing : c.hasEnded with
  | true => rw [run_of_hasEnded hgoing, run_of_hasEnded hgoing]
  | false => exact run_later hgoing hle (atRest_run hgoing limit h)

/-- A console that goes on at a moment has gone on at every earlier one. -/
theorem status_of_later (hle : limit ≤ limit') (h : (c.run limit').1.status = none) :
    (c.run limit).1.status = none := by
  cases hended : (c.run limit).1.hasEnded with
  | false => simpa [hasEnded] using hended
  | true => rwa [run_of_ended hle hended] at h

/-- Whether and how it has ended stays as it is. -/
theorem status_run (h : c.hasEnded = true) (limit : Nat) : (c.run limit).1.status = c.status := by
  rw [run_of_hasEnded h]

end Child

end DocClient
