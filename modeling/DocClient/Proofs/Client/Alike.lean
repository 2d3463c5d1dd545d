import DocClient.Proofs.Client.Accord

/-!
Calls at two clients that their callers cannot tell from each other: the same moves lead to the
same turns, and to clients that cannot be told from each other either.
-/
namespace DocClient

open Text (Bytes)

variable {all all' : List Bytes}

/-- Endpoints that are alike stay so if the same is done at both. -/
def Endpoint.alikeBond (all all' : List Bytes) : Bond where
  all := all
  all' := all'
  said := heard
  Kin := Alike all all'
  Lines := Eq
  same _ := rfl
  closed h := h.closed
  clock h := h.clock
  notes _ := respects_changed () fun _ _ => rfl
  closes source message := by
    apply Respects.unheard
    · intro e
      simp only [heard, link_closeQuietly]
      split <;> rfl
    · intro e e' h
      exact h.closeQuietly source message
  releases := .unheard () (fun _ => rfl) Alike.release
  rests microseconds := by
    refine respects_through (f := fun l => ((), { l with clock := l.clock + microseconds })) ?_
    apply Respects.unheard
    · intro l
      rfl
    · intro l l' h
      refine ⟨h.delimiter, ?_, h.inbox, h.halfLine, h.answers⟩
      simp only [h.clock]
  receives := respects_receive
  sends h := by
    subst h
    exact (respects_send _ _).accords

namespace Client

def heard (c : Client) : List Bytes := c.endpoint.heard

/-- Clients that differ in nothing but endpoints that are alike. -/
def Alike (all all' : List Bytes) (c c' : Client) : Prop :=
  ∃ e', c.endpoint.Alike all all' e' ∧ c' = { c with endpoint := e' }

theorem admits_eq : (Endpoint.alikeBond all all').Admits Eq where
  same _ := rfl
  guarded h := by rw [h]
  work h := by
    subst h
    exact .same _

theorem Turn.Corresponds.eq {turn turn' : Turn} (h : Turn.Corresponds Eq turn turn') :
    turn = turn' := by
  cases h with
  | same => rfl
  | queued place h | answered place h a | left place h => rw [h]

namespace Scene

variable {s s' : Scene}

def heard (s : Scene) : List Bytes := s.client.heard

/-- Scenes that differ in nothing but clients that are alike. -/
def Alike (all all' : List Bytes) (s s' : Scene) : Prop :=
  ∃ c', s.client.Alike all all' c' ∧ s' = { s with client := c' }

theorem Alike.scenes (h : Alike all all' s s') : (Endpoint.alikeBond all all').Scenes Eq s s' := by
  obtain ⟨c', hc, rfl⟩ := h
  exact ⟨hc, List.forall₂_same.mpr fun x _ => .mk x.1 rfl, rfl⟩

theorem alike_of_scenes (h : (Endpoint.alikeBond all all').Scenes Eq s s') : Alike all all' s s' := by
  refine ⟨s'.client, h.client, ?_⟩
  have hqueue : s.queue = s'.queue := by
    rw [← List.forall₂_eq_eq_eq]
    refine h.queue.imp fun _ _ hx => ?_
    obtain ⟨place, rfl⟩ := hx
    rfl
  rw [hqueue, ← h.parting]

end Scene

theorem respects_perform (moves : List Move) :
    Respects all all' Scene.heard (Scene.Alike all all') (perform moves) := by
  have hmoves : List.Forall₂ (Move.Corresponds Eq) moves moves :=
    List.forall₂_same.mpr fun move _ => .same move
  have hperforms := Bond.performs (B := Endpoint.alikeBond all all') admits_eq hmoves
  refine ⟨hperforms.grows, ?_⟩
  intro s s' h hh hh'
  obtain ⟨hturns, hs⟩ := hperforms.alike h.scenes hh hh'
  have hsame : (perform moves s).1 = (perform moves s').1 := by
    rw [← List.forall₂_eq_eq_eq]
    exact hturns.imp fun _ _ hturn => hturn.eq
  exact ⟨hsame.symm, Scene.alike_of_scenes hs⟩

end Client

end DocClient
