import DocClient.Proofs.Channel.Alike

/-!
Two runs that do not take the same steps: what is written in the one may differ from what is written
in the other, and still the client finds the same. What has been said in the end is `all` in the one
run, and `all'` in the other.
-/
namespace DocClient

open Text (Bytes)

section

variable {σ α β γ : Type} {all all' : List Bytes} {said : σ → List Bytes} {R : σ → σ → Prop}
  {Q : α → α → Prop} {Q' : β → β → Prop} {f f' : σ → α × σ}

/-- Steps of two runs that lead from states in `R` to results in `Q` and to states in `R` again.
Whatever a step does, what had been said before it stays said. -/
structure Accords (all all' : List Bytes) (said : σ → List Bytes) (R : σ → σ → Prop)
    (Q : α → α → Prop) (f f' : σ → α × σ) : Prop where
  grows : ∀ s, said s <+: said (f s).2
  grows' : ∀ s, said s <+: said (f' s).2
  alike : ∀ {s s'}, R s s' → said (f s).2 <+: all → said (f' s').2 <+: all' →
    Q (f s).1 (f' s').1 ∧ R (f s).2 (f' s').2

theorem Respects.accords (h : Respects all all' said R f) : Accords all all' said R Eq f f where
  grows := h.hears
  grows' := h.hears
  alike hs hh hh' := by
    obtain ⟨ha, ht⟩ := h.alike hs hh hh'
    exact ⟨ha.symm, ht⟩

theorem Accords.still {a a' : α} (h : Q a a') :
    Accords all all' said R Q (fun s => (a, s)) fun s => (a', s) where
  grows _ := List.prefix_refl _
  grows' _ := List.prefix_refl _
  alike hs _ _ := ⟨h, hs⟩

/-- One step after the other, in both runs. -/
theorem Accords.bind (hf : Accords all all' said R Q f f') (g g' : α → σ → β × σ)
    (hQ : ∀ a, Q a a) (hg : ∀ {a a'}, Q a a' → Accords all all' said R Q' (g a) (g' a')) :
    Accords all all' said R Q' (fun s => g (f s).1 (f s).2) fun s => g' (f' s).1 (f' s).2 where
  grows s := (hf.grows s).trans ((hg (hQ _)).grows _)
  grows' s := (hf.grows' s).trans ((hg (hQ _)).grows' _)
  alike := by
    intro s s' h hh hh'
    obtain ⟨ha, hs⟩ := hf.alike h (((hg (hQ _)).grows _).trans hh)
      (((hg (hQ _)).grows' _).trans hh')
    exact (hg ha).alike hs hh hh'

theorem Accords.andThen (hf : Accords all all' said R Eq f f') (g g' : α → σ → β × σ)
    (hg : ∀ a, Accords all all' said R Q' (g a) (g' a)) :
    Accords all all' said R Q' (fun s => g (f s).1 (f s).2) fun s => g' (f' s).1 (f' s).2 :=
  hf.bind g g' Eq.refl fun {a a'} ha => by
    obtain rfl : a = a' := ha
    exact hg a

/-- Steps may depend on what is related in the two runs. -/
theorem Accords.view {V : γ → γ → Prop} (f f' : γ → σ → α × σ) (v v' : σ → γ) (hV : ∀ x, V x x)
    (hv : ∀ {s s'}, R s s' → V (v s) (v' s'))
    (hf : ∀ {x x'}, V x x' → Accords all all' said R Q (f x) (f' x')) :
    Accords all all' said R Q (fun s => f (v s) s) fun s => f' (v' s) s where
  grows s := (hf (hV _)).grows s
  grows' s := (hf (hV _)).grows' s
  alike h hh hh' := (hf (hv h)).alike h hh hh'

theorem Accords.look (f f' : γ → σ → α × σ) (v : σ → γ) (hv : ∀ {s s'}, R s s' → v s' = v s)
    (hf : ∀ x, Accords all all' said R Q (f x) (f' x)) :
    Accords all all' said R Q (fun s => f (v s) s) fun s => f' (v s) s :=
  Accords.view f f' v v Eq.refl (fun h => (hv h).symm) fun {x x'} hx => by
    obtain rfl : x = x' := hx
    exact hf x

theorem Part.accords_through {τ : Type} (p : Part σ τ) {said : τ → List Bytes} {R : τ → τ → Prop}
    {f f' : τ → α × τ} (h : Accords all all' said R Q f f') :
    Accords all all' (fun s => said (p.get s)) (p.Alike R) Q (p.through f) (p.through f') where
  grows s := by
    simp only [through, p.get_set]
    exact h.grows (p.get s)
  grows' s := by
    simp only [through, p.get_set]
    exact h.grows' (p.get s)
  alike := by
    rintro s _ ⟨t', ht, rfl⟩ hh hh'
    simp only [through, p.get_set] at hh hh'
    obtain ⟨ha, ht₁⟩ := h.alike ht hh hh'
    simp only [through, p.get_set, p.set_set]
    refine ⟨ha, _, ?_, (p.set_set _ _ _).symm⟩
    rw [p.get_set]
    exact ht₁

end

variable {all all' : List Bytes} {said : Endpoint → List Bytes} {E : Endpoint → Endpoint → Prop}

namespace Exchange

variable {α β : Type} {x x' : Exchange α}

/-- Conversations that go the same way in two runs. -/
def Accords (all all' : List Bytes) (said : Endpoint → List Bytes) (E : Endpoint → Endpoint → Prop)
    (x x' : Exchange α) : Prop :=
  DocClient.Accords all all' said E Eq (fun e => x e) fun e => x' e

theorem accords_bind {f f' : α → Exchange β} (hx : Accords all all' said E x x')
    (hf : ∀ a, Accords all all' said E (f a) (f' a)) :
    Accords all all' said E (x >>= f) (x' >>= f') := by
  have hbind (x : Exchange α) (f : α → Exchange β) :
      (fun e => (x >>= f) e) = fun e => onward f (x e).1 (x e).2 :=
    funext (bind_eq x f)
  unfold Accords
  rw [hbind, hbind]
  refine DocClient.Accords.andThen hx (onward f) (onward f') fun result => ?_
  cases result with
  | ok a => exact hf a
  | error halt => exact .still rfl

theorem accords_pure (a : α) : Accords all all' said E (pure a) (pure a) :=
  DocClient.Accords.still rfl

theorem accords_check (r : Except Failure α) : Accords all all' said E (check r) (check r) := by
  have hcheck : (fun e => check r e) = fun e => (halted r, e) := funext (check_apply r)
  unfold Accords
  rw [hcheck]
  exact .still rfl

end Exchange

/-- Time goes by at an endpoint. -/
def Endpoint.rest (microseconds : Nat) (e : Endpoint) : Endpoint :=
  { e with link := { e.link with clock := e.link.clock + microseconds } }

/-- A relation of the endpoints of two runs that is kept by all that a client does at its own. In
the runs lines may be sent that differ, as far as `Lines` admits it. -/
structure Bond where
  all : List Bytes
  all' : List Bytes
  said : Endpoint → List Bytes
  Kin : Endpoint → Endpoint → Prop
  Lines : String → String → Prop
  same : ∀ line, Lines line line
  closed : ∀ {e e'}, Kin e e' → e'.closed = e.closed
  clock : ∀ {e e'}, Kin e e' → e'.link.clock = e.link.clock
  notes : ∀ n, Respects all all' said Kin fun e => ((), e.note n)
  closes : ∀ source message, Respects all all' said Kin fun e => ((), e.closeQuietly source message)
  releases : Respects all all' said Kin fun e => ((), e.release)
  rests : ∀ microseconds, Respects all all' said Kin fun e => ((), e.rest microseconds)
  receives : ∀ w, Respects all all' said Kin (Endpoint.receive w)
  sends : ∀ {line line'}, Lines line line' →
    Accords all all' said Kin Eq (Endpoint.send line line) (Endpoint.send line' line')

end DocClient
