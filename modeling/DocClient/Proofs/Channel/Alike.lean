import DocClient.Proofs.Channel.Exchange
import DocClient.Proofs.Channel.Hearing
import Mathlib.Data.List.Infix

/-!
Two runs that the client cannot tell from each other. Their servers may be different ones and may
have heard different lines, but as far as the two runs go the one reacts to more lines as the other
does. In the end the server has heard `all` in the one run, and `all'` in the other.
-/
namespace DocClient

open Text (Bytes)

section

variable {σ α β γ : Type} {all all' : List Bytes} {heard : σ → List Bytes} {R : σ → σ → Prop}

/-- A step that two runs take from states alike, with the same result, to states that are alike
again. Whatever it does, the server has then heard what it had heard before. -/
structure Respects (all all' : List Bytes) (heard : σ → List Bytes) (R : σ → σ → Prop)
    (f : σ → α × σ) : Prop where
  hears : ∀ s, heard s <+: heard (f s).2
  alike : ∀ {s s'}, R s s' → heard (f s).2 <+: all → heard (f s').2 <+: all' →
    (f s').1 = (f s).1 ∧ R (f s).2 (f s').2

/-- A change that the server does not hear of. -/
theorem Respects.unheard {g : σ → σ} (a : α) (hg : ∀ s, heard (g s) = heard s)
    (hR : ∀ {s s'}, R s s' → R (g s) (g s')) :
    Respects all all' heard R fun s => (a, g s) where
  hears s := by
    rw [hg]
  alike h _ _ := ⟨rfl, hR h⟩

theorem Respects.still (a : α) : Respects all all' heard R fun s => (a, s) :=
  .unheard (g := id) a (fun _ => rfl) id

/-- One step after the other. -/
theorem Respects.bind {f : σ → α × σ} {g : α → σ → β × σ} (hf : Respects all all' heard R f)
    (hg : ∀ a, Respects all all' heard R (g a)) :
    Respects all all' heard R fun s => g (f s).1 (f s).2 where
  hears s := (hf.hears s).trans ((hg _).hears _)
  alike := by
    intro s s' h hh hh'
    obtain ⟨ha, hs⟩ := hf.alike h (((hg _).hears _).trans hh) (((hg _).hears _).trans hh')
    rw [ha] at hh' ⊢
    exact (hg _).alike hs hh hh'

/-- A step may depend on what is the same in both runs. -/
theorem Respects.look {f : γ → σ → α × σ} (v : σ → γ) (hv : ∀ {s s'}, R s s' → v s' = v s)
    (hf : ∀ x, Respects all all' heard R (f x)) :
    Respects all all' heard R fun s => f (v s) s where
  hears s := (hf _).hears s
  alike := by
    intro s s' h hh hh'
    rw [hv h] at hh' ⊢
    exact (hf _).alike h hh hh'

/-- A part of a state that can be replaced. -/
structure Part (σ τ : Type) where
  get : σ → τ
  set : τ → σ → σ
  get_set : ∀ t s, get (set t s) = t
  set_get : ∀ s, set (get s) s = s
  set_set : ∀ t t' s, set t (set t' s) = set t s

namespace Part

variable {τ : Type} (p : Part σ τ) {heard : τ → List Bytes} {R : τ → τ → Prop}

/-- States that differ in nothing but a part, and that part is alike. -/
def Alike (R : τ → τ → Prop) (s s' : σ) : Prop := ∃ t', R (p.get s) t' ∧ s' = p.set t' s

/-- A step of the part. -/
def through (f : τ → α × τ) (s : σ) : α × σ := ((f (p.get s)).1, p.set (f (p.get s)).2 s)

theorem respects_through {f : τ → α × τ} (h : Respects all all' heard R f) :
    Respects all all' (fun s => heard (p.get s)) (p.Alike R) (p.through f) where
  hears s := by
    simp only [through, p.get_set]
    exact h.hears (p.get s)
  alike := by
    rintro s _ ⟨t', ht, rfl⟩ hh hh'
    simp only [through, p.get_set] at hh hh'
    obtain ⟨ha, ht₁⟩ := h.alike ht hh hh'
    simp only [through, p.get_set, p.set_set]
    refine ⟨ha, _, ?_, (p.set_set _ _ _).symm⟩
    rw [p.get_set]
    exact ht₁

/-- Whatever is changed beside the part. -/
theorem respects_changed (a : α) {g : σ → σ} (hg : ∀ s t, g (p.set t s) = p.set t (g s)) :
    Respects all all' (fun s => heard (p.get s)) (p.Alike R) fun s => (a, g s) := by
  have hget (s : σ) : p.get (g s) = p.get s := by
    calc p.get (g s) = p.get (g (p.set (p.get s) s)) := by rw [p.set_get]
      _ = p.get s := by rw [hg, p.get_set]
  apply Respects.unheard
  · intro s
    rw [hget]
  · rintro s _ ⟨t', ht, rfl⟩
    refine ⟨t', ?_, hg s t'⟩
    rw [hget]
    exact ht

end Part

end

variable {all all' : List Bytes}

namespace Link

variable {l l' : Link} {line frame : Bytes} {lines : List Bytes}

/-- Two links on which the client finds the same. -/
structure Alike (all all' : List Bytes) (l l' : Link) : Prop where
  delimiter : l'.delimiter = l.delimiter
  clock : l'.clock = l.clock
  inbox : l'.inbox = l.inbox
  halfLine : l'.halfLine = l.halfLine
  answers : ∀ lines, lines ≠ [] → l.heard ++ lines <+: all → l'.heard ++ lines <+: all' →
    l'.server.answer (l'.heard ++ lines) = l.server.answer (l.heard ++ lines)

theorem Alike.isReset (h : Alike all all' l l') : l'.isReset = l.isReset := by
  unfold Link.isReset
  rw [h.clock, h.inbox]

/-- Links are alike for runs that go no further. -/
theorem Alike.ended (h : Alike all all' l l') : Alike [] [] l l' := by
  refine ⟨h.delimiter, h.clock, h.inbox, h.halfLine, ?_⟩
  intro lines hne hl
  obtain ⟨-, rfl⟩ := List.append_eq_nil_iff.mp (List.prefix_nil.mp hl)
  exact absurd rfl hne

theorem respects_hear (line : Bytes) :
    Respects all all' heard (Alike all all') fun l => ((), l.hear line) where
  hears l := by
    unfold hear
    split
    · exact List.prefix_refl _
    · exact List.prefix_append _ _
  alike := by
    intro l l' h hh hh'
    refine ⟨rfl, ?_⟩
    have hfree : l'.free = l.free := by
      unfold free
      rw [h.clock, h.inbox]
    have hreset := h.isReset
    cases hr : l.isReset with
    | true => simpa [hear, hr, hreset.trans hr] using h
    | false =>
      simp only [hear_whole hr, hear_whole (hreset.trans hr)] at hh hh' ⊢
      refine ⟨h.delimiter, h.clock, ?_, h.halfLine, ?_⟩
      · simp only [h.inbox, hfree, h.answers [line] (by simp) hh hh']
      · intro lines _ hl hl'
        simp only [List.append_assoc] at hl hl' ⊢
        exact h.answers ([line] ++ lines) (by simp) hl hl'

theorem respects_foldl_hear (lines : List Bytes) :
    Respects all all' heard (Alike all all') fun l => ((), lines.foldl hear l) := by
  induction lines with
  | nil => exact .still ()
  | cons line lines ih => exact (respects_hear line).bind fun _ => ih

/-- A frame is on the wire, and the server has not seen to its lines yet. -/
def carry (frame rest : Bytes) (l : Link) : Link :=
  { l with halfLine := rest, transcript := l.transcript ++ [.wrote frame] }

theorem write_reset (h : l.isReset = true) :
    l.write frame = (.error .connectionReset, l) := by
  simp [write, h]

theorem write_whole (h : l.isReset = false) :
    l.write frame = (.ok (), (Text.frames l.delimiter (l.halfLine ++ frame)).1.foldl hear
      (l.carry frame (Text.frames l.delimiter (l.halfLine ++ frame)).2)) := by
  simp [write, carry, h]

theorem respects_write (frame : Bytes) :
    Respects all all' heard (Alike all all') (write frame) where
  hears l := by
    cases hr : l.isReset with
    | true =>
      rw [write_reset hr]
    | false =>
      rw [write_whole hr]
      have hrest (lines : List Bytes) :
          Respects all all' heard (Alike all all') fun l => ((), lines.foldl hear l) :=
        respects_foldl_hear lines
      exact (hrest _).hears (l.carry frame _)
  alike := by
    intro l l' h hh hh'
    have hreset := h.isReset
    cases hr : l.isReset with
    | true =>
      rw [write_reset hr, write_reset (hreset.trans hr)]
      exact ⟨rfl, h⟩
    | false =>
      rw [write_whole hr] at hh ⊢
      rw [write_whole (hreset.trans hr), h.delimiter, h.halfLine] at hh' ⊢
      have hcarry (rest : Bytes) : Alike all all' (l.carry frame rest) (l'.carry frame rest) :=
        ⟨h.delimiter, h.clock, h.inbox, rfl, h.answers⟩
      exact ⟨rfl, ((respects_foldl_hear _).alike (hcarry _) hh hh').2⟩

theorem respects_read (room : Nat) (w : Window) :
    Respects all all' heard (Alike all all') (read room w) where
  hears l := by
    rcases hr : l.read room w with ⟨reading, l'⟩
    rw [read_eq hr]
  alike := by
    intro l l' h _ _
    rcases hr : l.read room w with ⟨reading, l₁⟩
    rcases hr' : l'.read room w with ⟨reading', l₁'⟩
    obtain ⟨hreading, hclock, hinbox⟩ := read_alike h.delimiter h.clock h.inbox hr hr'
    refine ⟨hreading, ?_, hclock, hinbox, ?_, ?_⟩ <;> rw [read_eq hr, read_eq hr']
    · exact h.delimiter
    · exact h.halfLine
    · exact h.answers

/-- The end of the client's half is the same for both. -/
theorem Alike.shutDown (h : Alike all all' l l') :
    l'.shutDown.1 = l.shutDown.1 ∧ Alike all all' l.shutDown.2 l'.shutDown.2 := by
  unfold Link.shutDown
  rw [h.isReset]
  exact ⟨rfl, h.delimiter, h.clock, h.inbox, h.halfLine, h.answers⟩

end Link

namespace Endpoint

variable {e e' : Endpoint}

def linkPart : Part Endpoint Link where
  get := link
  set l e := { e with link := l }
  get_set _ _ := rfl
  set_get _ := rfl
  set_set _ _ _ := rfl

def heard (e : Endpoint) : List Bytes := e.link.heard

/-- Endpoints that differ in nothing but links that are alike. -/
def Alike (all all' : List Bytes) (e e' : Endpoint) : Prop :=
  ∃ l', Link.Alike all all' e.link l' ∧ e' = { e with link := l' }

theorem Alike.ended (h : Alike all all' e e') : Alike [] [] e e' := by
  obtain ⟨l', hl, rfl⟩ := h
  exact ⟨l', hl.ended, rfl⟩

theorem Alike.journal (h : Alike all all' e e') : e'.journal = e.journal := by
  obtain ⟨l', hl, rfl⟩ := h
  rfl

theorem Alike.clock (h : Alike all all' e e') : e'.link.clock = e.link.clock := by
  obtain ⟨l', hl, rfl⟩ := h
  exact hl.clock

theorem Alike.note (h : Alike all all' e e') (n : Note) : Alike all all' (e.note n) (e'.note n) := by
  obtain ⟨l', hl, rfl⟩ := h
  exact ⟨l', hl, rfl⟩

/-- A step over the link. -/
def through {α : Type} (f : Link → α × Link) (e : Endpoint) : α × Endpoint :=
  ((f e.link).1, { e with link := (f e.link).2 })

theorem respects_through {α : Type} {f : Link → α × Link}
    (h : Respects all all' Link.heard (Link.Alike all all') f) :
    Respects all all' heard (Alike all all') (through f) :=
  linkPart.respects_through h

theorem Alike.failure (h : Alike all all' e e') : e'.failure = e.failure := by
  obtain ⟨l', hl, rfl⟩ := h
  funext fault
  cases fault <;> rfl

theorem Alike.delimiter (h : Alike all all' e e') : e'.link.delimiter = e.link.delimiter := by
  obtain ⟨l', hl, rfl⟩ := h
  exact hl.delimiter

theorem Alike.maxLineBytes (h : Alike all all' e e') : e'.maxLineBytes = e.maxLineBytes := by
  obtain ⟨l', hl, rfl⟩ := h
  rfl

theorem Alike.closed (h : Alike all all' e e') : e'.closed = e.closed := by
  obtain ⟨l', hl, rfl⟩ := h
  rfl

theorem Alike.isReset (h : Alike all all' e e') : e'.link.isReset = e.link.isReset := by
  obtain ⟨l', hl, rfl⟩ := h
  exact hl.isReset

/-- Whatever is said of a step, and changed in an endpoint beside its link. -/
theorem respects_changed {α : Type} (a : α) {g : Endpoint → Endpoint}
    (hg : ∀ e l, g { e with link := l } = { g e with link := l }) :
    Respects all all' heard (Alike all all') fun e => (a, g e) :=
  linkPart.respects_changed (R := Link.Alike all all') a hg

/-- A failure that the endpoint reports of itself. -/
theorem respects_failing {α : Type} (fault : ChannelFault) {g : Endpoint → Endpoint}
    (hg : ∀ e l, g { e with link := l } = { g e with link := l }) :
    Respects all all' heard (Alike all all') fun e =>
      ((.error (.failed (e.failure fault)), g e) : Except Halt α × Endpoint) := by
  refine Respects.look
    (f := fun (failure : Failure) e => ((.error (.failed failure), g e) : Except Halt α × Endpoint))
    (fun e => e.failure fault) ?_ ?_
  · intro e e' h
    rw [h.failure]
  · intro failure
    exact respects_changed _ hg

/-- A step of an open channel; a channel given up refuses it. -/
theorem respects_open {α : Type} {f : Endpoint → Except Halt α × Endpoint}
    (hf : Respects all all' heard (Alike all all') f) :
    Respects all all' heard (Alike all all') fun e =>
      if e.closed then (.error (.failed .channelClosed), e) else f e := by
  refine Respects.look
    (f := fun closed e => if closed then (.error (.failed .channelClosed), e) else f e)
    closed Alike.closed ?_
  intro closed
  cases closed with
  | true => exact .still _
  | false => exact hf

/-- What becomes of a frame. -/
def dispatch (shown : String) : Except SystemFault Unit → Endpoint → Except Halt Unit × Endpoint
  | .ok (), e => (.ok (), e.record (.sent shown))
  | .error cause, e =>
    (.error (.failed (e.failure (.writeFailed cause))), { e with closed := true })

theorem send_eq (line shown : String) (e : Endpoint) :
    e.send line shown = if e.closed then (.error (.failed .channelClosed), e) else
      dispatch shown (through (Link.write (e.frame line)) e).1
        (through (Link.write (e.frame line)) e).2 := by
  unfold send
  congr 1
  rcases h : e.link.write (e.frame line) with ⟨outcome, l⟩
  simp only [through, h]
  cases outcome <;> rfl

theorem respects_dispatch (shown : String) (outcome : Except SystemFault Unit) :
    Respects all all' heard (Alike all all') (dispatch shown outcome) := by
  cases outcome with
  | ok _ => exact respects_changed _ fun _ _ => rfl
  | error cause =>
    exact respects_failing (.writeFailed cause) fun _ _ => rfl

theorem respects_send (line shown : String) :
    Respects all all' heard (Alike all all') (send line shown) := by
  have hsend : send line shown = fun e =>
      if e.closed then (.error (.failed .channelClosed), e) else
        dispatch shown (through (Link.write (e.frame line)) e).1
          (through (Link.write (e.frame line)) e).2 :=
    funext (send_eq line shown)
  rw [hsend]
  apply respects_open
  refine Respects.look
    (f := fun frame e =>
      dispatch shown (through (Link.write frame) e).1 (through (Link.write frame) e).2)
    (fun e => e.frame line) ?_ ?_
  · intro e e' h
    rw [Endpoint.frame, h.delimiter, Endpoint.frame]
  · intro frame
    exact (respects_through (Link.respects_write frame)).bind (respects_dispatch shown)

theorem respects_digest (reading : Reading) :
    Respects all all' heard (Alike all all') (digest reading) := by
  cases reading with
  | line content =>
    cases ht : Text.decode (Text.dropReturn content) with
    | ok line =>
      have hline : digest (.line content) = fun e => (.ok line, e.record (.received line)) := by
        funext e
        simp [digest, accept, ht]
      rw [hline]
      exact respects_changed _ fun _ _ => rfl
    | error fault =>
      have hline : digest (.line content)
          = fun e => (.error (.failed (e.failure (.notUtf8 fault))), e) := by
        funext e
        simp [digest, accept, ht]
      rw [hline]
      exact respects_failing (.notUtf8 fault) fun _ _ => rfl
  | overlong => exact respects_failing .overlong fun _ _ => rfl
  | ended midLine =>
    cases midLine with
    | true => exact respects_failing .closedMidLine fun _ _ => rfl
    | false => exact respects_failing .closedByPeer fun _ _ => rfl
  | reset => exact respects_failing (.readFailed .connectionReset) fun _ _ => rfl
  | expired => exact .still _
  | unfinished => exact .still _

theorem respects_receive (w : Window) :
    Respects all all' heard (Alike all all') (receive w) := by
  have hreceive : receive w = fun e =>
      if e.closed then (.error (.failed .channelClosed), e) else
        digest (through (Link.read e.room w) e).1 (through (Link.read e.room w) e).2 :=
    rfl
  rw [hreceive]
  apply respects_open
  refine Respects.look
    (f := fun room e => digest (through (Link.read room w) e).1 (through (Link.read room w) e).2)
    room (fun h => room_congr h.maxLineBytes) ?_
  intro room
  exact (respects_through (Link.respects_read room w)).bind respects_digest

/-- A close does the same to both. -/
theorem Alike.closeQuietly (h : Alike all all' e e') (source : Source) (message : String) :
    Alike all all' (e.closeQuietly source message) (e'.closeQuietly source message) := by
  obtain ⟨l', hl, rfl⟩ := h
  obtain ⟨hsame, hshut⟩ := hl.shutDown
  cases hc : e.closed with
  | true =>
    simp only [Endpoint.closeQuietly, close, hc]
    exact ⟨l', hl, by simp [hc]⟩
  | false =>
    simp only [Endpoint.closeQuietly, close, hc, hsame, Bool.false_eq_true, if_false]
    cases e.link.shutDown.1 <;> exact ⟨l'.shutDown.2, hshut, rfl⟩

theorem Alike.release (h : Alike all all' e e') : Alike all all' e.release e'.release := by
  obtain ⟨l', hl, rfl⟩ := h
  exact ⟨l'.shutDown.2, hl.shutDown.2, rfl⟩

end Endpoint

namespace Exchange

variable {α β : Type}

/-- A conversation that goes the same way in two runs. -/
def Respects (all all' : List Bytes) (x : Exchange α) : Prop :=
  DocClient.Respects all all' Endpoint.heard (Endpoint.Alike all all') fun e => x e

/-- The rest of a conversation, of which a halt leaves nothing. -/
def onward (f : α → Exchange β) : Except Halt α → Endpoint → Except Halt β × Endpoint
  | .ok a, e => f a e
  | .error halt, e => (.error halt, e)

theorem bind_eq (x : Exchange α) (f : α → Exchange β) (e : Endpoint) :
    (x >>= f) e = onward f (x e).1 (x e).2 := by
  rw [bind_apply]
  rcases x e with ⟨result, e'⟩
  cases result <;> rfl

theorem respects_bind {x : Exchange α} {f : α → Exchange β} (hx : x.Respects all all')
    (hf : ∀ a, (f a).Respects all all') : (x >>= f).Respects all all' := by
  have hbind : (fun e => (x >>= f) e) = fun e => onward f (x e).1 (x e).2 := funext (bind_eq x f)
  unfold Respects
  rw [hbind]
  refine DocClient.Respects.bind hx ?_
  intro result
  cases result with
  | ok a => exact hf a
  | error halt => exact .still _

theorem respects_check (r : Except Failure α) : (check r).Respects all all' := by
  have hcheck : (fun e => check r e) = fun e => (halted r, e) := funext (check_apply r)
  unfold Respects
  rw [hcheck]
  exact .still _

end Exchange

end DocClient
