import DocClient.Proofs.Channel.Awaiting

/-!
Waiting with a deadline: it is waiting for as long as it takes, among what arrives before the
deadline.
-/
namespace DocClient

open Text (Bytes)

namespace Link

variable {d : UInt8} {now room deadline moment : Nat} {taken : Bytes} {l : Link}

/-- What arrives before a deadline. -/
def early (deadline : Nat) (inbox : Schedule Emission) : Schedule Emission :=
  inbox.takeWhile (·.1 < deadline)

/-- A wait that would never end ends with the deadline. -/
def expire : Reading → Reading
  | .unfinished => .expired
  | .line content => .line content
  | .overlong => .overlong
  | .ended midLine => .ended midLine
  | .reset => .reset
  | .expired => .expired

theorem stopBefore_deadline (h : deadline ≤ moment) :
    ({ timer := some deadline } : Window).stopBefore moment = some (deadline, .expired) := by
  simp [Window.stopBefore, Window.stop, h]

theorem stopBefore_early (h : moment < deadline) :
    ({ timer := some deadline } : Window).stopBefore moment = none := by
  simp [Window.stopBefore, Window.stop, h]

theorem gather_deadline (inbox : Schedule Emission) :
    (gather d { timer := some deadline } now room taken inbox).1
      = expire (gather d {} now room taken (early deadline inbox)).1 := by
  induction inbox generalizing now room taken with
  | nil => rfl
  | cons arrival rest ih =>
    obtain ⟨moment, emission⟩ := arrival
    by_cases hearly : moment < deadline
    · have hinbox : early deadline ((moment, emission) :: rest)
          = (moment, emission) :: early deadline rest := by
        simp [early, hearly]
      have hnone : ({} : Window).stopBefore moment = none := rfl
      rw [hinbox]
      cases emission with
      | hangUp | reset =>
        simp only [gather, stopBefore_early hearly, hnone]
        rfl
      | bytes bs =>
        cases hcut : cut d room bs with
        | found content left | full =>
          simp only [gather, stopBefore_early hearly, hnone, hcut]
          rfl
        | short =>
          simp only [gather, stopBefore_early hearly, hnone, hcut]
          exact ih
    · have hinbox : early deadline ((moment, emission) :: rest) = [] := by
        simp [early, hearly]
      rw [hinbox]
      simp only [gather, stopBefore_deadline (Nat.le_of_not_lt hearly)]
      rfl

theorem read_fst (h : 0 < room) (w : Window) (l : Link) :
    (l.read room w).1 = (gather l.delimiter w l.clock room [] l.inbox).1 := by
  rw [read_of_room h]

theorem read_deadline (l : Link) :
    (l.read room { timer := some deadline }).1
      = expire ({ l with inbox := early deadline l.inbox }.read room {}).1 := by
  rcases Nat.eq_zero_or_pos room with rfl | h
  · rfl
  · have hg : (gather l.delimiter { timer := some deadline } l.clock room [] l.inbox).1
        = expire (gather l.delimiter {} l.clock room [] (early deadline l.inbox)).1 :=
      gather_deadline l.inbox
    rw [read_fst h, read_fst h]
    exact hg

/-- Who stops waiting in the same way reads the same. -/
theorem gather_congr {w w' : Window} (h : w.stop = w'.stop) (inbox : Schedule Emission) :
    gather d w now room taken inbox = gather d w' now room taken inbox := by
  have hbefore (moment : Nat) : w.stopBefore moment = w'.stopBefore moment := by
    simp only [Window.stopBefore, h]
  induction inbox generalizing now room taken with
  | nil => simp only [gather, h]
  | cons arrival rest ih =>
    obtain ⟨moment, emission⟩ := arrival
    cases emission with
    | hangUp | reset => simp only [gather, hbefore]
    | bytes bs => simp only [gather, hbefore, ih]

theorem read_congr {w w' : Window} (h : w.stop = w'.stop) :
    l.read room w = l.read room w' := by
  simp only [read, gather_congr h]

/-- Only a timer that is up before the caller's patience makes a wait expire. -/
theorem gather_expired {w : Window} {inbox : Schedule Emission}
    (h : (gather d w now room taken inbox).1 = .expired) :
    ∃ moment, w.stop = some (moment, .expired) := by
  induction inbox generalizing now room taken with
  | nil =>
    cases hw : w.stop with
    | none => simp [gather, hw] at h
    | some stop =>
      simp only [gather, hw] at h
      exact ⟨stop.1, by rw [← h]⟩
  | cons arrival rest ih =>
    obtain ⟨moment, emission⟩ := arrival
    cases hw : w.stopBefore moment with
    | some stop =>
      simp only [gather, hw] at h
      exact ⟨stop.1, by rw [← h]; exact (Option.filter_eq_some_iff.mp hw).1⟩
    | none =>
      cases emission with
      | hangUp | reset => simp [gather, hw] at h
      | bytes bs =>
        cases hcut : cut d room bs with
        | found content left | full => simp [gather, hw, hcut] at h
        | short =>
          simp only [gather, hw, hcut] at h
          exact ih h

theorem read_expired {w : Window} (h : (l.read room w).1 = .expired) :
    ∃ moment, w.stop = some (moment, .expired) := by
  rw [read_fst (room_of_read (Prod.ext h rfl) (by simp))] at h
  exact gather_expired h

/-- At a stream that is silent a reader without a limit of time waits for ever. -/
theorem gather_silent {inbox : Schedule Emission} (hh : ¬ Halts inbox) (hd : d ∉ stream inbox)
    (hl : (stream inbox).length < room) :
    (gather d {} now room taken inbox).1 = .unfinished := by
  induction inbox generalizing now room taken with
  | nil => rfl
  | cons arrival rest ih =>
    obtain ⟨moment, emission⟩ := arrival
    have hw : ({} : Window).stopBefore moment = none := rfl
    cases emission with
    | hangUp | reset => exact absurd trivial hh
    | bytes bs =>
      simp only [stream, List.mem_append, not_or, List.length_append] at hd hl
      have hc := cut_spec d room bs
      cases hcut : cut d room bs with
      | found content left =>
        simp only [hcut] at hc
        exact absurd (by simp [hc.1]) hd.1
      | full =>
        simp only [hcut] at hc
        omega
      | short =>
        simp only [gather, hw, hcut]
        exact ih hh hd.2 (by omega)

end Link

namespace Endpoint

variable {e : Endpoint} {deadline : Nat} {text : String} {w : Window} {patience : Option Nat}

/-- The same, with nothing on its way but what arrives before a deadline. -/
def upTo (deadline : Nat) (e : Endpoint) : Endpoint :=
  { e with link := { e.link with inbox := Link.early deadline e.link.inbox } }

/-- A complete line that there is room for arrives before the deadline, and this is its text. -/
def OffersBy (deadline : Nat) (e : Endpoint) (text : String) : Prop :=
  ∃ rest, (e.upTo deadline).Offers text rest

theorem receive_ok_iff (ho : e.closed = false) : (e.receive w).1 = .ok text ↔
    ∃ content, (e.link.read e.room w).1 = .line content ∧ lineText content = .ok text := by
  rcases hr : e.link.read e.room w with ⟨reading, l⟩
  rw [receive_open ho hr]
  cases reading with
  | line content =>
    rw [digest, accept_eq]
    cases ht : lineText content <;> simp [halted, ht]
  | ended midLine => cases midLine <;> simp [digest, giveUp]
  | overlong | reset | expired | unfinished => simp [digest, giveUp]

/-- With a deadline for all of the wait, a text is handed out exactly if it is offered by then. -/
theorem receive_by (ho : e.closed = false) :
    (e.receive { timer := some deadline }).1 = .ok text ↔ e.OffersBy deadline text := by
  have hline (reading : Reading) (content : Bytes) :
      Link.expire reading = .line content ↔ reading = .line content := by
    cases reading <;> simp [Link.expire]
  have hreads : (e.receive { timer := some deadline }).1 = .ok text ↔
      ((e.upTo deadline).receive {}).1 = .ok text := by
    rw [receive_ok_iff ho, receive_ok_iff (show (e.upTo deadline).closed = false from ho)]
    simp only [Link.read_deadline, hline]
    rfl
  rw [hreads]
  constructor
  · intro h
    exact ⟨_, (offers_of_receive (Prod.ext h rfl)).1⟩
  · rintro ⟨rest, h⟩
    obtain ⟨e', hr, -⟩ := receive_offers (show (e.upTo deadline).closed = false from ho) h
    rw [hr]

theorem receive_expired_iff (ho : e.closed = false) :
    (e.receive w).1 = .error .expired ↔ (e.link.read e.room w).1 = .expired := by
  rcases hr : e.link.read e.room w with ⟨reading, l⟩
  rw [receive_open ho hr]
  cases reading with
  | line content =>
    rw [digest, accept_eq]
    cases lineText content <;> simp [halted]
  | ended midLine => cases midLine <;> simp [digest, giveUp]
  | overlong | reset | expired | unfinished => simp [digest, giveUp]

/-- Who waits for as long as it takes waits for ever at a silent stream, and at no other. -/
theorem read_unfinished_iff : (e.link.read e.room {}).1 = .unfinished ↔ e.Silent := by
  constructor
  · intro h
    obtain ⟨hhalts, hclean, hlength⟩ := (Link.read_patient (Prod.ext h rfl)).2.2 rfl
    exact ⟨hhalts, hclean, hlength⟩
  · intro h
    rw [Link.read_fst (Nat.zero_lt_of_lt h.fits)]
    exact Link.gather_silent h.endless h.unfinished h.fits

/-- With a deadline for all of the wait, it expires exactly if the stream is silent up to then and
the caller has not gone away. -/
theorem receive_expires (ho : e.closed = false) :
    (e.receive { timer := some deadline, patience }).1 = .error .expired ↔
      (e.upTo deadline).Silent ∧ ∀ moment ∈ patience, deadline ≤ moment := by
  have hexpire (reading : Reading) (hne : reading ≠ .expired) :
      Link.expire reading = .expired ↔ reading = .unfinished := by
    cases reading <;> simp_all [Link.expire]
  have hpatient : (e.link.read e.room { timer := some deadline }).1 = .expired ↔
      (e.upTo deadline).Silent := by
    have hne : ((e.upTo deadline).link.read e.room {}).1 ≠ .expired :=
      (Link.read_patient (Prod.ext rfl rfl)).1
    rw [Link.read_deadline]
    exact (hexpire _ hne).trans (read_unfinished_iff (e := e.upTo deadline))
  rw [receive_expired_iff ho]
  by_cases hlasts : ∀ moment ∈ patience, deadline ≤ moment
  · have hstop : ({ timer := some deadline, patience } : Window).stop
        = ({ timer := some deadline } : Window).stop := by
      cases patience with
      | none => rfl
      | some moment => exact if_pos (hlasts moment rfl)
    rw [Link.read_congr hstop, hpatient, and_iff_left hlasts]
  · refine iff_of_false ?_ (fun h => hlasts h.2)
    intro h
    obtain ⟨stop, hstop⟩ := Link.read_expired h
    cases patience with
    | none => exact hlasts (by simp)
    | some moment =>
      have hshort : ¬ deadline ≤ moment := fun hle => hlasts (by simpa using hle)
      simp [Window.stop, hshort] at hstop

/-- Without a timer no wait expires. -/
theorem receive_not_expired (ho : e.closed = false) :
    (e.receive { patience }).1 ≠ .error .expired := by
  rw [Ne, receive_expired_iff ho]
  intro h
  obtain ⟨stop, hstop⟩ := Link.read_expired h
  cases patience <;> simp [Window.stop] at hstop

end Endpoint

end DocClient
