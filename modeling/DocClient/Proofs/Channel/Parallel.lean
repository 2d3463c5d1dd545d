import DocClient.Proofs.Channel.Accord
import DocClient.Proofs.Journal

/-!
Two connections over which different frames are written, one for one, while the servers send the
same. The client finds the same on both; what the journals tell differs in the lines written.
-/
namespace DocClient

open Text (Bytes)

/-- What is on its way to the client when a server gets another frame after those `before`, and
`inbox` has been on its way already. -/
def Server.sends (server : Server) (d : UInt8) (before : List Bytes) (frame : Bytes) (clock : Nat)
    (inbox : Schedule Emission) : Schedule Emission :=
  ((Text.linesOf d frame).foldl Link.hear
    { server, delimiter := d, clock, inbox, heard := before.flatMap (Text.linesOf d) }).inbox

/-- While the frames `all` are written in one run and the frames `all'` in another, what is sent by
the server of the one is sent by the server of the other, at the same times. -/
structure SameSends (d : UInt8) (server server' : Server) (all all' : List Bytes) : Prop where
  accept : server'.accept = server.accept
  answers : ∀ {before before' : List Bytes} {frame frame' : Bytes}, before'.length = before.length →
    before ++ [frame] <+: all → before' ++ [frame'] <+: all' →
    ∀ clock inbox,
      server'.sends d before' frame' clock inbox = server.sends d before frame clock inbox

namespace Link

variable {l l' m : Link} {d : UInt8} {w : Window} {now now' room moment : Nat}
  {taken : Bytes} {inbox inbox' : Schedule Emission} {reading : Reading} {lines : List Bytes}
  {line bs bs' : Bytes} {all all' : List Bytes}

theorem isReset_iff :
    l.isReset = true ↔ ∃ moment ≤ l.clock, (moment, Emission.reset) ∈ l.inbox := by
  simp only [isReset, List.any_eq_true, Bool.and_eq_true, decide_eq_true_eq, beq_iff_eq]
  constructor
  · rintro ⟨⟨moment, emission⟩, hm, hle, rfl⟩
    exact ⟨moment, hle, hm⟩
  · rintro ⟨moment, hle, hm⟩
    exact ⟨_, hm, hle, rfl⟩

/-- A broken connection is found broken by every reader, and time does not run backwards. -/
theorem gather_keeps (h : gather d w now room taken inbox = (reading, now', inbox')) :
    now ≤ now' ∧ ((moment, Emission.reset) ∈ inbox → (moment, Emission.reset) ∈ inbox') := by
  induction inbox generalizing now room taken with
  | nil =>
    rw [gather] at h
    split at h <;> obtain ⟨-, rfl, rfl⟩ := by simpa only [Prod.mk.injEq] using h
    · exact ⟨Nat.le_max_left _ _, id⟩
    · exact ⟨Nat.le_refl _, id⟩
  | cons arrival rest ih =>
    obtain ⟨due, emission⟩ := arrival
    have hlater : now ≤ max now due := Nat.le_max_left _ _
    cases hs : w.stopBefore due with
    | some stop =>
      simp only [gather, hs, Prod.mk.injEq] at h
      obtain ⟨-, rfl, rfl⟩ := h
      exact ⟨Nat.le_max_left _ _, id⟩
    | none =>
      cases emission with
      | hangUp | reset =>
        simp only [gather, hs, Prod.mk.injEq] at h
        obtain ⟨-, rfl, rfl⟩ := h
        exact ⟨hlater, id⟩
      | bytes bs =>
        have hrest : (moment, Emission.reset) ∈ (due, Emission.bytes bs) :: rest →
            (moment, Emission.reset) ∈ rest := by
          simp
        cases hc : cut d room bs with
        | found content left =>
          simp only [gather, hs, hc, Prod.mk.injEq] at h
          obtain ⟨-, rfl, rfl⟩ := h
          exact ⟨hlater, fun hm => List.mem_cons_of_mem _ (hrest hm)⟩
        | full =>
          simp only [gather, hs, hc, Prod.mk.injEq] at h
          obtain ⟨-, rfl, rfl⟩ := h
          exact ⟨hlater, hrest⟩
        | short =>
          simp only [gather, hs, hc] at h
          obtain ⟨hle, hkeeps⟩ := ih h
          exact ⟨hlater.trans hle, fun hm => hkeeps (hrest hm)⟩

theorem isReset_read (h : l.isReset = true) (room : Nat) (w : Window) :
    (l.read room w).2.isReset = true := by
  obtain ⟨moment, hle, hm⟩ := isReset_iff.mp h
  rcases Nat.eq_zero_or_pos room with rfl | hroom
  · exact h
  · obtain ⟨hnow, hkeeps⟩ : l.clock ≤ (l.read room w).2.clock ∧
        ((moment, Emission.reset) ∈ l.inbox → (moment, .reset) ∈ (l.read room w).2.inbox) :=
      gather_keeps (read_gather hroom rfl)
    exact isReset_iff.mpr ⟨moment, hle.trans hnow, hkeeps hm⟩

theorem isReset_rest (h : l.isReset = true) (microseconds : Nat) :
    ({ l with clock := l.clock + microseconds } : Link).isReset = true := by
  obtain ⟨moment, hle, hm⟩ := isReset_iff.mp h
  exact isReset_iff.mpr ⟨moment, Nat.le_add_right_of_le hle, hm⟩

theorem foldl_hear_reset (h : l.isReset = true) (lines : List Bytes) : lines.foldl hear l = l := by
  induction lines with
  | nil => rfl
  | cons line lines ih => rw [List.foldl_cons, hear_of_reset h, ih]

/-- Of lines that come in all are heard, unless the connection breaks. -/
theorem heard_foldl_hear (lines : List Bytes) (l : Link) :
    (lines.foldl hear l).isReset = true ∨ (lines.foldl hear l).heard = l.heard ++ lines := by
  induction lines generalizing l with
  | nil => simp
  | cons line lines ih =>
    cases hr : l.isReset with
    | true => exact Or.inl (by rw [foldl_hear_reset hr, hr])
    | false =>
      have hheard : (l.hear line).heard = l.heard ++ [line] := by
        rw [hear_whole hr]
      simpa [hheard] using ih (l.hear line)

/-- The server does not see what else the client has of the connection. -/
theorem foldl_hear_carry (lines : List Bytes) (l : Link) (rest : Bytes)
    (transcript : List Transfer) (shut : Bool) :
    lines.foldl hear { l with halfLine := rest, transcript, shut }
      = { lines.foldl hear l with halfLine := rest, transcript, shut } := by
  induction lines generalizing l with
  | nil => rfl
  | cons line lines ih =>
    have hhear : hear { l with halfLine := rest, transcript, shut } line
        = { l.hear line with halfLine := rest, transcript, shut } := by
      cases hr : l.isReset with
      | true =>
        have hr' : ({ l with halfLine := rest, transcript, shut } : Link).isReset = true := hr
        rw [hear_of_reset hr, hear_of_reset hr']
      | false =>
        have hr' : ({ l with halfLine := rest, transcript, shut } : Link).isReset = false := hr
        rw [hear_whole hr, hear_whole hr']
        rfl
    rw [List.foldl_cons, hhear, ih, List.foldl_cons]

/-- The frames that have been written over a link. -/
def said (l : Link) : List Bytes := written l.transcript

/-- No line is half written, and the server has heard what has been written, as long as the
connection is not broken. -/
structure Attentive (l : Link) : Prop where
  whole : l.halfLine = []
  heard : l.isReset = false → l.heard = l.said.flatMap (Text.linesOf l.delimiter)

theorem attentive_start (server : Server) (d : UInt8) (now : Nat) :
    (Link.start server d now).Attentive :=
  ⟨rfl, fun _ => rfl⟩

/-- A link over which another frame has gone. -/
def after (frame : Bytes) (l : Link) : Link :=
  (Text.linesOf l.delimiter frame).foldl hear
    { l with halfLine := [], transcript := l.transcript ++ [.wrote frame] }

theorem Attentive.write_whole (h : l.Attentive) (hr : l.isReset = false) :
    l.write (bs ++ [l.delimiter]) = (.ok (), l.after (bs ++ [l.delimiter])) := by
  rw [Link.write_whole hr, h.whole, List.nil_append, Text.frames_concat_rest]
  rfl

theorem after_same (l : Link) (frame : Bytes) : (l.after frame).server = l.server ∧
    (l.after frame).delimiter = l.delimiter ∧ (l.after frame).clock = l.clock := by
  rw [after, foldl_hear_eq]
  exact ⟨rfl, rfl, rfl⟩

theorem said_after (l : Link) (frame : Bytes) : (l.after frame).said = l.said ++ [frame] := by
  rw [after, foldl_hear_eq]
  simp [said]

theorem Attentive.after (h : l.Attentive) (hr : l.isReset = false) (frame : Bytes) :
    (l.after frame).Attentive where
  whole := by
    rw [Link.after, foldl_hear_eq]
  heard ho := by
    obtain ⟨-, hd, -⟩ := after_same l frame
    rw [said_after, hd, List.flatMap_append, List.flatMap_singleton, ← h.heard hr]
    rcases heard_foldl_hear (Text.linesOf l.delimiter frame)
      { l with halfLine := [], transcript := l.transcript ++ [.wrote frame] } with hreset | hheard
    · exact absurd hreset (by simpa [Link.after] using ho)
    · exact hheard

/-- Then the server has sent what it was to send. -/
theorem Attentive.inbox_after (h : l.Attentive) (hr : l.isReset = false) (frame : Bytes) :
    (l.after frame).inbox = l.server.sends l.delimiter l.said frame l.clock l.inbox := by
  -- the server hears the frame as it would hear it of a link that has nothing but what it sees
  let bare : Link := { server := l.server, delimiter := l.delimiter, clock := l.clock
                       inbox := l.inbox, heard := l.heard }
  have hcarry := foldl_hear_carry (Text.linesOf l.delimiter frame) bare []
    (l.transcript ++ [.wrote frame]) l.shut
  have hafter : l.after frame = (Text.linesOf l.delimiter frame).foldl hear
      { bare with halfLine := [], transcript := l.transcript ++ [.wrote frame], shut := l.shut } :=
    rfl
  rw [Server.sends, ← h.heard hr, hafter, hcarry]

theorem Attentive.read (h : l.Attentive) (hread : l.read room w = (reading, l')) :
    l'.Attentive := by
  have hsaid : l'.said = l.said := read_written hread
  have hopen (ho : l'.isReset = false) : l.isReset = false := by
    cases hr : l.isReset with
    | false => rfl
    | true =>
      have hreset := isReset_read hr room w
      simp [hread, ho] at hreset
  refine ⟨?_, fun ho => ?_⟩
  · rw [read_eq hread]
    exact h.whole
  · rw [hsaid, read_eq hread]
    exact h.heard (hopen ho)

theorem Attentive.rest (h : l.Attentive) (microseconds : Nat) :
    ({ l with clock := l.clock + microseconds } : Link).Attentive where
  whole := h.whole
  heard ho := by
    apply h.heard
    cases hr : l.isReset with
    | false => rfl
    | true => simp [isReset_rest hr] at ho

/-- Links over which frames have been written one for one, and over which the same has been sent. -/
structure Parallel (all all' : List Bytes) (l l' : Link) : Prop where
  delimiter : l'.delimiter = l.delimiter
  clock : l'.clock = l.clock
  inbox : l'.inbox = l.inbox
  attentive : l.Attentive
  attentive' : l'.Attentive
  count : l'.said.length = l.said.length
  service : SameSends l.delimiter l.server l'.server all all'

theorem Parallel.isReset (h : Parallel all all' l l') : l'.isReset = l.isReset := by
  unfold Link.isReset
  rw [h.clock, h.inbox]

theorem Parallel.shutDown (h : Parallel all all' l l') :
    l'.shutDown.1 = l.shutDown.1 ∧ Parallel all all' l.shutDown.2 l'.shutDown.2 := by
  have hattentive : l.shutDown.2.Attentive := ⟨h.attentive.whole, h.attentive.heard⟩
  have hattentive' : l'.shutDown.2.Attentive := ⟨h.attentive'.whole, h.attentive'.heard⟩
  refine ⟨?_, h.delimiter, h.clock, h.inbox, hattentive, hattentive', h.count, h.service⟩
  simp only [Link.shutDown, h.isReset]

theorem said_prefix_write (frame : Bytes) (l : Link) : l.said <+: (l.write frame).2.said := by
  rcases hw : l.write frame with ⟨outcome, l'⟩
  rcases write_eq hw with ⟨cause, -, rfl⟩ | ⟨rfl, -⟩
  · exact List.prefix_refl _
  · simp [said, write_transcript hw]

theorem Parallel.after (h : Parallel all all' l l') (hr : l.isReset = false) {frame frame' : Bytes}
    (hh : (l.after frame).said <+: all) (hh' : (l'.after frame').said <+: all') :
    Parallel all all' (l.after frame) (l'.after frame') := by
  have hr' : l'.isReset = false := h.isReset.trans hr
  rw [said_after] at hh hh'
  obtain ⟨hserver, hdelimiter, hclock⟩ := after_same l frame
  obtain ⟨hserver', hdelimiter', hclock'⟩ := after_same l' frame'
  refine ⟨?_, ?_, ?_, h.attentive.after hr frame, h.attentive'.after hr' frame', ?_, ?_⟩
  · rw [hdelimiter, hdelimiter', h.delimiter]
  · rw [hclock, hclock', h.clock]
  · rw [h.attentive.inbox_after hr, h.attentive'.inbox_after hr', h.delimiter, h.clock, h.inbox]
    exact h.service.answers h.count hh hh' l.clock l.inbox
  · simp [said_after, h.count]
  · rw [hserver, hserver', hdelimiter]
    exact h.service

theorem accords_write (bs bs' : Bytes) :
    Accords all all' said (Parallel all all') Eq (fun l => l.write (bs ++ [l.delimiter]))
      fun l => l.write (bs' ++ [l.delimiter]) where
  grows l := said_prefix_write _ l
  grows' l := said_prefix_write _ l
  alike := by
    intro l l' h hh hh'
    have hreset := h.isReset
    cases hr : l.isReset with
    | true =>
      rw [write_reset hr, write_reset (hreset.trans hr)]
      exact ⟨rfl, h⟩
    | false =>
      rw [h.attentive.write_whole hr] at hh ⊢
      rw [h.attentive'.write_whole (hreset.trans hr)] at hh' ⊢
      exact ⟨rfl, h.after hr hh hh'⟩

theorem respects_read_parallel (room : Nat) (w : Window) :
    Respects all all' said (Parallel all all') (read room w) where
  hears l := by
    rcases hr : l.read room w with ⟨reading, l'⟩
    simp only [said, read_written hr]
    exact List.prefix_refl _
  alike := by
    intro l l' h _ _
    rcases hr : l.read room w with ⟨reading, l₁⟩
    rcases hr' : l'.read room w with ⟨reading', l₁'⟩
    obtain ⟨hreading, hclock, hinbox⟩ := read_alike h.delimiter h.clock h.inbox hr hr'
    refine ⟨hreading, ?_, hclock, hinbox, h.attentive.read hr, h.attentive'.read hr', ?_, ?_⟩
    · rw [read_delimiter hr, read_delimiter hr', h.delimiter]
    · simp only [said, read_written hr, read_written hr']
      exact h.count
    · rw [read_eq hr, read_eq hr']
      exact h.service

end Link

namespace Endpoint

variable {e e' : Endpoint} {Lines : String → String → Prop} {all all' : List Bytes}

def said (e : Endpoint) : List Bytes := e.link.said

/-- Endpoints of two runs, to which the same has been sent. -/
structure Parallel (Lines : String → String → Prop) (all all' : List Bytes) (e e' : Endpoint) :
    Prop where
  peer : e'.peer = e.peer
  maxLineBytes : e'.maxLineBytes = e.maxLineBytes
  closed : e'.closed = e.closed
  link : Link.Parallel all all' e.link e'.link
  journal : Journal.Beside Lines e.journal e'.journal

namespace Parallel

variable (h : Parallel Lines all all' e e')
include h

theorem failure (fault : ChannelFault) : e'.failure fault = e.failure fault := by
  cases fault <;> simp only [Endpoint.failure, h.peer, h.maxLineBytes]

theorem record {event event' : Event} (hevent : Event.Beside Lines event event') :
    Parallel Lines all all' (e.record event) (e'.record event') :=
  ⟨h.peer, h.maxLineBytes, h.closed, h.link, h.journal.append (.event hevent)⟩

theorem note (n : Note) : Parallel Lines all all' (e.note n) (e'.note n) :=
  ⟨h.peer, h.maxLineBytes, h.closed, h.link, h.journal.append (.note n)⟩

theorem withLink {l l' : Link} (hl : Link.Parallel all all' l l') :
    Parallel Lines all all' { e with link := l } { e' with link := l' } :=
  ⟨h.peer, h.maxLineBytes, h.closed, hl, h.journal⟩

theorem shut : Parallel Lines all all' { e with closed := true } { e' with closed := true } :=
  ⟨h.peer, h.maxLineBytes, rfl, h.link, h.journal⟩

theorem close :
    e'.close.1 = e.close.1 ∧ Parallel Lines all all' e.close.2 e'.close.2 := by
  obtain ⟨hsame, hlink⟩ := h.link.shutDown
  unfold Endpoint.close
  rw [h.closed]
  split
  · exact ⟨rfl, h⟩
  · have hevent : Event.Beside Lines (.closed e.peer) (.closed e'.peer) := by
      rw [h.peer]
      exact .same _
    exact ⟨by simp only [hsame, h.failure], (h.withLink hlink).shut.record hevent⟩

theorem closeQuietly (source : Source) (message : String) :
    Parallel Lines all all' (e.closeQuietly source message) (e'.closeQuietly source message) := by
  unfold Endpoint.closeQuietly
  obtain ⟨hresult, hclosed⟩ := h.close
  rcases hc : e.close with ⟨result, e₁⟩
  rcases hc' : e'.close with ⟨result', e₁'⟩
  simp only [hc, hc'] at hresult hclosed
  obtain rfl := hresult
  cases result' with
  | ok _ => exact hclosed
  | error f => exact hclosed.note _

theorem release : Parallel Lines all all' e.release e'.release :=
  h.withLink h.link.shutDown.2

theorem digest (reading : Reading) :
    (e'.digest reading).1 = (e.digest reading).1 ∧
      Parallel Lines all all' (e.digest reading).2 (e'.digest reading).2 := by
  cases reading with
  | line content =>
    simp only [Endpoint.digest, accept]
    split
    · exact ⟨rfl, h.record (.same _)⟩
    · simp only [h.failure]
      exact ⟨trivial, h⟩
  | ended midLine =>
    cases midLine <;> simp only [Endpoint.digest, giveUp, h.failure] <;> exact ⟨trivial, h.shut⟩
  | overlong | reset =>
    simp only [Endpoint.digest, giveUp, h.failure]
    exact ⟨trivial, h.shut⟩
  | expired | unfinished => exact ⟨rfl, h⟩

end Parallel

theorem link_digest (reading : Reading) (e : Endpoint) : (e.digest reading).2.link = e.link := by
  cases reading with
  | line content => simp only [digest, accept_eq]
  | ended midLine => cases midLine <;> rfl
  | _ => rfl

theorem respects_receive_parallel (w : Window) :
    Respects all all' said (Parallel Lines all all') (receive w) where
  hears e := by
    cases hc : e.closed with
    | true =>
      rw [receive_closed hc]
    | false =>
      have hread : Respects [] [] Link.said (Link.Parallel [] []) (Link.read e.room w) :=
        Link.respects_read_parallel e.room w
      rw [receive_open hc rfl, said, said, link_digest]
      exact hread.hears e.link
  alike := by
    intro e e' h hh hh'
    have hclosed := h.closed
    cases hc : e.closed with
    | true =>
      rw [receive_closed hc, receive_closed (hclosed.trans hc)]
      exact ⟨rfl, h⟩
    | false =>
      rcases hr : e.link.read e.room w with ⟨reading, l⟩
      rcases hr' : e'.link.read e'.room w with ⟨reading', l'⟩
      have hread := (Link.respects_read_parallel e.room w).alike h.link
      rw [room_congr h.maxLineBytes] at hr'
      simp only [hr, hr'] at hread
      rw [receive_open hc hr, said, link_digest] at hh
      rw [← room_congr h.maxLineBytes] at hr'
      rw [receive_open (hclosed.trans hc) hr', said, link_digest] at hh'
      obtain ⟨rfl, hl⟩ := hread hh hh'
      rw [receive_open hc hr, receive_open (hclosed.trans hc) hr']
      exact (h.withLink hl).digest _

theorem link_send (line shown : String) (hc : e.closed = false) :
    (e.send line shown).2.link = (e.link.write (e.frame line)).2 := by
  unfold send
  rw [if_neg (by simp [hc])]
  rcases e.link.write (e.frame line) with ⟨outcome, l⟩
  cases outcome <;> rfl

theorem said_prefix_send (line shown : String) (e : Endpoint) :
    e.said <+: (e.send line shown).2.said := by
  cases hc : e.closed with
  | true =>
    simp only [send, hc, if_true]
    exact List.prefix_refl _
  | false =>
    rw [said, said, link_send line shown hc]
    exact Link.said_prefix_write _ _

theorem accords_send {line line' shown shown' : String} (hs : Lines shown shown') :
    Accords all all' said (Parallel Lines all all') Eq (send line shown) (send line' shown') where
  grows := said_prefix_send line shown
  grows' := said_prefix_send line' shown'
  alike := by
    intro e e' h hh hh'
    have hclosed := h.closed
    cases hc : e.closed with
    | true =>
      simp only [send, hc, hclosed.trans hc, if_true]
      exact ⟨trivial, h⟩
    | false =>
      rw [said, link_send line shown hc] at hh
      rw [said, link_send line' shown' (hclosed.trans hc)] at hh'
      have hwrite := (Link.accords_write (Text.utf8 line) (Text.utf8 line')).alike h.link hh hh'
      unfold send
      rw [if_neg (by simp [hc]), if_neg (by simp [hclosed.trans hc]), frame, frame]
      rcases hw : e.link.write (Text.utf8 line ++ [e.link.delimiter]) with ⟨outcome, l⟩
      rcases hw' : e'.link.write (Text.utf8 line' ++ [e'.link.delimiter]) with ⟨outcome', l'⟩
      rw [hw, hw'] at hwrite
      obtain ⟨rfl, hl⟩ := hwrite
      cases outcome with
      | ok _ => exact ⟨rfl, (h.withLink hl).record (.sent hs)⟩
      | error cause => exact ⟨by simp only [h.failure], (h.withLink hl).shut⟩

end Endpoint

end DocClient
