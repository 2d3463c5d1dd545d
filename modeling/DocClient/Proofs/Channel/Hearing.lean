import DocClient.Proofs.Channel.Stream

/-! What comes back over a link for a frame: the server's reactions to the lines that it ends. -/
namespace DocClient

open Text (Bytes)

/-- What the server does about lines that it hears one after the other. -/
def Server.reaction (server : Server) (heard : List Bytes) : List Bytes → Plan Emission
  | [] => []
  | line :: lines =>
    server.answer (heard ++ [line]) ++ server.reaction (heard ++ [line]) lines

/-- The lines that a frame consists of, for somebody who has heard whole lines before it. -/
def Text.linesOf (d : UInt8) (frame : Bytes) : List Bytes := (Text.frames d frame).1

namespace Link

variable {d : UInt8} {w : Window} {now now' room : Nat} {taken bs frame said content : Bytes}
  {inbox inbox' later : Schedule Emission} {reading : Reading} {l l' : Link} {line : Bytes}
  {lines : List Bytes} {server : Server}

/-- Whether the stream ends or breaks, after some bytes. -/
def Halts : Schedule Emission → Prop
  | [] => False
  | (_, .bytes _) :: rest => Halts rest
  | (_, .hangUp) :: _ => True
  | (_, .reset) :: _ => True

theorem halts_append (h : Halts inbox) : Halts (inbox ++ later) := by
  induction inbox with
  | nil => exact h.elim
  | cons arrival rest ih =>
    obtain ⟨moment, emission⟩ := arrival
    cases emission with
    | bytes bs => exact ih h
    | hangUp | reset => trivial

/-- Nothing that comes after the end can be read. -/
theorem stream_append_of_halts (h : Halts inbox) : stream (inbox ++ later) = stream inbox := by
  induction inbox with
  | nil => exact h.elim
  | cons arrival rest ih =>
    obtain ⟨moment, emission⟩ := arrival
    cases emission with
    | bytes bs => simp [stream, ih h]
    | hangUp | reset => rfl

theorem stream_append_of_not_halts (h : ¬ Halts inbox) :
    stream (inbox ++ later) = stream inbox ++ stream later := by
  induction inbox with
  | nil => rfl
  | cons arrival rest ih =>
    obtain ⟨moment, emission⟩ := arrival
    cases emission with
    | bytes bs => simp [stream, ih h]
    | hangUp | reset => exact absurd trivial h

/-- The moments of arrival do not matter to what is read. -/
theorem stream_congr (h : inbox.map Prod.snd = inbox'.map Prod.snd) :
    stream inbox = stream inbox' := by
  induction inbox generalizing inbox' with
  | nil =>
    obtain rfl : inbox' = [] := by simpa using h.symm
    rfl
  | cons arrival rest ih =>
    cases inbox' with
    | nil => simp at h
    | cons arrival' rest' =>
      obtain ⟨moment, emission⟩ := arrival
      obtain ⟨moment', emission'⟩ := arrival'
      obtain ⟨rfl, hr⟩ : emission = emission' ∧ rest.map Prod.snd = rest'.map Prod.snd := by
        simpa using h
      cases emission with
      | bytes bs => simp [stream, ih hr]
      | hangUp | reset => rfl

theorem begin_emissions (start : Nat) (plan : Plan Emission) :
    (plan.begin start).map Prod.snd = plan.map Prod.snd := by
  induction plan generalizing start with
  | nil => rfl
  | cons step rest ih =>
    obtain ⟨delay, emission⟩ := step
    simp [Plan.begin, ih]

theorem halts_of_isReset (h : l.isReset = true) : Halts l.inbox := by
  have hall : ∀ inbox : Schedule Emission,
      inbox.any (fun arrival => arrival.1 ≤ l.clock && arrival.2 == .reset) = true →
        Halts inbox := by
    intro inbox hany
    induction inbox with
    | nil => simp at hany
    | cons arrival rest ih =>
      obtain ⟨moment, emission⟩ := arrival
      cases emission with
      | bytes bs => exact ih (by simpa using hany)
      | hangUp | reset => trivial
  exact hall l.inbox h

theorem hear_of_reset (h : l.isReset = true) : l.hear line = l := by
  simp [hear, h]

theorem hear_whole (h : l.isReset = false) : l.hear line = { l with
    heard := l.heard ++ [line]
    inbox := l.inbox ++ (l.server.answer (l.heard ++ [line])).begin l.free } := by
  simp [hear, h]

theorem halts_hear (h : Halts l.inbox) : Halts (l.hear line).inbox := by
  unfold hear
  split
  · exact h
  · exact halts_append h

theorem halts_foldl_hear (lines : List Bytes) (h : Halts l.inbox) :
    Halts (lines.foldl hear l).inbox := by
  induction lines generalizing l with
  | nil => exact h
  | cons line lines ih => exact ih (halts_hear h)

theorem server_foldl_hear (lines : List Bytes) (l : Link) :
    (lines.foldl hear l).server = l.server := by
  rw [foldl_hear_eq]

/-- What can be read after lines have been heard, and that they have been unless it all ends. -/
theorem stream_foldl_hear (lines : List Bytes) (l : Link) :
    stream (lines.foldl hear l).inbox = stream (l.inbox ++ l.server.reaction l.heard lines) ∧
      (Halts (lines.foldl hear l).inbox ∨ (lines.foldl hear l).heard = l.heard ++ lines) := by
  induction lines generalizing l with
  | nil => simp [Server.reaction]
  | cons line lines ih =>
    rw [List.foldl_cons]
    cases hr : l.isReset with
    | true =>
      have hh := halts_of_isReset hr
      rw [hear_of_reset hr]
      refine ⟨?_, Or.inl (halts_foldl_hear lines hh)⟩
      rw [(ih l).1, stream_append_of_halts hh, stream_append_of_halts hh]
    | false =>
      obtain ⟨hs, hheard⟩ := ih (l.hear line)
      rw [hear_whole hr] at hs hheard ⊢
      refine ⟨hs.trans (stream_congr ?_), by simpa using hheard⟩
      simp [Server.reaction, begin_emissions]

/-- What a frame that has been written whole brings about. -/
theorem write_stream (h : l.write frame = (.ok (), l')) (hl : l.halfLine = []) :
    stream l'.inbox
        = stream (l.inbox ++ l.server.reaction l.heard (Text.linesOf l.delimiter frame)) ∧
      (Halts l'.inbox ∨ l'.heard = l.heard ++ Text.linesOf l.delimiter frame) ∧
      (Halts l.inbox → Halts l'.inbox) ∧ l'.server = l.server ∧
      l'.halfLine = (Text.frames l.delimiter frame).2 := by
  unfold write at h
  split at h
  · simp at h
  · obtain ⟨-, rfl⟩ := Prod.mk.inj h
    simp only [hl, List.nil_append]
    obtain ⟨hs, hheard⟩ := stream_foldl_hear (Text.linesOf l.delimiter frame) { l with
      halfLine := (Text.frames l.delimiter frame).2
      transcript := l.transcript ++ [.wrote frame] }
    refine ⟨hs, hheard, ?_, server_foldl_hear _ _, ?_⟩
    · intro hh
      exact halts_foldl_hear _ hh
    · rw [foldl_hear_eq]

theorem gather_halts (hh : Halts inbox)
    (h : gather d w now room taken inbox = (reading, now', inbox')) : Halts inbox' := by
  induction inbox generalizing now room taken with
  | nil => exact hh.elim
  | cons arrival rest ih =>
    obtain ⟨moment, emission⟩ := arrival
    cases hw : w.stopBefore moment with
    | some s =>
      simp only [gather, hw, Prod.mk.injEq] at h
      exact h.2.2 ▸ hh
    | none =>
      cases emission with
      | hangUp | reset =>
        simp only [gather, hw, Prod.mk.injEq] at h
        exact h.2.2 ▸ hh
      | bytes bs =>
        cases hc : cut d room bs with
        | found content left =>
          simp only [gather, hw, hc, Prod.mk.injEq] at h
          exact h.2.2 ▸ hh
        | full =>
          simp only [gather, hw, hc, Prod.mk.injEq] at h
          exact h.2.2 ▸ hh
        | short =>
          simp only [gather, hw, hc] at h
          exact ih hh h

theorem read_halts (hh : Halts l.inbox) (h : l.read room w = (reading, l')) :
    Halts l'.inbox := by
  rcases Nat.eq_zero_or_pos room with rfl | hroom
  · rw [read_zero] at h
    exact (Prod.mk.inj h).2 ▸ hh
  · exact gather_halts hh (read_gather hroom h)

/-- Of a stream that says one line at most, a line that is read is that line. -/
theorem read_said (h : l.read room w = (.line content, l'))
    (hs : stream l.inbox <+: said ++ [l.delimiter]) (hd : l.delimiter ∉ said) :
    content = said ∧ stream l'.inbox = [] := by
  obtain ⟨rest, hrest⟩ := hs
  cases read_drawn (room_of_read h (by simp)) h with
  | @line frame joined clean fits =>
    rw [joined, List.append_assoc, List.cons_append] at hrest
    have hf := congrArg (Text.frames l.delimiter) hrest
    rw [Text.frames_append clean, Text.frames_append hd, Prod.mk.injEq, List.cons.injEq] at hf
    obtain ⟨⟨rfl, hlines⟩, hleft⟩ := hf
    have hj := (Text.lines_frames l.delimiter (stream l'.inbox ++ rest)).joined
    rw [hlines, hleft] at hj
    exact ⟨rfl, (List.append_eq_nil_iff.mp hj).1⟩

/-- For a line that is found too long there is no room. -/
theorem read_said_overlong (h : l.read room w = (.overlong, l'))
    (hs : stream l.inbox <+: said ++ [l.delimiter]) : room ≤ said.length := by
  cases read_drawn (room_of_read h (by simp)) h with
  | overlong long clean =>
    apply Nat.le_of_not_lt
    intro hlt
    apply clean
    have hlen : (said ++ [l.delimiter]).length ≤ (stream l.inbox).length := by
      simp only [List.length_append, List.length_singleton]
      omega
    rw [hs.eq_of_length_le hlen, List.take_of_length_le]
    · simp
    · simp only [List.length_append, List.length_singleton]
      omega

end Link

end DocClient
