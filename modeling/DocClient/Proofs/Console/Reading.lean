import DocClient.Proofs.Console.Commands
import DocClient.Proofs.Console.Ending
import DocClient.Proofs.Text.Frame
import DocClient.Proofs.Text.Lenient

/-!
What is read of a console. However an output comes in, its reader finds the lines of it, and when it
ends also the bytes after its last line; until then the reader goes on, whatever else is done with
the console.
-/
namespace DocClient

open Text (Bytes)

namespace Text

variable {d : UInt8} {bs bs' rest rest' : Bytes} {lines lines' : List Bytes}

/-- What follows goes on with the unfinished line. -/
theorem Lines.append (h : Lines d bs lines rest) (h' : Lines d (rest ++ bs') lines' rest') :
    Lines d (bs ++ bs') (lines ++ lines') rest' := by
  refine ⟨?_, ?_, h'.unfinished⟩
  · rw [h.joined, List.append_assoc, h'.joined, List.flatMap_append, List.append_assoc]
  · intro line hl
    rcases List.mem_append.mp hl with hl | hl
    · exact h.clean line hl
    · exact h'.clean line hl

theorem frames_append_bytes (d : UInt8) (bs bs' : Bytes) :
    frames d (bs ++ bs') = ((frames d bs).1 ++ (frames d ((frames d bs).2 ++ bs')).1,
      (frames d ((frames d bs).2 ++ bs')).2) :=
  frames_eq ((lines_frames d bs).append (lines_frames d _))

theorem Lines.length (h : Lines d bs lines rest) : lines.length = bs.count d := by
  rw [← length_frames, frames_eq h]

/-- Bytes that end with a line leave none unfinished. -/
theorem frames_of_terminated (h : bs = [] ∨ bs.getLast? = some d) : (frames d bs).2 = [] := by
  rcases h with rfl | h
  · rfl
  · obtain ⟨front, rfl⟩ := List.getLast?_eq_some_iff.mp h
    exact frames_concat_rest d front

theorem dropReturn_concat (bs : Bytes) : dropReturn (bs ++ [0x0D]) = bs := by
  simp [dropReturn]

/-- A text that does not end with a carriage return keeps all its bytes. -/
theorem dropReturn_utf8 {text : String} (h : text.toList.getLast? ≠ some '\r') :
    dropReturn (utf8 text) = utf8 text := by
  apply if_neg
  intro hlast
  rcases List.eq_nil_or_concat text.toList with hnil | ⟨cs, c, hcs⟩
  · simp [utf8, hnil] at hlast
  · have hbytes : utf8 text = cs.flatMap charBytes ++ charBytes c := by simp [utf8, hcs]
    have hmem : (0x0D : UInt8) ∈ charBytes c := by
      apply List.mem_of_getLast?
      simpa [hbytes, List.getLast?_append, charBytes_ne_nil] using hlast
    rcases mem_charBytes hmem with ⟨heq, -⟩ | hle
    · have hreturn : c = '\r' := Char.ext (UInt32.toNat_inj.mp heq.symm)
      exact h (by simp [hcs, hreturn])
    · exact absurd hle (by decide)

end Text

namespace Outlet

/-- All that has come out. -/
def stream (o : Outlet) (chunks : List Chunk) : Bytes :=
  chunks.flatMap fun chunk => if chunk.outlet = o then chunk.bytes else []

/-- The event that tells of a line. -/
def event : Outlet → String → Event
  | standard, line => .received line
  | error, line => .stderr line

def line? : Outlet → Event → Option String
  | standard, .received line => some line
  | error, .stderr line => some line
  | _, _ => none

/-- The lines of an output that a sink has been told of. -/
def linesIn (o : Outlet) (journal : Journal) : List String :=
  (Sink.collect.events journal).filterMap o.line?

/-- The lines of an output, and once it has ended also what stands after the last of them. -/
def pieces (ended : Bool) (bs : Bytes) : List Bytes :=
  (Text.frames Child.lineFeed bs).1 ++
    if ended = true ∧ (Text.frames Child.lineFeed bs).2 ≠ [] then
      [(Text.frames Child.lineFeed bs).2] else []

theorem stream_concat (o : Outlet) (chunks : List Chunk) (chunk : Chunk) :
    o.stream (chunks ++ [chunk]) =
      o.stream chunks ++ if chunk.outlet = o then chunk.bytes else [] := by
  simp [stream]

@[simp] theorem linesIn_append (o : Outlet) (journal journal' : Journal) :
    o.linesIn (journal ++ journal') = o.linesIn journal ++ o.linesIn journal' := by
  simp [linesIn, Sink.events]

theorem linesIn_event (o : Outlet) (e : Event) : o.linesIn [.event e] = (o.line? e).toList := by
  cases h : o.line? e <;> simp [linesIn, Sink.events, h]

@[simp] theorem linesIn_notes (o : Outlet) (notes : List Note) :
    o.linesIn (notes.map .note) = [] := by
  simp [linesIn, Sink.events, List.filterMap_map]

/-- What a piece comes to: it is a line if a line end follows, or else if the output has ended and
there is something in it. -/
def lineAt (ended : Bool) (piece after : Bytes) : List Bytes :=
  if after = [] ∧ (ended = false ∨ piece = []) then [] else [piece]

variable {ended : Bool} {bs rest before piece after : Bytes} {lines : List Bytes}

theorem pieces_of_lines (h : Text.Lines Child.lineFeed bs lines rest) :
    pieces ended bs = lines ++ if ended = true ∧ rest ≠ [] then [rest] else [] := by
  simp only [pieces, Text.frames_eq h]

/-- What comes before a piece, and what comes after it, does not depend on the piece. -/
theorem pieces_around (hb : before = [] ∨ before.getLast? = some Child.lineFeed)
    (ha : after = [] ∨ after.head? = some Child.lineFeed) (hp : Child.lineFeed ∉ piece) :
    pieces ended (before ++ piece ++ after) =
      (Text.frames Child.lineFeed before).1 ++ lineAt ended piece after
        ++ pieces ended (after.drop 1) := by
  rw [pieces, List.append_assoc, Text.frames_append_bytes Child.lineFeed before,
    Text.frames_of_terminated hb, List.nil_append]
  cases after with
  | nil =>
    rw [List.append_nil, Text.frames_of_not_mem hp]
    cases ended <;> by_cases hnil : piece = [] <;> simp [lineAt, pieces, Text.frames, hnil]
  | cons b after =>
    obtain rfl : b = Child.lineFeed := by simpa using ha
    rw [Text.frames_append hp]
    simp [lineAt, pieces]

end Outlet

namespace Pipe

variable {p q : Pipe} {chunk : Chunk} {o : Outlet} {lines : List String} {line : String}
  {rest : Bytes} {r : Reader}

/-- The lines of an output that have been told of. -/
def told (p : Pipe) (o : Outlet) : List String := o.linesIn p.journal

/-- The lines that the reader of an output has taken, and how it then stands. -/
structure Reads (o : Outlet) (lines : List String) (r : Reader) (p q : Pipe) : Prop where
  aside : Aside p q
  told : ∀ o', q.told o' = p.told o' ++ if o' = o then lines else []
  reader : ∀ o', q.reader o' = if o' = o then r else p.reader o'
  buffer : q.buffer.lines = p.buffer.lines ++ if .standard = o then lines else []

theorem reads_withReader (o : Outlet) (r : Reader) (p : Pipe) :
    Reads o [] r p (p.withReader o r) := by
  refine ⟨aside_withReader o r p, ?_, ?_, by cases o <;> simp [withReader]⟩
  · intro o'
    cases o <;> simp [Pipe.told, withReader]
  · intro o'
    cases o <;> cases o' <;> rfl

theorem Reads.cons (h : Reads o lines r (p.read o line) q) : Reads o (line :: lines) r p q := by
  have htold : ∀ o', (p.read o line).told o' = p.told o' ++ if o' = o then [line] else [] := by
    intro o'
    cases o <;> cases o' <;>
      simp [Pipe.told, read, takeLine, takeErrorLine, record, Outlet.linesIn_event, Outlet.line?]
  have hbuffer : (p.read o line).buffer.lines
      = p.buffer.lines ++ if .standard = o then [line] else [] := by
    cases o <;> simp [read, takeLine, takeErrorLine, record, OutputBuffer.push]
  refine ⟨(aside_read o line p).trans h.aside, ?_, ?_, ?_⟩
  · intro o'
    rw [h.told, htold]
    split <;> simp
  · intro o'
    rw [h.reader, reader_read]
  · rw [h.buffer, hbuffer]
    split <;> simp

theorem reads_lines (o : Outlet) (lines : List String) (r : Reader) (p : Pipe) :
    Reads o lines r p ((lines.foldl (read o) p).withReader o r) := by
  induction lines generalizing p with
  | nil => exact reads_withReader o r p
  | cons line lines ih => exact (ih (p.read o line)).cons

theorem reads_take (h : p.listens chunk.outlet = true) :
    Reads chunk.outlet
      ((Text.frames Child.lineFeed ((p.reader chunk.outlet).tail ++ chunk.bytes)).1.map lineOf)
      { tail := (Text.frames Child.lineFeed ((p.reader chunk.outlet).tail ++ chunk.bytes)).2 } p
      (p.take chunk) := by
  unfold take
  rw [if_pos h]
  exact reads_lines _ _ _ p

theorem reads_takeTail (h : p.listens o = true) :
    Reads o (p.rests o) { phase := .stopped } p (p.takeTail o) := by
  unfold takeTail
  rw [if_pos h]
  exact reads_lines _ _ _ p

/-- A pipe from its start on, for as long as its readers are not told to stop: the output that has been
read, the captured lines that have since been taken or thrown away, and which outputs have ended.
Everything else that is done with the pipe may happen in between. -/
inductive Watched (start : Pipe) : List Chunk → List String → (Outlet → Bool) → Pipe → Prop
  | begins : Watched start [] [] (fun _ => false) start
  | reads {chunks : List Chunk} {gone : List String} {ended : Outlet → Bool} {p : Pipe}
      (chunk : Chunk) (h : Watched start chunks gone ended p) (ho : ended chunk.outlet = false) :
      Watched start (chunks ++ [chunk]) gone ended (p.take chunk)
  | ends {chunks : List Chunk} {gone : List String} {ended : Outlet → Bool} {p : Pipe}
      (o : Outlet) (h : Watched start chunks gone ended p) (ho : ended o = false) :
      Watched start chunks gone (fun o' => o' = o || ended o') (p.takeTail o)
  | passes {chunks : List Chunk} {gone : List String} {ended : Outlet → Bool} {p : Pipe}
      (child : Child) (clock : Nat) (inputOpen : Bool) (h : Watched start chunks gone ended p) :
      Watched start chunks gone ended { p with child, clock, inputOpen }
  | notes {chunks : List Chunk} {gone : List String} {ended : Outlet → Bool} {p : Pipe}
      (n : Note) (h : Watched start chunks gone ended p) :
      Watched start chunks gone ended { p with journal := p.journal ++ [.note n] }
  | sends {chunks : List Chunk} {gone : List String} {ended : Outlet → Bool} {p q : Pipe}
      {line : String} {sent : Except Failure Unit} (h : Watched start chunks gone ended p)
      (hs : p.send line = (sent, q)) : Watched start chunks gone ended q
  | clears {chunks : List Chunk} {gone : List String} {ended : Outlet → Bool} {p : Pipe}
      (h : Watched start chunks gone ended p) :
      Watched start chunks (gone ++ p.buffer.lines) ended { p with buffer := p.buffer.clear }
  | collects {chunks : List Chunk} {gone lines : List String} {ended : Outlet → Bool} {p q : Pipe}
      (h : Watched start chunks gone ended p) (hc : p.collect = (lines, q)) :
      Watched start chunks (gone ++ lines) ended q

/-- The lines that have been read are those of the output. -/
structure Divided (chunks : List Chunk) (gone : List String) (ended : Outlet → Bool) (p : Pipe) :
    Prop where
  untold : p.readersTold = false
  told : ∀ o, p.told o = (Outlet.pieces (ended o) (o.stream chunks)).map lineOf
  reader : ∀ o, p.reader o = if ended o = true then { phase := .stopped }
    else { tail := (Text.frames Child.lineFeed (o.stream chunks)).2 }
  captured : p.told .standard = gone ++ p.buffer.lines

variable {start : Pipe} {chunks : List Chunk} {gone : List String} {ended : Outlet → Bool}
  {sent : Except Failure Unit}

theorem Divided.listens (h : Divided chunks gone ended p) (ho : ended o = false) :
    p.listens o = true :=
  listens_iff.mpr ⟨by simp [h.reader, ho], h.untold⟩

theorem Divided.of_same (h : Divided chunks gone ended p) (huntold : q.readersTold = p.readersTold)
    (htold : ∀ o, q.told o = p.told o) (hreader : ∀ o, q.reader o = p.reader o)
    (hbuffer : q.buffer = p.buffer) : Divided chunks gone ended q where
  untold := huntold.trans h.untold
  told o := (htold o).trans (h.told o)
  reader o := (hreader o).trans (h.reader o)
  captured := by rw [htold, hbuffer, h.captured]

/-- What is written to a console is not read of it. -/
theorem send_unread (h : p.send line = (sent, q)) : q.readersTold = p.readersTold ∧
    (∀ o, q.told o = p.told o) ∧ ∀ o, q.reader o = p.reader o := by
  cases delivers_of_send h with
  | written =>
    refine ⟨rfl, ?_, by rintro (_ | _) <;> rfl⟩
    rintro (_ | _) <;> simp [Pipe.told, record, Outlet.linesIn_event, Outlet.line?]
  | lost h notes =>
    refine ⟨rfl, fun o => ?_, by rintro (_ | _) <;> rfl⟩
    simp [Pipe.told]

theorem Divided.take (h : Divided chunks gone ended p) (ho : ended chunk.outlet = false) :
    Divided (chunks ++ [chunk]) gone ended (p.take chunk) := by
  have hr := reads_take (h.listens ho)
  have htail : (p.reader chunk.outlet).tail
      = (Text.frames Child.lineFeed (chunk.outlet.stream chunks)).2 := by
    simp [h.reader, ho]
  refine ⟨hr.aside.readersTold.trans h.untold, ?_, ?_, ?_⟩
  · intro o
    rw [hr.told, h.told, Outlet.stream_concat]
    by_cases heq : o = chunk.outlet
    · subst o
      simp only [Outlet.pieces, ho, if_true]
      rw [Text.frames_append_bytes Child.lineFeed (chunk.outlet.stream chunks), htail]
      simp
    · simp [heq, Ne.symm heq]
  · intro o
    rw [hr.reader, Outlet.stream_concat]
    by_cases heq : o = chunk.outlet
    · subst o
      simp only [ho, if_true]
      rw [Text.frames_append_bytes Child.lineFeed (chunk.outlet.stream chunks), htail]
      simp
    · simp [heq, Ne.symm heq, h.reader]
  · rw [hr.told, hr.buffer, h.captured, List.append_assoc]

theorem Divided.takeTail (h : Divided chunks gone ended p) (ho : ended o = false) :
    Divided chunks gone (fun o' => o' = o || ended o') (p.takeTail o) := by
  have hr := reads_takeTail (h.listens ho)
  have htail : (p.reader o).tail = (Text.frames Child.lineFeed (o.stream chunks)).2 := by
    simp [h.reader, ho]
  refine ⟨hr.aside.readersTold.trans h.untold, ?_, ?_, ?_⟩
  · intro o'
    rw [hr.told, h.told]
    by_cases heq : o' = o
    · subst o'
      simp only [Outlet.pieces, ho, rests, htail, decide_true, Bool.true_or]
      by_cases hnil : (Text.frames Child.lineFeed (o.stream chunks)).2 = [] <;> simp [hnil]
    · simp [heq]
  · intro o'
    rw [hr.reader, h.reader]
    by_cases heq : o' = o <;> simp [heq]
  · rw [hr.told, hr.buffer, h.captured, List.append_assoc]

/-- A pipe of which nothing has been read. -/
structure Fresh (p : Pipe) : Prop where
  untold : p.readersTold = false
  told : ∀ o, p.told o = []
  reader : ∀ o, p.reader o = {}
  buffer : p.buffer.lines = []

theorem divided_of_watched (hs : start.Fresh) (h : Watched start chunks gone ended p) :
    Divided chunks gone ended p := by
  induction h with
  | begins =>
    refine ⟨hs.untold, ?_, ?_, by simp [hs.told, hs.buffer]⟩
    · intro o
      simp [hs.told, Outlet.stream, Outlet.pieces, Text.frames]
    · intro o
      simp [hs.reader, Outlet.stream, Text.frames]
  | reads chunk _ ho ih => exact ih.take ho
  | ends o _ ho ih => exact ih.takeTail ho
  | passes _ _ _ _ ih =>
    exact ih.of_same rfl (fun _ => rfl) (by rintro (_ | _) <;> rfl) rfl
  | notes n _ ih =>
    have hnote (o : Outlet) : o.linesIn [.note n] = [] := o.linesIn_notes [n]
    exact ih.of_same rfl (by simp [Pipe.told, hnote]) (by rintro (_ | _) <;> rfl) rfl
  | sends _ hsend ih =>
    obtain ⟨huntold, htold, hreader⟩ := send_unread hsend
    exact ih.of_same huntold htold hreader (send_buffer hsend)
  | clears _ ih =>
    refine ⟨ih.untold, ih.told, fun o => ?_, ?_⟩
    · rw [← ih.reader]
      cases o <;> rfl
    · exact ih.captured.trans (List.append_nil _).symm
  | collects _ hc ih =>
    obtain ⟨rfl, rfl⟩ := Prod.mk.inj hc
    refine ⟨ih.untold, ih.told, fun o => ?_, ?_⟩
    · rw [← ih.reader]
      cases o <;> rfl
    · exact ih.captured.trans (List.append_nil _).symm

end Pipe

end DocClient
