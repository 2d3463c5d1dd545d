import DocClient.Proofs.Json.Record
import DocClient.Proofs.Text.Decode
import DocClient.Proofs.Wire.Request

/-!
A stream of requests gives them back, whatever they say, if the delimiter is a control character
or a byte that no text contains. With any other delimiter some request is lost.
-/
namespace DocClient

open Json Text

variable {d : UInt8} {r : Request} {rs : List Request} {bs : Bytes}

theorem Keyword.read_text (k : Keyword) (rest : List Char) :
    Keyword.read (stringChars k.text ++ rest) = .ok (k, rest) := by
  have hread := stringRest_chars k.text rest
  have hgap : isGap '"' = false := by decide
  simp only [Keyword.read, stringChars, List.cons_append, List.append_assoc, List.nil_append,
    skipGaps_cons hgap, hread, bind, Except.bind, Keyword.named, Keyword.ofText?_text]

namespace Request

/-- The bytes of requests, each with the delimiter after it. -/
def stream (d : UInt8) (rs : List Request) : Bytes := rs.flatMap (frame d)

/-- The request of a line. -/
def ofBytes? (line : Bytes) : Option Request :=
  match Text.decode line with
  | .ok text => (decode text).toOption
  | .error _ => none

/-- The requests of a stream, if it ends with a delimiter and all its lines are requests. -/
def readBack? (d : UInt8) (bs : Bytes) : Option (List Request) :=
  if (frames d bs).2 = [] then (frames d bs).1.mapM ofBytes? else none

/-- The delimiters that are control characters, or bytes that no text contains. -/
def Safe (d : UInt8) : Prop := d < 0x20 ∨ d = 0xC0 ∨ d = 0xC1 ∨ 0xF5 ≤ d

instance (d : UInt8) : Decidable (Safe d) := by unfold Safe; infer_instance

theorem commandMember_takes (k : Keyword) : ∃ m, record.member? "Command" = some m ∧
    m.isSet ⟨none, none⟩ = false ∧
      m.Takes (.string k.text) fun p => { p with keyword := some k } := by
  refine ⟨_, rfl, rfl, fun rest => ?_⟩
  simp only [chars, Keyword.read_text]
  rfl

theorem dataMember_takes (k : Keyword) (s : String) : ∃ m, record.member? "Data" = some m ∧
    m.isSet ⟨some k, none⟩ = false ∧
      m.Takes (.string s) fun p => { p with data := some (some s) } := by
  refine ⟨_, rfl, rfl, fun rest => ?_⟩
  have hread : scanString "a string" (stringChars s ++ rest) = .ok (s, rest) :=
    scanString_chars s rest
  rw [stringChars, List.cons_append, List.cons_append] at hread
  simp only [chars, stringChars, List.cons_append, scanOption_quote hread]
  rfl

theorem accepts_toJson (r : Request) :
    record.Accepts record.empty (("Command", .string r.keyword.text)
      :: r.data.toList.map fun d => ("Data", .string d)) ⟨some r.keyword, r.data.map some⟩ := by
  obtain ⟨k, data⟩ := r
  obtain ⟨m, hm, hset, htakes⟩ := commandMember_takes k
  refine .cons hm hset htakes ?_
  cases data with
  | none => exact .nil
  | some s =>
    obtain ⟨m, hm, hset, htakes⟩ := dataMember_takes k s
    exact .cons hm hset htakes .nil

/-- A line is the text of its request. -/
theorem decode_line (r : Request) : decode r.line = .ok r := by
  have hread : record.read (r.toJson.chars ++ [])
      = record.close ⟨some r.keyword, r.data.map some⟩ [] :=
    Record.read_object (accepts_toJson r) (List.cons_ne_nil _ _)
  rw [List.append_nil] at hread
  rw [decode, line, render, String.toList_ofList, readAll, hread]
  obtain ⟨k, data⟩ := r
  cases data <;> rfl

theorem line_inj {r r' : Request} (h : r.line = r'.line) : r = r' := by
  have hdecoded : decode r.line = decode r'.line := congrArg decode h
  rw [decode_line, decode_line] at hdecoded
  exact Except.ok.inj hdecoded

theorem ofBytes?_line (r : Request) : ofBytes? (utf8 r.line) = some r := by
  simp only [ofBytes?, decode_utf8, decode_line]
  rfl

/-- Lines that do not contain the delimiter are found again. -/
theorem frames_stream (h : ∀ r ∈ rs, d ∉ utf8 r.line) :
    frames d (stream d rs) = (rs.map fun r => utf8 r.line, []) := by
  refine frames_eq ⟨?_, ?_, List.not_mem_nil⟩
  · rw [List.append_nil, List.flatMap_map]
    rfl
  · intro line hl
    obtain ⟨r, hr, rfl⟩ := List.mem_map.mp hl
    exact h r hr

theorem mapM_ofBytes? (rs : List Request) :
    (rs.map fun r => utf8 r.line).mapM ofBytes? = some rs := by
  induction rs with
  | nil => rfl
  | cons r rs ih => simp [ofBytes?_line, ih]

theorem not_mem_line_of_safe (h : Safe d) (r : Request) : d ∉ utf8 r.line := by
  intro hd
  obtain ⟨c, hc, hb⟩ := List.mem_flatMap.mp hd
  have hp := line_printable r c hc
  have hcases := mem_encoded (encoded_charBytes c) hb (toNat_lt c)
  simp only [Safe, UInt8.lt_iff_toNat_lt, UInt8.le_iff_toNat_le, ← UInt8.toNat_inj,
    UInt8.reduceToNat] at h
  omega

/-- A character with a given byte in its encoding, if there is one. -/
def carrier (d : Nat) : Char :=
  .ofNat <|
    if d < 0xC0 then d
    else if d < 0xE0 then (d - 0xC0) * 64
    else if d = 0xE0 then 0x800
    else if d < 0xF0 then (d - 0xE0) * 4096
    else if d = 0xF0 then 0x10000
    else (d - 0xF0) * 262144

theorem mem_carrier (h : ¬ Safe d) : d ∈ (escapeChar (carrier d.toNat)).flatMap charBytes := by
  have hall : ∀ n < 256, ¬ Safe (.ofNat n) →
      UInt8.ofNat n ∈ (escapeChar (carrier n)).flatMap charBytes := by decide +kernel
  have hd : UInt8.ofNat d.toNat = d := UInt8.ofNat_toNat
  have hmem := hall d.toNat d.toNat_lt
  rw [hd] at hmem
  exact hmem h

theorem mem_query_line {s : String} {c : Char} (hc : c ∈ s.toList)
    (hd : d ∈ (escapeChar c).flatMap charBytes) : d ∈ utf8 (query s).line := by
  obtain ⟨c', hc', hb⟩ := List.mem_flatMap.mp hd
  refine List.mem_flatMap.mpr ⟨c', ?_, hb⟩
  have hs : c' ∈ s.toList.flatMap escapeChar := List.mem_flatMap.mpr ⟨c, hc, hc'⟩
  simp [line, toJson, render, chars, query, membersChars, stringChars, hs]

theorem stream_append (rs rs' : List Request) :
    stream d (rs ++ rs') = stream d rs ++ stream d rs' :=
  List.flatMap_append

theorem count_frame (d : UInt8) (r : Request) :
    (r.frame d).count d = (utf8 r.line).count d + 1 := by
  simp [frame]

theorem length_le_count_stream (rs : List Request) : rs.length ≤ (stream d rs).count d := by
  induction rs with
  | nil => exact Nat.zero_le _
  | cons r rs ih =>
    have hcount := count_frame d r
    simp only [stream, List.flatMap_cons, List.count_append, List.length_cons] at ih ⊢
    omega

/-- A stream with the delimiter in one of its lines has more lines than requests. -/
theorem length_lt_frames_stream (hr : r ∈ rs) (hd : d ∈ utf8 r.line) :
    rs.length < (frames d (stream d rs)).1.length := by
  obtain ⟨before, after, rfl⟩ := List.append_of_mem hr
  have hbefore := length_le_count_stream (d := d) before
  have hafter := length_le_count_stream (d := d) after
  have hframe := count_frame d r
  have hpos := List.count_pos_iff.mpr hd
  have hstream : stream d (r :: after) = r.frame d ++ stream d after := rfl
  rw [length_frames, stream_append, hstream]
  simp only [List.count_append, List.length_append, List.length_cons]
  omega

theorem length_eq_of_mapM {lines : List Bytes} (h : lines.mapM ofBytes? = some rs) :
    lines.length = rs.length := by
  induction lines generalizing rs with
  | nil =>
    obtain rfl : [] = rs := Option.some.inj h
    rfl
  | cons line lines ih =>
    simp only [List.mapM_cons, bind, Option.bind_eq_some_iff, pure, Option.some.injEq] at h
    obtain ⟨r, -, rs, hrs, rfl⟩ := h
    rw [List.length_cons, List.length_cons, ih hrs]

theorem length_eq_of_readBack? (h : readBack? d bs = some rs) :
    (frames d bs).1.length = rs.length := by
  unfold readBack? at h
  split at h
  · exact length_eq_of_mapM h
  · exact absurd h (by simp)

/-- A stream is read back for the safe delimiters; for any other there is a request, the line of
which contains it, and no stream with this request in it is read back. -/
theorem stream_read_back (d : UInt8) :
    (Safe d → ∀ rs, readBack? d (stream d rs) = some rs) ∧
      (¬ Safe d → ∃ r : Request, d ∈ utf8 r.line ∧
        ∀ rs, r ∈ rs → readBack? d (stream d rs) ≠ some rs) := by
  constructor
  · intro hsafe rs
    have hframes : frames d (stream d rs) = (rs.map fun r => utf8 r.line, []) :=
      frames_stream fun r _ => not_mem_line_of_safe hsafe r
    rw [readBack?, hframes, if_pos rfl, mapM_ofBytes?]
  · intro hsafe
    have hline : d ∈ utf8 (query (String.singleton (carrier d.toNat))).line :=
      mem_query_line (by simp) (mem_carrier hsafe)
    refine ⟨_, hline, fun rs hr hback => ?_⟩
    have hlength := length_eq_of_readBack? hback
    have hlt := length_lt_frames_stream hr hline
    omega

/-- A newline is safe; a quote, which stands in every line, is not. -/
theorem stream_read_back_newline :
    (∀ rs, readBack? 0x0A (stream 0x0A rs) = some rs) ∧
      ∃ r : Request, 0x22 ∈ utf8 r.line ∧
        ∀ rs, r ∈ rs → readBack? 0x22 (stream 0x22 rs) ≠ some rs :=
  ⟨(stream_read_back 0x0A).1 (by decide), (stream_read_back 0x22).2 (by decide)⟩

end Request

end DocClient
