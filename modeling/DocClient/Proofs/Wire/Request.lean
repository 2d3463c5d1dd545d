import DocClient.Proofs.Json.Printer
import DocClient.Proofs.Text.Frame
import DocClient.Proofs.Text.Utf8
import DocClient.Wire.Request

/-!
The frames in which requests travel. A frame shows the keyword of its request, and with a control
byte for delimiter it is one line.
-/
namespace DocClient.Request

open Text (Bytes)

variable {d : UInt8} {r r' : Request}

/-- The line of a request with the delimiter that ends it. -/
def frame (d : UInt8) (r : Request) : Bytes := Text.utf8 r.line ++ [d]

theorem stringChars_keyword (k : Keyword) :
    Json.stringChars k.text = '"' :: (k.text.toList ++ ['"']) := by
  cases k <;> decide

theorem toList_line (r : Request) :
    ∃ rest, r.line.toList
      = "\x7b\"Command\":\"".toList ++ (r.keyword.text.toList ++ '"' :: rest) := by
  obtain ⟨k, data⟩ := r
  have hopen : '\x7b' :: (Json.stringChars "Command" ++ [':', '"'])
      = "\x7b\"Command\":\"".toList := by decide
  rw [← hopen, line, Json.render, String.toList_ofList]
  cases data with
  | none =>
    refine ⟨['\x7d'], ?_⟩
    simp only [toJson, Json.chars, Option.toList, List.map_nil, Json.membersChars,
      stringChars_keyword, List.cons_append, List.append_assoc, List.nil_append]
  | some data =>
    refine ⟨',' :: (Json.stringChars "Data" ++ ':' :: (Json.stringChars data ++ ['\x7d'])), ?_⟩
    simp only [toJson, Json.chars, Option.toList, List.map_cons, List.map_nil, Json.membersChars,
      stringChars_keyword, List.cons_append, List.append_assoc, List.nil_append]

/-- A keyword ends at the first quote. -/
theorem takeWhile_keyword (k : Keyword) (rest : Bytes) :
    (Text.utf8 k.text ++ 34 :: rest).takeWhile (· ≠ 34) = Text.utf8 k.text := by
  have hquote : (Text.utf8 k.text).all (· ≠ 34) = true := by cases k <;> decide
  rw [List.takeWhile_append_of_pos (List.all_eq_true.mp hquote)]
  simp

/-- No keyword is the beginning of another, up to the quote that ends it. -/
theorem keyword_eq {k k' : Keyword} {rest rest' : Bytes}
    (h : Text.utf8 k.text ++ 34 :: rest = Text.utf8 k'.text ++ 34 :: rest') : k = k' := by
  have htext := congrArg (List.takeWhile (· ≠ 34)) h
  rw [takeWhile_keyword, takeWhile_keyword] at htext
  cases k <;> cases k' <;> first | rfl | exact absurd htext (by decide)

theorem keyword_of_frame (h : frame d r = frame d r') : r.keyword = r'.keyword := by
  obtain ⟨rest, hr⟩ := toList_line r
  obtain ⟨rest', hr'⟩ := toList_line r'
  have hq : Text.charBytes '"' = [34] := by decide
  simp only [frame, Text.utf8, hr, hr', List.flatMap_append, List.flatMap_cons, List.append_assoc,
    List.append_cancel_left_eq, hq, List.cons_append, List.nil_append] at h
  exact keyword_eq h

theorem line_printable (r : Request) : Printable r.line.toList := by
  rw [line, Json.render, String.toList_ofList]
  exact Json.chars_printable r.toJson

theorem frames_frame (hd : d.toNat < 32) (r : Request) :
    Text.frames d (r.frame d) = ([Text.utf8 r.line], []) := by
  apply Text.frames_append
  intro hm
  have hb := Text.control_not_mem_utf8 (line_printable r) hm
  omega

end DocClient.Request
