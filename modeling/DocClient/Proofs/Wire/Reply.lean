import DocClient.Proofs.Text.Clip
import DocClient.Wire.Reply

/-! What is said of a line that is no reply, and how much of the line is shown. -/
namespace DocClient.Reply

variable {line : String}

/-- A line that is no reply is malformed, or its JSON is no object; both are said with its
excerpt. -/
theorem parse_cases (line : String) :
    (∃ r, parse line = .ok r) ∨ (∃ detail, parse line = .error (malformed line detail)) ∨
      parse line
        = .error (.protocol ("expected a JSON object, got " ++ Text.quoted (excerpt line))) := by
  unfold parse
  split
  · exact Or.inr (Or.inl ⟨_, rfl⟩)
  · split
    · exact Or.inl ⟨_, rfl⟩
    · exact Or.inr (Or.inl ⟨_, rfl⟩)
  · exact Or.inr (Or.inr rfl)

theorem parse_error {f : Failure} (h : parse line = .error f) :
    ∃ detail, f = .protocol ("malformed response " ++ detail) ∨
      f = .protocol ("expected a JSON object, got " ++ detail) := by
  rcases parse_cases line with ⟨r, hr⟩ | ⟨detail, hd⟩ | ho
  · simp [hr] at h
  · obtain rfl := Except.error.inj (h.symm.trans hd)
    refine ⟨Text.quoted (excerpt line) ++ ": " ++ detail, Or.inl ?_⟩
    simp [malformed, String.append_assoc]
  · obtain rfl := Except.error.inj (h.symm.trans ho)
    exact ⟨_, Or.inr rfl⟩

theorem clip?_excerpt (line : String) :
    Text.clip? shownBytes line = some (excerpt line) ∧
      Text.Clips shownBytes line (excerpt line) := by
  obtain ⟨shown, hclip, hclips⟩ := Text.clip?_eq_some shownBytes line
  have hexcerpt : excerpt line = shown := by rw [excerpt, hclip, Option.getD_some]
  exact hexcerpt ▸ ⟨hclip, hclips⟩

/-- Every line has an excerpt: the search for its end and the cut at it succeed. It is the longest
beginning of whole characters that takes at most 120 bytes, which is the line itself or not more
than three bytes short of them; so whatever is wrong with a line, it can be said. -/
theorem excerpt_longest (line : String) :
    Text.clip? 120 line = some (excerpt line) ∧ Text.Clips 120 line (excerpt line) ∧
      ((Text.utf8 line).length ≤ 120 → excerpt line = line) ∧
      (120 < (Text.utf8 line).length → 117 ≤ (Text.utf8 (excerpt line)).length ∧
        (Text.utf8 (excerpt line)).length ≤ 120) ∧
      ((∃ r, parse line = .ok r) ∨ ∃ shown, Text.clip? 120 line = some shown ∧
        ((∃ detail, parse line = .error (.protocol
            ("malformed response " ++ Text.quoted shown ++ ": " ++ detail))) ∨
          parse line
            = .error (.protocol ("expected a JSON object, got " ++ Text.quoted shown)))) := by
  obtain ⟨hclip, hclips⟩ := clip?_excerpt line
  refine ⟨hclip, hclips, ?_, ?_, ?_⟩
  · intro hshort
    have hwhole : Text.clip? 120 line = some line := if_pos hshort
    exact Option.some.inj (hclip.symm.trans hwhole)
  · intro hlong
    have hfilled : 120 ≤ (Text.utf8 (excerpt line)).length + 3 := hclips.filled hlong
    exact ⟨by omega, hclips.fits⟩
  · exact (parse_cases line).imp id fun hf => ⟨excerpt line, hclip, hf⟩

/-- A line of 121 bytes, of which the last two are one character. -/
def accented : String := String.ofList ('x' :: List.replicate 60 'é')

theorem excerpt_longest_accented : 120 < (Text.utf8 accented).length ∧
    117 ≤ (Text.utf8 (excerpt accented)).length ∧
    (Text.utf8 (excerpt accented)).length ≤ 120 ∧
    'x' :: List.replicate 59 'é' <+: (excerpt accented).toList ∧ excerpt "null" = "null" := by
  have hlong : 120 < (Text.utf8 accented).length := by decide +kernel
  obtain ⟨-, hclips, -, hcut, -⟩ := excerpt_longest accented
  obtain ⟨-, -, hwhole, -⟩ := excerpt_longest "null"
  have hfront : 'x' :: List.replicate 59 'é' <+: (excerpt accented).toList := by
    have hchars : accented.toList = 'x' :: List.replicate 60 'é' := String.toList_ofList
    have hline : 'x' :: List.replicate 59 'é' <+: accented.toList := by
      rw [hchars]
      exact ⟨['é'], rfl⟩
    have hlongest := hclips.longest (String.ofList ('x' :: List.replicate 59 'é'))
    rw [String.toList_ofList] at hlongest
    exact hlongest hline (by decide +kernel)
  exact ⟨hlong, (hcut hlong).1, (hcut hlong).2, hfront, hwhole (by decide)⟩

end DocClient.Reply
