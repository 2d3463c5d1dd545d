import DocClient.Text.Frame

/-! A stream is its frames, each with its delimiter, and a rest: there is one way to cut it. -/
namespace DocClient.Text

variable {d : UInt8} {bs frame rest : Bytes} {lines : List Bytes}

/-- Bytes that consist of complete lines and an unfinished one. -/
structure Lines (d : UInt8) (bs : Bytes) (lines : List Bytes) (rest : Bytes) : Prop where
  joined : bs = lines.flatMap (· ++ [d]) ++ rest
  clean : ∀ line ∈ lines, d ∉ line
  unfinished : d ∉ rest

theorem frames_cons_self (d : UInt8) (bs : Bytes) :
    frames d (d :: bs) = ([] :: (frames d bs).1, (frames d bs).2) := by
  simp [frames]

theorem frames_of_not_mem (h : d ∉ rest) : frames d rest = ([], rest) := by
  induction rest with
  | nil => rfl
  | cons b rest ih =>
    obtain ⟨hb, hr⟩ := not_or.mp (mt List.mem_cons.mpr h)
    simp [frames, Ne.symm hb, ih hr]

/-- The first frame ends at the first delimiter. -/
theorem frames_append (h : d ∉ frame) :
    frames d (frame ++ d :: bs) = (frame :: (frames d bs).1, (frames d bs).2) := by
  induction frame with
  | nil => exact frames_cons_self d bs
  | cons b frame ih =>
    obtain ⟨hb, hf⟩ := not_or.mp (mt List.mem_cons.mpr h)
    simp [frames, Ne.symm hb, ih hf]

theorem lines_frames (d : UInt8) (bs : Bytes) : Lines d bs (frames d bs).1 (frames d bs).2 := by
  induction bs with
  | nil => exact ⟨rfl, by simp [frames], by simp [frames]⟩
  | cons b bs ih =>
    obtain ⟨hj, hc, hu⟩ := ih
    by_cases hb : b = d
    · subst b
      rw [frames_cons_self]
      refine ⟨by simpa using hj, ?_, hu⟩
      intro line hl
      rcases List.mem_cons.mp hl with rfl | hl
      · simp
      · exact hc line hl
    · cases hd : (frames d bs).1 with
      | nil =>
        rw [hd] at hj
        refine ⟨by simpa [frames, hb, hd] using hj, by simp [frames, hb, hd], ?_⟩
        simpa [frames, hb, hd, Ne.symm hb] using hu
      | cons frame more =>
        rw [hd] at hj hc
        refine ⟨by simpa [frames, hb, hd] using hj, ?_, by simpa [frames, hb, hd] using hu⟩
        intro line hl
        simp only [frames, hb, hd, if_false, List.mem_cons] at hl
        rcases hl with rfl | hl
        · simp [Ne.symm hb, hc frame (by simp)]
        · exact hc line (by simp [hl])

theorem frames_eq (h : Lines d bs lines rest) : frames d bs = (lines, rest) := by
  obtain ⟨rfl, hc, hu⟩ := h
  induction lines with
  | nil => simpa using frames_of_not_mem hu
  | cons line lines ih =>
    have he : (line :: lines).flatMap (· ++ [d]) ++ rest
        = line ++ d :: (lines.flatMap (· ++ [d]) ++ rest) := by simp
    have hlines : ∀ l ∈ lines, d ∉ l := by
      intro l hl
      exact hc l (by simp [hl])
    rw [he, frames_append (hc line (by simp)), ih hlines]

/-- There are as many frames as delimiters. -/
theorem length_frames (d : UInt8) (bs : Bytes) : (frames d bs).1.length = bs.count d := by
  induction bs with
  | nil => rfl
  | cons b bs ih =>
    by_cases hb : b = d
    · subst b
      rw [frames_cons_self, List.length_cons, List.count_cons_self, ih]
    · rw [List.count_cons_of_ne hb, ← ih]
      cases hd : (frames d bs).1 <;> simp [frames, hb, hd]

/-- A frame that is written whole leaves no unfinished line. -/
theorem frames_concat_rest (d : UInt8) (bs : Bytes) : (frames d (bs ++ [d])).2 = [] := by
  have h := lines_frames d bs
  have hl : Lines d (bs ++ [d]) ((frames d bs).1 ++ [(frames d bs).2]) [] := by
    refine ⟨?_, ?_, by simp⟩
    · simpa using congrArg (· ++ [d]) h.joined
    · intro line hm
      rcases List.mem_append.mp hm with hm | hm
      · exact h.clean line hm
      · rw [List.mem_singleton.mp hm]
        exact h.unfinished
  rw [frames_eq hl]

end DocClient.Text
