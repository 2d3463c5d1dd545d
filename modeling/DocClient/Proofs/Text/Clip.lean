import DocClient.Proofs.Text.Decode
import DocClient.Text.Clip

/-!
A text that is too long is cut between two characters, as late as it can be. A boundary is never
more than three bytes away, since no character takes more than four.
-/
namespace DocClient.Text

variable {b : UInt8} {c : Char} {cs front back : List Char} {bytes block rest : Bytes}
  {place room i : Nat} {text shown : String}

/-- A character has one byte with which it starts; with the others, three at most, it goes on. -/
theorem charBytes_split (c : Char) : ∃ b tail, charBytes c = b :: tail ∧ isTail b = false ∧
    (∀ t ∈ tail, isTail t = true) ∧ tail.length ≤ 3 := by
  have hmax := toNat_lt c
  have hbytes := encoded_charBytes c
  generalize c.toNat = n at hmax hbytes
  generalize charBytes c = bytes at hbytes
  have hlead {m : Nat} (hm : m < 0x80 ∨ 0xC0 ≤ m) (hbyte : m < 256) :
      isTail (.ofNat m) = false := by
    rw [Bool.eq_false_iff, Ne, isTail_iff, toNat_byte hbyte]
    omega
  have htails {m : Nat} {tail : Bytes} (h : ∀ t ∈ tail, isTail t = true) :
      ∀ t ∈ .ofNat (0x80 + m % 64) :: tail, isTail t = true :=
    List.forall_mem_cons.mpr ⟨isTail_byte (Nat.mod_lt m (by decide)), h⟩
  cases hbytes with
  | one hn => exact ⟨_, [], rfl, hlead (Or.inl hn) (by omega), nofun, by simp⟩
  | two low high =>
    exact ⟨_, [_], rfl, hlead (Or.inr (by omega)) (by omega), htails nofun, by simp⟩
  | three low high =>
    exact ⟨_, [_, _], rfl, hlead (Or.inr (by omega)) (by omega), htails (htails nofun), by simp⟩
  | four low high =>
    exact ⟨_, [_, _, _], rfl, hlead (Or.inr (by omega)) (by omega),
      htails (htails (htails nofun)), by simp⟩

section Boundaries

theorem isBoundary_zero (bytes : Bytes) : isBoundary bytes 0 = true := rfl

/-- A boundary behind some bytes is one of what comes after them. -/
theorem isBoundary_append (hi : i ≠ 0) :
    isBoundary (block ++ rest) (block.length + i) = isBoundary rest i := by
  have hplace : (block.length + i == 0) = (i == 0) := by
    rw [beq_false_of_ne hi]
    exact beq_false_of_ne (by omega)
  have hlast : (block.length + i == (block ++ rest).length) = (i == rest.length) := by
    rw [List.length_append, Bool.eq_iff_iff, beq_iff_eq, beq_iff_eq]
    omega
  have hbyte : (block ++ rest)[block.length + i]? = rest[i]? := by
    rw [List.getElem?_append_right (Nat.le_add_right _ _), Nat.add_sub_cancel_left]
  rw [isBoundary, isBoundary, hplace, hlast, hbyte]

theorem isBoundary_length (bytes : Bytes) : isBoundary bytes bytes.length = true := by
  simp [isBoundary]

/-- Where one character ends and another starts there is a boundary. -/
theorem isBoundary_between (front back : List Char) :
    isBoundary ((front ++ back).flatMap charBytes) (front.flatMap charBytes).length = true := by
  rw [List.flatMap_append]
  cases back with
  | nil =>
    rw [List.flatMap_nil, List.append_nil]
    exact isBoundary_length _
  | cons c back =>
    obtain ⟨b, tail, hb, hstart, -⟩ := charBytes_split c
    simp [isBoundary, hb, hstart]

/-- Inside a character there is no boundary. -/
theorem isBoundary_within (hi : i ≠ 0) (hc : i < (charBytes c).length) :
    isBoundary (charBytes c ++ rest) i = false := by
  obtain ⟨b, tail, hb, -, htail, -⟩ := charBytes_split c
  obtain ⟨j, rfl⟩ := Nat.exists_eq_succ_of_ne_zero hi
  have hj : j < tail.length := by simpa [hb] using hc
  have hbyte : (charBytes c ++ rest)[j + 1]? = some tail[j] := by
    rw [hb, List.cons_append, List.getElem?_cons_succ, List.getElem?_append_left hj,
      List.getElem?_eq_getElem hj]
  simp [isBoundary, hbyte, htail _ (List.getElem_mem hj)]

/-- The boundaries are the places between the characters. -/
theorem isBoundary_iff : isBoundary (cs.flatMap charBytes) i = true ↔
    ∃ front back, cs = front ++ back ∧ (front.flatMap charBytes).length = i := by
  constructor
  · intro h
    induction cs generalizing i with
    | nil =>
      refine ⟨[], [], rfl, ?_⟩
      cases i with
      | zero => rfl
      | succ i => simp [isBoundary] at h
    | cons c cs ih =>
      by_cases hi : i = 0
      · exact ⟨[], c :: cs, rfl, hi.symm⟩
      rw [List.flatMap_cons] at h
      by_cases hc : i < (charBytes c).length
      · simp [isBoundary_within hi hc] at h
      obtain ⟨j, rfl⟩ := Nat.exists_eq_add_of_le (Nat.not_lt.mp hc)
      have hj : isBoundary (cs.flatMap charBytes) j = true := by
        by_cases hz : j = 0
        · exact hz ▸ isBoundary_zero _
        · rwa [isBoundary_append hz] at h
      obtain ⟨front, back, rfl, rfl⟩ := ih hj
      exact ⟨c :: front, back, rfl, by simp⟩
  · rintro ⟨front, back, rfl, rfl⟩
    exact isBoundary_between front back

/-- The search ends, at the latest at the front, and passes over no boundary. -/
theorem lastBoundary?_eq_some (bytes : Bytes) (place : Nat) :
    ∃ i ≤ place, lastBoundary? bytes place = some i ∧ isBoundary bytes i = true ∧
      ∀ j ≤ place, isBoundary bytes j = true → j ≤ i := by
  induction place with
  | zero => exact ⟨0, Nat.le_refl 0, rfl, rfl, fun j hj _ => hj⟩
  | succ place ih =>
    cases hb : isBoundary bytes (place + 1) with
    | true =>
      refine ⟨place + 1, Nat.le_refl _, ?_, hb, fun j hj _ => hj⟩
      rw [lastBoundary?, if_pos hb]
    | false =>
      obtain ⟨i, hi, hsome, hbi, hlast⟩ := ih
      refine ⟨i, Nat.le_succ_of_le hi, ?_, hbi, ?_⟩
      · rw [lastBoundary?, if_neg (by simp [hb])]
        exact hsome
      · intro j hj hbj
        refine hlast j (Nat.le_of_lt_succ (Nat.lt_of_le_of_ne hj ?_)) hbj
        rintro rfl
        simp [hb] at hbj

/-- Bytes are cut at a boundary without damage. -/
theorem front?_eq_some (front back : List Char) :
    front? ((front ++ back).flatMap charBytes) (front.flatMap charBytes).length
      = some (String.ofList front) := by
  have htake : ((front ++ back).flatMap charBytes).take (front.flatMap charBytes).length
      = utf8 (String.ofList front) := by
    simp [utf8]
  rw [front?, if_pos (isBoundary_between front back), htake, decode_utf8]
  rfl

end Boundaries

/-- The longest beginning of a text that takes no more than the given number of bytes. -/
structure Clips (room : Nat) (text shown : String) : Prop where
  beginning : shown.toList <+: text.toList
  fits : (utf8 shown).length ≤ room
  longest : ∀ front : String, front.toList <+: text.toList → (utf8 front).length ≤ room →
    front.toList <+: shown.toList

/-- Of two beginnings of a text the one with fewer bytes is a beginning of the other. -/
theorem prefix_of_length_le (hf : front <+: cs) (hb : back <+: cs)
    (h : (front.flatMap charBytes).length ≤ (back.flatMap charBytes).length) : front <+: back := by
  rcases List.prefix_or_prefix_of_prefix hf hb with hle | ⟨more, rfl⟩
  · exact hle
  cases more with
  | nil => simp
  | cons c more =>
    have hpos := List.length_pos_iff.mpr (charBytes_ne_nil c)
    simp only [List.flatMap_append, List.flatMap_cons, List.length_append] at h
    omega

theorem clips_whole (h : (utf8 text).length ≤ room) : Clips room text text where
  beginning := List.prefix_refl _
  fits := h
  longest _ hf _ := hf

/-- What is left out of a text that is too long starts with a character that does not fit. -/
theorem Clips.filled (h : Clips room text shown) (hlong : room < (utf8 text).length) :
    room ≤ (utf8 shown).length + 3 := by
  obtain ⟨more, hmore⟩ := h.beginning
  cases more with
  | nil =>
    have hall : shown = text := String.toList_inj.mp (by simpa using hmore)
    exact absurd (hall ▸ h.fits) (Nat.not_le.mpr hlong)
  | cons c more =>
    obtain ⟨b, tail, hb, -, -, htail⟩ := charBytes_split c
    have hsize : (utf8 (shown ++ String.ofList [c])).length ≤ (utf8 shown).length + 4 := by
      simp [utf8, hb]
      omega
    apply Nat.not_lt.mp
    intro hroom
    have hprefix : (shown ++ String.ofList [c]).toList <+: shown.toList := by
      apply h.longest
      · exact ⟨more, by simp [← hmore]⟩
      · omega
    have hlength := hprefix.length_le
    rw [String.toList_append, String.toList_ofList, List.length_append, List.length_singleton]
      at hlength
    omega

/-- Neither the search nor the cut ever fails, and what they give is the longest beginning. -/
theorem clip?_eq_some (room : Nat) (text : String) :
    ∃ shown, clip? room text = some shown ∧ Clips room text shown := by
  by_cases hshort : (utf8 text).length ≤ room
  · exact ⟨text, if_pos hshort, clips_whole hshort⟩
  obtain ⟨i, hi, hsome, hb, hlast⟩ := lastBoundary?_eq_some (utf8 text) room
  obtain ⟨front, back, hcs, rfl⟩ := isBoundary_iff.mp hb
  refine ⟨String.ofList front, ?_, ?_⟩
  · rw [clip?, if_neg hshort, hsome]
    simp only [utf8, hcs]
    exact front?_eq_some front back
  · have hfront : (String.ofList front).toList <+: text.toList := by simp [hcs]
    refine ⟨hfront, by simpa [utf8] using hi, ?_⟩
    intro other hother hfits
    refine prefix_of_length_le hother hfront ?_
    have hbother : isBoundary (utf8 text) (utf8 other).length = true := by
      obtain ⟨more, hmore⟩ := hother
      rw [utf8, ← hmore]
      exact isBoundary_between _ _
    simpa [utf8] using hlast _ hfits hbother

end DocClient.Text
