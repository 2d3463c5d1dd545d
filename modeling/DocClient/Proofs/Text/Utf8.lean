import DocClient.Text.Utf8

/-! Which bytes the encoding of a text consists of. -/
namespace DocClient.Text

variable {c : Char} {b : UInt8}

/-- A byte of a character is the character itself, or it is no ASCII byte. -/
theorem mem_charBytes (h : b ∈ charBytes c) :
    (b.toNat = c.toNat ∧ c.toNat < 128) ∨ 128 ≤ b.toNat := by
  have hv : c.toNat = c.val.toNat := rfl
  unfold charBytes String.utf8EncodeChar at h
  simp only at h
  split at h
  · obtain rfl := List.mem_singleton.mp h
    left
    simp only [UInt8.toNat_ofNat']
    omega
  · right
    split at h
    · simp only [List.mem_cons, List.not_mem_nil, or_false] at h
      rcases h with rfl | rfl <;> simp only [UInt8.toNat_ofNat'] <;> omega
    · split at h
      · simp only [List.mem_cons, List.not_mem_nil, or_false] at h
        rcases h with rfl | rfl | rfl <;> simp only [UInt8.toNat_ofNat'] <;> omega
      · simp only [List.mem_cons, List.not_mem_nil, or_false] at h
        rcases h with rfl | rfl | rfl | rfl <;> simp only [UInt8.toNat_ofNat'] <;> omega

/-- A text without control characters is encoded without control bytes. -/
theorem control_not_mem_utf8 {text : String} (h : ∀ c ∈ text.toList, 32 ≤ c.toNat)
    (hb : b ∈ utf8 text) : 32 ≤ b.toNat := by
  obtain ⟨c, hc, hbc⟩ := List.mem_flatMap.mp hb
  have hp := h c hc
  rcases mem_charBytes hbc with ⟨he, -⟩ | hle <;> omega

end DocClient.Text
