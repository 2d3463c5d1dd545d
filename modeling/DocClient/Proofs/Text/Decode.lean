import DocClient.Text.Utf8

/-!
What is encoded is decoded: the bytes of a text are cut into its characters again, and they stand
in the order of the texts.
-/
namespace DocClient.Text

variable {a b : UInt8} {c c' : Char} {cs : List Char} {bs bs' : Bytes}

/-- The bytes of a character, by how many they are. -/
inductive Encoded (n : Nat) : Bytes → Prop
  | one (hn : n < 0x80) : Encoded n [.ofNat n]
  | two (low : 0x80 ≤ n) (high : n < 0x800) :
      Encoded n [.ofNat (0xC0 + n / 64), .ofNat (0x80 + n % 64)]
  | three (low : 0x800 ≤ n) (high : n < 0x10000) :
      Encoded n [.ofNat (0xE0 + n / 4096), .ofNat (0x80 + n / 64 % 64), .ofNat (0x80 + n % 64)]
  | four (low : 0x10000 ≤ n) (high : n < 0x110000) :
      Encoded n [.ofNat (0xF0 + n / 262144), .ofNat (0x80 + n / 4096 % 64),
        .ofNat (0x80 + n / 64 % 64), .ofNat (0x80 + n % 64)]

theorem toNat_lt (c : Char) : c.toNat < 0x110000 := by
  rcases c.valid with h | ⟨-, h⟩ <;> simp only [Char.toNat] <;> omega

theorem encoded_charBytes (c : Char) : Encoded c.toNat (charBytes c) := by
  have hmax := toNat_lt c
  have hval : c.val.toNat = c.toNat := rfl
  unfold charBytes String.utf8EncodeChar
  simp only [hval]
  split
  · exact .one (by omega)
  · split
    · rw [show c.toNat / 64 % 32 + 0xC0 = 0xC0 + c.toNat / 64 by omega, Nat.add_comm _ 0x80]
      exact .two (by omega) (by omega)
    · split
      · rw [show c.toNat / 4096 % 16 + 0xE0 = 0xE0 + c.toNat / 4096 by omega, Nat.add_comm _ 0x80,
          Nat.add_comm _ 0x80]
        exact .three (by omega) (by omega)
      · rw [show c.toNat / 262144 % 8 + 0xF0 = 0xF0 + c.toNat / 262144 by omega,
          Nat.add_comm _ 0x80, Nat.add_comm _ 0x80, Nat.add_comm _ 0x80]
        exact .four (by omega) (by omega)

theorem toNat_byte {n : Nat} (h : n < 256) : (UInt8.ofNat n).toNat = n := by
  simp only [UInt8.toNat_ofNat']
  omega

theorem lead_one (h : a.toNat < 0x80) : lead a = .one := by
  simp only [lead, UInt8.lt_iff_toNat_lt, UInt8.reduceToNat, h, if_true]

theorem lead_two (low : 0xC2 ≤ a.toNat) (high : a.toNat < 0xE0) : lead a = .two := by
  simp only [lead, UInt8.lt_iff_toNat_lt, UInt8.reduceToNat]
  rw [if_neg (by omega), if_neg (by omega), if_pos high]

theorem lead_three (low : 0xE0 ≤ a.toNat) (high : a.toNat < 0xF0) :
    lead a = .three (if a.toNat = 0xE0 then 0xA0 else 0x80)
      (if a.toNat = 0xED then 0x9F else 0xBF) := by
  simp only [lead, UInt8.lt_iff_toNat_lt, ← UInt8.toNat_inj, UInt8.reduceToNat]
  grind

theorem lead_four (low : 0xF0 ≤ a.toNat) (high : a.toNat < 0xF5) :
    lead a = .four (if a.toNat = 0xF0 then 0x90 else 0x80)
      (if a.toNat = 0xF4 then 0x8F else 0xBF) := by
  simp only [lead, UInt8.lt_iff_toNat_lt, ← UInt8.toNat_inj, UInt8.reduceToNat]
  grind

theorem isTail_iff : isTail b = true ↔ 0x80 ≤ b.toNat ∧ b.toNat ≤ 0xBF := by
  simp [isTail, UInt8.le_iff_toNat_le]

theorem isTail_byte {n : Nat} (h : n < 64) : isTail (.ofNat (0x80 + n)) = true := by
  rw [isTail_iff, toNat_byte (by omega)]
  omega

theorem payload_byte {n : Nat} (h : n < 64) : payload (.ofNat (0x80 + n)) = n := by
  rw [payload, toNat_byte (by omega)]
  omega

section Pieces

variable {a₁ a₂ a₃ low high : UInt8}

theorem pieces_one (ha : lead a = .one) :
    pieces (a :: bs) = .char (Char.ofNat a.toNat) :: pieces bs := by
  rw [pieces.eq_def]
  simp only [ha]

theorem pieces_two (ha : lead a = .two) (h₁ : isTail a₁ = true) :
    pieces (a :: a₁ :: bs) = .char (char2 a a₁) :: pieces bs := by
  rw [pieces.eq_def]
  simp only [ha, h₁, if_true]

theorem pieces_three (ha : lead a = .three low high) (h₁ : low ≤ a₁ ∧ a₁ ≤ high)
    (h₂ : isTail a₂ = true) :
    pieces (a :: a₁ :: a₂ :: bs) = .char (char3 a a₁ a₂) :: pieces bs := by
  rw [pieces.eq_def]
  simp only [ha, h₁, h₂, Bool.and_true, decide_true, if_true]

theorem pieces_four (ha : lead a = .four low high) (h₁ : low ≤ a₁ ∧ a₁ ≤ high)
    (h₂ : isTail a₂ = true) (h₃ : isTail a₃ = true) :
    pieces (a :: a₁ :: a₂ :: a₃ :: bs) = .char (char4 a a₁ a₂ a₃) :: pieces bs := by
  rw [pieces.eq_def]
  simp only [ha, h₁, h₂, h₃, Bool.and_true, decide_true, if_true]

end Pieces

/-- The bytes of a character are cut from what comes after them. -/
theorem pieces_charBytes (c : Char) (bs : Bytes) :
    pieces (charBytes c ++ bs) = .char c :: pieces bs := by
  have hc : Char.ofNat c.toNat = c := Char.ofNat_toNat c
  have hscalar : c.toNat < 0xD800 ∨ 0xDFFF < c.toNat ∧ c.toNat < 0x110000 := c.valid
  have hbytes := encoded_charBytes c
  generalize c.toNat = n at hc hscalar hbytes
  generalize charBytes c = bytes at hbytes
  have h₁ := isTail_byte (Nat.mod_lt n (show 0 < 64 by decide))
  have h₂ := isTail_byte (Nat.mod_lt (n / 64) (show 0 < 64 by decide))
  cases hbytes with
  | one low =>
    have ha : (UInt8.ofNat n).toNat = n := toNat_byte (by omega)
    rw [List.singleton_append, pieces_one (lead_one (by omega)), ha, hc]
  | two low high =>
    have ha : (UInt8.ofNat (0xC0 + n / 64)).toNat = 0xC0 + n / 64 := toNat_byte (by omega)
    have hn : (0xC0 + n / 64) % 32 * 64 + n % 64 = n := by omega
    have hlead := lead_two (a := .ofNat (0xC0 + n / 64)) (by omega) (by omega)
    simp only [List.cons_append, List.nil_append, pieces_two hlead h₁]
    rw [char2, ha, payload_byte (by omega), hn, hc]
  | three low high =>
    have ha : (UInt8.ofNat (0xE0 + n / 4096)).toNat = 0xE0 + n / 4096 := toNat_byte (by omega)
    have hn : (0xE0 + n / 4096) % 16 * 4096 + n / 64 % 64 * 64 + n % 64 = n := by omega
    have hlead := lead_three (a := .ofNat (0xE0 + n / 4096)) (by omega) (by omega)
    have hb : (UInt8.ofNat (0x80 + n / 64 % 64)).toNat = 0x80 + n / 64 % 64 :=
      toNat_byte (by omega)
    simp only [List.cons_append, List.nil_append]
    rw [pieces_three hlead ?_ h₁, char3, ha, payload_byte (by omega), payload_byte (by omega), hn,
      hc]
    constructor
    · split <;> simp only [UInt8.le_iff_toNat_le, UInt8.reduceToNat] <;> omega
    · split <;> simp only [UInt8.le_iff_toNat_le, UInt8.reduceToNat] <;> omega
  | four low high =>
    have ha : (UInt8.ofNat (0xF0 + n / 262144)).toNat = 0xF0 + n / 262144 := toNat_byte (by omega)
    have hn : (0xF0 + n / 262144) % 8 * 262144 + n / 4096 % 64 * 4096 + n / 64 % 64 * 64 + n % 64
        = n := by omega
    have hlead := lead_four (a := .ofNat (0xF0 + n / 262144)) (by omega) (by omega)
    have hb : (UInt8.ofNat (0x80 + n / 4096 % 64)).toNat = 0x80 + n / 4096 % 64 :=
      toNat_byte (by omega)
    simp only [List.cons_append, List.nil_append]
    rw [pieces_four hlead ?_ h₂ h₁, char4, ha, payload_byte (by omega), payload_byte (by omega),
      payload_byte (by omega), hn, hc]
    constructor
    · split <;> simp only [UInt8.le_iff_toNat_le, UInt8.reduceToNat] <;> omega
    · split <;> simp only [UInt8.le_iff_toNat_le, UInt8.reduceToNat] <;> omega

theorem strict_charBytes (cs : List Char) (index : Nat) :
    strict index (pieces (cs.flatMap charBytes)) = .ok cs := by
  induction cs generalizing index with
  | nil => simp [pieces, strict]
  | cons c cs ih =>
    rw [List.flatMap_cons, pieces_charBytes, strict, ih]
    rfl

/-- Decoding is the inverse of encoding. -/
theorem decode_utf8 (s : String) : decode (utf8 s) = .ok s := by
  rw [decode, utf8, strict_charBytes]
  exact congrArg Except.ok String.ofList_toList

theorem utf8_inj {s t : String} (h : utf8 s = utf8 t) : s = t := by
  have hdecoded : decode (utf8 s) = decode (utf8 t) := congrArg decode h
  rw [decode_utf8, decode_utf8] at hdecoded
  exact Except.ok.inj hdecoded

/-- Some bytes occur in no encoding. -/
theorem mem_encoded {n : Nat} (h : Encoded n bs) (hb : b ∈ bs) (hn : n < 0x110000) :
    (b.toNat = n ∧ n < 0x80) ∨ (0x80 ≤ b.toNat ∧ b.toNat < 0xC0) ∨
      0xC2 ≤ b.toNat ∧ b.toNat < 0xF5 := by
  cases h with
  | one hlow =>
    obtain rfl := List.mem_singleton.mp hb
    rw [toNat_byte (by omega)]
    omega
  | two low high =>
    simp only [List.mem_cons, List.not_mem_nil, or_false] at hb
    rcases hb with rfl | rfl <;> rw [toNat_byte (by omega)] <;> omega
  | three low high =>
    simp only [List.mem_cons, List.not_mem_nil, or_false] at hb
    rcases hb with rfl | rfl | rfl <;> rw [toNat_byte (by omega)] <;> omega
  | four low high =>
    simp only [List.mem_cons, List.not_mem_nil, or_false] at hb
    rcases hb with rfl | rfl | rfl | rfl <;> rw [toNat_byte (by omega)] <;> omega

theorem byte_cons_lt {m m' : Nat} (hm : m < 256) (hm' : m' < 256) :
    UInt8.ofNat m :: bs < .ofNat m' :: bs' ↔ m < m' ∨ m = m' ∧ bs < bs' := by
  rw [List.cons_lt_cons_iff, UInt8.lt_iff_toNat_lt, ← UInt8.toNat_inj, toNat_byte hm,
    toNat_byte hm']

/-- The order of characters is that of their bytes, whatever comes after them. -/
theorem encoded_lt {n n' : Nat} {bytes bytes' : Bytes} (h : Encoded n bytes)
    (h' : Encoded n' bytes') (hlt : n < n') (hmax : n' < 0x110000) :
    bytes ++ bs < bytes' ++ bs' := by
  cases h <;> cases h' <;> simp (disch := omega) only [List.cons_append, byte_cons_lt] <;> omega

theorem charBytes_ne_nil (c : Char) : charBytes c ≠ [] := by
  intro h
  have hc := encoded_charBytes c
  rw [h] at hc
  cases hc

theorem charsBytes_lt {cs cs' : List Char} (h : cs < cs') :
    cs.flatMap charBytes < cs'.flatMap charBytes := by
  induction h with
  | @nil c cs =>
    obtain ⟨b, bs, hb⟩ := List.exists_cons_of_ne_nil (charBytes_ne_nil c)
    simp [hb]
  | cons h ih => exact List.append_left_lt ih
  | rel h => exact encoded_lt (encoded_charBytes _) (encoded_charBytes _) h (toNat_lt _)

theorem utf8_lt {s t : String} (h : s < t) : utf8 s < utf8 t :=
  charsBytes_lt (String.lt_iff.mp h)

end DocClient.Text
