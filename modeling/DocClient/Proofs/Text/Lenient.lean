import DocClient.Proofs.Text.Decode

/-!
Lenient decoding. The characters of the bytes are kept, and what lies between them is replaced by
U+FFFD, once for each longest stretch that a character could begin with; a text is decoded as it is.
-/
namespace DocClient.Text

variable {a b b' b'' low high : UInt8} {c : Char} {cs : List Char} {bs rest : Bytes} {n : Nat}

/-- Bytes with which the encoding of some character begins. -/
def Opening (bs : Bytes) : Prop := ∃ c, bs <+: charBytes c

/-- What bytes are shown as. Where no character begins, the longest stretch that could begin one, or
else a single byte, is shown as U+FFFD. -/
inductive Mends : Bytes → List Char → Prop
  | nil : Mends [] []
  | char {rest : Bytes} {cs : List Char} (c : Char) (h : Mends rest cs) :
      Mends (charBytes c ++ rest) (c :: cs)
  | broken {bs rest : Bytes} {cs : List Char} (hne : bs ≠ [])
      (hnone : ∀ c, ¬ charBytes c <+: bs ++ rest) (hopen : bs.length = 1 ∨ Opening bs)
      (hlong : ∀ b more, rest = b :: more → ¬ Opening (bs ++ [b])) (h : Mends rest cs) :
      Mends (bs ++ rest) ('\uFFFD' :: cs)

section Bytes

theorem encoded_unique {bs' : Bytes} (h : Encoded n bs) (h' : Encoded n bs') : bs = bs' := by
  cases h <;> cases h' <;> first | rfl | omega

theorem charBytes_ofNat (hn : n.isValidChar) (h : Encoded n bs) :
    charBytes (Char.ofNat n) = bs := by
  have hnat : (Char.ofNat n).toNat = n := by
    rw [Char.ofNat, dif_pos hn]
    rfl
  have hc := encoded_charBytes (Char.ofNat n)
  rw [hnat] at hc
  exact encoded_unique hc h

/-- What a first byte announces. -/
theorem lead_cases (a : UInt8) :
    a.toNat < 0x80 ∧ lead a = .one ∨ lead a = .bad ∨
      (0xC2 ≤ a.toNat ∧ a.toNat < 0xE0) ∧ lead a = .two ∨
      (0xE0 ≤ a.toNat ∧ a.toNat < 0xF0) ∧
        lead a = .three (if a.toNat = 0xE0 then 0xA0 else 0x80)
          (if a.toNat = 0xED then 0x9F else 0xBF) ∨
      (0xF0 ≤ a.toNat ∧ a.toNat < 0xF5) ∧
        lead a = .four (if a.toNat = 0xF0 then 0x90 else 0x80)
          (if a.toNat = 0xF4 then 0x8F else 0xBF) := by
  by_cases h₁ : a.toNat < 0x80
  · exact Or.inl ⟨h₁, lead_one h₁⟩
  by_cases h₂ : 0xC2 ≤ a.toNat ∧ a.toNat < 0xE0
  · exact Or.inr (Or.inr (Or.inl ⟨h₂, lead_two h₂.1 h₂.2⟩))
  by_cases h₃ : 0xE0 ≤ a.toNat ∧ a.toNat < 0xF0
  · exact Or.inr (Or.inr (Or.inr (Or.inl ⟨h₃, lead_three h₃.1 h₃.2⟩)))
  by_cases h₄ : 0xF0 ≤ a.toNat ∧ a.toNat < 0xF5
  · exact Or.inr (Or.inr (Or.inr (Or.inr ⟨h₄, lead_four h₄.1 h₄.2⟩)))
  refine Or.inr (Or.inl ?_)
  simp only [lead, UInt8.lt_iff_toNat_lt, ← UInt8.toNat_inj, UInt8.reduceToNat]
  grind

theorem of_lead_one (h : lead a = .one) : a.toNat < 0x80 := by
  rcases lead_cases a with h' | h' | h' | h' | h' <;> simp_all

theorem of_lead_two (h : lead a = .two) : 0xC2 ≤ a.toNat ∧ a.toNat < 0xE0 := by
  rcases lead_cases a with h' | h' | h' | h' | h' <;> simp_all

theorem of_lead_three (h : lead a = .three low high) :
    (0xE0 ≤ a.toNat ∧ a.toNat < 0xF0) ∧ low = (if a.toNat = 0xE0 then 0xA0 else 0x80) ∧
      high = if a.toNat = 0xED then 0x9F else 0xBF := by
  rcases lead_cases a with h' | h' | h' | h' | h' <;> simp_all

theorem of_lead_four (h : lead a = .four low high) :
    (0xF0 ≤ a.toNat ∧ a.toNat < 0xF5) ∧ low = (if a.toNat = 0xF0 then 0x90 else 0x80) ∧
      high = if a.toNat = 0xF4 then 0x8F else 0xBF := by
  rcases lead_cases a with h' | h' | h' | h' | h' <;> simp_all

theorem eq_ofNat (h : a.toNat = n) : a = .ofNat n := by
  rw [← h, UInt8.ofNat_toNat]

theorem charBytes_one (ha : lead a = .one) : charBytes (Char.ofNat a.toNat) = [a] := by
  have hlt := of_lead_one ha
  have henc : Encoded a.toNat [.ofNat a.toNat] := .one hlt
  rw [UInt8.ofNat_toNat] at henc
  exact charBytes_ofNat (by unfold Nat.isValidChar; omega) henc

theorem charBytes_two (ha : lead a = .two) (hb : isTail b = true) :
    charBytes (char2 a b) = [a, b] := by
  obtain ⟨hlow, hhigh⟩ := of_lead_two ha
  obtain ⟨hb₁, hb₂⟩ := isTail_iff.mp hb
  have hn : a.toNat % 32 * 64 + payload b = (a.toNat - 0xC0) * 64 + (b.toNat - 0x80) := by
    simp only [payload]
    omega
  have henc := Encoded.two (n := (a.toNat - 0xC0) * 64 + (b.toNat - 0x80)) (by omega) (by omega)
  rw [← eq_ofNat (a := a) (by omega), ← eq_ofNat (a := b) (by omega)] at henc
  rw [char2, hn]
  exact charBytes_ofNat (by unfold Nat.isValidChar; omega) henc

theorem charBytes_three (ha : lead a = .three low high) (hb : low ≤ b ∧ b ≤ high)
    (hc : isTail b' = true) : charBytes (char3 a b b') = [a, b, b'] := by
  obtain ⟨⟨hlow, hhigh⟩, rfl, rfl⟩ := of_lead_three ha
  obtain ⟨hc₁, hc₂⟩ := isTail_iff.mp hc
  have hbounds : 0x80 ≤ b.toNat ∧ b.toNat ≤ 0xBF ∧ (a.toNat = 0xE0 → 0xA0 ≤ b.toNat) ∧
      (a.toNat = 0xED → b.toNat ≤ 0x9F) := by
    simp only [UInt8.le_iff_toNat_le, apply_ite UInt8.toNat, UInt8.reduceToNat] at hb
    grind
  have hn : a.toNat % 16 * 4096 + payload b * 64 + payload b'
      = (a.toNat - 0xE0) * 4096 + (b.toNat - 0x80) * 64 + (b'.toNat - 0x80) := by
    simp only [payload]
    omega
  have henc := Encoded.three
    (n := (a.toNat - 0xE0) * 4096 + (b.toNat - 0x80) * 64 + (b'.toNat - 0x80)) (by omega) (by omega)
  rw [← eq_ofNat (a := a) (by omega), ← eq_ofNat (a := b) (by omega),
    ← eq_ofNat (a := b') (by omega)] at henc
  rw [char3, hn]
  exact charBytes_ofNat (by unfold Nat.isValidChar; omega) henc

theorem charBytes_four (ha : lead a = .four low high) (hb : low ≤ b ∧ b ≤ high)
    (hc : isTail b' = true) (hd : isTail b'' = true) :
    charBytes (char4 a b b' b'') = [a, b, b', b''] := by
  obtain ⟨⟨hlow, hhigh⟩, rfl, rfl⟩ := of_lead_four ha
  obtain ⟨hc₁, hc₂⟩ := isTail_iff.mp hc
  obtain ⟨hd₁, hd₂⟩ := isTail_iff.mp hd
  have hbounds : 0x80 ≤ b.toNat ∧ b.toNat ≤ 0xBF ∧ (a.toNat = 0xF0 → 0x90 ≤ b.toNat) ∧
      (a.toNat = 0xF4 → b.toNat ≤ 0x8F) := by
    simp only [UInt8.le_iff_toNat_le, apply_ite UInt8.toNat, UInt8.reduceToNat] at hb
    grind
  have hn : a.toNat % 8 * 262144 + payload b * 4096 + payload b' * 64 + payload b''
      = (a.toNat - 0xF0) * 262144 + (b.toNat - 0x80) * 4096 + (b'.toNat - 0x80) * 64
        + (b''.toNat - 0x80) := by
    simp only [payload]
    omega
  have henc := Encoded.four
    (n := (a.toNat - 0xF0) * 262144 + (b.toNat - 0x80) * 4096 + (b'.toNat - 0x80) * 64
      + (b''.toNat - 0x80)) (by omega) (by omega)
  rw [← eq_ofNat (a := a) (by omega), ← eq_ofNat (a := b) (by omega),
    ← eq_ofNat (a := b') (by omega), ← eq_ofNat (a := b'') (by omega)] at henc
  rw [char4, hn]
  exact charBytes_ofNat (by unfold Nat.isValidChar; omega) henc

end Bytes

section Pieces

variable {a₁ a₂ low high : UInt8} {t : Bytes}

theorem Mends.of_char (hc : charBytes c = bs) (h : Mends rest cs) : Mends (bs ++ rest) (c :: cs) :=
  hc ▸ .char c h

/-- A stretch with which no character is cut, whatever comes after the byte next to it. -/
theorem Mends.stray (bs : Bytes) (hne : bs ≠ []) (hopen : bs.length = 1 ∨ Opening bs)
    (hcut : ∀ t, t.head? = rest.head? → ∀ c ps, pieces (bs ++ t) ≠ .char c :: ps)
    (h : Mends rest cs) : Mends (bs ++ rest) ('\uFFFD' :: cs) := by
  refine .broken hne ?_ hopen ?_ h
  · rintro c ⟨t, ht⟩
    exact hcut rest rfl c (pieces t) (by rw [← ht, pieces_charBytes])
  · rintro b more rfl ⟨c, t, ht⟩
    refine hcut (b :: t) rfl c (pieces []) ?_
    rw [← pieces_charBytes, ← ht]
    simp

/-- The same where a byte follows. -/
theorem Mends.stray_cons (bs : Bytes) (hne : bs ≠ []) (hopen : bs.length = 1 ∨ Opening bs)
    (hcut : ∀ t c ps, pieces (bs ++ b :: t) ≠ .char c :: ps) (h : Mends (b :: rest) cs) :
    Mends (bs ++ b :: rest) ('\uFFFD' :: cs) := by
  refine .stray bs hne hopen ?_ h
  intro t ht
  cases t with
  | nil => simp at ht
  | cons b' t =>
    obtain rfl : b' = b := by simpa using ht
    exact hcut t

/-- The same at the end of the bytes. -/
theorem Mends.stray_end (hne : bs ≠ []) (hopen : bs.length = 1 ∨ Opening bs)
    (hcut : pieces bs = [.cut bs]) : Mends bs ['\uFFFD'] := by
  rw [← List.append_nil bs]
  refine .stray bs hne hopen ?_ .nil
  intro t ht
  have ht' : t = [] := by simpa using ht
  simp [ht', hcut]

theorem opening_three (ha : lead a = .three low high) (h₁ : low ≤ a₁ ∧ a₁ ≤ high) :
    Opening [a, a₁] :=
  ⟨char3 a a₁ 0x80, [0x80], (charBytes_three ha h₁ rfl).symm⟩

theorem opening_four (ha : lead a = .four low high) (h₁ : low ≤ a₁ ∧ a₁ ≤ high)
    (h₂ : isTail a₂ = true) : Opening [a, a₁, a₂] :=
  ⟨char4 a a₁ a₂ 0x80, [0x80], (charBytes_four ha h₁ h₂ rfl).symm⟩

theorem opening_four_pair (ha : lead a = .four low high) (h₁ : low ≤ a₁ ∧ a₁ ≤ high) :
    Opening [a, a₁] :=
  ⟨char4 a a₁ 0x80 0x80, [0x80, 0x80], (charBytes_four ha h₁ rfl rfl).symm⟩

/-- Lenient decoding shows what is meant to be shown. -/
theorem mends_pieces (bs : Bytes) : Mends bs ((pieces bs).map Piece.shown) := by
  -- By what the first byte announces, and by how much of that comes before the bytes go astray.
  fun_induction pieces bs with
  | case1 => exact .nil
  | case2 a rest ha ih => exact .of_char (charBytes_one ha) ih
  | case3 a rest ha ih =>
    refine .stray [a] (by simp) (.inl rfl) ?_ ih
    intro t _ c ps
    rw [List.singleton_append, pieces.eq_def]
    simp [ha]
  | case4 a ha =>
    refine .stray_end (by simp) (.inl rfl) ?_
    rw [pieces.eq_def]
    simp only [ha]
  | case5 a ha b rest hb ih => exact .of_char (charBytes_two ha hb) ih
  | case6 a ha b rest hb ih =>
    refine .stray_cons [a] (by simp) (.inl rfl) ?_ ih
    intro t c ps
    rw [List.singleton_append, pieces.eq_def]
    simp [ha, hb]
  | case7 a low high ha =>
    refine .stray_end (by simp) (.inl rfl) ?_
    rw [pieces.eq_def]
    simp only [ha]
  | case8 a low high ha b hb =>
    refine .stray_end (by simp) (.inr (opening_three ha (by simpa using hb))) ?_
    rw [pieces.eq_def]
    simp only [ha, hb, if_true]
  | case9 a low high ha b hb b' rest hc ih =>
    exact .of_char (charBytes_three ha (by simpa using hb) hc) ih
  | case10 a low high ha b hb b' rest hc ih =>
    refine .stray_cons [a, b] (by simp) (.inr (opening_three ha (by simpa using hb))) ?_ ih
    intro t c ps
    rw [List.cons_append, pieces.eq_def]
    simp only [ha, List.cons_append, List.nil_append, hb, if_true, hc]
    simp
  | case11 a low high ha b rest hb ih =>
    refine .stray_cons [a] (by simp) (.inl rfl) ?_ ih
    intro t c ps
    rw [List.singleton_append, pieces.eq_def]
    simp only [ha, hb]
    simp
  | case12 a low high ha =>
    refine .stray_end (by simp) (.inl rfl) ?_
    rw [pieces.eq_def]
    simp only [ha]
  | case13 a low high ha b hb =>
    refine .stray_end (by simp) (.inr (opening_four_pair ha (by simpa using hb))) ?_
    rw [pieces.eq_def]
    simp only [ha, hb, if_true]
  | case14 a low high ha b hb b' hc =>
    refine .stray_end (by simp) (.inr (opening_four ha (by simpa using hb) hc)) ?_
    rw [pieces.eq_def]
    simp only [ha, hb, if_true, hc]
  | case15 a low high ha b hb b' hc b'' rest hd ih =>
    exact .of_char (charBytes_four ha (by simpa using hb) hc hd) ih
  | case16 a low high ha b hb b' hc b'' rest hd ih =>
    have hopen := opening_four ha (by simpa using hb) hc
    refine .stray_cons [a, b, b'] (by simp) (.inr hopen) ?_ ih
    intro t c ps
    rw [List.cons_append, pieces.eq_def]
    simp only [ha, List.cons_append, List.nil_append, hb, if_true, hc, hd]
    simp
  | case17 a low high ha b hb b' rest hc ih =>
    refine .stray_cons [a, b] (by simp) (.inr (opening_four_pair ha (by simpa using hb))) ?_ ih
    intro t c ps
    rw [List.cons_append, pieces.eq_def]
    simp only [ha, List.cons_append, List.nil_append, hb, if_true, hc]
    simp
  | case18 a low high ha b rest hb ih =>
    refine .stray_cons [a] (by simp) (.inl rfl) ?_ ih
    intro t c ps
    rw [List.singleton_append, pieces.eq_def]
    simp only [ha, hb]
    simp

end Pieces

section Unique

variable {bs' rest' : Bytes} {cs' : List Char}

theorem Opening.of_append (h : Opening (bs ++ rest)) : Opening bs :=
  h.imp fun _ hc => (List.prefix_append bs rest).trans hc

/-- A longest stretch is not part of another one. -/
theorem nil_of_longer {t : Bytes} (hne : bs ≠ [])
    (hlong : ∀ b more, rest = b :: more → ¬ Opening (bs ++ [b]))
    (hopen : (bs ++ t).length = 1 ∨ Opening (bs ++ t)) (h : rest = t ++ rest') : t = [] := by
  cases t with
  | nil => rfl
  | cons b t =>
    rcases hopen with hone | hopen
    · have hpos := List.length_pos_iff.mpr hne
      simp only [List.length_append, List.length_cons] at hone
      omega
    · rw [List.append_cons] at hopen
      exact absurd hopen.of_append (hlong b _ h)

/-- There is one thing to show. -/
theorem Mends.unique (h : Mends bs cs) (h' : Mends bs cs') : cs = cs' := by
  induction h generalizing cs' with
  | nil =>
    generalize hbytes : ([] : Bytes) = bytes at h'
    cases h' with
    | nil => rfl
    | char c h => simp [charBytes_ne_nil] at hbytes
    | broken hne => simp [hne] at hbytes
  | @char rest cs c h ih =>
    generalize hbytes : charBytes c ++ rest = bytes at h'
    cases h' with
    | nil => simp [charBytes_ne_nil] at hbytes
    | @char rest' cs' c' h' =>
      have hp := congrArg pieces hbytes
      rw [pieces_charBytes, pieces_charBytes] at hp
      obtain rfl : c = c' := Piece.char.inj (List.cons.inj hp).1
      obtain rfl := List.append_cancel_left hbytes
      rw [ih h']
    | broken hne hnone => exact absurd ⟨rest, hbytes⟩ (hnone c)
  | @broken bs rest cs hne hnone hopen hlong h ih =>
    generalize hbytes : bs ++ rest = bytes at h'
    cases h' with
    | nil => simp [hne] at hbytes
    | @char rest' cs' c h' => exact absurd ⟨rest', hbytes.symm⟩ (hnone c)
    | @broken bs' rest' cs' hne' hnone' hopen' hlong' h' =>
      obtain rfl : bs' = bs := by
        rcases List.append_eq_append_iff.mp hbytes with ⟨t, rfl, ht⟩ | ⟨t, rfl, ht⟩
        · rw [nil_of_longer hne hlong hopen' ht, List.append_nil]
        · rw [nil_of_longer hne' hlong' hopen ht, List.append_nil]
      obtain rfl := List.append_cancel_left hbytes
      rw [ih h']

end Unique

theorem mends_decodeLenient (bs : Bytes) : Mends bs (decodeLenient bs).toList := by
  rw [decodeLenient, String.toList_ofList]
  exact mends_pieces bs

theorem pieces_chars (cs : List Char) : pieces (cs.flatMap charBytes) = cs.map .char := by
  induction cs with
  | nil => simp [pieces]
  | cons c cs ih => rw [List.flatMap_cons, pieces_charBytes, ih, List.map_cons]

/-- A text is decoded as it is. -/
theorem decodeLenient_utf8 (s : String) : decodeLenient (utf8 s) = s := by
  rw [decodeLenient, utf8, pieces_chars, List.map_map]
  exact (congrArg String.ofList (List.map_id' s.toList)).trans String.ofList_toList

end DocClient.Text
