import DocClient.Json.Scan

/-!
Reading strings. Every escape takes a character at least, so that the reader of a whole string
comes to an end.
-/
namespace DocClient.Json

def hexValue? (c : Char) : Option Nat :=
  if c.isDigit then some (c.toNat - 48)
  else if 'a' ≤ c ∧ c ≤ 'f' then some (c.toNat - 87)
  else if 'A' ≤ c ∧ c ≤ 'F' then some (c.toNat - 55)
  else none

/-- The value of the next four bytes as hexadecimal digits. -/
def fourHex (cs : List Char) : Except Stop (Nat × List Char) :=
  if Text.byteLength (cs.take 4) < 4 then .error ⟨.endInString, 0⟩
  else
    match cs with
    | a :: b :: c :: d :: rest =>
      match hexValue? a, hexValue? b, hexValue? c, hexValue? d with
      | some a, some b, some c, some d => .ok (a * 4096 + b * 256 + c * 16 + d, rest)
      | _, _, _, _ => .error (stop .badEscape 4 cs)
    | _ => .error (stop .badEscape 4 cs)

def isHighSurrogate (n : Nat) : Bool := 0xD800 ≤ n && n ≤ 0xDBFF

def isLowSurrogate (n : Nat) : Bool := 0xDC00 ≤ n && n ≤ 0xDFFF

/-- The second half of a surrogate pair, as a second hexadecimal escape. -/
def lowSurrogate (high : Nat) : Scan Char
  | [] => .error (stop .endInString 0 [])
  | '\\' :: [] => .error (stop .endInString 0 [])
  | '\\' :: 'u' :: cs => do
    let (low, rest) ← fourHex cs
    if isLowSurrogate low
    then .ok (Char.ofNat (0x10000 + (high - 0xD800) * 0x400 + (low - 0xDC00)), rest)
    else .error (stop .loneSurrogate 0 rest)
  | '\\' :: cs => .error (stop .halfSurrogatePair 1 cs)
  | cs => .error (stop .halfSurrogatePair 1 cs)

def hexEscape (cs : List Char) : Except Stop (Char × List Char) := do
  let (n, rest) ← fourHex cs
  if isLowSurrogate n then .error (stop .loneSurrogate 0 rest)
  else if isHighSurrogate n then lowSurrogate n rest
  else .ok (Char.ofNat n, rest)

/-- The character that an escape stands for, after its backslash. -/
def escape : Scan Char
  | [] => .error (stop .endInString 0 [])
  | c :: cs =>
    match c with
    | '"' => .ok ('"', cs)
    | '\\' => .ok ('\\', cs)
    | '/' => .ok ('/', cs)
    | 'b' => .ok ('\x08', cs)
    | 'f' => .ok ('\x0c', cs)
    | 'n' => .ok ('\n', cs)
    | 'r' => .ok ('\r', cs)
    | 't' => .ok ('\t', cs)
    | 'u' => hexEscape cs
    | _ => .error (stop .badEscape 1 (c :: cs))

theorem fourHex_shorter {cs rest : List Char} {n : Nat} (h : fourHex cs = .ok (n, rest)) :
    rest.length < cs.length := by
  unfold fourHex at h
  split at h
  · simp at h
  · split at h
    · split at h
      · simp only [Except.ok.injEq, Prod.mk.injEq] at h
        simp [← h.2]
        omega
      · simp at h
    · simp at h

theorem lowSurrogate_shorter {high : Nat} {cs rest : List Char} {c : Char}
    (h : lowSurrogate high cs = .ok (c, rest)) : rest.length < cs.length := by
  unfold lowSurrogate at h
  split at h <;> try simp at h
  next cs =>
    cases hx : fourHex cs with
    | error e => simp [hx, bind, Except.bind] at h
    | ok p =>
      obtain ⟨low, r⟩ := p
      have := fourHex_shorter hx
      simp only [hx, bind, Except.bind] at h
      split at h
      · simp only [Except.ok.injEq, Prod.mk.injEq] at h
        simp [← h.2]
        omega
      · simp at h

theorem hexEscape_shorter {cs rest : List Char} {c : Char} (h : hexEscape cs = .ok (c, rest)) :
    rest.length < cs.length := by
  unfold hexEscape at h
  cases hx : fourHex cs with
  | error e => simp [hx, bind, Except.bind] at h
  | ok p =>
    obtain ⟨n, r⟩ := p
    have := fourHex_shorter hx
    simp only [hx, bind, Except.bind] at h
    split at h
    · simp at h
    · split at h
      · have := lowSurrogate_shorter h
        omega
      · simp only [Except.ok.injEq, Prod.mk.injEq] at h
        rw [← h.2]
        omega

theorem escape_shorter {cs rest : List Char} {c : Char} (h : escape cs = .ok (c, rest)) :
    rest.length < cs.length := by
  unfold escape at h
  split at h
  · simp at h
  · split at h <;> first
      | (simp only [Except.ok.injEq, Prod.mk.injEq] at h; simp [← h.2])
      | (have hr := hexEscape_shorter h; simp; omega)
      | simp at h

/-- The rest of a string after its opening quote; `before` holds the characters read so far, the
last one first. -/
def stringRest (before : List Char) (cs : List Char) : Except Stop (String × List Char) :=
  match cs with
  | [] => .error (stop .endInString 0 [])
  | '"' :: cs => .ok (String.ofList before.reverse, cs)
  | '\\' :: cs =>
    match h : escape cs with
    | .error e => .error e
    | .ok (c, rest) =>
      have := escape_shorter h
      stringRest (c :: before) rest
  | c :: cs =>
    if c.toNat < 0x20 then .error (stop .controlCharacter 1 (c :: cs))
    else stringRest (c :: before) cs
  termination_by cs.length
  decreasing_by all_goals simp_wf <;> omega

end DocClient.Json
